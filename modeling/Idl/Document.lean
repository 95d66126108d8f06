/-
# Documents

A document is a text that is open in an editor, with its tokens and the module or the syntax
error that they give.  From these come its diagnostic, the text shown for the word under the
cursor, the tree of its symbols, and the edit that brings it into canonical form.
-/
import Idl.Document.Outline
import Idl.Module.Render
import Idl.Text.Lines

namespace Idl

/-! ### Words under the cursor

The word at a place of a line is found by going from the place to both sides: back over
letters, numerals and dots, and on over letters and numerals.  So the front parts of a dotted
name are words of their own, while its last part stands for the whole name. -/

namespace Text

/-- Whether a code point can stand in the front part of a dotted name. -/
def isDottedPoint (c : CodePoint) : Bool := c.isAlphanumeric || c = '.'

/-- The longest end of a text whose code points are all of a class. -/
def endWhile (holds : CodePoint → Bool) (t : Text) : Text :=
  (t.reverse.takeWhile holds).reverse

/-- The word at an offset of a line.  A word also reaches to the place behind its last code
point; elsewhere there is the empty word. -/
def wordInLine (line : Text) (offset : Nat) : Text :=
  let before := line.take offset
  let after := line.drop offset
  let touches (c : Option CodePoint) : Bool := (c.map CodePoint.isAlphanumeric).getD false
  if offset ≤ line.length && (touches after.head? || touches before.getLast?) then
    (endWhile isDottedPoint before ++ after.takeWhile CodePoint.isAlphanumeric).dropWhile
      (· = CodePoint.scalar '.')
  else []

/-- The word at a line and an offset in it, both counted from 0. -/
def wordAt (source : Text) (line : Int) (offset : Nat) : Text :=
  match source.lineAt (line + 1) with
  | some l => wordInLine l offset
  | none => []

end Text

/-! ### Open texts -/

/-- A place in a document, line and offset counted from 0. -/
structure Place where
  /-- The line. -/
  line : Int
  /-- The offset in the line. -/
  offset : Int
deriving DecidableEq, Inhabited

/-- A stretch of a document, without the place at its end. -/
structure Range where
  /-- Where it begins. -/
  first : Place
  /-- Where it ends. -/
  stop : Place
deriving DecidableEq, Inhabited

/-- The range of a span. -/
def Span.range (s : Span) : Range :=
  ⟨⟨s.first.line - 1, s.first.column - 1⟩, ⟨s.last.line - 1, s.last.column⟩⟩

/-- An open text with what was found out about it. -/
structure Document where
  /-- The text. -/
  source : Text
  /-- Its tokens. -/
  tokens : List Token
  /-- The module that the tokens form, or why they form none. -/
  result : Except SyntaxError Module

/-- The text that a declaration's `doc` annotations give for it, if any does. -/
def Declaration.docText (d : Declaration) : Option Text :=
  d.annotations.findSome? fun a =>
    if a.name = Text.ofString "doc" then (a.param? "text").bind (·.value) else none

/-- The kinds of symbols: records, sums, and types made of one other type. -/
inductive SymbolKind where
  | record | sum | single
deriving DecidableEq, Inhabited

/-- A field or a variant in the tree of symbols. -/
structure MemberSymbol where
  /-- The name. -/
  name : Text
  /-- The type of a field; a variant has none. -/
  detail : Option Text
  /-- Where the name stands. -/
  range : Range
deriving DecidableEq, Inhabited

/-- A declaration in the tree of symbols. -/
structure Symbol where
  /-- The name. -/
  name : Text
  /-- The kind of the declared type. -/
  kind : SymbolKind
  /-- The whole declaration. -/
  range : Range
  /-- The name in the declaration. -/
  selection : Range
  /-- The fields or variants. -/
  children : List MemberSymbol
deriving DecidableEq, Inhabited

/-- The kind of symbol that a body makes. -/
def Body.symbolKind : Body → SymbolKind
  | .record _ => .record
  | .sum _ => .sum
  | .alias _ | .wrap _ => .single

/-- The names of the members of a body, with the types of fields. -/
def Body.members : Body → List (Text × Option Text)
  | .record fields => fields.map fun f => (f.name, some f.type.render)
  | .sum variants => variants.map fun v => (v, none)
  | .alias _ | .wrap _ => []

namespace Document

/-- The document of a text. -/
def ofText [Machine] (source : Text) : Document where
  source := source
  tokens := source.tokens
  result := Module.ofTokens source.stream

/-- The module that a document holds. -/
def module? (d : Document) : Option Module := d.result.toOption

/-- What is wrong with a document. -/
def problems (d : Document) : List SyntaxError :=
  match d.result with
  | .ok _ => []
  | .error e => [e]

/-- The text shown for a place: the declaration of the type that the word there names, in
canonical form, and its description. -/
def hover (d : Document) (line : Int) (offset : Nat) : Option Text := do
  let m ← d.module?
  let decl ← m.find? (d.source.wordAt line offset)
  let shown := "```duet\n" ++ decl.render .usual ++ "\n```"
  match decl.docText with
  | none | some [] => return shown
  | some doc => return shown ++ "\n\n" ++ doc

/-- Members with the ranges of their names; where there are no more spans, that of the owner's
name stands in. -/
def memberSymbols (owner : Span) : List (Text × Option Text) → List Span → List MemberSymbol
  | [], _ => []
  | (name, detail) :: more, [] => ⟨name, detail, owner.range⟩ :: memberSymbols owner more []
  | (name, detail) :: more, s :: spans =>
    ⟨name, detail, s.range⟩ :: memberSymbols owner more spans

/-- The symbol of a declaration, if the outline has its name. -/
def symbol? (o : Outline) (d : Declaration) : Option Symbol := do
  let span ← o.names.lookup d.name
  let members := (o.parts.lookup d.name).getD []
  let extent := (o.wholes.lookup d.name).getD span
  return { name := d.name
           kind := d.body.symbolKind
           range := extent.range
           selection := span.range
           children := memberSymbols span d.body.members members }

/-- The symbols of a document, one for each declaration; none for a text that is no module. -/
def symbols (d : Document) : List Symbol :=
  match d.module? with
  | none => []
  | some m =>
    let o := Outline.ofTokens d.tokens
    m.declarations.filterMap (symbol? o)

/-- An edit: a range and the text that replaces it. -/
structure Edit where
  /-- What is replaced. -/
  range : Range
  /-- What takes its place. -/
  text : Text
deriving DecidableEq, Inhabited

/-- The end of a text: behind its last line, as far to the right as that line reaches. -/
def endOf (source : Text) : Place :=
  let lines := source.lines
  ⟨lines.length, (lines.getLast?.map List.length).getD 0⟩

/-- The edit that brings a document into canonical form; none where there is no module or
nothing to change.  A module needs a formatter of the indentation. -/
def formatting [Machine] (indent : Int) (d : Document) : Except WidthProblem (Option Edit) :=
  match d.module? with
  | none => .ok none
  | some m => do
    let text := m.render (← Formatter.ofIndent indent)
    return if text = d.source then none else some ⟨⟨⟨0, 0⟩, endOf d.source⟩, text⟩

end Document

end Idl
