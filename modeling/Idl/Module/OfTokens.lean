/-
# Reading modules

The grammar of modules, read by one token of lookahead:

* a module is `scala : PACKAGE purs : PACKAGE`, imports `import PACKAGE`, annotations, and
  declarations, up to the end of the input;
* a declaration is `type NAME : BODY` and annotations;
* a body is a type, `wrap` and a type, a record `{ … , … }` or a sum `[ … | … ]`;
* a type is a primitive word, `Array<TYPE>`, `Maybe<TYPE>` or a dotted reference;
* an annotation is `< name … >` with parameters `name` or `name = "…"`.

Every choice is made by the kind of the current token, so the first problem met is also the
one furthest into the input, and reading stops there.  How many types inside each other are read
is up to the machine.
-/
import Idl.Machine
import Idl.Module
import Idl.Module.Problem
import Idl.Token.Lexeme

namespace Idl

/-- A reader of a part of the grammar. -/
abbrev Grammar (α : Type) := StateT TokenStream (Except SyntaxError) α

namespace Grammar

/-- The current token.  A fault in the text becomes a syntax error as soon as it is looked at. -/
def peek : Grammar Token := do
  let t := (← get).current
  if t.kind = .fault then throw ⟨.fault t.value, t.span⟩
  return t

/-- Passes the current token. -/
def advance : Grammar Token := do
  let t ← peek
  modify TokenStream.next
  return t

/-- Gives up at the current token. -/
def unexpected {α : Type} (e : Expected) : Grammar α := do
  let t ← peek
  throw ⟨.unexpected e t, t.span⟩

/-- Passes a token of a kind.  A name in the place of a reserved word is told apart. -/
def expect (k : TokenKind) : Grammar Token := do
  let t ← peek
  if t.kind = k then advance
  else match k with
    | .keyword w =>
      if t.kind.isName then throw ⟨.missingWord w t.value, t.span⟩ else unexpected (.token k)
    | _ => unexpected (.token k)

/-- Passes a name.  A reserved word in its place is told apart. -/
def expectName (k : TokenKind) (role : NameRole) : Grammar Token := do
  let t ← peek
  if t.kind = k then advance
  else if t.kind.isKeyword then throw ⟨.reservedWord t.value role, t.span⟩
  else unexpected (.name role)

/-- Reads parts as long as the current token is of a kind.  A part that passes no token would
be read for ever, and ends the reading instead. -/
def whileAt {α : Type} (k : TokenKind) (part : Grammar α) : Grammar (List α) := fun s =>
  match peek s with
  | .error e => .error e
  | .ok (t, _) =>
    if t.kind = k then
      match part s with
      | .error e => .error e
      | .ok (a, s') =>
        if _h : s'.ahead.length < s.ahead.length then
          match whileAt k part s' with
          | .error e => .error e
          | .ok (as, s'') => .ok (a :: as, s'')
        else .ok ([a], s')
    else .ok ([], s)
termination_by s => s.ahead.length

/-! ### Annotations -/

/-- Reads `name` or `name = "…"`. -/
def param : Grammar Param := do
  let name ← advance
  if (← peek).kind = .mark .assign then
    discard advance
    let value ← expect .string
    return ⟨name.value, name.span.first, some value.value⟩
  return ⟨name.value, name.span.first, none⟩

/-- Reads `< name … >`, the current token being the opening angle. -/
def annotation : Grammar Annotation := do
  let opening ← advance
  let name ← expectName .lowerName .annotationName
  let params ← whileAt .lowerName param
  let t ← peek
  if t.kind = .mark .closeAngle then
    discard advance
    return ⟨name.value, opening.span.first, params⟩
  else if t.kind.isKeyword then throw ⟨.reservedWord t.value .parameter, t.span⟩
  else unexpected .parameterOrEnd

/-- Reads annotations up to a token that opens none. -/
def annotations : Grammar (List Annotation) := whileAt (.mark .openAngle) annotation

/-! ### Type expressions -/

/-- The primitive type of a reserved word. -/
def primitive? : TokenKind → Option Primitive
  | .keyword .boolean => some .boolean
  | .keyword .int => some .int
  | .keyword .decimal => some .decimal
  | .keyword .string => some .string
  | _ => none

/-- The dotted name in front of the last segment, unless it is empty. -/
def qualifierOf (segments : List Text) : Option Text :=
  let q := Text.join "." segments
  if q = [] then none else some q

/-- Reads a dotted reference. -/
def reference : Grammar TypeExpr := do
  let first ← expectName .upperName .segment
  let more ← whileAt (.mark .dot) do
    discard advance
    return (← expectName .upperName .segment).value
  let segments := first.value :: more
  return .reference first.span.first (qualifierOf segments.dropLast)
    (segments.getLast (List.cons_ne_nil _ _))

/-- Reads a type expression with at most so many types inside each other. -/
def typeExpr : Nat → Grammar TypeExpr
  | 0 => do
    let t ← peek
    throw ⟨.tooDeep, t.span⟩
  | limit + 1 => do
    let t ← peek
    match primitive? t.kind with
    | some p =>
      discard advance
      return .primitive p
    | none =>
      if t.kind = .keyword .array then return .array (← argument limit)
      else if t.kind = .keyword .maybe then return .maybe (← argument limit)
      else if t.kind = .upperName then reference
      else unexpected .type
where
  /-- Reads `<TYPE>` behind `Array` or `Maybe`, the current token being that word. -/
  argument (limit : Nat) : Grammar TypeExpr := do
    discard advance
    discard <| expect (.mark .openAngle)
    let inner ← typeExpr limit
    discard <| expect (.mark .closeAngle)
    return inner

/-- Reads a type expression. -/
def type [Machine] : Grammar TypeExpr := typeExpr Machine.nesting

/-! ### Declarations -/

/-- Reads a field of a record. -/
def field [Machine] : Grammar Field := do
  let name ← expectName .lowerName .field
  discard <| expect (.mark .colon)
  let type ← type
  return ⟨name.value, type, ← annotations⟩

/-- Reads a record, the current token being its opening brace. -/
def record [Machine] : Grammar Body := do
  discard advance
  let fields ←
    if (← peek).kind = .mark .closeBrace then pure []
    else do
      let first ← field
      let more ← whileAt (.mark .comma) do
        discard advance
        field
      pure (first :: more)
  if (← peek).kind = .mark .closeBrace then
    discard advance
    return .record fields
  else unexpected .fieldOrEnd

/-- Reads a sum, the current token being its opening bracket. -/
def sum : Grammar Body := do
  discard advance
  let first ← expectName .upperName .variant
  let more ← whileAt (.mark .pipe) do
    discard advance
    return (← expectName .upperName .variant).value
  if (← peek).kind = .mark .closeBracket then
    discard advance
    return .sum (first.value :: more)
  else unexpected .variantOrEnd

/-- Whether a type expression can start with a token of a kind. -/
def startsType (k : TokenKind) : Bool :=
  (primitive? k).isSome || k = .keyword .array || k = .keyword .maybe || k = .upperName

/-- Reads the body of a declaration. -/
def body [Machine] : Grammar Body := do
  let k := (← peek).kind
  if startsType k then return .alias (← type)
  else if k = .mark .openBrace then record
  else if k = .mark .openBracket then sum
  else if k = .keyword .wrap then
    discard advance
    return .wrap (← type)
  else unexpected .body

/-- Reads a declaration. -/
def declaration [Machine] : Grammar Declaration := do
  discard <| expect (.keyword .type)
  let name ← expectName .upperName .declaration
  discard <| expect (.mark .colon)
  let body ← body
  return ⟨name.value, body, ← annotations⟩

/-! ### Modules -/

/-- Reads a header word, a colon and a package name. -/
def exportPackage (w : Keyword) : Grammar Text := do
  discard <| expect (.keyword w)
  discard <| expect (.mark .colon)
  return (← expect .packageName).value

/-- Reads an import. -/
def importPackage : Grammar Text := do
  discard <| expect (.keyword .imports)
  return (← expect .packageName).value

/-- Reads a module. -/
def wholeModule [Machine] : Grammar Module := do
  let scala ← exportPackage .scala
  let purs ← exportPackage .purs
  let imports ← whileAt (.keyword .imports) importPackage
  let annotations ← annotations
  let declarations ← whileAt (.keyword .type) declaration
  let t ← peek
  if t.kind = .endOfInput then
    return { name := [], exports := ⟨scala, purs, []⟩, imports, annotations, declarations }
  else throw ⟨.trailing t, t.span⟩

end Grammar

/-- The module that a token stream holds.  Its name is left empty. -/
def Module.ofTokens [Machine] (s : TokenStream) : Except SyntaxError Module :=
  (Grammar.wholeModule.run s).map Prod.fst

/-! ### Texts and files

A text is read as a module by way of its tokens; a file is read in the same way, and its
module takes its name from the path. -/

/-- A token list has at least the end of the input. -/
theorem Text.tokens_ne_nil (s : Text) : s.tokens ≠ [] := by
  unfold Text.tokens Cutting.tokens
  cases s.cut with
  | mk lexemes ending =>
    cases lexemes with
    | nil => cases ending <;> simp [Ending.tokensAfter, Ending.tokens]
    | cons l ls => simp [Ending.tokensAfter]

/-- The token stream of a text. -/
def Text.stream (s : Text) : TokenStream := .ofList s.tokens s.tokens_ne_nil

namespace Module

/-- The module that a text holds.  Its name is left empty. -/
def parse [Machine] (s : Text) : Except SyntaxError Module := ofTokens s.stream

/-- The module that a file holds, named after the file. -/
def parseFile [Machine] (path source : Text) (extensions : List Text) :
    Except SyntaxError Module :=
  (parse source).map (·.withName (path.logicalName extensions))

end Module

end Idl
