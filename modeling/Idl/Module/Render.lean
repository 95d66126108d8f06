/-
# The canonical text of a module

A module is written in sections with an empty line between them: the header, the imports, the
annotations, and each declaration.  Records stand on several lines, one field on each, behind
an indentation; everything else of a declaration stands on one line.  Comments are no part of
a module and are not written.

Fields are indented by a formatter.  There is one for every number that tells a width, and for
no other (`Formatter.ofIndent`).

A rendering that is read and rendered again makes a round trip (`Module.roundTrip`).
-/
import Idl.Module.OfTokens
import Idl.Text.Diff
import Idl.Text.Lines
import Idl.Token.Literal

namespace Idl

namespace TypeExpr

/-- A reference as written: the qualifier, if there is one, a dot and the name. -/
def referenceText : Option Text → Text → Text
  | none, name => name
  | some q, name => q ++ "." ++ name

/-- The text of a type expression. -/
def render : TypeExpr → Text
  | .primitive p => p.spelling
  | .reference _ q name => referenceText q name
  | .array t => "Array<" ++ t.render ++ ">"
  | .maybe t => "Maybe<" ++ t.render ++ ">"

end TypeExpr

/-- The text of a parameter. -/
def Param.render (p : Param) : Text :=
  match p.value with
  | none => p.name
  | some v => p.name ++ "=" ++ Literal.write v

namespace Annotation

/-- The text of an annotation. -/
def render (a : Annotation) : Text :=
  "<" ++ Text.join " " (a.name :: a.params.map Param.render) ++ ">"

/-- The text of annotations behind what they belong to. -/
def renderTrailing (as : List Annotation) : Text := as.flatMap fun a => " " ++ a.render

end Annotation

/-- The text of a field, without its indentation. -/
def Field.render (f : Field) : Text :=
  f.name ++ ": " ++ f.type.render ++ Annotation.renderTrailing f.annotations

/-- A formatter, which is told by the number of spaces in front of a field. -/
structure Formatter where
  /-- The number of spaces. -/
  indent : Nat
deriving DecidableEq, Inhabited

namespace Formatter

/-- The formatter of an indentation, if fields can be indented so far.  Without an indentation
that is positive, they start at the beginning of their lines. -/
def ofIndent [Machine] (n : Int) : Except WidthProblem Formatter := (Text.usableWidth n).map mk

theorem ofIndent_eq_ok_iff [Machine] {n : Int} {form : Formatter} :
    ofIndent n = .ok form ↔ Text.IsWidth n ∧ form = ⟨n.toNat⟩ := by
  obtain ⟨width⟩ := form
  rw [mk.injEq, ← Text.usableWidth_eq_ok_iff, ofIndent]
  cases Text.usableWidth n <;> simp [Except.map]

theorem exists_ofIndent [Machine] {n : Int} (h : Text.IsWidth n) : ∃ form, ofIndent n = .ok form :=
  ⟨_, ofIndent_eq_ok_iff.2 ⟨h, rfl⟩⟩

theorem ofIndent_ne_ok [Machine] {n : Int} (h : ¬ Text.IsWidth n) :
    ¬ ∃ form, ofIndent n = .ok form :=
  fun ⟨_, hform⟩ => h (ofIndent_eq_ok_iff.1 hform).1

/-- The formatter of the usual indentation. -/
def usual : Formatter := ⟨2⟩

end Formatter

/-- The text of the body of a declaration. -/
def Body.render (form : Formatter) : Body → Text
  | .alias t => t.render
  | .wrap t => "wrap " ++ t.render
  | .record [] => "\x7b\x7d"
  | .record fields =>
    "\x7b\n" ++ Text.join ",\n" (fields.map fun f => Text.spaces form.indent ++ f.render) ++
      "\n\x7d"
  | .sum variants => "[ " ++ Text.join " | " variants ++ " ]"

/-- The text of a declaration. -/
def Declaration.render (form : Formatter) (d : Declaration) : Text :=
  "type " ++ d.name ++ " : " ++ d.body.render form ++ Annotation.renderTrailing d.annotations

namespace Module

/-- The text of the header. -/
def renderHeader (e : Exports) : Text := "scala: " ++ e.scala ++ "\npurs: " ++ e.purs

/-- The sections of a module, in order. -/
def sections (form : Formatter) (m : Module) : List Text :=
  renderHeader m.exports ::
    (if m.imports = [] then []
      else [Text.join "\n" (m.imports.map fun name => "import " ++ name)]) ++
    (if m.annotations = [] then []
      else [Text.join "\n" (m.annotations.map Annotation.render)]) ++
    m.declarations.map (Declaration.render form)

/-- The canonical text of a module. -/
def render (form : Formatter) (m : Module) : Text := Text.join "\n\n" (m.sections form) ++ "\n"

end Module

/-! ### Round trips

A module is rendered, the rendering is read again, and the result is rendered once more.  The
name and the imports are carried over from the module, because no text holds the name and the
way imports are written is not under examination.  The rendering is stable when both texts
are equal. -/

/-- The two renderings of a round trip. -/
structure RoundTrip where
  /-- The rendering of the module. -/
  first : Text
  /-- The rendering of what was read back. -/
  second : Text
deriving DecidableEq, Inhabited

namespace RoundTrip

/-- Whether the rendering is stable. -/
def stable (r : RoundTrip) : Bool := r.first = r.second

/-- What differs between the renderings, under a label. -/
def diff (r : RoundTrip) (label : Text) : Text :=
  Text.unifiedDiff (label ++ " (rendered)") (label ++ " (re-rendered)")
    r.first.brokenLines r.second.brokenLines

end RoundTrip

namespace Module

/-- The module as it is after a round trip, with what no text holds carried over. -/
def carriedOver (m read : Module) : Module :=
  (if m.name = [] then read else read.withName m.name).withImports m.imports

/-- The round trip of a module; the rendering may fail to be a module. -/
def roundTrip [Machine] (form : Formatter) (m : Module) : Except SyntaxError RoundTrip :=
  let first := m.render form
  (parse first).map fun read => ⟨first, (m.carriedOver read).render form⟩

end Module

end Idl
