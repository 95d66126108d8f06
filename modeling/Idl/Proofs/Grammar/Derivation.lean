/-
# The grammar of modules

Which token lists spell which trees, told without a reader:

* Module = `scala` `:` PACKAGE `purs` `:` PACKAGE (`import` PACKAGE)* Annotation* Declaration* END
* Declaration = `type` UPPER `:` Body Annotation*
* Body = Type | `wrap` Type | `{` [Field (`,` Field)*] `}` | `[` UPPER (`|` UPPER)* `]`
* Field = LOWER `:` Type Annotation*
* Type = PRIMITIVE | `Array` `<` Type `>` | `Maybe` `<` Type `>` | UPPER (`.` UPPER)*
* Annotation = `<` LOWER Param* `>`
* Param = LOWER [`=` STRING]

A tree keeps the parts of its phrase in their order, and the positions at which annotations,
parameters and references begin.
-/
import Idl.Module
import Idl.Token

namespace Idl

/-- A phrase of the grammar: which token lists spell which values. -/
abbrev Phrase (α : Type) := α → List Token → Prop

namespace Phrase

variable {α β : Type}

/-- A single token of a kind. -/
def token (k : TokenKind) : Phrase Token := fun t ts => ts = [t] ∧ t.kind = k

/-- A single token of a kind, of which only the value counts. -/
def word (k : TokenKind) : Phrase Text := fun x ts =>
  ∃ t : Token, ts = [t] ∧ t.kind = k ∧ t.value = x

/-- A phrase behind a token of a kind. -/
def behind (k : TokenKind) (G : Phrase α) : Phrase α :=
  fun a ts => ∃ (t : Token) (us : List Token), ts = t :: us ∧ t.kind = k ∧ G a us

/-- A phrase any number of times. -/
inductive Many (G : Phrase α) : Phrase (List α)
  | nil : Many G [] []
  | cons {a : α} {as : List α} {ts us : List Token} (first : G a ts) (more : Many G as us) :
      Many G (a :: as) (ts ++ us)

end Phrase

open Phrase

/-- The tokens of a parameter. -/
inductive Param.SpelledBy : Phrase Param
  /-- A name alone. -/
  | plain {name : Token} (hname : name.kind = .lowerName) :
      SpelledBy ⟨name.value, name.span.first, none⟩ [name]
  /-- A name with a text. -/
  | valued {name assign value : Token} (hname : name.kind = .lowerName)
      (hassign : assign.kind = .mark .assign) (hvalue : value.kind = .string) :
      SpelledBy ⟨name.value, name.span.first, some value.value⟩ [name, assign, value]

/-- The tokens of an annotation. -/
inductive Annotation.SpelledBy : Phrase Annotation
  /-- A name and parameters between angles. -/
  | mk {opening name closing : Token} {params : List Param} {ts : List Token}
      (hopening : opening.kind = .mark .openAngle) (hname : name.kind = .lowerName)
      (hparams : Many Param.SpelledBy params ts) (hclosing : closing.kind = .mark .closeAngle) :
      SpelledBy ⟨name.value, opening.span.first, params⟩ (opening :: name :: ts ++ [closing])

/-- The tokens of a type expression. -/
inductive TypeExpr.SpelledBy : Phrase TypeExpr
  /-- The reserved word that is spelled like the primitive type. -/
  | primitive {t : Token} {w : Keyword} {p : Primitive} (hword : t.kind = .keyword w)
      (hspelling : w.spelling = p.spelling) : SpelledBy (.primitive p) [t]
  /-- Dotted segments.  The last one is the name, and the others make up the qualifier, unless
  they have no text at all. -/
  | reference {first : Token} {more segments : List Text} {q : Option Text} {name : Text}
      {ts : List Token} (hfirst : first.kind = .upperName)
      (hmore : Many (behind (.mark .dot) (word .upperName)) more ts)
      (hname : first.value :: more = segments ++ [name])
      (hq : q.getD [] = Text.join "." segments) (hne : q ≠ some []) :
      SpelledBy (.reference first.span.first q name) (first :: ts)
  /-- `Array` with a type between angles. -/
  | array {head opening closing : Token} {inner : TypeExpr} {ts : List Token}
      (hhead : head.kind = .keyword .array) (hopening : opening.kind = .mark .openAngle)
      (hinner : SpelledBy inner ts) (hclosing : closing.kind = .mark .closeAngle) :
      SpelledBy (.array inner) (head :: opening :: ts ++ [closing])
  /-- `Maybe` with a type between angles. -/
  | maybe {head opening closing : Token} {inner : TypeExpr} {ts : List Token}
      (hhead : head.kind = .keyword .maybe) (hopening : opening.kind = .mark .openAngle)
      (hinner : SpelledBy inner ts) (hclosing : closing.kind = .mark .closeAngle) :
      SpelledBy (.maybe inner) (head :: opening :: ts ++ [closing])

/-- The tokens of a field. -/
inductive Field.SpelledBy : Phrase Field
  /-- A name, a type, and the annotations of the field. -/
  | mk {name colon : Token} {type : TypeExpr} {annotations : List Annotation}
      {ts us : List Token} (hname : name.kind = .lowerName) (hcolon : colon.kind = .mark .colon)
      (htype : type.SpelledBy ts) (hannotations : Many Annotation.SpelledBy annotations us) :
      SpelledBy ⟨name.value, type, annotations⟩ (name :: colon :: ts ++ us)

/-- The tokens of the body of a declaration. -/
inductive Body.SpelledBy : Phrase Body
  /-- A type. -/
  | alias {type : TypeExpr} {ts : List Token} (htype : type.SpelledBy ts) :
      SpelledBy (.alias type) ts
  /-- A type behind `wrap`. -/
  | wrap {head : Token} {type : TypeExpr} {ts : List Token} (hhead : head.kind = .keyword .wrap)
      (htype : type.SpelledBy ts) : SpelledBy (.wrap type) (head :: ts)
  /-- Braces with nothing between them. -/
  | emptyRecord {opening closing : Token} (hopening : opening.kind = .mark .openBrace)
      (hclosing : closing.kind = .mark .closeBrace) : SpelledBy (.record []) [opening, closing]
  /-- Fields between braces, with commas between them. -/
  | record {opening closing : Token} {field : Field} {fields : List Field}
      {ts us : List Token} (hopening : opening.kind = .mark .openBrace)
      (hfield : field.SpelledBy ts)
      (hfields : Many (behind (.mark .comma) Field.SpelledBy) fields us)
      (hclosing : closing.kind = .mark .closeBrace) :
      SpelledBy (.record (field :: fields)) (opening :: ts ++ us ++ [closing])
  /-- Variants between brackets, with bars between them. -/
  | sum {opening first closing : Token} {variants : List Text} {ts : List Token}
      (hopening : opening.kind = .mark .openBracket) (hfirst : first.kind = .upperName)
      (hvariants : Many (behind (.mark .pipe) (word .upperName)) variants ts)
      (hclosing : closing.kind = .mark .closeBracket) :
      SpelledBy (.sum (first.value :: variants)) (opening :: first :: ts ++ [closing])

/-- The tokens of a declaration. -/
inductive Declaration.SpelledBy : Phrase Declaration
  /-- A name, a body, and the annotations of the declaration. -/
  | mk {head name colon : Token} {body : Body} {annotations : List Annotation}
      {ts us : List Token} (hhead : head.kind = .keyword .type) (hname : name.kind = .upperName)
      (hcolon : colon.kind = .mark .colon) (hbody : body.SpelledBy ts)
      (hannotations : Many Annotation.SpelledBy annotations us) :
      SpelledBy ⟨name.value, body, annotations⟩ (head :: name :: colon :: ts ++ us)

/-- The tokens of a header line: a reserved word, a colon, and the package. -/
inductive Phrase.Export (w : Keyword) : Phrase Text
  /-- The package behind the reserved word. -/
  | mk {head colon package : Token} (hhead : head.kind = .keyword w)
      (hcolon : colon.kind = .mark .colon) (hpackage : package.kind = .packageName) :
      Export w package.value [head, colon, package]

/-- The tokens of a module, without the end of the input.  The tokens tell neither the name of
the module nor the path that goes with it. -/
inductive Module.ContentSpelledBy : Phrase Module
  /-- The header, the imports, the annotations of the module, and the declarations. -/
  | mk {scala purs : Text} {imports : List Text} {annotations : List Annotation}
      {declarations : List Declaration} {ts₁ ts₂ ts₃ ts₄ ts₅ : List Token}
      (hscala : Export .scala scala ts₁) (hpurs : Export .purs purs ts₂)
      (himports : Many (behind (.keyword .imports) (word .packageName)) imports ts₃)
      (hannotations : Many Annotation.SpelledBy annotations ts₄)
      (hdeclarations : Many Declaration.SpelledBy declarations ts₅) :
      ContentSpelledBy ⟨[], ⟨scala, purs, []⟩, imports, annotations, declarations⟩
        (ts₁ ++ ts₂ ++ ts₃ ++ ts₄ ++ ts₅)

/-- The tokens of a module, the end of the input included. -/
def Module.SpelledBy (m : Module) (ts : List Token) : Prop :=
  ∃ (us : List Token) (stop : Token),
    m.ContentSpelledBy us ∧ stop.kind = .endOfInput ∧ ts = us ++ [stop]

/-! ### Nesting -/

/-- How many types stand inside each other in a type, itself included. -/
def TypeExpr.nesting : TypeExpr → Nat
  | .primitive _ | .reference _ _ _ => 1
  | .array inner | .maybe inner => inner.nesting + 1

/-- The types that stand in a body without being part of another one. -/
def Body.types : Body → List TypeExpr
  | .alias type | .wrap type => [type]
  | .record fields => fields.map Field.type
  | .sum _ => []

/-- Whether no type of a body is nested deeper than a limit. -/
def Body.NestedWithin (limit : Nat) (b : Body) : Prop := ∀ t ∈ b.types, t.nesting ≤ limit

instance (limit : Nat) (b : Body) : Decidable (b.NestedWithin limit) :=
  inferInstanceAs (Decidable (∀ t ∈ b.types, t.nesting ≤ limit))

/-- Whether no type of a module is nested deeper than a limit. -/
def Module.NestedWithin (limit : Nat) (m : Module) : Prop :=
  ∀ d ∈ m.declarations, d.body.NestedWithin limit

instance (limit : Nat) (m : Module) : Decidable (m.NestedWithin limit) :=
  inferInstanceAs (Decidable (∀ d ∈ m.declarations, d.body.NestedWithin limit))

end Idl
