/-
# The kinds of tokens in phrases

Which kinds of tokens the phrases of the grammar are made of: those of types and annotations are
few (`TokenKind.isInner`), bodies of declarations have punctuation besides
(`TokenKind.isBodyPart`), and no token of a module is a fault or the end of the input
(`Module.ContentSpelledBy.isEnd_eq_false`).  In particular the word `type` stands nowhere but at
the beginning of a declaration.
-/
import Idl.Proofs.Grammar.Reading

namespace Idl

open Phrase

namespace TokenKind

/-- The kinds of tokens in types and annotations. -/
def isInner : TokenKind → Bool
  | .keyword w => w ∈ [.boolean, .int, .decimal, .string, .array, .maybe]
  | .mark m => m ∈ [.dot, .assign, .openAngle, .closeAngle]
  | .string | .lowerName | .upperName => true
  | _ => false

/-- The kinds of tokens in bodies of declarations, and of the annotations behind them. -/
def isBodyPart : TokenKind → Bool
  | .keyword w => w ∈ [.wrap, .boolean, .int, .decimal, .string, .array, .maybe]
  | .mark _ | .string | .lowerName | .upperName => true
  | _ => false

variable {k : TokenKind}

lemma isBodyPart_of_isInner (h : k.isInner) : k.isBodyPart := by
  cases k with
  | keyword w => cases w <;> simp_all [isInner, isBodyPart]
  | _ => simp_all [isInner, isBodyPart]

lemma isEnd_eq_false_of_isBodyPart (h : k.isBodyPart) : k.isEnd = false := by
  cases k <;> simp_all [isBodyPart, isEnd]

lemma ne_type_of_isBodyPart (h : k.isBodyPart) : k ≠ .keyword .type := by
  rintro rfl
  exact absurd h (by decide)

end TokenKind

section

variable {α : Type} {G : Phrase α} {ts : List Token}

namespace Phrase

variable (P : TokenKind → Prop)

lemma Many.forall_kind {as : List α} (h : Many G as ts)
    (hG : ∀ a us, G a us → ∀ t ∈ us, P t.kind) : ∀ t ∈ ts, P t.kind := by
  induction h with
  | nil => simp
  | cons first _ ih => exact List.forall_mem_append.2 ⟨hG _ _ first, ih⟩

lemma forall_kind_of_behind {k : TokenKind} {a : α} (hk : P k)
    (hG : ∀ a us, G a us → ∀ t ∈ us, P t.kind) (h : behind k G a ts) : ∀ t ∈ ts, P t.kind := by
  obtain ⟨t, us, rfl, rfl, ha⟩ := h
  exact List.forall_mem_cons.2 ⟨hk, hG a us ha⟩

lemma forall_kind_of_behind_word {j k : TokenKind} {x : Text} (hj : P j) (hk : P k)
    (h : behind j (word k) x ts) : ∀ t ∈ ts, P t.kind := by
  refine forall_kind_of_behind P hj ?_ h
  rintro _ _ ⟨t, rfl, rfl, -⟩
  simpa using hk

end Phrase

lemma Param.SpelledBy.isInner {p : Param} (h : p.SpelledBy ts) : ∀ t ∈ ts, t.kind.isInner := by
  rcases h with hname | ⟨hname, hassign, hvalue⟩
  · simp [hname, TokenKind.isInner]
  · simp [hname, hassign, hvalue, TokenKind.isInner]

lemma Annotation.SpelledBy.isInner {a : Annotation} (h : a.SpelledBy ts) :
    ∀ t ∈ ts, t.kind.isInner := by
  obtain ⟨hopening, hname, hparams, hclosing⟩ := h
  have hparams := hparams.forall_kind (·.isInner) fun _ _ => Param.SpelledBy.isInner
  simpa [hopening, hname, hclosing, TokenKind.isInner, or_imp, forall_and] using hparams

lemma TypeExpr.SpelledBy.isInner {e : TypeExpr} (h : e.SpelledBy ts) :
    ∀ t ∈ ts, t.kind.isInner := by
  induction h with
  | @primitive t w p hword hspelling =>
    have hw : (TokenKind.keyword w).isInner := by
      revert hspelling
      cases w <;> cases p <;> decide
    simpa [hword] using hw
  | reference hfirst hmore =>
    have hmore := hmore.forall_kind (·.isInner) fun _ _ =>
      forall_kind_of_behind_word (·.isInner) rfl rfl
    simpa [hfirst, TokenKind.isInner] using hmore
  | array hhead hopening _ hclosing ih | maybe hhead hopening _ hclosing ih =>
    simpa [hhead, hopening, hclosing, TokenKind.isInner, or_imp, forall_and] using ih

lemma TypeExpr.SpelledBy.isBodyPart {e : TypeExpr} (h : e.SpelledBy ts) :
    ∀ t ∈ ts, t.kind.isBodyPart :=
  fun t ht => TokenKind.isBodyPart_of_isInner (h.isInner t ht)

lemma isBodyPart_annotations {as : List Annotation} (h : Many Annotation.SpelledBy as ts) :
    ∀ t ∈ ts, t.kind.isBodyPart :=
  h.forall_kind (·.isBodyPart) fun _ _ ha t ht => TokenKind.isBodyPart_of_isInner (ha.isInner t ht)

lemma Field.SpelledBy.isBodyPart {f : Field} (h : f.SpelledBy ts) :
    ∀ t ∈ ts, t.kind.isBodyPart := by
  obtain ⟨hname, hcolon, htype, hnotes⟩ := h
  have hnotes := isBodyPart_annotations hnotes
  simpa [hname, hcolon, TokenKind.isBodyPart, or_imp, forall_and] using
    And.intro htype.isBodyPart hnotes

lemma Body.SpelledBy.isBodyPart {b : Body} (h : b.SpelledBy ts) :
    ∀ t ∈ ts, t.kind.isBodyPart := by
  rcases h with htype | ⟨hhead, htype⟩ | ⟨hopening, hclosing⟩ |
    ⟨hopening, hfield, hfields, hclosing⟩ | ⟨hopening, hfirst, hvariants, hclosing⟩
  · exact htype.isBodyPart
  · simpa [hhead, TokenKind.isBodyPart] using htype.isBodyPart
  · simp [hopening, hclosing, TokenKind.isBodyPart]
  · have hfields := hfields.forall_kind (·.isBodyPart) fun _ _ =>
      forall_kind_of_behind (·.isBodyPart) rfl fun _ _ => Field.SpelledBy.isBodyPart
    simpa [hopening, hclosing, TokenKind.isBodyPart, or_imp, forall_and] using
      And.intro hfield.isBodyPart hfields
  · have hvariants := hvariants.forall_kind (·.isBodyPart) fun _ _ =>
      forall_kind_of_behind_word (·.isBodyPart) rfl rfl
    simpa [hopening, hfirst, hclosing, TokenKind.isBodyPart, or_imp, forall_and] using hvariants

lemma Declaration.SpelledBy.isEnd_eq_false {d : Declaration} (h : d.SpelledBy ts) :
    ∀ t ∈ ts, t.kind.isEnd = false := by
  obtain ⟨hhead, hname, hcolon, hbody, hnotes⟩ := h
  have hbody := fun t ht => TokenKind.isEnd_eq_false_of_isBodyPart (hbody.isBodyPart t ht)
  have hnotes := fun t ht => TokenKind.isEnd_eq_false_of_isBodyPart
    (isBodyPart_annotations hnotes t ht)
  simpa [hhead, hname, hcolon, TokenKind.isEnd, or_imp, forall_and] using ⟨hbody, hnotes⟩

namespace Module

variable {scala purs : Text} {imports : List Text} {annotations : List Annotation}
  {ts₁ ts₂ ts₃ ts₄ : List Token}

/-- The words in front of the declarations of a module. -/
lemma kind_of_front (hscala : Export .scala scala ts₁) (hpurs : Export .purs purs ts₂)
    (himports : Many (behind (.keyword .imports) (word .packageName)) imports ts₃)
    (hannotations : Many Annotation.SpelledBy annotations ts₄) :
    ∀ t ∈ ts₁ ++ ts₂ ++ ts₃ ++ ts₄, t.kind.isEnd = false ∧ t.kind ≠ .keyword .type := by
  let P : TokenKind → Prop := fun k => k.isEnd = false ∧ k ≠ .keyword .type
  have hexport (w : Keyword) (x : Text) (ts : List Token) (h : Export w x ts) (hw : w ≠ .type) :
      ∀ t ∈ ts, P t.kind := by
    obtain ⟨hhead, hcolon, hpackage⟩ := h
    simp [P, hhead, hcolon, hpackage, TokenKind.isEnd, hw]
  have himports := himports.forall_kind P fun _ _ =>
    forall_kind_of_behind_word P (by decide) (by decide)
  have hannotations (t : Token) (ht : t ∈ ts₄) : P t.kind :=
    have hbody := isBodyPart_annotations hannotations t ht
    ⟨TokenKind.isEnd_eq_false_of_isBodyPart hbody, TokenKind.ne_type_of_isBodyPart hbody⟩
  simp only [List.forall_mem_append]
  exact ⟨⟨⟨hexport _ _ _ hscala (by decide), hexport _ _ _ hpurs (by decide)⟩, himports⟩,
    hannotations⟩

/-- No token of a module stops the readers. -/
lemma ContentSpelledBy.isEnd_eq_false {m : Module} (h : m.ContentSpelledBy ts) :
    ∀ t ∈ ts, t.kind.isEnd = false := by
  obtain ⟨hscala, hpurs, himports, hnotes, hdeclarations⟩ := h
  have hfront := kind_of_front hscala hpurs himports hnotes
  have hdeclarations := hdeclarations.forall_kind (fun k => k.isEnd = false) fun _ _ =>
    Declaration.SpelledBy.isEnd_eq_false
  exact List.forall_mem_append.2 ⟨fun t ht => (hfront t ht).1, hdeclarations⟩

end Module

end

end Idl
