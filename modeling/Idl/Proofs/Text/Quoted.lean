/-
# Quoted texts

No two texts are quoted alike (`Text.quoted_injective`).  The forms of the code points are a prefix
code: each is the code point itself, a backslash with a letter, or a backslash with a letter that
tells the number of digits behind it (`Text.quotedPoint_cases`).  All that stands in a quoted text
can be shown (`Text.isPrintable_of_mem_quoted`), so it holds no line break and no escape character.
-/
import Idl.Proofs.Text.Numbers
import Idl.Proofs.Token.Literal
import Idl.Text.Quoted

namespace Idl

lemma CodePoint.toNat_injective : Function.Injective toNat :=
  Function.LeftInverse.injective ofNat_toNat

lemma CodePoint.toNat_lt (c : CodePoint) : c.toNat < 16 ^ 8 := by
  cases c with
  | scalar c =>
    have hvalid : c.toNat < 0xD800 ∨ 0xDFFF < c.toNat ∧ c.toNat < 0x110000 := c.valid
    show c.toNat < 16 ^ 8
    omega
  | surrogate n =>
    show 0xD800 + n.val < 16 ^ 8
    omega

namespace Text

variable {c d q : CodePoint} {m n w : Nat} {r s t : Text}

/-! ### The form of a code point -/

/-- How many digits stand behind the letter of an escape. -/
def escapeWidth (e : CodePoint) : Nat :=
  if e = 'x' then 2 else if e = 'u' then 4 else if e = 'U' then 8 else 0

/-- What an escape without digits stands for. -/
def escapedPoint (e : CodePoint) : CodePoint :=
  if e = 'n' then '\n' else if e = 'r' then '\r' else if e = 't' then '\t' else e

/-- One of the two marks that quoted texts stand between. -/
def IsQuote (q : CodePoint) : Prop := q = '\'' ∨ q = '"'

lemma isQuote_quoteFor (t : Text) : IsQuote (quoteFor t) := by
  unfold quoteFor
  split
  · exact .inr rfl
  · exact .inl rfl

/-- A code point stands for itself, or is told by a letter, or by a letter and digits. -/
lemma quotedPoint_cases (hq : IsQuote q) (c : CodePoint) :
    (c ≠ '\\' ∧ c.isPrintable ∧ quotedPoint q c = [c]) ∨
    (∃ e : CodePoint, escapeWidth e = 0 ∧ escapedPoint e = c ∧ e.isPrintable ∧
      quotedPoint q c = [.scalar '\\', e]) ∨
    ∃ e : CodePoint, 0 < escapeWidth e ∧ c.toNat < 16 ^ escapeWidth e ∧ e.isPrintable ∧
      quotedPoint q c = .scalar '\\' :: e :: ofHex (escapeWidth e) c.toNat := by
  unfold quotedPoint
  split_ifs with hmark hnewline hreturn htab hprintable hbyte hunit
  · refine .inr (.inl ⟨c, ?_⟩)
    rcases hq with rfl | rfl <;>
    rcases (by simpa using hmark : c = _ ∨ c = _) with rfl | rfl <;>
    decide
  · exact .inr (.inl ⟨'n', rfl, hnewline.symm, by decide, rfl⟩)
  · exact .inr (.inl ⟨'r', rfl, hreturn.symm, by decide, rfl⟩)
  · exact .inr (.inl ⟨'t', rfl, htab.symm, by decide, rfl⟩)
  · refine .inl ⟨?_, hprintable, rfl⟩
    rintro rfl
    simp at hmark
  · exact .inr (.inr ⟨'x', by decide, hbyte, by decide, rfl⟩)
  · exact .inr (.inr ⟨'u', by decide, hunit, by decide, rfl⟩)
  · exact .inr (.inr ⟨'U', by decide, c.toNat_lt, by decide, rfl⟩)

lemma quotedPoint_ne_nil (hq : IsQuote q) (c : CodePoint) : quotedPoint q c ≠ [] := by
  obtain ⟨-, -, h⟩ | ⟨e, -, -, -, h⟩ | ⟨e, -, -, -, h⟩ := quotedPoint_cases hq c <;> simp [h]

/-- The forms of code points are a prefix code. -/
lemma quotedPoint_append_inj (hq : IsQuote q)
    (h : quotedPoint q c ++ r = quotedPoint q d ++ s) : c = d ∧ r = s := by
  obtain ⟨hc, -, hform⟩ | ⟨e, hwidth, hvalue, -, hform⟩ | ⟨e, hwidth, hsize, -, hform⟩ :=
    quotedPoint_cases hq c <;>
  obtain ⟨hd, -, hform'⟩ | ⟨e', hwidth', hvalue', -, hform'⟩ | ⟨e', hwidth', hsize', -, hform'⟩ :=
    quotedPoint_cases hq d <;>
  simp only [hform, hform', List.cons_append, List.nil_append, List.cons.injEq, true_and] at h
  · exact h
  · exact absurd h.1 hc
  · exact absurd h.1 hc
  · exact absurd h.1.symm hd
  · obtain ⟨rfl, rfl⟩ := h
    exact ⟨hvalue.symm.trans hvalue', rfl⟩
  · obtain ⟨rfl, -⟩ := h
    omega
  · exact absurd h.1.symm hd
  · obtain ⟨rfl, -⟩ := h
    omega
  · obtain ⟨rfl, hdigits⟩ := h
    have hlength := (length_ofHex hwidth hsize).trans (length_ofHex hwidth hsize').symm
    obtain ⟨hnumber, rfl⟩ := List.append_inj hdigits hlength
    exact ⟨CodePoint.toNat_injective (ofHex_inj hnumber), rfl⟩

/-! ### Quoted texts -/

lemma flatMap_quotedPoint_inj (hq : IsQuote q)
    (h : s.flatMap (quotedPoint q) = t.flatMap (quotedPoint q)) : s = t := by
  induction s generalizing t with
  | nil =>
    cases t with
    | nil => rfl
    | cons d t =>
      rw [List.flatMap_nil, List.flatMap_cons] at h
      exact absurd (List.append_eq_nil_iff.1 h.symm).1 (quotedPoint_ne_nil hq d)
  | cons c s ih =>
    cases t with
    | nil =>
      rw [List.flatMap_nil, List.flatMap_cons] at h
      exact absurd (List.append_eq_nil_iff.1 h).1 (quotedPoint_ne_nil hq c)
    | cons d t =>
      rw [List.flatMap_cons, List.flatMap_cons] at h
      obtain ⟨rfl, hrest⟩ := quotedPoint_append_inj hq h
      rw [ih hrest]

/-- The mark in front tells how the code points are written, and they are told one by one. -/
lemma quoted_injective : Function.Injective quoted := by
  intro s t h
  have hparts : quoteFor s = quoteFor t ∧
      s.flatMap (quotedPoint (quoteFor s)) ++ [quoteFor s] =
        t.flatMap (quotedPoint (quoteFor t)) ++ [quoteFor t] := List.cons.inj h
  obtain ⟨hquote, hbody⟩ := hparts
  rw [hquote] at hbody
  exact flatMap_quotedPoint_inj (isQuote_quoteFor t) (List.append_cancel_right hbody)

lemma isPrintable_of_mem_ofHex (h : c ∈ ofHex w n) : c.isPrintable := by
  have hdigits : ∀ x < 16, CodePoint.isPrintable (.scalar (Nat.digitChar x)) := by decide
  obtain rfl | ⟨x, hx, rfl⟩ := mem_ofHex h
  · decide
  · exact hdigits x hx

/-- All that stands in a quoted text can be shown. -/
lemma isPrintable_of_mem_quoted (h : c ∈ t.quoted) : c.isPrintable := by
  have hq := isQuote_quoteFor t
  have hmark : (quoteFor t).isPrintable := by
    rcases hq with hq | hq <;> rw [hq] <;> decide
  have hbackslash : CodePoint.isPrintable (.scalar '\\') := by decide
  rw [quoted, List.cons_append, List.mem_cons, List.mem_append, List.mem_flatMap,
    List.mem_singleton] at h
  obtain rfl | ⟨d, -, hc⟩ | rfl := h
  · exact hmark
  · obtain ⟨-, hd, hform⟩ | ⟨e, -, -, he, hform⟩ | ⟨e, -, -, he, hform⟩ :=
      quotedPoint_cases hq d <;>
    simp only [hform, List.mem_cons, List.not_mem_nil, or_false] at hc
    · rw [hc]
      exact hd
    · obtain rfl | rfl := hc
      · exact hbackslash
      · exact he
    · obtain rfl | rfl | hc := hc
      · exact hbackslash
      · exact he
      · exact isPrintable_of_mem_ofHex hc
  · exact hmark

end Text

end Idl
