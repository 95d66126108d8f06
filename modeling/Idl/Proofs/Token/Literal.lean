/-
# Literals are read back

Reading the literal of a text gives the text again, whatever its code points are
(`Literal.readBody_write`).  The body of the literal is followed code point by code point, and
each is written in such a way that it can be read without looking further
(`Literal.readBody_writePoint`).
-/
import Idl.Proofs.Text.Numbers
import Idl.Token.Literal
import Mathlib.Data.List.Basic
import Mathlib.Tactic.Common

namespace Idl

/-- A code point is given back by its number. -/
lemma CodePoint.ofNat_toNat (c : CodePoint) : ofNat c.toNat = c := by
  cases c with
  | scalar c =>
    have hvalid : ¬ (0xD800 ≤ c.toNat ∧ c.toNat < 0xE000) := by
      have h : c.toNat < 0xD800 ∨ 0xDFFF < c.toNat ∧ c.toNat < 0x110000 := c.valid
      omega
    simp only [toNat, ofNat, dif_neg hvalid, Char.ofNat_toNat]
  | surrogate n =>
    have hrange : 0xD800 ≤ 0xD800 + n.val ∧ 0xD800 + n.val < 0xE000 := by omega
    have hoffset : 0xD800 + n.val - 0xD800 = n.val := by omega
    rw [toNat, ofNat, dif_pos hrange]
    simp only [hoffset]

namespace Literal

/-- The two digits of a control give its number. -/
lemma exists_twoDigits {n : Nat} (hn : n < 0x80) : ∃ h₁ h₂, Text.ofHex 2 n = [h₁, h₂] ∧
    Text.hexValue? [h₁, h₂] = some n := by
  have hlength : (Text.ofHex 2 n).length = 2 := Text.length_ofHex (by omega) (by omega)
  obtain ⟨h₁, h₂, hdigits⟩ := List.length_eq_two.1 hlength
  refine ⟨h₁, h₂, hdigits, ?_⟩
  rw [← hdigits, Text.hexValue?_ofHex]

/-- An escape by one letter is read as the code point it stands for. -/
lemma readBody_simpleEscape {e v : CodePoint} (h : simpleEscape? e = some v) (r : Text) :
    readBody (.scalar '\\' :: e :: r) = (readBody r).prepend v [.scalar '\\', e] := by
  have hquote : ¬ CodePoint.scalar '\\' = CodePoint.scalar '"' := by decide
  have hbreak : ¬ CodePoint.scalar '\\' = CodePoint.scalar '\n' := by decide
  rw [readBody.eq_def]
  simp only [if_neg hquote, if_neg hbreak, if_true, h]

/-- An escape by two digits is read as the code point of that number. -/
lemma readBody_hexEscape {h₁ h₂ : CodePoint} {n : Nat} (h : Text.hexValue? [h₁, h₂] = some n)
    (r : Text) : readBody (.scalar '\\' :: .scalar 'x' :: h₁ :: h₂ :: r) =
      (readBody r).prepend (CodePoint.ofNat n) [.scalar '\\', .scalar 'x', h₁, h₂] := by
  have hquote : ¬ CodePoint.scalar '\\' = CodePoint.scalar '"' := by decide
  have hbreak : ¬ CodePoint.scalar '\\' = CodePoint.scalar '\n' := by decide
  have hsimple : simpleEscape? (CodePoint.scalar 'x') = none := by decide
  rw [readBody.eq_def]
  simp only [if_neg hquote, if_neg hbreak, if_true, hsimple, h]

/-- A code point that has to be written as it stands is read as it stands. -/
lemma readBody_plain {c : CodePoint} (hquote : c ≠ .scalar '"') (hbreak : c ≠ .scalar '\n')
    (hbackslash : c ≠ .scalar '\\') (r : Text) :
    readBody (c :: r) = (readBody r).prepend c [c] := by
  rw [readBody.eq_def]
  simp only [if_neg hquote, if_neg hbreak, if_neg hbackslash]

/-- A code point is written as an escape by one letter, as an escape by two digits, or as it
stands, and as it stands neither a control nor a sign that a literal gives a meaning. -/
lemma writePoint_cases (c : CodePoint) :
    (∃ e, simpleEscape? e = some c ∧ writePoint c = [.scalar '\\', e]) ∨
    (∃ h₁ h₂, Text.hexValue? [h₁, h₂] = some c.toNat ∧
      writePoint c = [.scalar '\\', .scalar 'x', h₁, h₂]) ∨
    writePoint c = [c] ∧ c ≠ .scalar '"' ∧ c ≠ .scalar '\\' ∧ 0x20 ≤ c.toNat ∧ c.toNat ≠ 0x7F := by
  by_cases hsimple : ∃ e, simpleEscape? e = some c ∧ writePoint c = [.scalar '\\', e]
  · exact .inl hsimple
  -- none of the ten code points with an escape of their own is left
  have hne (d : CodePoint) (e : Char)
      (hd : simpleEscape? (.scalar e) = some d ∧ writePoint d = [.scalar '\\', .scalar e]) :
      c ≠ d := by
    rintro rfl
    exact hsimple ⟨_, hd⟩
  have hbackslash : c ≠ .scalar '\\' := hne _ '\\' (by decide)
  have hquote : c ≠ .scalar '"' := hne _ '"' (by decide)
  have hrest : writePoint c =
      if c.toNat < 0x20 || c.toNat = 0x7F then "\\x" ++ Text.ofHex 2 c.toNat else [c] := by
    rw [writePoint, if_neg hbackslash, if_neg hquote, if_neg (hne _ 'n' (by decide)),
      if_neg (hne _ 'r' (by decide)), if_neg (hne _ 't' (by decide)),
      if_neg (hne _ '0' (by decide)), if_neg (hne _ 'a' (by decide)),
      if_neg (hne _ 'b' (by decide)), if_neg (hne _ 'f' (by decide)),
      if_neg (hne _ 'v' (by decide))]
  by_cases hcontrol : c.toNat < 0x20 || c.toNat = 0x7F
  · have hn : c.toNat < 0x80 := by
      simp only [Bool.or_eq_true, decide_eq_true_eq] at hcontrol
      omega
    obtain ⟨h₁, h₂, hdigits, hvalue⟩ := exists_twoDigits hn
    refine .inr (.inl ⟨h₁, h₂, hvalue, ?_⟩)
    rw [hrest, if_pos hcontrol, hdigits]
    rfl
  · refine .inr (.inr ⟨?_, hquote, hbackslash, ?_⟩)
    · rw [hrest, if_neg hcontrol]
    · simp only [Bool.or_eq_true, decide_eq_true_eq, not_or] at hcontrol
      omega

/-- What is written for a code point is read as the code point, whatever follows. -/
lemma readBody_writePoint (c : CodePoint) (r : Text) :
    readBody (writePoint c ++ r) = (readBody r).prepend c (writePoint c) := by
  rcases writePoint_cases c with ⟨e, he, hwrite⟩ | ⟨h₁, h₂, hvalue, hwrite⟩ |
      ⟨hwrite, hquote, hbackslash, hlow, -⟩
  · rw [hwrite]
    exact readBody_simpleEscape he r
  · rw [hwrite]
    refine (readBody_hexEscape hvalue r).trans ?_
    rw [CodePoint.ofNat_toNat]
  · have hbreak : c ≠ .scalar '\n' := by
      rintro rfl
      exact absurd hlow (by decide)
    rw [hwrite]
    exact readBody_plain hquote hbreak hbackslash r

/-- Behind its opening mark, the literal of a text is read as the text. -/
theorem readBody_write (value r : Text) :
    readBody (value.flatMap writePoint ++ .scalar '"' :: r) =
      .closed value (value.flatMap writePoint ++ [.scalar '"']) r := by
  induction value with
  | nil =>
    rw [List.flatMap_nil, List.nil_append, readBody.eq_def]
    simp only [if_true, List.nil_append]
  | cons c value ih =>
    rw [List.flatMap_cons, List.append_assoc, readBody_writePoint, ih, Body.prepend,
      List.append_assoc]

end Literal

end Idl
