/-
# Escape sequences in texts

Leaving out the escape sequences changes nothing in front of the first escape character
(`Text.withoutSequences_append`), and a sequence that stands as a whole is left out as a whole
(`Text.withoutSequences_sequence`).  Blanks and numbers hold no escape character.
-/
import Idl.Proofs.Text.Numbers
import Idl.Text.Escape

namespace Idl.Text

variable {c : CodePoint} {r s t : Text}

lemma withoutSequences_cons (h : c ≠ CodePoint.escape) (t : Text) :
    withoutSequences (c :: t) = c :: withoutSequences t := by
  rw [withoutSequences, if_neg h]

/-- Up to the first escape character nothing is left out. -/
lemma withoutSequences_append (h : CodePoint.escape ∉ s) (t : Text) :
    (s ++ t).withoutSequences = s ++ t.withoutSequences := by
  induction s with
  | nil => rfl
  | cons c s ih =>
    rw [List.mem_cons, not_or] at h
    rw [List.cons_append, withoutSequences_cons (Ne.symm h.1), ih h.2, List.cons_append]

lemma withoutSequences_eq_self (h : CodePoint.escape ∉ s) : s.withoutSequences = s := by
  have hnil : withoutSequences [] = [] := by rw [withoutSequences]
  have happend := withoutSequences_append h []
  rwa [List.append_nil, hnil, List.append_nil] at happend

/-- A sequence is left out, whatever stands behind it. -/
lemma withoutSequences_sequence (h : behindSequence? r = some t) :
    withoutSequences (CodePoint.escape :: r) = t.withoutSequences := by
  rw [withoutSequences, if_pos rfl]
  split
  · next rest hrest =>
    rw [h, Option.some.injEq] at hrest
    rw [hrest]
  · next hnone =>
    rw [h] at hnone
    cases hnone

/-! ### Texts without escape characters -/

lemma escape_notMem_repeated (n : Nat) (h : c ≠ CodePoint.escape) :
    CodePoint.escape ∉ repeated n c := by
  intro hmem
  exact h (List.eq_of_mem_replicate hmem).symm

lemma escape_notMem_spaces (n : Int) : CodePoint.escape ∉ spaces n :=
  escape_notMem_repeated _ (by decide)

lemma escape_notMem_ofNat (n : Nat) : CodePoint.escape ∉ ofNat n := by
  intro hmem
  have hother : ∀ c ∈ ofNat n, c ≠ CodePoint.escape := forall_mem_ofNat (by decide)
  exact hother _ hmem rfl

lemma escape_notMem_ofInt (n : Int) : CodePoint.escape ∉ ofInt n := by
  intro hmem
  have hother : ∀ c ∈ ofInt n, c ≠ CodePoint.escape := forall_mem_ofInt (by decide) (by decide) n
  exact hother _ hmem rfl

end Idl.Text
