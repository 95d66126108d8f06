/-
# Classes of code points

Which of the classes of code points exclude each other: no letter and no numeral is a blank, and
nothing is both upper-case and lower-case.  Two lists of bands are compared by walking along
both at once, always passing the band that ends first, so that the tables are gone through
only once.
-/
import Idl.Text.Classes
import Mathlib.Tactic.Common

namespace Idl

namespace Band

/-- The numbers of a band. -/
def Contains (b : Band) (n : Nat) : Prop :=
  b.first ≤ n ∧ n ≤ b.last ∧ (n - b.first) % b.step = 0

/-- Whether two bands may have a number in common, as far as their ends tell, or their steps if
one of them is a single number or both have the step 2. -/
def mayMeet (a b : Band) : Bool :=
  a.first ≤ b.last && b.first ≤ a.last &&
    !(a.step == 2 && b.step == 2 && a.first % 2 != b.first % 2) &&
    !(a.first == a.last && (a.first - b.first) % b.step != 0) &&
    !(b.first == b.last && (b.first - a.first) % a.step != 0)

/-- Whether no band of one list may meet a band of the other, found within a number of steps. -/
def apartWithin : Nat → List Band → List Band → Bool
  | 0, _, _ => false
  | _ + 1, [], _ => true
  | _ + 1, _ :: _, [] => true
  | k + 1, a :: as, b :: bs =>
    !a.mayMeet b &&
      if a.last ≤ b.last then apartWithin k as (b :: bs) else apartWithin k (a :: as) bs

/-- Whether no band of one list may meet a band of the other. -/
def apart (as bs : List Band) : Bool := apartWithin (as.length + bs.length + 1) as bs

variable {a b : Band} {as bs : List Band} {n : Nat}

lemma mayMeet_of_contains (ha : a.Contains n) (hb : b.Contains n) : a.mayMeet b = true := by
  obtain ⟨ha₁, ha₂, ha₃⟩ := ha
  obtain ⟨hb₁, hb₂, hb₃⟩ := hb
  have hends : a.first ≤ b.last ∧ b.first ≤ a.last := by omega
  have hparity : (a.step ≠ 2 ∨ b.step ≠ 2) ∨ a.first % 2 = b.first % 2 := by
    by_cases h₁ : a.step = 2
    · by_cases h₂ : b.step = 2
      · rw [h₁] at ha₃
        rw [h₂] at hb₃
        omega
      · exact .inl (.inr h₂)
    · exact .inl (.inl h₁)
  -- a band of one number has no other number to share
  have hleft : a.first ≠ a.last ∨ (a.first - b.first) % b.step = 0 := by
    by_cases h : a.first = a.last
    · obtain rfl : n = a.first := by omega
      exact .inr hb₃
    · exact .inl h
  have hright : b.first ≠ b.last ∨ (b.first - a.first) % a.step = 0 := by
    by_cases h : b.first = b.last
    · obtain rfl : n = b.first := by omega
      exact .inr ha₃
    · exact .inl h
  simp only [mayMeet, Bool.and_eq_true, Bool.not_eq_true', Bool.and_eq_false_iff, decide_eq_true_eq,
    beq_eq_false_iff_ne, bne_eq_false_iff_eq]
  exact ⟨⟨⟨hends, hparity⟩, hleft⟩, hright⟩

lemma holds_cons_of_le (h : n ≤ b.last) : holds (b :: bs) n = true ↔ b.Contains n := by
  simp [holds, Contains, h]

lemma holds_cons_of_lt (h : b.last < n) : holds (b :: bs) n = holds bs n := by
  rw [holds, if_neg (by omega)]

/-- The number is followed along both lists: the band that ends first is passed as soon as the
number lies behind it. -/
lemma not_holds_of_apartWithin {k : Nat} (h : apartWithin k as bs = true)
    (ha : holds as n = true) : holds bs n = false := by
  induction k generalizing as bs with
  | zero => simp [apartWithin] at h
  | succ k ih =>
    match as, bs with
    | [], _ => simp [holds] at ha
    | _ :: _, [] => rfl
    | a :: as, b :: bs =>
      simp only [apartWithin, Bool.and_eq_true, Bool.not_eq_true'] at h
      obtain ⟨hmeet, h⟩ := h
      by_contra hb
      rw [Bool.not_eq_false] at hb
      rcases Nat.lt_or_ge a.last n with hna | hna
      · rw [holds_cons_of_lt hna] at ha
        rcases Nat.lt_or_ge b.last n with hnb | hnb
        · split at h
          · rw [ih h ha] at hb
            cases hb
          · rw [holds_cons_of_lt hnb] at hb
            rw [ih h (by rwa [holds_cons_of_lt hna])] at hb
            cases hb
        · rw [if_pos (by omega)] at h
          rw [ih h ha] at hb
          cases hb
      · rcases Nat.lt_or_ge b.last n with hnb | hnb
        · rw [if_neg (by omega)] at h
          rw [holds_cons_of_lt hnb, ih h ha] at hb
          cases hb
        · rw [holds_cons_of_le hna] at ha
          rw [holds_cons_of_le hnb] at hb
          rw [mayMeet_of_contains ha hb] at hmeet
          cases hmeet

lemma not_holds_of_apart (h : apart as bs = true) (ha : holds as n = true) : holds bs n = false :=
  not_holds_of_apartWithin h ha

end Band

namespace CodePoint

variable {c : CodePoint}

lemma not_isBlank_of_isAlphanumeric (h : c.isAlphanumeric) : c.isBlank = false := by
  rcases Bool.or_eq_true_iff.1 h with h | h
  · have hletters : Band.apart letterBands blankBands = true := by decide +kernel
    exact Band.not_holds_of_apart hletters h
  · have hnumerals : Band.apart numeralBands blankBands = true := by decide +kernel
    exact Band.not_holds_of_apart hnumerals h

lemma not_isUppercase_of_isLowercase (h : c.isLowercase) : c.isUppercase = false := by
  have hcases : Band.apart lowercaseBands uppercaseBands = true := by decide +kernel
  exact Band.not_holds_of_apart hcases h

lemma isAlphanumeric_of_isLetter (h : c.isLetter) : c.isAlphanumeric := by
  simp [isAlphanumeric, h]

/-- A letter or a numeral is none of the characters that are neither. -/
lemma ne_of_isAlphanumeric {d : CodePoint} (h : c.isAlphanumeric) (hd : d.isAlphanumeric = false) :
    c ≠ d := by
  rintro rfl
  rw [hd] at h
  cases h

end CodePoint

end Idl
