/-
# Numbers in digits

The digits of a number are those of its base, whatever the number (`Text.exists_of_mem_toDigits`).
So what holds of the minus sign and of the ten digits holds of all code points of an integer
(`Text.forall_mem_ofInt`), and a number in hexadecimal is read back from its digits
(`Text.hexValue?_ofHex`).
-/
import Idl.Text
import Mathlib.Data.Nat.Digits.Defs
import Mathlib.Tactic.Common

namespace Idl.Text

variable {c : CodePoint} {m n w : Nat}

lemma exists_of_mem_toDigits {b : Nat} (hb : 1 < b) {x : Char} (hx : x ∈ Nat.toDigits b n) :
    ∃ k < b, x = Nat.digitChar k := by
  induction n using Nat.strong_induction_on with
  | _ n ih =>
    rcases Nat.lt_or_ge n b with hsmall | hlarge
    · rw [Nat.toDigits_of_lt_base hsmall, List.mem_singleton] at hx
      exact ⟨n, hsmall, hx⟩
    · rw [Nat.toDigits_of_base_le hb hlarge, List.mem_append, List.mem_singleton] at hx
      rcases hx with hx | hx
      · exact ih (n / b) (Nat.div_lt_self (by omega) hb) hx
      · exact ⟨n % b, Nat.mod_lt n (by omega), hx⟩

/-! ### Decimal numbers -/

lemma forall_mem_ofNat {P : CodePoint → Prop} (hdigits : ∀ k < 10, P (.scalar (Nat.digitChar k))) :
    ∀ c ∈ ofNat n, P c := by
  intro c hc
  have hdigitsOf : ofNat n = (Nat.toDigits 10 n).map CodePoint.scalar :=
    congrArg (List.map CodePoint.scalar) String.toList_ofList
  rw [hdigitsOf, List.mem_map] at hc
  obtain ⟨x, hx, rfl⟩ := hc
  obtain ⟨k, hk, rfl⟩ := exists_of_mem_toDigits (by omega) hx
  exact hdigits k hk

/-- What holds of the minus sign and the digits holds of all that integers are written with. -/
lemma forall_mem_ofInt {P : CodePoint → Prop} (hminus : P '-')
    (hdigits : ∀ k < 10, P (.scalar (Nat.digitChar k))) (i : Int) : ∀ c ∈ ofInt i, P c := by
  unfold ofInt
  split
  · exact List.forall_mem_cons.2 ⟨hminus, forall_mem_ofNat hdigits⟩
  · exact forall_mem_ofNat hdigits

/-! ### Numbers in hexadecimal -/

lemma hexValue?_concat (s : Text) (c : CodePoint) :
    hexValue? (s ++ [c]) = (hexValue? s).bind fun n => c.hexValue?.map (16 * n + ·) := by
  unfold hexValue?
  rw [List.foldlM_append]
  simp

lemma hexValue?_digitChar :
    ∀ n < 16, CodePoint.hexValue? (.scalar (Nat.digitChar n)) = some n := by
  decide

/-- The digits of a number have that number for their value. -/
lemma hexValue?_toDigits (n : Nat) :
    hexValue? ((Nat.toDigits 16 n).map CodePoint.scalar) = some n := by
  induction n using Nat.strong_induction_on with
  | _ n ih =>
    rcases Nat.lt_or_ge n 16 with hsmall | hlarge
    · have hvalue := hexValue?_concat [] (.scalar n.digitChar)
      rw [hexValue?_digitChar n hsmall] at hvalue
      rw [Nat.toDigits_of_lt_base hsmall]
      simpa [hexValue?] using hvalue
    · have hlast := hexValue?_digitChar (n % 16) (by omega)
      rw [Nat.toDigits_of_base_le (by omega) hlarge, List.map_append, List.map_singleton,
        hexValue?_concat, ih (n / 16) (by omega), hlast]
      simp only [Option.bind_some, Option.map_some, Option.some.injEq]
      omega

/-- Zeros in front do not count. -/
lemma hexValue?_ofHex (w n : Nat) : hexValue? (ofHex w n) = some n := by
  have hzeros (k : Nat) (s : Text) : hexValue? (repeated k '0' ++ s) = hexValue? s := by
    induction k with
    | zero => rfl
    | succ k ih => exact ih
  rw [ofHex, hzeros, hexValue?_toDigits]

lemma ofHex_inj (h : ofHex w m = ofHex w n) : m = n := by
  have hvalue := congrArg hexValue? h
  rw [hexValue?_ofHex, hexValue?_ofHex] at hvalue
  exact Option.some.inj hvalue

lemma length_ofHex (hw : 0 < w) (h : n < 16 ^ w) : (ofHex w n).length = w := by
  have hdigits : (Nat.toDigits 16 n).length ≤ w := Nat.toDigits_length 16 n w hw h
  rw [ofHex, List.length_append, repeated, List.length_replicate, List.length_map]
  omega

lemma mem_ofHex (h : c ∈ ofHex w n) : c = '0' ∨ ∃ k < 16, c = .scalar (Nat.digitChar k) := by
  rcases List.mem_append.1 h with h | h
  · exact .inl (List.eq_of_mem_replicate h)
  · obtain ⟨x, hx, rfl⟩ := List.mem_map.1 h
    obtain ⟨k, hk, rfl⟩ := exists_of_mem_toDigits (by omega) hx
    exact .inr ⟨k, hk, rfl⟩

end Idl.Text
