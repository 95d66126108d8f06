/-
# Entries under keys

A list of entries stands for a map: the first entry of a key is the valid one.  What is looked up
in such a list after entries were taken out, or after values were changed, is told by what was
looked up before.
-/
import Mathlib.Data.List.Basic

namespace Idl

variable {κ α β : Type} [BEq κ]

/-- Values that carry their keys are found among themselves. -/
lemma lookup_map_key (key : α → κ) (as : List α) (x : κ) :
    (as.map fun a => (key a, a)).lookup x = as.find? fun a => x == key a := by
  induction as with
  | nil => rfl
  | cons a as ih => rw [List.map_cons, List.lookup_cons, List.find?_cons, ih]

variable [LawfulBEq κ]

lemma lookup_cons_of_ne {k x : κ} (h : x ≠ k) (a : α) (es : List (κ × α)) :
    ((k, a) :: es).lookup x = es.lookup x := by
  rw [List.lookup_cons, beq_false_of_ne h]

/-- Entries that are taken out are those of one key. -/
lemma lookup_filter_ne [DecidableEq κ] (es : List (κ × α)) (k x : κ) :
    (es.filter (·.1 ≠ k)).lookup x = if k = x then none else es.lookup x := by
  induction es with
  | nil => simp
  | cons e es ih =>
    obtain ⟨y, a⟩ := e
    by_cases hy : y = k
    · rw [List.filter_cons_of_neg (by simp [hy]), ih]
      split
      · rfl
      · next hk => rw [lookup_cons_of_ne (by rw [hy]; exact Ne.symm hk)]
    · rw [List.filter_cons_of_pos (by simp [hy])]
      by_cases hx : x = y
      · rw [hx, List.lookup_cons_self, List.lookup_cons_self, if_neg (Ne.symm hy)]
      · rw [lookup_cons_of_ne hx, lookup_cons_of_ne hx, ih]

/-- Values that are changed alike under all keys. -/
lemma lookup_map_snd (f : α → β) (es : List (κ × α)) (x : κ) :
    (es.map fun e => (e.1, f e.2)).lookup x = (es.lookup x).map f := by
  induction es with
  | nil => rfl
  | cons e es ih =>
    obtain ⟨y, a⟩ := e
    by_cases hx : x = y
    · rw [List.map_cons, hx, List.lookup_cons_self, List.lookup_cons_self]
      rfl
    · rw [List.map_cons, lookup_cons_of_ne hx, lookup_cons_of_ne hx, ih]

/-- Values that are replaced under one key. -/
lemma lookup_map_update [DecidableEq κ] (es : List (κ × α)) (k x : κ) (a : α) :
    (es.map fun e => if e.1 = k then (k, a) else e).lookup x =
      if x = k then (es.lookup k).map fun _ => a else es.lookup x := by
  induction es with
  | nil => simp
  | cons e es ih =>
    obtain ⟨y, b⟩ := e
    rw [List.map_cons]
    by_cases hy : y = k
    · subst hy
      rw [if_pos rfl]
      by_cases hx : x = y
      · rw [hx, if_pos rfl, List.lookup_cons_self, List.lookup_cons_self]
        rfl
      · rw [lookup_cons_of_ne hx, lookup_cons_of_ne hx, ih, if_neg hx, if_neg hx]
    · rw [if_neg hy, lookup_cons_of_ne (Ne.symm hy)]
      by_cases hx : x = y
      · rw [hx, List.lookup_cons_self, List.lookup_cons_self, if_neg hy]
      · rw [lookup_cons_of_ne hx, lookup_cons_of_ne hx, ih]

end Idl
