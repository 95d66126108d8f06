/-
# Machines

What a run gets through is bounded by the machine that it is on, and by what of it is in use
already: how deep a reader goes into types inside types, and how wide a text becomes.  The
language knows none of these bounds, so they are parameters of what is read and written, and
what is proved holds for all of them.

A number that tells a width has to be one of 64 bits with a sign.  Numbers that are not positive
write nothing.
-/
import Idl.Text

namespace Idl

/-- The bounds that a run meets. -/
class Machine where
  /-- How many types inside each other a reader gets through. -/
  nesting : Nat
  /-- A reader gets through a single type. -/
  nesting_pos : 0 < nesting
  /-- How many arrays and tables inside each other a reader of settings gets through. -/
  tables : Nat
  /-- The width of the widest run of one code point. -/
  widest : Nat
  /-- A word of 64 bits with a sign counts every run. -/
  widest_lt : widest < 0x8000000000000000

/-- A machine with bounds of a usual size. -/
abbrev Machine.usual : Machine where
  nesting := 480
  nesting_pos := by decide
  tables := 400
  widest := 0xFFFFFFFFFF
  widest_lt := by decide

/-- Why a number tells no width. -/
inductive WidthProblem where
  /-- It is no number of 64 bits with a sign. -/
  | noWord
  /-- There is no text so wide. -/
  | tooWide
deriving DecidableEq, Inhabited

/-- The message for a problem. -/
def WidthProblem.message : WidthProblem → Text
  | .noWord => "a width is no number of 64 bits"
  | .tooWide => "a text would become too wide"

namespace Text

/-- The width that a number tells, if it is one that can be written. -/
def usableWidth [Machine] (n : Int) : Except WidthProblem Nat :=
  if n < -0x8000000000000000 ∨ 0x8000000000000000 ≤ n then .error .noWord
  else if Machine.widest < n then .error .tooWide
  else .ok n.toNat

/-- Whether a number tells a width that can be written. -/
def IsWidth [Machine] (n : Int) : Prop := -0x8000000000000000 ≤ n ∧ n ≤ Machine.widest

instance [Machine] (n : Int) : Decidable (IsWidth n) := inferInstanceAs (Decidable (_ ∧ _))

theorem usableWidth_eq_ok_iff [Machine] {n : Int} {width : Nat} :
    usableWidth n = .ok width ↔ IsWidth n ∧ width = n.toNat := by
  have hwidest := Machine.widest_lt
  unfold usableWidth IsWidth
  split
  · next h => simp only [reduceCtorEq, false_iff]; omega
  · split
    · next h => simp only [reduceCtorEq, false_iff]; omega
    · simp only [Except.ok.injEq]; omega

end Text

end Idl
