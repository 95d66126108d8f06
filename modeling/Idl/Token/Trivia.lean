/-
# Trivia

Between tokens a text may hold blanks, line comments from `//` to the end of the line, and
block comments between `/*` and `*/`, which nest.  This file cuts the trivia off the front of
a text.  The pieces that are cut always make up the text again (`Trivia.text_skip`).
-/
import Idl.Text.Classes

namespace Idl

namespace Trivia

/-- Cuts a text behind the end of a block comment, inside `outer + 1` open comments.  The first
part ends with the closing `*/` of the outermost one; without one there is no result. -/
def closeBlock : Nat → Text → Option (Text × Text)
  | _, [] => none
  | _, [_] => none
  | outer, c :: d :: r =>
    if c = '/' ∧ d = '*' then
      (closeBlock (outer + 1) r).map fun (body, rest) => (c :: d :: body, rest)
    else if c = '*' ∧ d = '/' then
      match outer with
      | 0 => some ([c, d], r)
      | outer + 1 => (closeBlock outer r).map fun (body, rest) => (c :: d :: body, rest)
    else
      (closeBlock outer (d :: r)).map fun (body, rest) => (c :: body, rest)

/-- The first piece of trivia of a text. -/
inductive Piece where
  /-- The text starts with no trivia. -/
  | none
  /-- The text is a blank or a complete comment and a rest. -/
  | piece (skipped rest : Text)
  /-- The text starts with a block comment that is never closed. -/
  | unclosed
deriving DecidableEq

/-- Looks for a piece of trivia at the front of a text. -/
def first : Text → Piece
  | [] => .none
  | c :: r =>
    if c.isBlank then .piece [c] r
    else if c = '/' then
      match r with
      | [] => .none
      | d :: r =>
        if d = '/' then
          .piece (c :: d :: r.takeWhile (· != CodePoint.scalar '\n'))
            (r.dropWhile (· != CodePoint.scalar '\n'))
        else if d = '*' then
          match closeBlock 0 r with
          | some (body, rest) => .piece (c :: d :: body) rest
          | Option.none => .unclosed
        else .none
    else .none

/-- What skipping the trivia of a text gives. -/
inductive Skip where
  /-- The trivia in front, and the rest, which starts with none. -/
  | clear (skipped rest : Text)
  /-- The trivia in front of a block comment that is never closed, and that comment. -/
  | unclosed (skipped comment : Text)
deriving DecidableEq

/-- The whole text that was looked at. -/
def Skip.text : Skip → Text
  | .clear skipped rest => skipped ++ rest
  | .unclosed skipped comment => skipped ++ comment

/-- Puts more trivia in front. -/
def Skip.prepend (w : Text) : Skip → Skip
  | .clear skipped rest => .clear (w ++ skipped) rest
  | .unclosed skipped comment => .unclosed (w ++ skipped) comment

theorem closeBlock_eq_append {outer : Nat} {s body rest : Text}
    (h : closeBlock outer s = some (body, rest)) : s = body ++ rest := by
  fun_induction closeBlock outer s generalizing body rest with
  | case1 | case2 => simp at h
  | case3 outer c d r hcd ih | case5 c d r _ hcd outer ih | case6 outer c d r _ _ ih =>
    simp only [Option.map_eq_some_iff, Prod.exists, Prod.mk.injEq] at h
    obtain ⟨b, t, h, rfl, rfl⟩ := h
    simpa using ih h
  | case4 c d r _ _ =>
    simp only [Option.some.injEq, Prod.mk.injEq] at h
    obtain ⟨rfl, rfl⟩ := h
    rfl

/-- A piece of trivia is a front part of the text, and not empty. -/
theorem first_eq_piece {s w rest : Text} (h : first s = .piece w rest) :
    s = w ++ rest ∧ w ≠ [] := by
  unfold first at h
  split at h
  · cases h
  · split at h
    · cases h; simp
    · split at h
      · split at h
        · cases h
        · split at h
          · cases h; simp
          · split at h
            · split at h
              · next hb => cases h; simp [closeBlock_eq_append hb]
              · cases h
            · cases h
      · cases h

theorem length_lt_of_first {s w rest : Text} (h : first s = .piece w rest) :
    rest.length < s.length := by
  obtain ⟨rfl, hw⟩ := first_eq_piece h
  have := List.length_pos_iff.2 hw
  simp only [List.length_append]
  omega

/-- Skips the trivia at the front of a text. -/
def skip (s : Text) : Skip :=
  match _h : first s with
  | .none => .clear [] s
  | .unclosed => .unclosed [] s
  | .piece w rest => (skip rest).prepend w
termination_by s.length
decreasing_by exact length_lt_of_first _h

theorem text_prepend (w : Text) (k : Skip) : (k.prepend w).text = w ++ k.text := by
  cases k <;> simp [Skip.prepend, Skip.text]

/-- Skipping loses nothing of the text. -/
theorem text_skip (s : Text) : (skip s).text = s := by
  fun_induction skip s with
  | case1 | case2 => simp [Skip.text]
  | case3 s w rest h ih => rw [text_prepend, ih, (first_eq_piece h).1]

end Trivia

end Idl
