/-
# Escape sequences

A terminal takes a control sequence for a command, most often for a colour.  Such a sequence
is an escape character, an opening bracket, any parameter bytes from `0` to `?`, behind them
any intermediate bytes from the blank to `/`, and one final byte from `@` to `~`.  Where the
output is no terminal such sequences are left out; what only begins like one is kept.
-/
import Idl.Text

namespace Idl

namespace CodePoint

/-- The escape character. -/
def escape : CodePoint := '\x1b'

/-- Whether a code point can stand among the parameters of a sequence. -/
def isSequenceParameter (c : CodePoint) : Bool := c.isBetween '0' '?'

/-- Whether a code point can stand between the parameters and the end of a sequence. -/
def isSequenceIntermediate (c : CodePoint) : Bool := c.isBetween ' ' '/'

/-- Whether a code point ends a sequence. -/
def isSequenceFinal (c : CodePoint) : Bool := c.isBetween '@' '~'

end CodePoint

namespace Text

/-- What is left of a text behind the parameters and intermediates of a sequence. -/
def behindParameters (s : Text) : Text :=
  (s.dropWhile CodePoint.isSequenceParameter).dropWhile CodePoint.isSequenceIntermediate

/-- The text behind an escape sequence, from behind its escape character, if there is one. -/
def behindSequence? : Text → Option Text
  | [] => none
  | c :: r =>
    if c = '[' then
      match behindParameters r with
      | [] => none
      | d :: rest => if d.isSequenceFinal then some rest else none
    else none

theorem length_behindParameters_le (s : Text) : (behindParameters s).length ≤ s.length :=
  ((List.dropWhile_sublist _).trans (List.dropWhile_sublist _)).length_le

theorem length_lt_of_behindSequence? {s rest : Text} (h : behindSequence? s = some rest) :
    rest.length < s.length := by
  cases s with
  | nil => simp [behindSequence?] at h
  | cons c r =>
    simp only [behindSequence?] at h
    split at h
    · split at h
      · simp at h
      · next d rest' hd =>
        split at h
        · cases h
          have hs := length_behindParameters_le r
          rw [hd] at hs
          simp only [List.length_cons] at hs ⊢
          omega
        · simp at h
    · simp at h

/-- The text without its escape sequences. -/
def withoutSequences (s : Text) : Text :=
  match s with
  | [] => []
  | c :: r =>
    if c = CodePoint.escape then
      match _h : behindSequence? r with
      | some rest => withoutSequences rest
      | none => c :: withoutSequences r
    else c :: withoutSequences r
termination_by s.length
decreasing_by
  · have := length_lt_of_behindSequence? _h
    simp only [List.length_cons]
    omega
  · simp
  · simp

end Text

end Idl
