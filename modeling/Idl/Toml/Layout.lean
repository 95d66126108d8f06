/-
# Layout of configuration texts

Configurations are written in TOML.  This file has what stands between its parts: spacing,
line ends, and comments from `#` to the end of the line.  Control characters other than the
tab are forbidden wherever text is free.
-/
import Idl.Text

namespace Idl.Toml

/-- Why a text is no TOML document. -/
inductive Fault where
  /-- The text breaks a rule of the format. -/
  | malformed
  /-- A decimal integer has more digits than are read. -/
  | longInteger (digits : Nat)
  /-- Arrays and tables are nested past the limit. -/
  | tooDeep
deriving DecidableEq, Inhabited

/-- A part that has to be there. -/
def required {α : Type} : Option α → Except Fault α
  | some a => .ok a
  | none => .error .malformed

/-- Whether a code point is spacing within a line. -/
def isSpacing (c : CodePoint) : Bool := c = ' ' || c = '\t'

/-- Whether a code point is spacing or a line end. -/
def isLayout (c : CodePoint) : Bool := isSpacing c || c = '\n'

/-- Whether a code point is forbidden in comments and in texts on one line. -/
def isForbidden (c : CodePoint) : Bool := (c.toNat < 0x20 && c ≠ '\t') || c.toNat = 0x7F

/-- The text behind the spacing at its front. -/
def skipSpacing (s : Text) : Text := s.dropWhile isSpacing

/-- The text behind spacing, line ends and comments at its front.  The flag tells whether the
front is inside a comment. -/
def skipLayout? : Bool → Text → Option Text
  | _, [] => some []
  | true, c :: r =>
    if c = '\n' then skipLayout? false r
    else if isForbidden c then none
    else skipLayout? true r
  | false, c :: r =>
    if isLayout c then skipLayout? false r
    else if c = '#' then skipLayout? true r
    else some (c :: r)

/-- The text behind the end of the current line, if only spacing and a comment stand before
it.  The flag tells whether the front is inside the comment. -/
def endLine? : Bool → Text → Option Text
  | _, [] => some []
  | comment, c :: r =>
    if c = '\n' then some r
    else if comment then if isForbidden c then none else endLine? true r
    else if isSpacing c then endLine? false r
    else if c = '#' then endLine? true r
    else none

end Idl.Toml
