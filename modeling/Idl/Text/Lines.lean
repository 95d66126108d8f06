/-
# Lines

A text falls into lines at every line break.  The breaks are `\n`, `\r`, the pair `\r\n`,
the vertical tab, the form feed, the information separators `U+001C` to `U+001E`, the next
line `U+0085`, and the line and paragraph separators `U+2028` and `U+2029`.  A break ends
its line, so a text that ends with a break has no empty line after it.
-/
import Idl.Text

namespace Idl

/-- Whether a code point ends a line. -/
def CodePoint.isLineBreak (c : CodePoint) : Bool :=
  let n := c.toNat
  (0x0A ≤ n && n ≤ 0x0D) || (0x1C ≤ n && n ≤ 0x1E) || n = 0x85 || n = 0x2028 || n = 0x2029

namespace Text

/-- Puts a text in front of the first line. -/
def ontoFirst (w : Text) : List Text → List Text
  | [] => [w]
  | l :: ls => (w ++ l) :: ls

/-- The lines of a text, without their breaks. -/
def lines : Text → List Text
  | [] => []
  | [c] => if c.isLineBreak then [[]] else [[c]]
  | c :: d :: r =>
    if c = '\r' ∧ d = '\n' then [] :: lines r
    else if c.isLineBreak then [] :: lines (d :: r)
    else ontoFirst [c] (lines (d :: r))

/-- The lines of a text, each with its break. -/
def brokenLines : Text → List Text
  | [] => []
  | [c] => [[c]]
  | c :: d :: r =>
    if c = '\r' ∧ d = '\n' then [c, d] :: brokenLines r
    else if c.isLineBreak then [c] :: brokenLines (d :: r)
    else ontoFirst [c] (brokenLines (d :: r))

/-- The line of a number, counted from 1, if there is one. -/
def numbered (ls : List Text) (n : Int) : Option Text :=
  if 1 ≤ n then ls[n.toNat - 1]? else none

/-- The line of a text with a number. -/
def lineAt (t : Text) (n : Int) : Option Text := numbered t.lines n

/-- The text with each `\r\n` and each other `\r` written as `\n`. -/
def withPlainBreaks : Text → Text
  | [] => []
  | [c] => if c = '\r' then ['\n'] else [c]
  | c :: d :: r =>
    if c = '\r' ∧ d = '\n' then '\n' :: withPlainBreaks r
    else if c = '\r' then '\n' :: withPlainBreaks (d :: r)
    else c :: withPlainBreaks (d :: r)

end Text

end Idl
