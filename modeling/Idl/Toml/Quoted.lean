/-
# Texts and keys

A text stands between quotation marks, where a backslash starts an escape, or between
apostrophes, where it does not.  Three marks in a row delimit a text over several lines: a line
end right behind them does not count, a backslash at the end of a line takes the layout behind
it away, and up to two marks may stand in front of the closing three.
-/
import Idl.Toml.Layout

namespace Idl.Toml

namespace Quoted

/-- Whether a code point is forbidden in a text, line ends being allowed in some. -/
def isForbiddenIn (multiline : Bool) (c : CodePoint) : Bool :=
  isForbidden c && !(multiline && c = '\n')

/-- The text before the first occurrence of a mark, and the text behind it. -/
def cutAt? (mark : Text) : Text → Option (Text × Text)
  | [] => none
  | c :: r =>
    if mark.isPrefixOf (c :: r) then some ([], (c :: r).drop mark.length)
    else (cutAt? mark r).map fun (w, rest) => (c :: w, rest)

/-- The marks of a text: one, or three for several lines. -/
def marks (multiline : Bool) (mark : CodePoint) : Text :=
  Text.repeated (if multiline then 3 else 1) mark

/-- Reads the body of a text between apostrophes. -/
def literalBody? (multiline : Bool) (s : Text) : Option (Text × Text) := do
  let (w, rest) ← cutAt? (marks multiline '\'') s
  guard !(w.any (isForbiddenIn multiline))
  return (w, rest)

/-- The code point that a letter behind a backslash stands for. -/
def simpleEscape? (c : CodePoint) : Option CodePoint :=
  if c = 'b' then some '\x08'
  else if c = 't' then some '\t'
  else if c = 'n' then some '\n'
  else if c = 'f' then some '\x0c'
  else if c = 'r' then some '\r'
  else if c = '"' then some '"'
  else if c = '\\' then some '\\'
  else none

/-- Reads so many hexadecimal digits as the number of a character; surrogates are none. -/
def character? (width : Nat) (s : Text) : Option (Text × Text) := do
  let digits := s.take width
  guard (digits.length = width)
  let n ← Text.hexValue? digits
  guard (n < 0xD800 || (0xE000 ≤ n && n ≤ 0x10FFFF))
  return ([CodePoint.ofNat n], s.drop width)

/-- Reads an escape from behind its backslash: what it stands for, and the rest. -/
def escape? (multiline : Bool) : Text → Option (Text × Text)
  | [] => none
  | c :: r =>
    if multiline && isLayout c then
      match skipSpacing (c :: r) with
      | [] => none
      | d :: r => if d = '\n' then some ([], r.dropWhile isLayout) else none
    else if c = 'u' then character? 4 r
    else if c = 'U' then character? 8 r
    else (simpleEscape? c).map fun x => ([x], r)

/-- Reads the body of a text between quotation marks. -/
def basicBody? (multiline : Bool) (s : Text) : Option (Text × Text) :=
  match s with
  | [] => none
  | c :: r =>
    if (marks multiline '"').isPrefixOf (c :: r) then
      some ([], (c :: r).drop (marks multiline '"').length)
    else if c = '\\' then
      match escape? multiline r with
      | none => none
      | some (w, rest) =>
        if _h : rest.length ≤ r.length then
          (basicBody? multiline rest).map fun (v, rest) => (w ++ v, rest)
        else none
    else if isForbiddenIn multiline c then none
    else (basicBody? multiline r).map fun (v, rest) => (c :: v, rest)
termination_by s.length
decreasing_by all_goals simp only [List.length_cons]; omega

/-- Adds up to two marks at the front of the rest to a text over several lines. -/
def withMarksBehind (mark : CodePoint) (w : Text) (rest : Text) : Text × Text :=
  let more := (rest.take 2).takeWhile fun c : CodePoint => c = mark
  (w ++ more, rest.drop more.length)

/-- Reads a text on one line. -/
def readLine? : Text → Option (Text × Text)
  | [] => none
  | c :: r =>
    if c = '"' then basicBody? false r
    else if c = '\'' then literalBody? false r
    else none

/-- Reads the body of a text over several lines and the marks behind it. -/
def readLines? (mark : CodePoint) (body? : Bool → Text → Option (Text × Text)) (s : Text) :
    Option (Text × Text) := do
  let (w, rest) ← body? true (if s.head? = some (CodePoint.scalar '\n') then s.tail else s)
  return withMarksBehind mark w rest

/-- Reads a text of any form. -/
def read? (s : Text) : Option (Text × Text) :=
  if (marks true '"').isPrefixOf s then readLines? '"' basicBody? (s.drop 3)
  else if (marks true '\'').isPrefixOf s then readLines? '\'' literalBody? (s.drop 3)
  else readLine? s

end Quoted

/-- A key is a list of names, each inside the table of the one before. -/
abbrev Key := List Text

namespace Key

/-- Whether a code point can stand in a name without marks. -/
def isBare (c : CodePoint) : Bool :=
  c.isBetween 'a' 'z' || c.isBetween 'A' 'Z' || c.isDigit || c = '-' || c = '_'

/-- Reads one name of a key. -/
def readName? (s : Text) : Option (Text × Text) :=
  let bare := s.takeWhile isBare
  if bare = [] then Quoted.readLine? s else some (bare, s.dropWhile isBare)

/-- Reads a dotted key and the spacing behind it. -/
def read? (s : Text) : Option (Key × Text) :=
  match readName? s with
  | none => none
  | some (name, r) =>
    match skipSpacing r with
    | [] => some ([name], [])
    | c :: r =>
      if c = '.' then
        let r := skipSpacing r
        if _h : r.length < s.length then (read? r).map fun (names, rest) => (name :: names, rest)
        else none
      else some ([name], c :: r)
termination_by s.length

end Key

end Idl.Toml
