/-
# Numbers

An integer is written in decimal digits with or without a sign, or without a sign behind `0x`,
`0o` or `0b`.  A decimal number with a fraction or an exponent is a floating point number, and
so are `inf` and `nan`.  Single underscores may stand between digits, and no zeros in front.
-/
import Idl.Binary64
import Idl.Toml.Moment

namespace Idl.Toml

/-- A number as it is written. -/
inductive Numeral where
  /-- The value of an integer behind the mark of its base. -/
  | based (value : Nat)
  /-- A decimal integer with its digits. -/
  | integer (negative : Bool) (digits : Text)
  /-- A floating point number. -/
  | real (value : Binary64)
deriving DecidableEq

namespace Numeral

/-- Digits of a class with single underscores between them; the digits, and the rest. -/
def digitRun? (isDigit : CodePoint → Bool) : Text → Option (Text × Text)
  | [] => none
  | [c] => if isDigit c then some ([c], []) else none
  | c :: d :: r =>
    if isDigit c then
      match if d = '_' then digitRun? isDigit r else digitRun? isDigit (d :: r) with
      | some (digits, rest) => some (c :: digits, rest)
      | none => some ([c], d :: r)
    else none

/-- The base that a letter behind a zero stands for. -/
def base? (c : CodePoint) : Option Nat :=
  if c = 'x' then some 16 else if c = 'o' then some 8 else if c = 'b' then some 2 else none

/-- Whether a code point is a digit in a base of at most sixteen. -/
def isDigitIn (base : Nat) (c : CodePoint) : Bool := c.hexValue?.any (· < base)

/-- Reads an integer behind the mark of its base. -/
def readBased? : Text → Option (Nat × Text)
  | c :: d :: r =>
    if c = '0' then do
      let base ← base? d
      let (digits, rest) ← digitRun? (isDigitIn base) r
      return (digits.foldl (fun n x => base * n + x.hexValue?.getD 0) 0, rest)
    else none
  | _ => none

/-- The sign at the front of a text, and the rest. -/
def readSign : Text → Bool × Text
  | [] => (false, [])
  | c :: r => if c = '-' then (true, r) else if c = '+' then (false, r) else (false, c :: r)

/-- Reads the digits before the point, a zero standing alone. -/
def readWhole? : Text → Option (Text × Text)
  | [] => none
  | c :: r => if c = '0' then some ([c], r) else digitRun? CodePoint.isDigit (c :: r)

/-- Reads a point and digits, if they are there. -/
def readFraction? : Text → Option (Text × Text)
  | [] => none
  | c :: r => if c = '.' then digitRun? CodePoint.isDigit r else none

/-- Reads an exponent, if there is one. -/
def readExponent? : Text → Option (Int × Text)
  | [] => none
  | c :: r =>
    if c = 'e' ∨ c = 'E' then do
      let (negative, r) := readSign r
      let (digits, rest) ← digitRun? CodePoint.isDigit r
      let n : Int := decimalValue digits
      return (if negative then -n else n, rest)
    else none

/-- Reads a decimal number. -/
def readDecimal? (s : Text) : Option (Numeral × Text) := do
  let (negative, s) := readSign s
  let (whole, s) ← readWhole? s
  let fraction? := readFraction? s
  let (fraction, s) := fraction?.getD ([], s)
  let exponent? := readExponent? s
  let (exponent, s) := exponent?.getD (0, s)
  if fraction?.isNone ∧ exponent?.isNone then return (.integer negative whole, s)
  let digits := decimalValue (whole ++ fraction)
  return (.real (Binary64.ofDecimal negative digits (exponent - fraction.length)), s)

/-- Reads `inf` or `nan` with or without a sign. -/
def readSpecial? (s : Text) : Option (Numeral × Text) :=
  let (negative, r) := readSign s
  if r.take 3 = ("inf" : Text) then some (.real (.infinite negative), r.drop 3)
  else if r.take 3 = ("nan" : Text) then some (.real .nan, r.drop 3)
  else none

/-- Reads a number. -/
def read? (s : Text) : Option (Numeral × Text) :=
  (readBased? s).map (fun (n, r) => (.based n, r)) <|> readDecimal? s <|> readSpecial? s

end Numeral

end Idl.Toml
