/-
# Binary floating point numbers of 64 bits

A finite number is a sign, a mantissa of at most 53 bits and a power of two.  A decimal is read
as the nearest of the numbers there are, and of two that are equally near as the one with the
even mantissa.  A number is written with the fewest digits that are read back as it.  All
arithmetic is on natural numbers.
-/
import Idl.Text

namespace Idl

/-- A binary floating point number of 64 bits. -/
inductive Binary64 where
  /-- Not a number. -/
  | nan
  /-- An infinity. -/
  | infinite (negative : Bool)
  /-- The number `mantissa * 2 ^ exponent` with a sign.  The mantissa is below `2 ^ 53`, and
  at least `2 ^ 52` unless the exponent is the least one. -/
  | finite (negative : Bool) (mantissa : Nat) (exponent : Int)
deriving DecidableEq, Inhabited

namespace Binary64

/-- What a mantissa stays below, `2 ^ 53`. -/
def mantissaLimit : Nat := 0x20000000000000

/-- The least mantissa but for the smallest numbers, `2 ^ 52`. -/
def leastMantissa : Nat := 0x10000000000000

/-- The exponent of the smallest numbers. -/
def leastExponent : Int := -1074

/-- The exponent of the largest numbers. -/
def greatestExponent : Int := 971

/-- Zero with a sign. -/
def zero (negative : Bool) : Binary64 := .finite negative 0 leastExponent

/-- The quotient rounded to the nearest number, a half to the even neighbour. -/
def roundedQuotient (num den : Nat) : Nat :=
  let q := num / den
  let r := num % den
  if den < 2 * r ∨ den = 2 * r ∧ q % 2 = 1 then q + 1 else q

/-- A fraction divided by a power of two. -/
def scaled (num den : Nat) (e : Int) : Nat × Nat :=
  (num * Nat.pow 2 (-e).toNat, den * Nat.pow 2 e.toNat)

/-- The exponent that leaves a fraction with 53 bits in front of the point, or the least
exponent. -/
def exponentFor (num den : Nat) : Int :=
  let e := (num.log2 : Int) - den.log2 - 52
  let (n, d) := scaled num den e
  max leastExponent (if n / d < leastMantissa then e - 1 else e)

/-- The number nearest to a fraction. -/
def nearest (negative : Bool) (num den : Nat) : Binary64 :=
  let e := exponentFor num den
  let (n, d) := scaled num den e
  let m := roundedQuotient n d
  let (m, e) := if m = mantissaLimit then (leastMantissa, e + 1) else (m, e)
  if greatestExponent < e then .infinite negative else .finite negative m e

/-- The number nearest to `digits * 10 ^ exponent`.  What is clearly too large or too small is
decided by the place of the first digit. -/
def ofDecimal (negative : Bool) (digits : Nat) (exponent : Int) : Binary64 :=
  let place := (Nat.toDigits 10 digits).length + exponent
  if digits = 0 ∨ place < -330 then zero negative
  else if 310 < place then .infinite negative
  else nearest negative (digits * Nat.pow 10 exponent.toNat) (Nat.pow 10 (-exponent).toNat)

end Binary64

/-! ### Shortest decimals

Every real number that is nearer to a floating point number than to its neighbours is read as
that number.  Of the decimals among those real numbers, there is one with as few digits
as possible, and of these the one nearest to the number itself.

On each decimal grid only the two points around the number have to be looked at: if any point
of the grid lies in the interval, one of these does. -/

/-- The number `digits * 10 ^ exponent`. -/
structure Decimal where
  /-- The digits, read as a number. -/
  digits : Nat
  /-- The power of ten. -/
  exponent : Int
deriving DecidableEq, Inhabited

namespace Binary64

/-- The power of ten of the first digit of a fraction. -/
def firstPlace (num den : Nat) : Int :=
  let k := ((Nat.toDigits 10 num).length : Int) - (Nat.toDigits 10 den).length
  if den * Nat.pow 10 k.toNat ≤ num * Nat.pow 10 (-k).toNat then k else k - 1

/-- A number seen on a decimal grid: the step of the grid, the number, and the ends of the
interval of what is read as that number, all in one unit. -/
structure Grid where
  /-- The distance of neighbours on the grid. -/
  step : Nat
  /-- The number. -/
  value : Nat
  /-- The lower end of the interval. -/
  low : Nat
  /-- The upper end of the interval. -/
  high : Nat
  /-- Whether the ends belong to the interval. -/
  closed : Bool

namespace Grid

/-- The number `m * 2 ^ e` on the grid of the multiples of `10 ^ place`.  The interval goes
half the way to each neighbour, and the lower neighbour of a power of two is only half as far
away as the upper one. -/
def ofNumber (m : Nat) (e place : Int) : Grid :=
  let quarter := Nat.pow 2 (e - 2).toNat * Nat.pow 10 (-place).toNat
  let below := if m = leastMantissa ∧ e ≠ leastExponent then 1 else 2
  { step := Nat.pow 10 place.toNat * Nat.pow 2 (2 - e).toNat
    value := 4 * m * quarter
    low := (4 * m - below) * quarter
    high := (4 * m + 2) * quarter
    closed := m % 2 = 0 }

/-- Whether a point of the grid lies in the interval. -/
def holds (g : Grid) (n : Nat) : Bool :=
  let x := n * g.step
  (g.low < x && x < g.high) || (g.closed && (x = g.low || x = g.high))

/-- The point of the grid in the interval that is nearest to the number, if there is one.  Of
two that are equally near, it is the even one. -/
def nearest? (g : Grid) : Option Nat :=
  let n := g.value / g.step
  match g.holds n, g.holds (n + 1) with
  | true, true => some (roundedQuotient g.value g.step)
  | true, false => some n
  | false, true => some (n + 1)
  | false, false => none

end Grid

/-- The shortest decimal that is read as `m * 2 ^ e`, for a positive `m`.  Seventeen digits are
always enough. -/
def shortest (m : Nat) (e : Int) : Decimal :=
  let first := firstPlace (m * Nat.pow 2 e.toNat) (Nat.pow 2 (-e).toNat)
  let decimal? (n : Nat) : Option Decimal :=
    let place := first - n
    ((Grid.ofNumber m e place).nearest?).map fun digits => ⟨digits, place⟩
  ((List.range 17).findSome? decimal?).getD default

end Binary64

/-! ### Written floating point numbers

A number is written with its shortest digits.  Where the point stands among or near the
digits, the number is written positionally, and otherwise with an exponent. -/

/-- How a decimal is laid out. -/
structure DecimalLayout where
  /-- The least power of ten of a first digit that is written positionally. -/
  leastPlace : Int
  /-- The greatest power of ten of a first digit that is written positionally. -/
  greatestPlace : Int
  /-- The number of digits that an exponent has at least. -/
  exponentWidth : Nat

namespace DecimalLayout

/-- Digits with a point behind so many of them, zeros filling the gap on either side.  There
is a digit on each side of the point. -/
def positional (digits : Text) (point : Int) : Text :=
  if point ≤ 0 then "0." ++ Text.repeated (-point).toNat '0' ++ digits
  else
    let before := digits.take point.toNat
    let after := digits.drop point.toNat
    before ++ Text.repeated (point.toNat - before.length) '0' ++ "." ++
      (if after = [] then ("0" : Text) else after)

/-- Digits with a point behind the first, unless there is only one, and an exponent with its
sign. -/
def exponential (width : Nat) (digits : Text) (place : Int) : Text :=
  let exponent := Text.ofNat place.natAbs
  let fraction : Text := if digits.length ≤ 1 then [] else "." ++ digits.drop 1
  let sign : Text := if place < 0 then "-" else "+"
  digits.take 1 ++ fraction ++ "e" ++ sign ++
    Text.repeated (width - exponent.length) '0' ++ exponent

/-- A decimal as a text. -/
def write (l : DecimalLayout) (d : Decimal) : Text :=
  let all := Text.ofNat d.digits
  let place := all.length + d.exponent - 1
  let digits := (all.reverse.dropWhile fun c : CodePoint => c = '0').reverse
  if l.leastPlace ≤ place ∧ place ≤ l.greatestPlace then positional digits (place + 1)
  else exponential l.exponentWidth digits place

end DecimalLayout

namespace Binary64

/-- Numbers from `0.0001` to below `10 ^ 16` are written positionally; an exponent has at
least two digits. -/
def layout : DecimalLayout := ⟨-4, 15, 2⟩

/-- A minus sign for a negative number. -/
def signText (negative : Bool) : Text := if negative then "-" else []

/-- A number as a text. -/
def write : Binary64 → Text
  | .nan => "nan"
  | .infinite negative => signText negative ++ "inf"
  | .finite negative 0 _ => signText negative ++ "0.0"
  | .finite negative m e => signText negative ++ layout.write (shortest m e)

end Binary64

end Idl
