/-
# Dates and times

A value of a configuration may be a date, a time of day, or both with or without the distance
from universal time.  Only days that exist in the calendar are read, and of the fraction of a
second the first six digits count.
-/
import Idl.Text

namespace Idl.Toml

/-- A day of the calendar. -/
structure Date where
  /-- The year, from 1. -/
  year : Nat
  /-- The month, from 1. -/
  month : Nat
  /-- The day of the month, from 1. -/
  day : Nat
deriving DecidableEq, Inhabited

/-- A time of day. -/
structure Time where
  /-- The hour, from 0. -/
  hour : Nat
  /-- The minute, from 0. -/
  minute : Nat
  /-- The second, from 0. -/
  second : Nat
  /-- The millionth parts of a second. -/
  microsecond : Nat
deriving DecidableEq, Inhabited

/-- A date, a time, or both. -/
inductive Moment where
  /-- A day. -/
  | date (d : Date)
  /-- A time of day. -/
  | time (t : Time)
  /-- A time on a day, and how many minutes it is ahead of universal time, if that is known. -/
  | dateTime (d : Date) (t : Time) (offset : Option Int)
deriving DecidableEq, Inhabited

/-- The number that decimal digits stand for. -/
def decimalValue (digits : Text) : Nat :=
  digits.foldl (fun n c => 10 * n + (c.toNat - '0'.toNat)) 0

namespace Date

/-- Whether a year has a day more. -/
def isLeapYear (year : Nat) : Bool := year % 4 = 0 && (year % 100 ≠ 0 || year % 400 = 0)

/-- The number of days of a month. -/
def daysOf (year month : Nat) : Nat :=
  if month = 2 then if isLeapYear year then 29 else 28
  else if month ∈ [4, 6, 9, 11] then 30
  else 31

/-- Whether a day exists. -/
def exists? (d : Date) : Bool :=
  1 ≤ d.year && 1 ≤ d.month && d.month ≤ 12 && 1 ≤ d.day && d.day ≤ daysOf d.year d.month

end Date

/-! ### Reading -/

/-- So many decimal digits at the front of a text as a number, and the rest. -/
def digits? (count : Nat) (s : Text) : Option (Nat × Text) :=
  let w := s.take count
  if w.length = count ∧ w.all CodePoint.isDigit then some (decimalValue w, s.drop count) else none

/-- The rest of a text behind a code point at its front. -/
def behind? (c : CodePoint) : Text → Option Text
  | [] => none
  | d :: r => if d = c then some r else none

/-- Reads `YYYY-MM-DD`. -/
def Date.read? (s : Text) : Option (Date × Text) := do
  let (year, s) ← digits? 4 s
  let (month, s) ← digits? 2 (← behind? '-' s)
  let (day, s) ← digits? 2 (← behind? '-' s)
  let d : Date := ⟨year, month, day⟩
  guard d.exists?
  return (d, s)

namespace Time

/-- Reads the fraction of a second, if there is one, in millionth parts. -/
def readFraction : Text → Nat × Text
  | [] => (0, [])
  | c :: r =>
    let digits := r.takeWhile CodePoint.isDigit
    if c = '.' ∧ digits ≠ [] then
      (decimalValue ((digits ++ Text.repeated 6 '0').take 6), r.dropWhile CodePoint.isDigit)
    else (0, c :: r)

/-- Reads `HH:MM:SS` with or without a fraction. -/
def read? (s : Text) : Option (Time × Text) := do
  let (hour, s) ← digits? 2 s
  let (minute, s) ← digits? 2 (← behind? ':' s)
  let (second, s) ← digits? 2 (← behind? ':' s)
  guard (hour < 24 && minute < 60 && second < 60)
  let (microsecond, s) := readFraction s
  return (⟨hour, minute, second, microsecond⟩, s)

end Time

namespace Moment

/-- Reads the distance from universal time in minutes: `Z`, or a sign and `HH:MM`. -/
def readOffset? : Text → Option (Int × Text)
  | [] => none
  | c :: r =>
    if c = 'Z' ∨ c = 'z' then some (0, r)
    else if c = '+' ∨ c = '-' then do
      let (hours, r) ← digits? 2 r
      let (minutes, r) ← digits? 2 (← behind? ':' r)
      guard (hours < 24 && minutes < 60)
      let offset : Int := 60 * hours + minutes
      return (if c = '-' then -offset else offset, r)
    else none

/-- Reads what stands behind a date: a time and an offset behind `T` or a space, if they are
there. -/
def readBehindDate (d : Date) (s : Text) : Moment × Text :=
  match s with
  | [] => (.date d, [])
  | c :: r =>
    if c = 'T' ∨ c = 't' ∨ c = ' ' then
      match Time.read? r with
      | none => (.date d, s)
      | some (t, r) =>
        match readOffset? r with
        | none => (.dateTime d t none, r)
        | some (offset, r) => (.dateTime d t (some offset), r)
    else (.date d, s)

/-- Reads a date, a time, or both. -/
def read? (s : Text) : Option (Moment × Text) :=
  match Date.read? s with
  | some (d, s) => some (readBehindDate d s)
  | none => (Time.read? s).map fun (t, s) => (.time t, s)

end Moment

/-! ### Writing -/

/-- A number in decimal digits, zeros in front up to a width. -/
def padded (width n : Nat) : Text :=
  let digits := Text.ofNat n
  Text.repeated (width - digits.length) '0' ++ digits

/-- A date as `YYYY-MM-DD`. -/
def Date.write (d : Date) : Text :=
  padded 4 d.year ++ "-" ++ padded 2 d.month ++ "-" ++ padded 2 d.day

/-- A time as `HH:MM:SS`, with six digits of a fraction that is not zero. -/
def Time.write (t : Time) : Text :=
  let fraction : Text := if t.microsecond = 0 then [] else "." ++ padded 6 t.microsecond
  padded 2 t.hour ++ ":" ++ padded 2 t.minute ++ ":" ++ padded 2 t.second ++ fraction

namespace Moment

/-- An offset as a sign and `HH:MM`; no offset has the minus sign without need. -/
def writeOffset (offset : Int) : Text :=
  (if offset < 0 then ("-" : Text) else "+") ++ padded 2 (offset.natAbs / 60) ++ ":" ++
    padded 2 (offset.natAbs % 60)

/-- A moment as a text. -/
def write : Moment → Text
  | .date d => d.write
  | .time t => t.write
  | .dateTime d t none => d.write ++ "T" ++ t.write
  | .dateTime d t (some offset) => d.write ++ "T" ++ t.write ++ writeOffset offset

end Moment

end Idl.Toml
