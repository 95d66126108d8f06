/-
# Text

The library reads, compares and writes texts as lists of code points.  A code point is a
Unicode scalar value or a lone surrogate: the escapes of a string literal can name a
surrogate, and such a value has to survive being stored, printed and read again.

Literals of the program are written as ordinary strings and coerced.
-/
namespace Idl

/-- A Unicode code point: a scalar value, or the surrogate `U+D800 + offset`. -/
inductive CodePoint where
  /-- A code point that a `Char` can hold. -/
  | scalar (c : Char)
  /-- A surrogate, by its distance from `U+D800`. -/
  | surrogate (offset : Fin 0x800)
deriving DecidableEq, Inhabited

namespace CodePoint

instance : Coe Char CodePoint := ⟨.scalar⟩

/-- The number of a code point. -/
def toNat : CodePoint → Nat
  | .scalar c => c.toNat
  | .surrogate n => 0xD800 + n.val

/-- The code point with a given number; numbers past `U+10FFFF` give `U+0000`. -/
def ofNat (n : Nat) : CodePoint :=
  if h : 0xD800 ≤ n ∧ n < 0xE000 then .surrogate ⟨n - 0xD800, by omega⟩
  else .scalar (Char.ofNat n)

/-- Whether a code point is a surrogate, so that no UTF-8 file can hold it. -/
def isSurrogate : CodePoint → Bool
  | .scalar _ => false
  | .surrogate _ => true

/-- The number of bytes that a code point takes in UTF-8. -/
def utf8Size (c : CodePoint) : Nat :=
  if c.toNat < 0x80 then 1 else if c.toNat < 0x800 then 2 else if c.toNat < 0x10000 then 3 else 4

/-- Whether a code point lies between two characters, both included. -/
def isBetween (lo hi : Char) (c : CodePoint) : Bool :=
  lo.toNat ≤ c.toNat && c.toNat ≤ hi.toNat

/-- Whether a code point is one of the digits `0` to `9`. -/
def isDigit (c : CodePoint) : Bool := c.isBetween '0' '9'

/-- The value of a hexadecimal digit, in either case. -/
def hexValue? (c : CodePoint) : Option Nat :=
  if c.isBetween '0' '9' then some (c.toNat - '0'.toNat)
  else if c.isBetween 'a' 'f' then some (c.toNat - 'a'.toNat + 10)
  else if c.isBetween 'A' 'F' then some (c.toNat - 'A'.toNat + 10)
  else none

/-- Whether a code point is a hexadecimal digit. -/
def isHexDigit (c : CodePoint) : Bool := c.hexValue?.isSome

end CodePoint

/-- A text is the list of its code points. -/
abbrev Text := List CodePoint

namespace Text

/-- The text of a string. -/
def ofString (s : String) : Text := s.toList.map CodePoint.scalar

instance : Coe String Text := ⟨ofString⟩

/-- The string of a text.  No string holds surrogates, which are left out. -/
def toString (t : Text) : String :=
  String.ofList (t.filterMap fun
    | .scalar c => some c
    | .surrogate _ => none)

/-- The same code point, a number of times. -/
def repeated (n : Nat) (c : CodePoint) : Text := List.replicate n c

/-- So many spaces; none for a negative number. -/
def spaces (n : Int) : Text := repeated n.toNat ' '

/-- A natural number in decimal digits. -/
def ofNat (n : Nat) : Text := ofString (Nat.repr n)

/-- An integer in decimal digits, with a minus sign in front of a negative one. -/
def ofInt (n : Int) : Text := if n < 0 then '-' :: ofNat n.natAbs else ofNat n.natAbs

/-- The digits of a number in lower-case hexadecimal, zeros in front up to a width. -/
def ofHex (width n : Nat) : Text :=
  let digits := (Nat.toDigits 16 n).map CodePoint.scalar
  repeated (width - digits.length) '0' ++ digits

/-- The pieces in order, with a separator between each two. -/
def join (sep : Text) : List Text → Text
  | [] => []
  | [t] => t
  | t :: ts => t ++ sep ++ join sep ts

/-- The pieces between the occurrences of a code point; never the empty list. -/
def pieces (sep : CodePoint) : Text → List Text
  | [] => [[]]
  | c :: r =>
    if c = sep then [] :: pieces sep r
    else match pieces sep r with
      | [] => [[c]]
      | w :: ws => (c :: w) :: ws

/-- The order of texts by the numbers of their code points, a prefix before its extensions. -/
def le : Text → Text → Bool
  | [], _ => true
  | _ :: _, [] => false
  | a :: s, b :: t => a.toNat < b.toNat || (a = b && le s t)

/-- The number of bytes that a text takes in UTF-8. -/
def utf8Size (t : Text) : Nat := t.foldl (fun n c => n + c.utf8Size) 0

/-- Whether a text holds a surrogate, so that no UTF-8 file can hold the text. -/
def hasSurrogate (t : Text) : Bool := t.any CodePoint.isSurrogate

/-- The value of a run of hexadecimal digits, most significant first, if all are digits. -/
def hexValue? : Text → Option Nat :=
  List.foldlM (fun n c => c.hexValue?.map (16 * n + ·)) 0

end Text

end Idl
