/-
# Values and tables

A configuration is a table of values by name, in the order in which the names came up.  Values
are found and added along keys: every name of a key but the last leads into a table, which is
made when it is missing.
-/
import Idl.Toml.Number
import Idl.Toml.Quoted

namespace Idl.Toml

/-- A value of a configuration. -/
inductive Value where
  /-- A text. -/
  | text (value : Text)
  /-- An integer. -/
  | integer (value : Int)
  /-- A truth value. -/
  | boolean (value : Bool)
  /-- A floating point number. -/
  | real (value : Binary64)
  /-- A date or a time. -/
  | moment (value : Moment)
  /-- A sequence of values. -/
  | array (values : List Value)
  /-- Values by name. -/
  | table (entries : List (Text × Value))
deriving Inhabited

/-- A table lists its entries; no name occurs twice. -/
abbrev Table := List (Text × Value)

namespace Table

/-- The value under a name. -/
def value? (t : Table) (name : Text) : Option Value := t.lookup name

/-- The table with another value under a name that it has. -/
def replace (t : Table) (name : Text) (v : Value) : Table :=
  t.map fun e => if e.1 = name then (name, v) else e

/-- The table with a value under a new name. -/
def add? (name : Text) (v : Value) (t : Table) : Option Table :=
  if (value? t name).isSome then none else some (t ++ [(name, v)])

/-- Changes the table that a key leads to.  Tables that are missing are made, and where arrays
may be entered the way goes on in the last table of an array. -/
def change? (enterArrays : Bool) (f : Table → Option Table) : Key → Table → Option Table
  | [], t => f t
  | name :: key, t =>
    match value? t name with
    | none => do return t ++ [(name, .table (← change? enterArrays f key []))]
    | some (.table inner) => do
      return t.replace name (.table (← change? enterArrays f key inner))
    | some (.array vs) =>
      match enterArrays, vs.getLast? with
      | true, some (.table inner) => do
        return t.replace name (.array (vs.dropLast ++ [.table (← change? enterArrays f key inner)]))
      | _, _ => none
    | some _ => none

/-- Adds an empty table to the array under a name, which is made when it is missing. -/
def extend? (name : Text) (t : Table) : Option Table :=
  match value? t name with
  | none => some (t ++ [(name, .array [.table []])])
  | some (.array vs) => some (t.replace name (.array (vs ++ [.table []])))
  | some _ => none

end Table

/-! ### Reading values -/

/-- Whether a value is an array or a table, which cannot be added to once it is written out. -/
def Value.isCompound : Value → Bool
  | .array _ | .table _ => true
  | _ => false

/-- The number of digits that a decimal integer has at most. -/
def integerDigitLimit : Nat := 4300

/-- The value of a number. -/
def Numeral.value : Numeral → Except Fault Value
  | .based n => .ok (.integer n)
  | .integer negative digits =>
    let n : Int := decimalValue digits
    if integerDigitLimit < digits.length then .error (.longInteger digits.length)
    else .ok (.integer (if negative then -n else n))
  | .real x => .ok (.real x)

/-- A table that is being written out inside braces. -/
structure InlineTable where
  /-- The entries up to now. -/
  entries : Table
  /-- The keys of the arrays and tables among the values. -/
  closed : List Key

/-- Adds a value under a key.  Nothing is added inside a value that is written out. -/
def InlineTable.add? (t : InlineTable) (key : Key) (v : Value) : Option InlineTable := do
  guard !(t.closed.any (·.isPrefixOf key))
  let name ← key.getLast?
  let entries ← Table.change? false (Table.add? name v) key.dropLast t.entries
  return ⟨entries, if v.isCompound then key :: t.closed else t.closed⟩

/-- Reads a value that is neither an array nor a table. -/
def readScalar (s : Text) : Except Fault (Value × Text) := do
  if let some (t, r) := Quoted.read? s then return (.text t, r)
  if ("true" : Text).isPrefixOf s then return (.boolean true, s.drop 4)
  if ("false" : Text).isPrefixOf s then return (.boolean false, s.drop 5)
  if let some (m, r) := Moment.read? s then return (.moment m, r)
  let (n, r) ← required (Numeral.read? s)
  return (← n.value, r)

mutual

/-- Reads a value with at most so many arrays and tables inside each other. -/
def readValue (levels : Nat) (s : Text) : Except Fault (Value × Text) :=
  match s with
  | [] => .error .malformed
  | c :: r =>
    if c ≠ '[' ∧ c ≠ '\x7b' then readScalar (c :: r)
    else if levels = 0 then .error .tooDeep
    else if c = '[' then do
      let (vs, rest) ← readElements (levels - 1) r
      return (.array vs, rest)
    else
      match skipSpacing r with
      | d :: rest =>
        if d = '\x7d' then .ok (.table [], rest)
        else do
          let (t, rest) ← readEntries (levels - 1) ⟨[], []⟩ r
          return (.table t, rest)
      | [] => .error .malformed
termination_by 3 * s.length

/-- Reads the elements of an array from behind the opening bracket or a comma; after a comma
there need be no element. -/
def readElements (levels : Nat) (s : Text) : Except Fault (List Value × Text) := do
  let s' ← required (skipLayout? false s)
  if s'.head? = some (CodePoint.scalar ']') then return ([], s'.tail)
  if _h : s'.length ≤ s.length then
    let (v, r) ← readValue levels s'
    match ← required (skipLayout? false r) with
    | [] => throw .malformed
    | c :: r =>
      if c = ']' then return ([v], r)
      else if _h : c = ',' ∧ r.length < s.length then
        let (vs, r) ← readElements levels r
        return (v :: vs, r)
      else throw .malformed
  else throw .malformed
termination_by 3 * s.length + 1

/-- Reads the entries of a table from behind the opening brace or a comma; after a comma there
has to be an entry. -/
def readEntries (levels : Nat) (t : InlineTable) (s : Text) :
    Except Fault (Table × Text) := do
  let (key, v, r) ← readEntry levels s
  let t ← required (t.add? key v)
  match skipSpacing r with
  | [] => throw .malformed
  | c :: r =>
    if c = '\x7d' then return (t.entries, r)
    else if _h : c = ',' ∧ r.length < s.length then readEntries levels t r
    else throw .malformed
termination_by 3 * s.length + 2

/-- Reads a key, an equals sign and a value, with spacing in front of each. -/
def readEntry (levels : Nat) (s : Text) : Except Fault (Key × Value × Text) := do
  let (key, r) ← required (Key.read? (skipSpacing s))
  match r with
  | [] => throw .malformed
  | c :: r =>
    if _h : c = '=' ∧ (skipSpacing r).length < s.length then
      let (v, r) ← readValue levels (skipSpacing r)
      return (key, v, r)
    else throw .malformed
termination_by 3 * s.length + 1

end

end Idl.Toml
