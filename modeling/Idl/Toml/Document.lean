/-
# Documents

A document is a sequence of lines.  A line `[key]` opens the table at a key, a line `[[key]]`
adds a table to the array at a key and opens it, and a line `key = value` adds an entry to the
table that is open.

A table is opened at most once, and neither what is written out in brackets or braces nor a
table made by dotted keys is opened or added to from elsewhere.  For this, a document keeps the
keys that were spoken for.
-/
import Idl.Machine
import Idl.Toml.Table

namespace Idl.Toml

/-- A document as far as it is read. -/
structure Document where
  /-- The entries of the whole document. -/
  entries : Table
  /-- The key of the table that is open. -/
  header : Key
  /-- The keys of arrays and tables that are written out; nothing is added inside them. -/
  closed : List Key
  /-- The keys of tables that were opened; they are not opened again. -/
  opened : List Key
  /-- The keys of tables that dotted keys made since the last header.  They count as opened as
  soon as the next header comes. -/
  pending : List Key

namespace Document

/-- The document without lines. -/
def empty : Document := ⟨[], [], [], [], []⟩

/-- Whether a key lies inside something that is written out. -/
def isClosed (d : Document) (key : Key) : Bool := d.closed.any (·.isPrefixOf key)

/-- The document with the tables made by dotted keys counted as opened. -/
def settled (d : Document) : Document := { d with opened := d.pending ++ d.opened, pending := [] }

/-- Opens the table at a key. -/
def openTable? (d : Document) (key : Key) : Option Document := do
  guard !(d.opened.contains key || d.isClosed key)
  let entries ← Table.change? true some key d.entries
  return { d with entries, header := key, opened := key :: d.opened }

/-- Adds a table to the array at a key and opens it.  What was said about keys inside the array
belonged to its tables up to now, and is forgotten. -/
def extendArray? (d : Document) (key : Key) : Option Document := do
  guard !(d.isClosed key)
  let name ← key.getLast?
  let entries ← Table.change? true (Table.extend? name) key.dropLast d.entries
  let outside (k : Key) : Bool := !(key.isPrefixOf k)
  return { d with
    entries, header := key
    closed := d.closed.filter outside
    opened := key :: d.opened.filter outside }

/-- The keys of the tables between a header and the last name of a key. -/
def between (header : Key) : Key → List Key
  | [] => []
  | [_] => []
  | name :: key => (header ++ [name]) :: between (header ++ [name]) key

/-- Adds an entry to the table that is open. -/
def addEntry? (d : Document) (key : Key) (v : Value) : Option Document := do
  let made := between d.header key
  guard !(made.any d.opened.contains)
  let full := d.header ++ key
  guard !(d.isClosed full.dropLast)
  let name ← full.getLast?
  let entries ← Table.change? true (Table.add? name v) full.dropLast d.entries
  return { d with
    entries
    closed := if v.isCompound then full :: d.closed else d.closed
    pending := made ++ d.pending }

/-- Reads a header from behind its first bracket. -/
def readHeader? (d : Document) (s : Text) : Option (Document × Text) :=
  match s with
  | [] => none
  | c :: r =>
    if c = '[' then do
      let (key, rest) ← Key.read? (skipSpacing r)
      let d ← d.settled.extendArray? key
      return (d, ← behind? ']' (← behind? ']' rest))
    else do
      let (key, rest) ← Key.read? (skipSpacing (c :: r))
      let d ← d.settled.openTable? key
      return (d, ← behind? ']' rest)

/-- Reads what stands on a line: nothing, a header or an entry. -/
def readLine [Machine] (d : Document) : Text → Except Fault (Document × Text)
  | [] => .ok (d, [])
  | c :: r =>
    if c = '\n' ∨ c = '#' then .ok (d, c :: r)
    else if c = '[' then required (d.readHeader? r)
    else do
      let (key, v, rest) ← readEntry Machine.tables (c :: r)
      return (← required (d.addEntry? key v), rest)

/-- Reads lines up to the end of the text. -/
def readLines [Machine] (d : Document) (s : Text) : Except Fault Document := do
  if s.isEmpty then return d
  let (d, r) ← d.readLine (skipSpacing s)
  let r ← required (endLine? false r)
  if _h : r.length < s.length then d.readLines r
  else throw .malformed
termination_by s.length

/-- The text with each `\r\n` written as `\n`; any other `\r` stays. -/
def withJoinedBreaks : Text → Text
  | [] => []
  | [c] => [c]
  | c :: d :: r =>
    if c = '\r' ∧ d = '\n' then '\n' :: withJoinedBreaks r else c :: withJoinedBreaks (d :: r)

end Document

/-- The table that a text holds. -/
def parse [Machine] (s : Text) : Except Fault Table :=
  (Document.empty.readLines (Document.withJoinedBreaks s)).map (·.entries)

end Idl.Toml
