/-
# Positions and spans

A position is a line and a column, both counted from 1; a span reaches from its first
position to its last one, both included.  Lines are counted by `\n` alone.
-/
import Idl.Text

namespace Idl

/-- The place of one code point: line and column, counted from 1. -/
structure Position where
  /-- The line. -/
  line : Int
  /-- The column within the line. -/
  column : Int
deriving DecidableEq, Inhabited

namespace Position

/-- Where every text begins. -/
def start : Position := ⟨1, 1⟩

/-- The position after one code point. -/
def step (p : Position) (c : CodePoint) : Position :=
  if c = '\n' then ⟨p.line + 1, 1⟩ else ⟨p.line, p.column + 1⟩

/-- The position after a text. -/
def after (p : Position) (t : Text) : Position := t.foldl step p

end Position

/-- A stretch of a text, its last position included. -/
structure Span where
  /-- The position of the first code point. -/
  first : Position
  /-- The position of the last code point. -/
  last : Position
deriving DecidableEq, Inhabited

namespace Span

/-- The span of a single position. -/
def point (p : Position) : Span := ⟨p, p⟩

/-- The span from a position up to, and without, a later one.  A stretch that ends at the
beginning of a line is given the column 1 there. -/
def upTo (p q : Position) : Span := ⟨p, ⟨q.line, if q.column > 1 then q.column - 1 else 1⟩⟩

end Span

end Idl
