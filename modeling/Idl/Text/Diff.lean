/-
# Differences between texts

Two lists of lines are compared by the longest stretch that they share, and then in the same
way in front of it and behind it.  In a long list a line that occurs too often is not looked
for, it only extends a stretch found without it.  What is not shared is shown as removed and
added lines between a few lines of context.
-/
import Idl.Text

namespace Idl

namespace Diff

/-- A stretch that two lists share: where it begins in each, and its length. -/
structure Shared where
  /-- Where it begins in the old list. -/
  old : Nat
  /-- Where it begins in the new list. -/
  new : Nat
  /-- How long it is. -/
  size : Nat
deriving DecidableEq, Inhabited

variable {α : Type} [DecidableEq α]

/-- The length of the front that two lists share. -/
def commonFront : List α → List α → Nat
  | a :: as, b :: bs => if a = b then commonFront as bs + 1 else 0
  | _, _ => 0

/-- The lengths of the shared stretches that end at the line `a` of the old list and at each
line of the new one, from those that end one line earlier.  With each line of the new list it
is told whether the line is looked for. -/
def runs (a : α) : Nat → List Nat → List (α × Bool) → List Nat
  | diagonal, above :: earlier, (b, sought) :: bs =>
    (if sought && a = b then diagonal + 1 else 0) :: runs a above earlier bs
  | _, _, _ => []

/-- The best stretch so far or the first longer one that ends at line `i` of the old list and
at one of the lines from `j` on of the new list. -/
def better (i : Nat) : Nat → List Nat → Shared → Shared
  | _, [], best => best
  | j, size :: sizes, best =>
    better i (j + 1) sizes
      (if size > best.size then ⟨i + 1 - size, j + 1 - size, size⟩ else best)

/-- The best stretch that ends at line `i` of the old list or behind it. -/
def search (new : List (α × Bool)) : Nat → List Nat → List α → Shared → Shared
  | _, _, [], best => best
  | i, above, a :: as, best =>
    let row := runs a 0 above new
    search new (i + 1) row as (better i 0 row best)

/-- A stretch with all equal lines directly in front of it and behind it. -/
def extend (old new : List α) (s : Shared) : Shared :=
  let front := commonFront (old.take s.old).reverse (new.take s.new).reverse
  let back := commonFront (old.drop (s.old + s.size)) (new.drop (s.new + s.size))
  ⟨s.old - front, s.new - front, front + s.size + back⟩

/-- The longest stretch of sought lines that two lists share, extended by all equal lines next
to it.  Of equally long ones it is the first in the old list, and there the first in the new
one. -/
def longest (old : List α) (new : List (α × Bool)) : Shared :=
  extend old (new.map Prod.fst) (search new 0 (new.map fun _ => 0) old ⟨0, 0, 0⟩)

/-- The stretches that two lists share, in order; at most `fuel` levels of division. -/
def sharedWithin : Nat → List α → List (α × Bool) → List Shared
  | 0, _, _ => []
  | fuel + 1, old, new =>
    let s := longest old new
    if s.size = 0 then []
    else
      sharedWithin fuel (old.take s.old) (new.take s.new) ++ s ::
        (sharedWithin fuel (old.drop (s.old + s.size)) (new.drop (s.new + s.size))).map
          fun t => ⟨t.old + s.old + s.size, t.new + s.new + s.size, t.size⟩

/-- Joins stretches that follow each other without a gap in both lists. -/
def joinAdjacent : List Shared → List Shared
  | s :: t :: rest =>
    if s.old + s.size = t.old ∧ s.new + s.size = t.new then
      joinAdjacent (⟨s.old, s.new, s.size + t.size⟩ :: rest)
    else s :: joinAdjacent (t :: rest)
  | rest => rest
termination_by l => l.length

/-- Whether a line of the new list is looked for: in a list of 200 lines or more, a line that
makes up over one per cent of them is not. -/
def isSought (new : List α) (line : α) : Bool :=
  new.length < 200 || new.count line ≤ new.length / 100 + 1

/-- The stretches that two lists share. -/
def shared (old new : List α) : List Shared :=
  joinAdjacent
    (sharedWithin (old.length + 1) old (new.map fun line => (line, isSought new line)))

/-- Corresponding parts of the two lists, which are equal or replace each other. -/
structure Part where
  /-- Whether the parts are equal. -/
  same : Bool
  /-- Where the part of the old list begins. -/
  oldFirst : Nat
  /-- Where the part of the old list ends. -/
  oldStop : Nat
  /-- Where the part of the new list begins. -/
  newFirst : Nat
  /-- Where the part of the new list ends. -/
  newStop : Nat
deriving DecidableEq, Inhabited

/-- The parts of two lists from two places on, given the shared stretches behind them. -/
def partsFrom (oldLength newLength i j : Nat) : List Shared → List Part
  | [] => if i < oldLength ∨ j < newLength then [⟨false, i, oldLength, j, newLength⟩] else []
  | s :: rest =>
    (if i < s.old ∨ j < s.new then [⟨false, i, s.old, j, s.new⟩] else []) ++
      ⟨true, s.old, s.old + s.size, s.new, s.new + s.size⟩ ::
        partsFrom oldLength newLength (s.old + s.size) (s.new + s.size) rest

/-- The parts of two lists. -/
def parts (old new : List α) : List Part :=
  partsFrom old.length new.length 0 0 (shared old new)

/-- How many equal lines are shown next to a change. -/
def context : Nat := 3

/-- The last lines of an equal part. -/
def Part.ending (p : Part) : Part :=
  { p with oldFirst := max p.oldFirst (p.oldStop - context),
           newFirst := max p.newFirst (p.newStop - context) }

/-- The first lines of an equal part. -/
def Part.beginning (p : Part) : Part :=
  { p with oldStop := min p.oldStop (p.oldFirst + context),
           newStop := min p.newStop (p.newFirst + context) }

/-- Cuts the first part, if it is equal, to what is shown in front of a change. -/
def trimFirst : List Part → List Part
  | p :: rest => (if p.same then p.ending else p) :: rest
  | [] => []

/-- Cuts the last part, if it is equal, to what is shown behind a change. -/
def trimLast : List Part → List Part
  | [] => []
  | [p] => [if p.same then p.beginning else p]
  | p :: rest => p :: trimLast rest

/-- Divides parts into groups at equal parts that are too long to be shown as a whole. -/
def groupsFrom (group : List Part) : List Part → List (List Part)
  | [] => if group.any (!·.same) then [group] else []
  | p :: rest =>
    if p.same && p.oldStop - p.oldFirst > 2 * context then
      (group ++ [p.beginning]) :: groupsFrom [p.ending] rest
    else groupsFrom (group ++ [p]) rest

/-- The groups of changes that are shown together. -/
def groups (old new : List α) : List (List Part) :=
  groupsFrom [] (trimLast (trimFirst (parts old new)))

end Diff

open Diff

/-- The place of a group in one of the lists: the first line and how many there are. -/
def Diff.range (first stop : Nat) : Text :=
  let size := stop - first
  if size = 1 then Text.ofNat (first + 1)
  else Text.ofNat (if size = 0 then first else first + 1) ++ "," ++ Text.ofNat size

/-- The part of a list from one place up to another. -/
def Diff.between (first stop : Nat) (lines : List Text) : List Text :=
  (lines.take stop).drop first

/-- The lines of a part, marked as kept, removed or added. -/
def Diff.Part.render (old new : List Text) (p : Part) : Text :=
  let marked (mark : CodePoint) (lines : List Text) : Text := lines.flatMap (mark :: ·)
  let before := between p.oldFirst p.oldStop old
  if p.same then marked ' ' before
  else marked '-' before ++ marked '+' (between p.newFirst p.newStop new)

/-- A group of changes behind the line that gives its place. -/
def Diff.renderGroup (old new : List Text) (group : List Part) : Text :=
  let first := group.head?.getD default
  let last := group.getLast?.getD default
  "@@ -" ++ range first.oldFirst last.oldStop ++ " +" ++ range first.newFirst last.newStop ++
    " @@\n" ++ group.flatMap (Part.render old new)

/-- The unified difference of two lists of lines; empty when they are equal. -/
def Text.unifiedDiff (oldName newName : Text) (old new : List Text) : Text :=
  if old = new then []
  else match Diff.groups old new with
  | [] => []
  | groups =>
    "--- " ++ oldName ++ "\n+++ " ++ newName ++ "\n" ++ groups.flatMap (renderGroup old new)

end Idl
