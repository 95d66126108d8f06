/-
# Patterns for names and paths

In a pattern a star stands for any run of code points, a question mark for any one, and
brackets for one of a class, which lists code points and ranges and is negated by an
exclamation mark in front.  A bracket that is never closed stands for itself.

In a class, a hyphen makes a range only where it stands between two code points and at least
two behind the hyphen of another range.  A range that runs backwards is empty: it goes, and
what stood around it moves together.
-/
import Idl.Files.Disk

namespace Idl

/-! ### Patterns for names -/

/-- A part of a pattern. -/
inductive Glyph where
  /-- Any run of code points. -/
  | anyRun
  /-- One code point that lies in none of the ranges, or in one of them. -/
  | oneOf (negated : Bool) (ranges : List (CodePoint × CodePoint))
deriving DecidableEq

/-- A pattern for names. -/
abbrev NamePattern := List Glyph

namespace Glyph

/-- The code point itself. -/
def exactly (c : CodePoint) : Glyph := .oneOf false [(c, c)]

/-- Any one code point. -/
def anyOne : Glyph := .oneOf true []

/-- Whether a code point lies in one of some ranges. -/
def inRanges (ranges : List (CodePoint × CodePoint)) (c : CodePoint) : Bool :=
  ranges.any fun r => r.1.toNat ≤ c.toNat && c.toNat ≤ r.2.toNat

end Glyph

namespace NamePattern

/-! ### Classes -/

/-- A part of a class: a code point, or the hyphen of a range. -/
inductive Part where
  /-- A code point of the class. -/
  | point (c : CodePoint)
  /-- The hyphen between the ends of a range. -/
  | to
deriving DecidableEq

/-- The code point that a part is when it stands alone. -/
def Part.alone : Part → CodePoint
  | .point c => c
  | .to => '-'

/-- The pieces of a class between the hyphens of its ranges.  At least so many code points
stand in front of the first hyphen. -/
def piecesBehind (least : Nat) (s : Text) : List Text :=
  match _h : (s.drop least).dropWhile (· != CodePoint.scalar '-') with
  | [] => [s]
  | _ :: r =>
    (s.take least ++ (s.drop least).takeWhile (· != CodePoint.scalar '-')) :: piecesBehind 2 r
termination_by s.length
decreasing_by
  have hd := congrArg List.length _h
  have hs := (List.dropWhile_sublist (· != CodePoint.scalar '-') (l := s.drop least)).length_le
  simp only [List.length_cons, List.length_drop] at hd hs
  omega

/-- A hyphen at the end of a class belongs to the piece in front of it. -/
def withLastHyphen : List Text → List Text
  | [] => []
  | [t] => [t]
  | [t, []] => [t ++ [CodePoint.scalar '-']]
  | t :: ts => t :: withLastHyphen ts

/-- Takes away the ranges that run backwards. -/
def withoutEmptyRanges (pieces : List Text) : List Text :=
  pieces.foldr (fun t ts =>
    match t.getLast?, ts with
    | some hi, (lo :: rest) :: ts =>
      if lo.toNat < hi.toNat then (t.dropLast ++ rest) :: ts else t :: (lo :: rest) :: ts
    | _, ts => t :: ts) []

/-- The parts of a class. -/
def partsOf (s : Text) : List Part :=
  let least := if s.head? = some (CodePoint.scalar '!') then 2 else 1
  let pieces := withoutEmptyRanges (withLastHyphen (piecesBehind least s))
  [Part.to].intercalate (pieces.map (·.map Part.point))

/-- The ranges of a class. -/
def rangesOf : List Part → List (CodePoint × CodePoint)
  | [] => []
  | [p] => [(p.alone, p.alone)]
  | [p, q] => [(p.alone, p.alone), (q.alone, q.alone)]
  | p :: q :: r :: rest =>
    if q = .to then (p.alone, r.alone) :: rangesOf rest
    else (p.alone, p.alone) :: rangesOf (q :: r :: rest)

/-- The class that stands between brackets. -/
def classOf (s : Text) : Glyph :=
  match partsOf s with
  | .point c :: parts =>
    if c = '!' then .oneOf true (rangesOf parts) else .oneOf false (rangesOf (.point c :: parts))
  | parts => .oneOf false (rangesOf parts)

/-- What stands in brackets, from behind the opening one, and the rest behind the closing one.
A closing bracket at the very front, or behind the exclamation mark there, is part of the
class. -/
def cutClass? (s : Text) : Option (Text × Text) :=
  let n := if s.head? = some (CodePoint.scalar '!') then 1 else 0
  let n := if s[n]? = some (CodePoint.scalar ']') then n + 1 else n
  let r := s.drop n
  match r.dropWhile (· != CodePoint.scalar ']') with
  | [] => none
  | _ :: rest => some (s.take n ++ r.takeWhile (· != CodePoint.scalar ']'), rest)

/-! ### Patterns -/

/-- The pattern that a text says. -/
def ofText (s : Text) : NamePattern :=
  match s with
  | [] => []
  | c :: r =>
    if c = '*' then .anyRun :: ofText r
    else if c = '?' then .anyOne :: ofText r
    else if c = '[' then
      match cutClass? r with
      | none => .exactly c :: ofText r
      | some (w, rest) =>
        if _h : rest.length ≤ r.length then classOf w :: ofText rest else [classOf w]
    else .exactly c :: ofText r
termination_by s.length
decreasing_by all_goals simp only [List.length_cons]; omega

/-- Whether a name is of a pattern. -/
def holds : NamePattern → Text → Bool
  | [], s => s.isEmpty
  | .anyRun :: p, [] => holds p []
  | .anyRun :: p, c :: s => holds p (c :: s) || holds (.anyRun :: p) s
  | .oneOf _ _ :: _, [] => false
  | .oneOf negated ranges :: p, c :: s => Glyph.inRanges ranges c != negated && holds p s

/-- Whether a text has to be read as a pattern, and is not just a name. -/
def isPattern (s : Text) : Bool := s.any fun c : CodePoint => c = '*' || c = '?' || c = '['

end NamePattern

/-! ### Patterns for paths

A pattern for paths gives one step after the other.  A step is a name, a pattern for names, or
two stars, which stand for any number of folders on the way down.  Two stars are no part of a
longer name. -/

/-- A step of a pattern for paths. -/
inductive PatternStep where
  /-- Any number of folders down. -/
  | anyDepth
  /-- What has a name; two dots lead back. -/
  | named (name : Text)
  /-- What has a name of a pattern. -/
  | matching (pattern : NamePattern)
deriving DecidableEq

/-- A pattern for paths. -/
structure PathPattern where
  /-- The steps on the way. -/
  steps : List PatternStep
  /-- Whether only folders are meant. -/
  foldersOnly : Bool

/-- Whether two stars stand next to each other in a text. -/
def Text.hasDoubleStar : Text → Bool
  | c :: d :: r => (c = '*' && d = '*') || hasDoubleStar (d :: r)
  | _ => false

/-- The step that a part of a pattern says. -/
def PatternStep.ofText? (t : Text) : Option PatternStep :=
  if t = Text.ofString "**" then some .anyDepth
  else if t.hasDoubleStar then none
  else if NamePattern.isPattern t then some (.matching (NamePattern.ofText t))
  else some (.named t)

namespace PathPattern

/-- The pattern for what ends in some way at any depth.  An ending with slashes in it gives
several steps, and one that ends with a slash means folders only. -/
def endingIn? (ending : Text) : Option PathPattern := do
  let steps ← (FilePath.ofText ("*" ++ ending)).names.mapM PatternStep.ofText?
  return ⟨.anyDepth :: steps, ending.getLast? = some (CodePoint.scalar '/')⟩

/-- The ways, from a folder on, that steps allow.  Every step but the last has to lead to a
folder. -/
def ways (d : Disk) (foldersOnly : Bool) (l : Location) : List PatternStep → List (List Text)
  | [] => [[]]
  | step :: steps =>
    let fits (l : Location) : Bool :=
      if steps.isEmpty && !foldersOnly then d.exists? l else d.isFolder l
    let on (way : List Text) (l : Location) : List (List Text) :=
      (ways d foldersOnly l steps).map (way ++ ·)
    match step with
    | .anyDepth => (d.foldersBelow l).flatMap fun way => on way (l ++ way)
    | .named name => if fits (l.step name) then on [name] (l.step name) else []
    | .matching pattern =>
      ((d.namesIn l).filter fun name => pattern.holds name && fits (l ++ [name])).flatMap
        fun name => on [name] (l ++ [name])

/-- The paths below a path that a pattern allows, if the path leads to a folder. -/
def select (d : Disk) (p : FilePath) (pattern : PathPattern) : List FilePath :=
  match d.locate p with
  | .error _ => []
  | .ok l =>
    if d.isFolder l then (ways d pattern.foldersOnly l pattern.steps).map p.below else []

end PathPattern

end Idl
