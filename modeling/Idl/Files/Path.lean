/-
# Paths

A path is a list of names behind an anchor: nothing, one slash, or the two slashes that some
systems give a meaning of their own.  Empty names and single dots say nothing and are dropped;
double dots stay, for what they lead to depends on the files.

A location is a place in the tree of files, named by the way from the root.
-/
import Idl.Text

namespace Idl

/-- Where a path starts. -/
inductive Anchor where
  /-- At the working folder. -/
  | none
  /-- At the root. -/
  | root
  /-- At the root, written with two slashes. -/
  | doubleRoot
deriving DecidableEq, Inhabited

/-- The text of an anchor. -/
def Anchor.text : Anchor → Text
  | .none => []
  | .root => "/"
  | .doubleRoot => "//"

/-- A path as it is written, without what says nothing. -/
structure FilePath where
  /-- Where the path starts. -/
  anchor : Anchor
  /-- The names on the way. -/
  names : List Text
deriving DecidableEq, Inhabited

/-- A place in the tree of files: the names on the way from the root. -/
abbrev Location := List Text

namespace Location

/-- The place one step further; two dots lead back. -/
def step (l : Location) (name : Text) : Location :=
  if name = Text.ofString ".." then l.dropLast else l ++ [name]

/-- The locations on the way to a location, from the root to itself. -/
def onTheWay : Location → List Location
  | [] => [[]]
  | name :: l => [] :: (onTheWay l).map (name :: ·)

/-- The text of a location as a path from the root. -/
def text (l : Location) : Text := "/" ++ Text.join "/" l

end Location

namespace FilePath

/-- The anchor that a text starts with.  Three slashes and more are as good as one. -/
def anchorOf (t : Text) : Anchor :=
  match (t.takeWhile fun c : CodePoint => c = '/').length with
  | 0 => .none
  | 2 => .doubleRoot
  | _ => .root

/-- The path that a text says. -/
def ofText (t : Text) : FilePath where
  anchor := anchorOf t
  names := (Text.pieces '/' t).filter fun n => n ≠ [] && n ≠ Text.ofString "."

/-- A path as a text.  The path that says nothing is the dot. -/
def text (p : FilePath) : Text :=
  let t := p.anchor.text ++ Text.join "/" p.names
  if t = [] then "." else t

/-- The second path as seen from the first. -/
def join (p q : FilePath) : FilePath :=
  match q.anchor with
  | .none => ⟨p.anchor, p.names ++ q.names⟩
  | _ => q

/-- The path of something below a path, the names on the way being given. -/
def below (p : FilePath) (names : List Text) : FilePath := ⟨p.anchor, p.names ++ names⟩

/-- Whether a path holds the code point zero, which no name holds. -/
def holdsZero (p : FilePath) : Bool := p.names.any fun n => n.any fun c : CodePoint => c = '\x00'

/-- Where a path leads, read as it is written from a working folder. -/
def resolve (here : Location) (p : FilePath) : Location :=
  p.names.foldl Location.step (if p.anchor = .none then here else [])

/-- The order of lists of names, name by name. -/
def namesLe : List Text → List Text → Bool
  | [], _ => true
  | _ :: _, [] => false
  | a :: s, b :: t => if a = b then namesLe s t else a.le b

end FilePath

end Idl
