/-
# Files and folders

A disk is a tree of files with their texts, and a working folder.  A folder exists when it is
listed or when something exists below it; the root always exists.

A path is followed through the tree step by step, and each step leaves from a folder that has
to exist.  Names and paths have a limited number of bytes.
-/
import Idl.Files.Path
import Idl.Text.Lines

namespace Idl

/-- The files and folders that a program sees. -/
structure Disk where
  /-- The files with their texts; the first entry of a location is the valid one. -/
  files : List (Location × Text)
  /-- Folders that need not have anything in them. -/
  folders : List Location
  /-- The working folder. -/
  here : Location

/-- Why a path leads nowhere. -/
inductive Obstacle where
  /-- There is nothing. -/
  | missing
  /-- A file stands where a folder has to. -/
  | notFolder
  /-- The path holds the code point zero, which no name holds. -/
  | zeroByte
  /-- A name on the way, or the path as a whole, is longer than any can be. -/
  | tooLong
deriving DecidableEq, Inhabited

/-- The message for an obstacle. -/
def Obstacle.message : Obstacle → Text
  | .missing => "there is no such file"
  | .notFolder => "there is a file where a folder has to be"
  | .zeroByte => "the path holds a zero"
  | .tooLong => "the path is too long"

/-- The number of bytes that a name has at most. -/
def nameLimit : Nat := 255

/-- The number of bytes that a path has at most. -/
def pathLimit : Nat := 4095

namespace Disk

/-- The text of the file at a location. -/
def fileAt? (d : Disk) (l : Location) : Option Text := d.files.lookup l

/-- Whether there is a file at a location. -/
def isFile (d : Disk) (l : Location) : Bool := (d.fileAt? l).isSome

/-- Whether there is a folder at a location. -/
def isFolder (d : Disk) (l : Location) : Bool :=
  l = [] || d.folders.any (l.isPrefixOf ·) || l.isPrefixOf d.here ||
    d.files.any fun f => l.isPrefixOf f.1 && l ≠ f.1

/-- Whether there is anything at a location. -/
def exists? (d : Disk) (l : Location) : Bool := d.isFile l || d.isFolder l

/-- The locations of all files and folders, some perhaps repeatedly. -/
def locations (d : Disk) : List Location :=
  (d.here :: d.folders ++ d.files.map Prod.fst).flatMap Location.onTheWay

/-- The names of what is in a folder. -/
def namesIn (d : Disk) (l : Location) : List Text :=
  (d.locations.filterMap fun k => if k.dropLast = l then k.getLast? else none).eraseDups

/-- The ways from a folder to the folders below it, itself included. -/
def foldersBelow (d : Disk) (l : Location) : List (List Text) :=
  ((d.locations.filter fun k => l.isPrefixOf k && d.isFolder k).map (·.drop l.length)).eraseDups

/-- Follows names from a location.  Empty names and single dots stay where they are. -/
def walk (d : Disk) : Location → List Text → Except Obstacle Location
  | l, [] => if d.exists? l then .ok l else .error .missing
  | l, name :: names =>
    if d.isFolder l then
      if nameLimit < name.utf8Size then .error .tooLong
      else walk d (if name = [] ∨ name = Text.ofString "." then l else l.step name) names
    else if d.isFile l then .error .notFolder
    else .error .missing

/-- The location that a text leads to, every one of its names being followed.  The empty text
leads nowhere. -/
def find (d : Disk) (t : Text) : Except Obstacle Location :=
  if t = [] then .error .missing
  else if (CodePoint.scalar '\x00') ∈ t then .error .zeroByte
  else if pathLimit < t.utf8Size then .error .tooLong
  else d.walk (if FilePath.anchorOf t = .none then d.here else []) (Text.pieces '/' t)

/-- The location that a path leads to. -/
def locate (d : Disk) (p : FilePath) : Except Obstacle Location := d.find p.text

/-- The location that a path leads to, or none if it leads nowhere.  A path that is too long
cannot be asked about. -/
def locate? (d : Disk) (p : FilePath) : Except Obstacle (Option Location) :=
  match d.locate p with
  | .ok l => .ok (some l)
  | .error .tooLong => .error .tooLong
  | .error _ => .ok none

/-- Whether a path leads to a folder. -/
def leadsToFolder (d : Disk) (p : FilePath) : Except Obstacle Bool :=
  (d.locate? p).map (·.any d.isFolder)

/-- Whether a path leads to a file. -/
def leadsToFile (d : Disk) (p : FilePath) : Except Obstacle Bool :=
  (d.locate? p).map (·.any d.isFile)

/-- The text in the file that a path leads to, every line break in it being plain. -/
def readText? (d : Disk) (p : FilePath) : Option Text :=
  match d.locate p with
  | .ok l => (d.fileAt? l).map Text.withPlainBreaks
  | .error _ => none

/-- The disk with another text in a file, which is made if need be. -/
def write (d : Disk) (l : Location) (t : Text) : Disk :=
  if d.isFile l then
    { d with files := d.files.map fun f => if f.1 = l then (l, t) else f }
  else { d with files := d.files ++ [(l, t)] }

end Disk

end Idl
