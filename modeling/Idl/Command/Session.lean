/-
# Sessions

A command runs in a session: it reads and writes files of a disk, and says things on two
channels, one for results and one for complaints and reports.  A session may be cut short, and
then keeps what was said and written before.
-/
import Idl.Machine
import Idl.Project.Sources
import Idl.Text.Escape

namespace Idl

/-- Why a session is cut short. -/
inductive Crash where
  /-- The project cannot be made out. -/
  | project (p : ProjectProblem)
  /-- A path leads nowhere. -/
  | obstacle (o : Obstacle)
  /-- A folder stands where a file is to be read. -/
  | folder
  /-- A text with a surrogate is to be written. -/
  | surrogate
  /-- Fields cannot be indented as far as they are to be. -/
  | indent (p : WidthProblem)
deriving DecidableEq, Inhabited

/-- The message for a crash. -/
def Crash.message : Crash → Text
  | .project p => p.message
  | .obstacle o => o.message
  | .folder => "there is a folder where a file has to be"
  | .surrogate => "a surrogate cannot be written"
  | .indent p => p.message

/-- A session as far as it got. -/
structure Session where
  /-- The files and folders. -/
  disk : Disk
  /-- Whether steps are reported. -/
  verbose : Bool
  /-- What was said on the channel for results. -/
  out : Text
  /-- What was said on the channel for complaints and reports. -/
  err : Text

/-- A part of a command. -/
abbrev Command := EStateM Crash Session

namespace Command

/-- Writes a text on the channel for results as it is.  A surrogate cannot be written. -/
def put (t : Text) : Command Unit := do
  if t.hasSurrogate then throw .surrogate
  modify fun s => { s with out := s.out ++ t }

/-- Says a line on the channel for results. -/
def say (t : Text) : Command Unit :=
  modify fun s => { s with out := s.out ++ t.withoutSequences ++ "\n" }

/-- Says a line on the channel for complaints. -/
def complain (t : Text) : Command Unit :=
  modify fun s => { s with err := s.err ++ t.withoutSequences ++ "\n" }

/-- Reports a step of a part of the program, if reports are wanted. -/
def report (part t : Text) : Command Unit :=
  modify fun s =>
    if s.verbose then { s with err := s.err ++ "DEBUG " ++ part ++ ": " ++ t ++ "\n" } else s

/-- What can be told of a disk, or the reason why it cannot. -/
def ask {ε α : Type} (cause : ε → Crash) (question : Disk → Except ε α) : Command α := do
  match question (← get).disk with
  | .ok a => return a
  | .error e => throw (cause e)

/-- Reads the file of a path, every line break in it being plain. -/
def readFile (p : FilePath) : Command Text := do
  let l ← ask .obstacle (·.locate p)
  match (← get).disk.fileAt? l with
  | some t => return t.withPlainBreaks
  | none => throw .folder

/-- Writes a text to the file of a path.  If the text holds a surrogate, the file is left
empty. -/
def writeFile (p : FilePath) (t : Text) : Command Unit := do
  let l ← ask .obstacle (·.locate p)
  modify fun s => { s with disk := s.disk.write l (if t.hasSurrogate then [] else t) }
  if t.hasSurrogate then throw .surrogate

/-- Does the same for each file, one after the other. -/
def onEach {α β : Type} (act : α → Command β) : List α → Command (List β)
  | [] => return []
  | a :: as => do
    let b ← act a
    let bs ← onEach act as
    return b :: bs

end Command

end Idl
