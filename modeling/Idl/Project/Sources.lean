/-
# The module files of a project

A path names module files: a file names itself, and a folder all files below it that end as
the settings tell.  For the folder of the project itself, the search is in its root for modules
if there is such a folder.
-/
import Idl.Files.Pattern
import Idl.Project.Nearest
import Idl.Text.Quoted

namespace Idl

/-- Why a path names no module files. -/
inductive ProjectProblem where
  /-- The settings are faulty. -/
  | settings (p : SettingsProblem)
  /-- It cannot be asked what the path, or the root of the modules, leads to. -/
  | obstacle (o : Obstacle)
  /-- The root of the modules is no text. -/
  | rootNoText
  /-- An ending has two stars within a name. -/
  | badEnding (ending : Text)
deriving DecidableEq, Inhabited

/-- The message for a problem. -/
def ProjectProblem.message : ProjectProblem → Text
  | .settings p => p.message
  | .obstacle o => o.message
  | .rootNoText => "[source] root is no string"
  | .badEnding ending => "'**' in " ++ ending.quoted ++ " is not a whole name"

namespace Disk

/-- The folder that is searched for a target. -/
def searchFolder (d : Disk) (project : Option Location) (root : Text) (target : FilePath) :
    Except Obstacle FilePath := do
  let rooted := target.join (FilePath.ofText root)
  if project ≠ some (target.resolve d.here) then return target
  return if ← d.leadsToFolder rooted then rooted else target

/-- The pattern for an ending. -/
def endingPattern (ending : Text) : Except ProjectProblem PathPattern :=
  match PathPattern.endingIn? ending with
  | some p => .ok p
  | none => .error (.badEnding ending)

/-- Everything below a folder with one of the endings, each once and in order. -/
def endingIn (d : Disk) (endings : List Text) (folder : FilePath) :
    Except ProjectProblem (List FilePath) := do
  let patterns ← endings.mapM endingPattern
  let found := (patterns.flatMap fun p => p.select d folder).eraseDups
  return found.mergeSort fun p q => FilePath.namesLe p.names q.names

/-- The module files that a target names, and the settings that govern it. -/
def moduleFiles [Machine] (d : Disk) (target : FilePath) :
    Except ProjectProblem (List FilePath × Settings) := do
  let (settings, project) ← (d.nearestSettings target).mapError .settings
  if ← (d.leadsToFile target).mapError .obstacle then return ([target], settings)
  match settings.root with
  | .text root =>
    let folder ← (d.searchFolder project root target).mapError .obstacle
    return (← d.endingIn settings.extensions folder, settings)
  | _ => throw .rootNoText

end Disk

end Idl
