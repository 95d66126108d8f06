/-
# The nearest settings

A project is a folder with a file of settings, and it reaches down into all folders below that
are not a project of their own.  What governs a place is therefore the settings file of the
deepest folder on the way to it that has one.  The search for it climbs from one folder to the
one around it, and ends at the root.
-/
import Idl.Files.Disk
import Idl.Project.Settings

namespace Idl

/-- The name of a settings file. -/
def settingsName : Text := "duet.toml"

/-- Why a search finds no settings file. -/
inductive SearchProblem where
  /-- It cannot be asked what a path leads to. -/
  | obstacle (o : Obstacle)
  /-- There is none anywhere on the way. -/
  | nowhere
deriving DecidableEq, Inhabited

/-- The message for a problem. -/
def SearchProblem.message : SearchProblem → Text
  | .obstacle o => o.message
  | .nowhere => "No " ++ settingsName ++ " found in any parent directory"

namespace Settings

/-- Reads the settings in the file of a path. -/
def load [Machine] (d : Disk) (p : FilePath) : Except SettingsProblem Settings :=
  match d.locate p with
  | .error o => .error (.obstacle o)
  | .ok l =>
    match d.fileAt? l with
    | none => .error .folder
    | some t => ofText p.text t

end Settings

namespace Disk

/-- The folder that a search for settings starts from: the place itself, or for a file the
folder that it is in.  The place need not exist, but it has to be one that could. -/
def searchStart (d : Disk) (start : FilePath) : Except Obstacle Location := do
  if start.holdsZero then throw .zeroByte
  let l := start.resolve d.here
  return if ← d.leadsToFile ⟨.root, l⟩ then l.dropLast else l

/-- What looking for settings in one folder tells the search. -/
inductive Look where
  /-- Something has the name of a settings file. -/
  | found
  /-- Nothing has, and the folder is the last one on the way up. -/
  | nowhere
  /-- Nothing has, and the search goes on in the folder around. -/
  | further (around : Location)
deriving DecidableEq

/-- Looks for settings in a folder.  The last folder on the way up is the one that is around
itself. -/
def look (d : Disk) (l : Location) : Except Obstacle Look :=
  match d.locate? ⟨.root, l ++ [settingsName]⟩ with
  | .error o => .error o
  | .ok (some _) => .ok .found
  | .ok none => .ok (if l.dropLast = l then .nowhere else .further l.dropLast)

/-- The search goes on in another folder, and only in the one around. -/
theorem look_eq_further {d : Disk} {k l : Location} (h : d.look l = .ok (.further k)) :
    k = l.dropLast ∧ k ≠ l := by
  unfold look at h
  split at h
  · cases h
  · cases h
  · split at h
    · cases h
    · next hne =>
      cases h
      exact ⟨rfl, hne⟩

/-- The folder around is nearer to the root. -/
theorem length_lt_of_look {d : Disk} {k l : Location} (h : d.look l = .ok (.further k)) :
    k.length < l.length := by
  obtain ⟨rfl, hne⟩ := look_eq_further h
  have hpos : l.length ≠ 0 := fun hlength => hne (by rw [List.length_eq_zero_iff.1 hlength]; rfl)
  rw [List.length_dropLast]
  omega

/-- Looks for settings in a folder, and then in the folders around it, one after the other. -/
def climb (d : Disk) (l : Location) : Except Obstacle (Option Location) :=
  match _h : d.look l with
  | .error o => .error o
  | .ok .found => .ok (some l)
  | .ok .nowhere => .ok none
  | .ok (.further k) => climb d k
termination_by l.length
decreasing_by exact length_lt_of_look _h

/-- A search is a look into the folder, and what it tells the search to do. -/
theorem climb_eq (d : Disk) (l : Location) :
    d.climb l = match d.look l with
      | .error o => .error o
      | .ok .found => .ok (some l)
      | .ok .nowhere => .ok none
      | .ok (.further k) => d.climb k := by
  rw [climb]
  split <;> simp only [*]

/-- The nearest folder with something under the name of a settings file. -/
def projectFolder? (d : Disk) (start : FilePath) : Except Obstacle (Option Location) := do
  d.climb (← d.searchStart start)

/-- The search climbs from where it starts. -/
theorem projectFolder?_of_searchStart {d : Disk} {start : FilePath} {l : Location}
    (h : d.searchStart start = .ok l) : d.projectFolder? start = d.climb l := by
  rw [projectFolder?, h]
  rfl

/-- The nearest settings file. -/
def settingsFile (d : Disk) (start : FilePath) : Except SearchProblem Location :=
  match d.projectFolder? start with
  | .error o => .error (.obstacle o)
  | .ok none => .error .nowhere
  | .ok (some l) => .ok (l ++ [settingsName])

/-- The settings that govern a place and the folder that they are in; the usual settings and
no folder if there are none. -/
def nearestSettings [Machine] (d : Disk) (start : FilePath) :
    Except SettingsProblem (Settings × Option Location) :=
  match d.settingsFile start with
  | .error (.obstacle o) => .error (.obstacle o)
  | .error .nowhere => .ok (Settings.usual, none)
  | .ok file => (Settings.load d ⟨.root, file⟩).map fun s => (s, some file.dropLast)

/-- The settings file is the one in the nearest folder that has one. -/
theorem nearestSettings_eq [Machine] (d : Disk) (start : FilePath) :
    d.nearestSettings start = match d.projectFolder? start with
      | .error o => .error (.obstacle o)
      | .ok none => .ok (Settings.usual, none)
      | .ok (some l) =>
        (Settings.load d ⟨.root, l ++ [settingsName]⟩).map fun s => (s, some l) := by
  unfold nearestSettings settingsFile
  rcases d.projectFolder? start with o | _ | l
  · rfl
  · rfl
  · simp only [List.dropLast_concat]

end Disk

end Idl
