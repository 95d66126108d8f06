/-
# Searching a folder for module files

The module files of a folder are looked for in the root of the modules, if the folder is that of the
project and the root is a folder, and in the folder itself otherwise (`Disk.searched`).  Found is
what is below the place of that folder with one of the endings of the settings, each once and in the
order of the paths (`Disk.IsSearchable.exists_moduleFiles`).
-/
import Idl.Proofs.Files.Endings

namespace Idl

variable {_ : Machine}

namespace Disk

/-- The root of the modules as seen from a target. -/
def rooted (root : Text) (target : FilePath) : FilePath := target.join (FilePath.ofText root)

/-- The folder that is searched for a target. -/
def searched (d : Disk) (project : Option Location) (root : Text) (target : FilePath) : FilePath :=
  if project = some (target.resolve d.here) ∧ d.leadsToFolder (rooted root target) = .ok true then
    rooted root target
  else target

/-- The place of that folder. -/
def searchedPlace (d : Disk) (project : Option Location) (root : Text) (target : FilePath) :
    Location := (d.searched project root target).resolve d.here

/-- It can be told whether the root of the modules has to be searched. -/
def CanAsk (d : Disk) (project : Option Location) (root : Text) (target : FilePath) : Prop :=
  project = some (target.resolve d.here) → ∃ b, d.leadsToFolder (rooted root target) = .ok b

/-- The root of the modules can be asked about, and no folder has a name with one of the endings. -/
structure IsCheckable (d : Disk) (settings : Settings) (project : Option Location) (root : Text)
    (target : FilePath) : Prop where
  canAsk : d.CanAsk project root target
  noFolder : ∀ way name, d.isFolder (d.searchedPlace project root target ++ (way ++ [name])) →
    ∀ e ∈ settings.extensions, ¬ e <:+ name

/-- A text leads to a folder of a tree, the settings that govern it tell a root and endings without
special signs, and no path below the folder that is searched is too long. -/
structure IsSearchable [Machine] (d : Disk) (t : Text) (settings : Settings)
    (project : Option Location) (root : Text) : Prop where
  tree : d.IsTree
  leads : ∃ l, d.find t = .ok l ∧ d.isFolder l
  governs : d.nearestSettings (FilePath.ofText t) = .ok (settings, project)
  rootText : settings.root = .text root
  endings : ∀ e ∈ settings.extensions, e.IsPlainEnding
  short : ∀ way, d.exists? (d.searchedPlace project root (FilePath.ofText t) ++ way) →
    ((d.searched project root (FilePath.ofText t)).below way).text.utf8Size ≤ pathLimit

variable {d : Disk} {k l : Location} {p target : FilePath} {project : Option Location}
  {root t : Text} {settings : Settings} {way : List Text}

/-! ### The folder that is searched -/

lemma isPlain_searched (d : Disk) (project : Option Location) (root t : Text) :
    (d.searched project root (FilePath.ofText t)).IsPlain := by
  unfold searched
  split
  · exact (FilePath.isPlain_ofText t).join (FilePath.isPlain_ofText root)
  · exact FilePath.isPlain_ofText t

lemma searchFolder_of_canAsk (h : d.CanAsk project root target) :
    d.searchFolder project root target = .ok (d.searched project root target) := by
  unfold searchFolder searched
  by_cases hproject : project = some (target.resolve d.here)
  · obtain ⟨b, hb⟩ := h hproject
    have hb' : d.leadsToFolder (target.join (FilePath.ofText root)) = .ok b := hb
    rw [hb, if_neg (not_not.2 hproject), hb']
    cases b <;> simp [hproject, rooted]
  · rw [if_pos hproject, if_neg fun h => hproject h.1]
    rfl

lemma exists_searchFolder_error (h : ¬ d.CanAsk project root target) :
    ∃ o, d.searchFolder project root target = .error o := by
  simp only [CanAsk, not_forall, not_exists] at h
  obtain ⟨hproject, hnone⟩ := h
  cases hasked : d.leadsToFolder (rooted root target) with
  | ok b => exact absurd hasked (hnone b)
  | error o =>
    have hasked' : d.leadsToFolder (target.join (FilePath.ofText root)) = .error o := hasked
    refine ⟨o, ?_⟩
    rw [searchFolder, if_neg (not_not.2 hproject), hasked']
    rfl

/-- What keeps the check from a folder whose root can be asked about is another folder. -/
lemma exists_folder_of_not_isCheckable (hask : d.CanAsk project root target)
    (h : ¬ d.IsCheckable settings project root target) : ∃ way name,
      d.isFolder (d.searchedPlace project root target ++ (way ++ [name])) ∧
      ∃ e ∈ settings.extensions, e <:+ name := by
  by_contra hnone
  refine h ⟨hask, fun way name hway e he hending => hnone ?_⟩
  exact ⟨way, name, hway, e, he, hending⟩

lemma locate_of_leadsToFolder (h : d.leadsToFolder p = .ok true) :
    ∃ k, d.locate p = .ok k ∧ d.isFolder k := by
  rw [leadsToFolder, locate?] at h
  split at h
  · next k hk => exact ⟨k, hk, Except.ok.inj h⟩
  · cases h
  · cases h

lemma leadsToFile_of_locate (h : d.locate p = .ok k) : d.leadsToFile p = .ok (d.isFile k) := by
  rw [leadsToFile, locate?, h]
  rfl

namespace IsSearchable

variable (h : d.IsSearchable t settings project root)
include h

/-- The folder that is searched is a folder, at the place that its path tells. -/
lemma locate_searched :
    d.locate (d.searched project root (FilePath.ofText t)) =
      .ok (d.searchedPlace project root (FilePath.ofText t)) ∧
    d.isFolder (d.searchedPlace project root (FilePath.ofText t)) := by
  have hfound : ∃ k, d.locate (d.searched project root (FilePath.ofText t)) = .ok k ∧
      d.isFolder k := by
    obtain ⟨l, hl, hfolder⟩ := h.leads
    unfold searched
    split
    · next hroot => exact locate_of_leadsToFolder hroot.2
    · exact ⟨l, locate_ofText hl, hfolder⟩
  obtain ⟨k, hk, hfolder⟩ := hfound
  rw [searchedPlace, resolve_of_locate (isPlain_searched d project root t) hk]
  exact ⟨hk, hfolder⟩

/-- What is below the folder that is searched is found by its path. -/
lemma locate_below (hway : d.exists? (d.searchedPlace project root (FilePath.ofText t) ++ way)) :
    d.locate ((d.searched project root (FilePath.ofText t)).below way) =
      .ok (d.searchedPlace project root (FilePath.ofText t) ++ way) :=
  Disk.locate_below h.tree (isPlain_searched d project root t) h.locate_searched.1 hway
    (h.short way hway)

/-! ### The module files -/

lemma moduleFiles_eq : d.moduleFiles (FilePath.ofText t) = do
    let folder ← (d.searchFolder project root (FilePath.ofText t)).mapError .obstacle
    return (← d.endingIn settings.extensions folder, settings) := by
  obtain ⟨l, hl, hfolder⟩ := h.leads
  have hleads := leadsToFile_of_locate (locate_ofText hl)
  rw [h.tree.isFile_eq_false hfolder] at hleads
  obtain ⟨name, version, value, extensions, indent⟩ := settings
  obtain rfl : value = .text root := h.rootText
  rw [moduleFiles, h.governs, hleads]
  rfl

lemma exists_moduleFiles_error (hask : ¬ d.CanAsk project root (FilePath.ofText t)) :
    ∃ problem, d.moduleFiles (FilePath.ofText t) = .error problem := by
  obtain ⟨o, ho⟩ := exists_searchFolder_error hask
  rw [h.moduleFiles_eq, ho]
  exact ⟨_, rfl⟩

/-- Found is what is below the folder that is searched and has one of the endings. -/
lemma exists_moduleFiles (hask : d.CanAsk project root (FilePath.ofText t)) :
    ∃ files, d.moduleFiles (FilePath.ofText t) = .ok (files, settings) ∧ files.Nodup ∧
      files.Pairwise (fun p q => FilePath.namesLe p.names q.names) ∧
      ∀ p, p ∈ files ↔ ∃ way name,
        p = (d.searched project root (FilePath.ofText t)).below (way ++ [name]) ∧
        d.exists? (d.searchedPlace project root (FilePath.ofText t) ++ (way ++ [name])) ∧
        ∃ e ∈ settings.extensions, e <:+ name := by
  obtain ⟨hlocate, hfolder⟩ := h.locate_searched
  obtain ⟨files, hfiles, hfound⟩ := exists_endingIn h.endings hlocate hfolder
  refine ⟨files, ?_, hfound⟩
  rw [h.moduleFiles_eq, searchFolder_of_canAsk hask]
  show (do return (← d.endingIn _ _, settings)) = _
  rw [hfiles]
  rfl

end IsSearchable

end Disk

end Idl
