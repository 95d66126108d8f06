/-
# What the selection of files depends on

Which module files a path names, and which settings govern it, is a matter of the shape of the
disk and of the configurations on it.  So a disk of the same shape that has kept all configurations
gives the same files and settings (`Disk.moduleFiles_eq_ok`).
-/
import Idl.Project.Sources
import Idl.Proofs.Files.Shape

namespace Idl

variable {_ : Machine}

namespace Disk

/-- Files that hold a configuration hold the same one on the other disk. -/
def KeepsConfigurations [Machine] (d d' : Disk) : Prop :=
  ∀ (l : Location) (t : Text) (table : Toml.Table), d.fileAt? l = some t →
    Toml.parse t = .ok table → d'.fileAt? l = some t

variable {d d' : Disk} {target : FilePath}

namespace SameShape

lemma searchStart_eq (h : SameShape d d') (start : FilePath) :
    d'.searchStart start = d.searchStart start := by
  simp only [searchStart, h.here, h.leadsToFile_eq]

lemma look_eq (h : SameShape d d') (l : Location) : d'.look l = d.look l := by
  simp only [look, locate?, h.locate_eq]

lemma climb_eq (h : SameShape d d') (l : Location) : d'.climb l = d.climb l := by
  fun_induction d.climb l with
  | case1 l o hlook => rw [Disk.climb_eq, h.look_eq, hlook]
  | case2 l hlook => rw [Disk.climb_eq, h.look_eq, hlook]
  | case3 l hlook => rw [Disk.climb_eq, h.look_eq, hlook]
  | case4 l k hlook ih =>
    rw [Disk.climb_eq, h.look_eq, hlook]
    exact ih

lemma projectFolder?_eq (h : SameShape d d') (start : FilePath) :
    d'.projectFolder? start = d.projectFolder? start := by
  have hclimb : d'.climb = d.climb := funext h.climb_eq
  rw [projectFolder?, projectFolder?, h.searchStart_eq, hclimb]

lemma searchFolder_eq (h : SameShape d d') (project : Option Location) (root : Text)
    (target : FilePath) : d'.searchFolder project root target =
      d.searchFolder project root target := by
  simp only [searchFolder, h.here, h.leadsToFolder_eq]

lemma endingIn_eq (h : SameShape d d') (endings : List Text) (folder : FilePath) :
    d'.endingIn endings folder = d.endingIn endings folder := by
  simp only [endingIn, h.select_eq]

end SameShape

/-- Settings that can be loaded are the same where configurations are kept. -/
lemma load_eq_ok (h : SameShape d d') (hkeeps : KeepsConfigurations d d') {p : FilePath}
    {settings : Settings} (hload : Settings.load d p = .ok settings) :
    Settings.load d' p = .ok settings := by
  unfold Settings.load at hload ⊢
  rw [h.locate_eq]
  split at hload
  · cases hload
  · next l _ =>
    split at hload
    · cases hload
    · next t ht =>
      cases htable : Toml.parse t with
      | error f =>
        rw [Settings.ofText, htable] at hload
        cases hload
      | ok table =>
        simp only [hkeeps l t table ht htable]
        exact hload

lemma nearestSettings_eq_ok (h : SameShape d d') (hkeeps : KeepsConfigurations d d')
    {found : Settings × Option Location} (hfound : d.nearestSettings target = .ok found) :
    d'.nearestSettings target = .ok found := by
  rw [nearestSettings_eq] at hfound ⊢
  rw [h.projectFolder?_eq]
  split at hfound
  · cases hfound
  · exact hfound
  · next l _ =>
    cases hload : Settings.load d ⟨.root, l ++ [settingsName]⟩ with
    | error p =>
      rw [hload] at hfound
      cases hfound
    | ok settings =>
      rw [hload] at hfound
      simp only [load_eq_ok h hkeeps hload]
      exact hfound

/-- A path names the same module files, and is governed by the same settings, where the shape is
the same and configurations are kept. -/
lemma moduleFiles_eq_ok (h : SameShape d d') (hkeeps : KeepsConfigurations d d')
    {selected : List FilePath × Settings} (hselected : d.moduleFiles target = .ok selected) :
    d'.moduleFiles target = .ok selected := by
  unfold moduleFiles at hselected ⊢
  simp only [h.leadsToFile_eq, h.searchFolder_eq, h.endingIn_eq]
  cases hfound : d.nearestSettings target with
  | error p =>
    rw [hfound] at hselected
    cases hselected
  | ok found =>
    rw [hfound] at hselected
    rwa [nearestSettings_eq_ok h hkeeps hfound]

end Disk

end Idl
