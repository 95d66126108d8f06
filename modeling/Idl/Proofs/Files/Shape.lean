/-
# The shape of a disk

Two disks have the same shape if they have the same files and folders, whatever the files hold.
Where a path leads, and which paths a pattern selects, is a matter of the shape alone
(`Disk.SameShape.locate_eq`, `Disk.SameShape.select_eq`).  Writing to a file that exists keeps the
shape, and changes that file only (`Disk.sameShape_write`, `Disk.fileAt?_write`).
-/
import Idl.Files.Pattern
import Idl.Proofs.Text.Entries

namespace Idl

namespace Disk

/-- Two disks have the same files and folders, and the same working folder. -/
structure SameShape (d d' : Disk) : Prop where
  /-- The files are in the same places. -/
  files : d'.files.map Prod.fst = d.files.map Prod.fst
  /-- The same folders are listed. -/
  folders : d'.folders = d.folders
  /-- The working folder is the same. -/
  here : d'.here = d.here

variable {d d' d'' : Disk} {l k : Location} {t : Text}

namespace SameShape

lemma refl (d : Disk) : SameShape d d := ⟨rfl, rfl, rfl⟩

lemma trans (h : SameShape d d') (h' : SameShape d' d'') : SameShape d d'' :=
  ⟨h'.files.trans h.files, h'.folders.trans h.folders, h'.here.trans h.here⟩

/-! ### Files and folders -/

lemma isFile_eq (h : SameShape d d') (l : Location) : d'.isFile l = d.isFile l := by
  have hlookup (es : List (Location × Text)) :
      (es.lookup l).isSome = (es.map Prod.fst).contains l := by
    induction es with
    | nil => rfl
    | cons e es ih =>
      rw [List.lookup_cons, List.map_cons, List.contains_cons, ← ih]
      cases l == e.1 <;> rfl
  rw [isFile, isFile, fileAt?, fileAt?, hlookup, hlookup, h.files]

lemma isFolder_eq (h : SameShape d d') (l : Location) : d'.isFolder l = d.isFolder l := by
  have hany (es : List (Location × Text)) :
      es.any (fun f => l.isPrefixOf f.1 && l ≠ f.1) =
        (es.map Prod.fst).any fun k => l.isPrefixOf k && l ≠ k := by
    rw [List.any_map]
    rfl
  rw [isFolder, isFolder, hany, hany, h.files, h.folders, h.here]

lemma exists?_eq (h : SameShape d d') (l : Location) : d'.exists? l = d.exists? l := by
  rw [exists?, exists?, h.isFile_eq, h.isFolder_eq]

lemma locations_eq (h : SameShape d d') : d'.locations = d.locations := by
  rw [locations, locations, h.files, h.folders, h.here]

lemma namesIn_eq (h : SameShape d d') (l : Location) : d'.namesIn l = d.namesIn l := by
  rw [namesIn, namesIn, h.locations_eq]

lemma foldersBelow_eq (h : SameShape d d') (l : Location) :
    d'.foldersBelow l = d.foldersBelow l := by
  simp only [foldersBelow, h.locations_eq, h.isFolder_eq]

/-! ### Where paths lead -/

lemma walk_eq (h : SameShape d d') (l : Location) (names : List Text) :
    d'.walk l names = d.walk l names := by
  induction names generalizing l with
  | nil => simp only [walk, h.exists?_eq]
  | cons name names ih => simp only [walk, h.isFolder_eq, h.isFile_eq, ih]

lemma find_eq (h : SameShape d d') (t : Text) : d'.find t = d.find t := by
  simp only [find, h.here, h.walk_eq]

lemma locate_eq (h : SameShape d d') (p : FilePath) : d'.locate p = d.locate p := h.find_eq p.text

lemma leadsToFolder_eq (h : SameShape d d') (p : FilePath) :
    d'.leadsToFolder p = d.leadsToFolder p := by
  have hfolder : d'.isFolder = d.isFolder := funext h.isFolder_eq
  rw [leadsToFolder, leadsToFolder, locate?, locate?, h.locate_eq, hfolder]

lemma leadsToFile_eq (h : SameShape d d') (p : FilePath) :
    d'.leadsToFile p = d.leadsToFile p := by
  have hfile : d'.isFile = d.isFile := funext h.isFile_eq
  rw [leadsToFile, leadsToFile, locate?, locate?, h.locate_eq, hfile]

/-! ### What patterns select -/

lemma ways_eq (h : SameShape d d') (foldersOnly : Bool) (l : Location)
    (steps : List PatternStep) :
    PathPattern.ways d' foldersOnly l steps = PathPattern.ways d foldersOnly l steps := by
  induction steps generalizing l with
  | nil => rfl
  | cons step steps ih =>
    simp only [PathPattern.ways, h.exists?_eq, h.isFolder_eq, h.foldersBelow_eq, h.namesIn_eq, ih]

lemma select_eq (h : SameShape d d') (p : FilePath) (pattern : PathPattern) :
    PathPattern.select d' p pattern = PathPattern.select d p pattern := by
  simp only [PathPattern.select, h.locate_eq, h.isFolder_eq, h.ways_eq]

end SameShape

/-! ### Writing -/

lemma sameShape_write (h : d.isFile l) (t : Text) : SameShape d (d.write l t) := by
  rw [write, if_pos h]
  refine ⟨?_, rfl, rfl⟩
  rw [List.map_map]
  refine List.map_congr_left fun f _ => ?_
  rw [Function.comp_apply]
  split
  · next heq => exact heq.symm
  · rfl

/-- Only the file that is written to changes. -/
lemma fileAt?_write (h : d.isFile l) (t : Text) (k : Location) :
    (d.write l t).fileAt? k = if k = l then some t else d.fileAt? k := by
  obtain ⟨u, hu⟩ := Option.isSome_iff_exists.1 h
  rw [write, if_pos h]
  refine (lookup_map_update d.files l k t).trans ?_
  rw [show d.files.lookup l = some u from hu]
  rfl

end Disk

end Idl
