/-
# Disks as trees

A disk is a tree if every name on it could be one and nothing is both a file and a folder
(`Disk.IsTree`).  There is something at a location if and only if it lies on the way to one that is
listed (`Disk.mem_locations`), so what has something below it is a folder
(`Disk.isFolder_of_exists?_append`), and the names in a folder and the folders below it are told by
what exists (`Disk.mem_namesIn`, `Disk.mem_foldersBelow`).
-/
import Idl.Files.Disk
import Mathlib.Data.List.Infix

namespace Idl

/-- A name that something in a folder can have. -/
structure Text.IsProperName (name : Text) : Prop where
  ne_nil : name ≠ []
  ne_dot : name ≠ Text.ofString "."
  ne_dots : name ≠ Text.ofString ".."
  slash : .scalar '/' ∉ name
  zero : CodePoint.scalar '\x00' ∉ name
  short : name.utf8Size ≤ nameLimit

instance (name : Text) : Decidable name.IsProperName :=
  decidable_of_iff (name ≠ [] ∧ name ≠ Text.ofString "." ∧ name ≠ Text.ofString ".." ∧
      .scalar '/' ∉ name ∧ CodePoint.scalar '\x00' ∉ name ∧ name.utf8Size ≤ nameLimit)
    ⟨fun ⟨h₁, h₂, h₃, h₄, h₅, h₆⟩ => ⟨h₁, h₂, h₃, h₄, h₅, h₆⟩,
      fun ⟨h₁, h₂, h₃, h₄, h₅, h₆⟩ => ⟨h₁, h₂, h₃, h₄, h₅, h₆⟩⟩

/-- All names can be names, and no file is a folder. -/
structure Disk.IsTree (d : Disk) : Prop where
  names : ∀ l ∈ d.locations, ∀ name ∈ l, name.IsProperName
  apart : ∀ l, d.isFile l → d.isFolder l = false

namespace Location

/-- On the way to a location are its front parts. -/
lemma mem_onTheWay {l k : Location} : l ∈ k.onTheWay ↔ l <+: k := by
  induction k generalizing l with
  | nil => rw [onTheWay, List.mem_singleton, List.prefix_nil]
  | cons name k ih =>
    rw [onTheWay, List.mem_cons, List.mem_map, List.prefix_cons_iff]
    constructor
    · rintro (rfl | ⟨m, hm, rfl⟩)
      · exact .inl rfl
      · exact .inr ⟨m, rfl, ih.1 hm⟩
    · rintro (rfl | ⟨m, rfl, hm⟩)
      · exact .inl rfl
      · exact .inr ⟨m, ih.2 hm, rfl⟩

end Location

namespace Disk

variable {d : Disk} {k l : Location} {name : Text} {way : List Text}

/-! ### Files and folders -/

lemma isFile_iff : d.isFile l ↔ ∃ f ∈ d.files, l = f.1 := by
  rw [isFile, fileAt?, Option.isSome_iff_ne_none, ne_eq, List.lookup_eq_none_iff]
  simp only [bne_iff_ne, ne_eq, not_forall, not_not, exists_prop]

lemma isFolder_iff : d.isFolder l ↔ l = [] ∨ (∃ k ∈ d.folders, l <+: k) ∨ l <+: d.here ∨
    ∃ f ∈ d.files, l <+: f.1 ∧ l ≠ f.1 := by
  simp only [isFolder, Bool.or_eq_true, List.any_eq_true, decide_eq_true_eq, Bool.and_eq_true,
    List.isPrefixOf_iff_prefix, or_assoc]

lemma isFolder_here (d : Disk) : d.isFolder d.here :=
  isFolder_iff.2 (.inr (.inr (.inl (List.prefix_refl _))))

lemma isFolder_root (d : Disk) : d.isFolder [] := isFolder_iff.2 (.inl rfl)

/-- It is enough to look at what is listed. -/
lemma isTree_of_forall
    (hnames : ∀ k ∈ d.here :: d.folders ++ d.files.map Prod.fst, ∀ name ∈ k, name.IsProperName)
    (hfiles : ∀ f ∈ d.files, d.isFolder f.1 = false) : d.IsTree where
  names l hl name hname := by
    obtain ⟨k, hk, hway⟩ := List.mem_flatMap.1 hl
    exact hnames k hk name ((Location.mem_onTheWay.1 hway).subset hname)
  apart l hl := by
    obtain ⟨f, hf, rfl⟩ := isFile_iff.1 hl
    exact hfiles f hf

/-- What is listed, or on the way to it, is what exists. -/
lemma mem_locations : l ∈ d.locations ↔ d.exists? l := by
  simp only [locations, List.mem_flatMap, Location.mem_onTheWay, exists?, Bool.or_eq_true,
    isFile_iff, isFolder_iff, List.mem_append, List.mem_cons, List.mem_map]
  constructor
  · rintro ⟨k, (rfl | hk) | ⟨f, hf, rfl⟩, hl⟩
    · exact .inr (.inr (.inr (.inl hl)))
    · exact .inr (.inr (.inl ⟨k, hk, hl⟩))
    · by_cases heq : l = f.1
      · exact .inl ⟨f, hf, heq⟩
      · exact .inr (.inr (.inr (.inr ⟨f, hf, hl, heq⟩)))
  · rintro (⟨f, hf, rfl⟩ | rfl | ⟨k, hk, hl⟩ | hl | ⟨f, hf, hl, -⟩)
    · exact ⟨f.1, .inr ⟨f, hf, rfl⟩, List.prefix_refl _⟩
    · exact ⟨d.here, .inl (.inl rfl), List.nil_prefix⟩
    · exact ⟨k, .inl (.inr hk), hl⟩
    · exact ⟨d.here, .inl (.inl rfl), hl⟩
    · exact ⟨f.1, .inr ⟨f, hf, rfl⟩, hl⟩

lemma exists?_of_isFile (h : d.isFile l) : d.exists? l := by
  rw [exists?, h, Bool.true_or]

lemma exists?_of_isFolder (h : d.isFolder l) : d.exists? l := by
  rw [exists?, h, Bool.or_true]

/-- What has something below it is a folder. -/
lemma isFolder_of_exists?_append (h : d.exists? (l ++ way)) (hne : way ≠ []) : d.isFolder l := by
  have hlonger : l ≠ l ++ way := fun heq => hne (List.self_eq_append_right.1 heq)
  have hfront {k : Location} (hk : l ++ way <+: k) : l <+: k := (List.prefix_append l way).trans hk
  rw [exists?, Bool.or_eq_true, isFile_iff, isFolder_iff] at h
  rw [isFolder_iff]
  obtain ⟨f, hf, heq⟩ | hempty | ⟨k, hk, hl⟩ | hl | ⟨f, hf, hl, -⟩ := h
  · refine .inr (.inr (.inr ⟨f, hf, ?_, heq ▸ hlonger⟩))
    exact heq ▸ List.prefix_append l way
  · exact absurd (List.append_eq_nil_iff.1 hempty).2 hne
  · exact .inr (.inl ⟨k, hk, hfront hl⟩)
  · exact .inr (.inr (.inl (hfront hl)))
  · refine .inr (.inr (.inr ⟨f, hf, hfront hl, ?_⟩))
    rintro rfl
    have hlength := hl.length_le
    have hpos := List.length_pos_iff.2 hne
    rw [List.length_append] at hlength
    omega

/-! ### What is below a folder -/

lemma mem_namesIn : name ∈ d.namesIn l ↔ d.exists? (l ++ [name]) := by
  simp only [namesIn, List.mem_eraseDups, List.mem_filterMap]
  constructor
  · rintro ⟨k, hk, hname⟩
    split at hname
    · next hl =>
      rw [← hl, List.dropLast_append_getLast? name hname]
      exact mem_locations.1 hk
    · cases hname
  · intro h
    exact ⟨l ++ [name], mem_locations.2 h, by simp⟩

lemma mem_foldersBelow : way ∈ d.foldersBelow l ↔ d.isFolder (l ++ way) := by
  simp only [foldersBelow, List.mem_eraseDups, List.mem_map, List.mem_filter, Bool.and_eq_true,
    List.isPrefixOf_iff_prefix]
  constructor
  · rintro ⟨k, ⟨-, ⟨w, rfl⟩, hk⟩, rfl⟩
    rwa [List.drop_left]
  · intro h
    exact ⟨l ++ way, ⟨mem_locations.2 (exists?_of_isFolder h), List.prefix_append l way, h⟩,
      List.drop_left⟩

lemma IsTree.isFile_eq_false (h : d.IsTree) (hl : d.isFolder l) : d.isFile l = false := by
  by_contra hfile
  rw [h.apart l (by simpa using hfile)] at hl
  cases hl

lemma IsTree.isProperName (h : d.IsTree) (hl : d.exists? (l ++ way)) :
    ∀ name ∈ way, name.IsProperName := fun name hname =>
  h.names _ (mem_locations.2 hl) name (List.mem_append_right l hname)

end Disk

end Idl
