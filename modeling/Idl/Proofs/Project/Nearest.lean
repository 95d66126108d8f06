/-
# The nearest settings govern

A search for settings looks into the folder that it starts from and then into the folders around it,
with at most one move for each name on the way (`Disk.exists_climbs`).  In a tree it ends in the
deepest folder on the way that has something under the name of a settings file, and finds nothing if
and only if none has (`Disk.exists_climb_eq_ok`).  So the nearest settings govern a place, and they
govern alike the folders between them and the place (`Disk.nearestSettings_of_exists`).

Only the length of paths is an exception.  A search asks for the settings file in each folder by its
path, and where this path is too long it ends with that obstacle, whatever there is further up
(`Disk.projectFolder?_of_deep_folder`).
-/
import Idl.Project.Nearest
import Idl.Proofs.Files.Located

namespace Idl

variable {_ : Machine}

namespace Disk

/-- A search that looks into a folder ends with a result after a number of moves to the folder
around. -/
inductive Climbs (d : Disk) : Nat → Location → Except Obstacle (Option Location) → Prop where
  | obstacle {l : Location} {o : Obstacle} (h : d.look l = .error o) : Climbs d 0 l (.error o)
  | found {l : Location} (h : d.look l = .ok .found) : Climbs d 0 l (.ok (some l))
  | nowhere {l : Location} (h : d.look l = .ok .nowhere) : Climbs d 0 l (.ok none)
  | further {n : Nat} {k l : Location} {r : Except Obstacle (Option Location)}
      (h : d.look l = .ok (.further k)) (hrest : Climbs d n k r) : Climbs d (n + 1) l r

/-- The folder that a place is in: the one around a file, and a folder itself. -/
def folderOf (d : Disk) (l : Location) : Location := if d.isFile l then l.dropLast else l

/-- Whether a folder has something under the name of a settings file. -/
def hasSettings (d : Disk) (l : Location) : Bool := d.exists? (l ++ [settingsName])

/-- The deepest of the folders on the way to a folder that have settings. -/
structure IsNearest (d : Disk) (l k : Location) : Prop where
  onTheWay : k <+: l
  settings : d.hasSettings k
  deepest : ∀ j, j <+: l → d.hasSettings j → j.length ≤ k.length

/-- A search from a folder finds the nearest folder with settings, or nothing if none on the way
has any. -/
structure Finds (d : Disk) (l : Location) (found : Option Location) : Prop where
  nearest : ∀ k, found = some k ↔ d.IsNearest l k
  nothing : found = none ↔ ∀ k, k <+: l → ¬ d.hasSettings k

/-- Neither the path of a place nor that of settings in its folder is too long. -/
structure HasRoom (d : Disk) (l : Location) : Prop where
  place : (Location.text l).utf8Size ≤ pathLimit
  settings : (Location.text (d.folderOf l ++ [settingsName])).utf8Size ≤ pathLimit

end Disk

/-! ### Locations as paths from the root -/

namespace Location

variable {k l : Location}

lemma text_mk_root (l : Location) : (FilePath.mk .root l).text = Location.text l := by
  have hne : Anchor.root.text ++ Text.join "/" l ≠ [] := List.cons_ne_nil _ _
  rw [FilePath.text]
  exact if_neg hne

/-- With some names left out, a location has no longer text. -/
lemma utf8Size_text_le (h : k.Sublist l) :
    (Location.text k).utf8Size ≤ (Location.text l).utf8Size := by
  rw [Location.text, Location.text, Text.utf8Size_append, Text.utf8Size_append]
  exact Nat.add_le_add_left (Text.utf8Size_join_le "/" h) _

/-- A name takes its own room and that of a slash. -/
lemma utf8Size_text_concat (hne : l ≠ []) (name : Text) :
    (Location.text (l ++ [name])).utf8Size = (Location.text l).utf8Size + (name.utf8Size + 1) := by
  have hslash : (Text.ofString "/").utf8Size = 1 := rfl
  obtain ⟨first, l, rfl⟩ := List.exists_cons_of_ne_nil hne
  rw [Location.text, Location.text, Text.join_append _ _ _ (List.cons_ne_nil name [])]
  simp only [Text.utf8Size_append, hslash, Text.join]
  omega

lemma utf8Size_text_replicate (hne : l ≠ []) (n : Nat) (name : Text) :
    (Location.text (l ++ List.replicate n name)).utf8Size =
      (Location.text l).utf8Size + n * (name.utf8Size + 1) := by
  induction n with
  | zero => rw [List.replicate_zero, List.append_nil, Nat.zero_mul, Nat.add_zero]
  | succ n ih =>
    rw [List.replicate_succ', ← List.append_assoc,
      utf8Size_text_concat (List.append_ne_nil_of_left_ne_nil hne _), ih, Nat.succ_mul,
      Nat.add_assoc]

end Location

namespace Disk

variable {d : Disk} {j k l : Location} {found : Option Location} {name : Text} {start : FilePath}

lemma IsTree.isProperName_of_exists (htree : d.IsTree) (hexists : d.exists? l) :
    ∀ name ∈ l, name.IsProperName :=
  htree.isProperName (l := []) hexists

lemma isPlain_mk_root (h : ∀ name ∈ l, name.IsProperName) : (FilePath.mk .root l).IsPlain :=
  FilePath.IsPlain.below (p := ⟨.root, []⟩) (List.forall_mem_nil _) h

lemma zero_notMem_text (h : ∀ name ∈ l, name.IsProperName) :
    CodePoint.scalar '\x00' ∉ (FilePath.mk .root l).text := by
  rw [FilePath.zero_mem_text]
  rintro ⟨name, hname, hzero⟩
  exact (h name hname).zero hzero

lemma holdsZero_eq_false {p : FilePath} (h : ∀ name ∈ p.names, name.IsProperName) :
    p.holdsZero = false := by
  refine List.any_eq_false.2 fun name hname hzero => (h name hname).zero ?_
  obtain ⟨c, hc, heq⟩ := List.any_eq_true.1 hzero
  rwa [← of_decide_eq_true heq]

/-- What exists is found by its path from the root. -/
lemma locate_mk_root (htree : d.IsTree) (hexists : d.exists? l)
    (hroom : (Location.text l).utf8Size ≤ pathLimit) : d.locate ⟨.root, l⟩ = .ok l := by
  have hnames := htree.isProperName_of_exists hexists
  rw [locate_eq_walk (isPlain_mk_root hnames) (zero_notMem_text hnames)
    (by rwa [Location.text_mk_root])]
  exact walk_proper (l := []) hexists hnames

/-- In a folder it can be asked for something with a name. -/
lemma locate?_mk_root_concat (htree : d.IsTree) (hfolder : d.isFolder l) (hname : name.IsProperName)
    (hroom : (Location.text (l ++ [name])).utf8Size ≤ pathLimit) :
    d.locate? ⟨.root, l ++ [name]⟩ =
      .ok (if d.exists? (l ++ [name]) then some (l ++ [name]) else none) := by
  have hexists : d.exists? l := exists?_of_isFolder hfolder
  have hl := htree.isProperName_of_exists hexists
  have hnames : ∀ name' ∈ l ++ [name], name'.IsProperName :=
    List.forall_mem_append.2 ⟨hl, List.forall_mem_singleton.2 hname⟩
  have hwalk : d.walk [] l = .ok l := walk_proper (l := []) hexists hl
  have hshort := hname.short
  have hstep : l.step name = l ++ [name] := if_neg hname.ne_dots
  have hlocate : d.locate ⟨.root, l ++ [name]⟩ =
      if d.exists? (l ++ [name]) then .ok (l ++ [name]) else .error .missing := by
    rw [locate_eq_walk (isPlain_mk_root hnames) (zero_notMem_text hnames)
      (by rwa [Location.text_mk_root])]
    refine (walk_append hwalk [name]).trans ?_
    rw [walk, if_pos hfolder, if_neg (by omega), if_neg (not_or.2 ⟨hname.ne_nil, hname.ne_dot⟩),
      hstep, walk]
  rw [locate?, hlocate]
  split_ifs <;> rfl

/-- What a path that is too long leads to cannot be asked. -/
lemma locate?_mk_root_of_long (hnames : ∀ name ∈ l, name.IsProperName)
    (hlong : pathLimit < (Location.text l).utf8Size) :
    d.locate? ⟨.root, l⟩ = .error .tooLong := by
  have hlocate : d.locate ⟨.root, l⟩ = .error .tooLong := by
    rw [locate, find, if_neg (FilePath.text_ne_nil _), if_neg (zero_notMem_text hnames),
      if_pos (by rwa [Location.text_mk_root])]
  rw [locate?, hlocate]

/-! ### Looking into one folder -/

lemma isProperName_settingsName : settingsName.IsProperName := by decide

lemma IsTree.isProperName_settings (htree : d.IsTree) (hfolder : d.isFolder l) :
    ∀ name ∈ l ++ [settingsName], name.IsProperName :=
  List.forall_mem_append.2 ⟨htree.isProperName_of_exists (exists?_of_isFolder hfolder),
    List.forall_mem_singleton.2 isProperName_settingsName⟩

/-- Further up, the path of a settings file is no longer. -/
lemma utf8Size_settings_le (h : k <+: l) :
    (Location.text (k ++ [settingsName])).utf8Size ≤
      (Location.text (l ++ [settingsName])).utf8Size :=
  Location.utf8Size_text_le (h.sublist.append_right [settingsName])

lemma isFolder_of_onTheWay (hfolder : d.isFolder l) (h : k <+: l) : d.isFolder k := by
  obtain ⟨way, rfl⟩ := h
  by_cases hne : way = []
  · rwa [hne, List.append_nil] at hfolder
  · exact isFolder_of_exists?_append (exists?_of_isFolder hfolder) hne

/-- In a folder of a tree the search finds settings if there are any, and goes on in the folder
around if there is one. -/
lemma look_eq_ok (htree : d.IsTree) (hfolder : d.isFolder l)
    (hroom : (Location.text (l ++ [settingsName])).utf8Size ≤ pathLimit) :
    d.look l = .ok (if d.hasSettings l then .found else if l = [] then .nowhere
      else .further l.dropLast) := by
  have hlast : l.dropLast = l ↔ l = [] := by
    rcases List.eq_nil_or_concat l with rfl | ⟨k, name, rfl⟩ <;> simp
  rw [look, locate?_mk_root_concat htree hfolder isProperName_settingsName hroom]
  by_cases hsettings : d.exists? (l ++ [settingsName])
  · simp only [hasSettings, hsettings, if_true]
  · simp only [hasSettings, hsettings, hlast, Bool.false_eq_true, if_false]

lemma look_of_long (htree : d.IsTree) (hfolder : d.isFolder l)
    (hlong : pathLimit < (Location.text (l ++ [settingsName])).utf8Size) :
    d.look l = .error .tooLong := by
  rw [look, locate?_mk_root_of_long (htree.isProperName_settings hfolder) hlong]

/-! ### The climb -/

/-- On every disk a search ends, after at most one move for each name on the way. -/
lemma exists_climbs (d : Disk) (l : Location) : ∃ n ≤ l.length, d.Climbs n l (d.climb l) := by
  fun_induction d.climb l with
  | case1 l o hlook => exact ⟨0, Nat.zero_le _, .obstacle hlook⟩
  | case2 l hlook => exact ⟨0, Nat.zero_le _, .found hlook⟩
  | case3 l hlook => exact ⟨0, Nat.zero_le _, .nowhere hlook⟩
  | case4 l k hlook ih =>
    obtain ⟨n, hn, hrest⟩ := ih
    have hnearer := length_lt_of_look hlook
    exact ⟨n + 1, by omega, .further hlook hrest⟩

/-- A folder with settings is the nearest one to itself. -/
lemma finds_self (h : d.hasSettings l) : d.Finds l (some l) where
  nearest k := by
    rw [Option.some_inj]
    constructor
    · rintro rfl
      exact ⟨List.prefix_refl l, h, fun j hj _ => hj.length_le⟩
    · intro hk
      exact (hk.onTheWay.eq_of_length_le (hk.deepest l (List.prefix_refl l) h)).symm
  nothing := iff_of_false (Option.some_ne_none l) fun hnone => hnone l (List.prefix_refl l) h

lemma finds_root (h : ¬ d.hasSettings []) : d.Finds [] none where
  nearest k := by
    refine iff_of_false (Option.some_ne_none k).symm fun hk => h ?_
    rw [← List.prefix_nil.1 hk.onTheWay]
    exact hk.settings
  nothing := by
    refine iff_of_true rfl fun k hk => ?_
    rwa [List.prefix_nil.1 hk]

/-- It makes no difference to leave out folders without settings. -/
lemma finds_congr (hway : j <+: l) (h : ∀ k, k <+: l → d.hasSettings k → k <+: j) :
    d.Finds l found ↔ d.Finds j found := by
  have hup {k : Location} (hk : d.hasSettings k) : k <+: l ↔ k <+: j :=
    ⟨fun hl => h k hl hk, fun hj => hj.trans hway⟩
  have hnearest (k : Location) : d.IsNearest l k ↔ d.IsNearest j k := by
    constructor
    · rintro ⟨hl, hk, hdeepest⟩
      exact ⟨(hup hk).1 hl, hk, fun i hi hset => hdeepest i ((hup hset).2 hi) hset⟩
    · rintro ⟨hj, hk, hdeepest⟩
      exact ⟨(hup hk).2 hj, hk, fun i hi hset => hdeepest i ((hup hset).1 hi) hset⟩
  have hnothing : (∀ k, k <+: l → ¬ d.hasSettings k) ↔ ∀ k, k <+: j → ¬ d.hasSettings k :=
    ⟨fun hnone k hk => hnone k (hk.trans hway), fun hnone k hk hset => hnone k (h k hk hset) hset⟩
  constructor
  · rintro ⟨hsome, hnone⟩
    exact ⟨fun k => (hsome k).trans (hnearest k), hnone.trans hnothing⟩
  · rintro ⟨hsome, hnone⟩
    exact ⟨fun k => (hsome k).trans (hnearest k).symm, hnone.trans hnothing.symm⟩

/-- A search finds one folder only. -/
lemma Finds.unique {found' : Option Location} (h : d.Finds l found) (h' : d.Finds l found') :
    found = found' :=
  Option.ext fun k => (h.nearest k).trans (h'.nearest k).symm

/-- From the folders between a folder and what is found from it, the same is found. -/
lemma Finds.of_onTheWay (h : d.Finds l found) (hway : j <+: l) (hbelow : ∀ k ∈ found, k <+: j) :
    d.Finds j found := by
  refine (finds_congr hway fun i hi hsettings => ?_).1 h
  cases found with
  | none => exact absurd hsettings (h.nothing.1 rfl i hi)
  | some k =>
    have hk := (h.nearest k).1 rfl
    have hup : i <+: k := List.prefix_of_prefix_length_le hi hk.onTheWay (hk.deepest i hi hsettings)
    exact hup.trans (hbelow k rfl)

/-- From a folder of a tree a search finds the nearest settings. -/
lemma exists_climb_eq_ok (htree : d.IsTree) (hfolder : d.isFolder l)
    (hroom : (Location.text (l ++ [settingsName])).utf8Size ≤ pathLimit) :
    ∃ found, d.climb l = .ok found ∧ d.Finds l found := by
  induction l using List.reverseRecOn with
  | nil =>
    rw [climb_eq, look_eq_ok htree hfolder hroom]
    by_cases hsettings : d.hasSettings []
    · rw [if_pos hsettings]
      exact ⟨some [], rfl, finds_self hsettings⟩
    · rw [if_neg hsettings, if_pos rfl]
      exact ⟨none, rfl, finds_root hsettings⟩
  | append_singleton l name ih =>
    rw [climb_eq, look_eq_ok htree hfolder hroom]
    by_cases hsettings : d.hasSettings (l ++ [name])
    · rw [if_pos hsettings]
      exact ⟨some (l ++ [name]), rfl, finds_self hsettings⟩
    · rw [if_neg hsettings, if_neg (List.concat_ne_nil name l), List.dropLast_concat]
      -- the path of settings in the folder around is shorter, and the folder itself has none
      have hway : l <+: l ++ [name] := List.prefix_append l [name]
      obtain ⟨found, hclimb, hfound⟩ :=
        ih (isFolder_of_onTheWay hfolder hway) ((utf8Size_settings_le hway).trans hroom)
      refine ⟨found, hclimb, (finds_congr hway fun k hk hset => ?_).2 hfound⟩
      refine (List.prefix_concat_iff.1 hk).resolve_left ?_
      rintro rfl
      exact hsettings hset

/-! ### Searches from a place -/

lemma isFolder_folderOf (hexists : d.exists? l) : d.isFolder (d.folderOf l) := by
  unfold folderOf
  split
  · rcases List.eq_nil_or_concat l with rfl | ⟨k, name, rfl⟩
    · exact d.isFolder_root
    · rw [List.concat_eq_append] at hexists ⊢
      rw [List.dropLast_concat]
      exact isFolder_of_exists?_append hexists (List.cons_ne_nil name [])
  · next hfile =>
    rw [exists?, Bool.or_eq_true] at hexists
    exact hexists.resolve_left hfile

lemma folderOf_of_isFolder (htree : d.IsTree) (hfolder : d.isFolder l) : d.folderOf l = l := by
  rw [folderOf, htree.isFile_eq_false hfolder]
  rfl

/-- A search from a place that exists starts from its folder. -/
lemma searchStart_of_exists (htree : d.IsTree) (hzero : start.holdsZero = false)
    (hexists : d.exists? (start.resolve d.here)) :
    d.searchStart start = if (Location.text (start.resolve d.here)).utf8Size ≤ pathLimit then
      .ok (d.folderOf (start.resolve d.here)) else .error .tooLong := by
  have hstart : d.searchStart start =
      (d.leadsToFile ⟨.root, start.resolve d.here⟩).map fun file =>
        if file then (start.resolve d.here).dropLast else start.resolve d.here := by
    rw [searchStart, hzero, if_neg Bool.false_ne_true]
    dsimp only
    cases d.leadsToFile ⟨.root, start.resolve d.here⟩ <;> rfl
  rw [hstart, leadsToFile]
  split
  · next hroom =>
    rw [locate?, locate_mk_root htree hexists hroom]
    rfl
  · next hlong =>
    rw [locate?_mk_root_of_long (htree.isProperName_of_exists hexists) (not_le.1 hlong)]
    rfl

/-- From a place with room a search finds the nearest settings. -/
lemma exists_projectFolder?_eq_ok (htree : d.IsTree) (hzero : start.holdsZero = false)
    (hexists : d.exists? (start.resolve d.here)) (hroom : d.HasRoom (start.resolve d.here)) :
    ∃ found, d.projectFolder? start = .ok found ∧
      d.Finds (d.folderOf (start.resolve d.here)) found := by
  have hstart := (searchStart_of_exists htree hzero hexists).trans (if_pos hroom.place)
  rw [projectFolder?_of_searchStart hstart]
  exact exists_climb_eq_ok htree (isFolder_folderOf hexists) hroom.settings

/-- From a place without room a search finds nothing out. -/
lemma projectFolder?_eq_tooLong (htree : d.IsTree) (hzero : start.holdsZero = false)
    (hexists : d.exists? (start.resolve d.here)) (hroom : ¬ d.HasRoom (start.resolve d.here)) :
    d.projectFolder? start = .error .tooLong := by
  have hstart := searchStart_of_exists htree hzero hexists
  split at hstart
  · next hplace =>
    have hlong := not_le.1 fun hsettings => hroom ⟨hplace, hsettings⟩
    rw [projectFolder?_of_searchStart hstart, climb_eq,
      look_of_long htree (isFolder_folderOf hexists) hlong]
  · rw [projectFolder?, hstart]
    rfl

/-- The folders on the way to a place with room have room. -/
lemma HasRoom.of_onTheWay (htree : d.IsTree) (h : d.HasRoom k) (hfolder : d.isFolder l)
    (hway : l <+: d.folderOf k) : d.HasRoom l := by
  have hsettings := (utf8Size_settings_le hway).trans h.settings
  refine ⟨(Location.utf8Size_text_le (List.sublist_append_left l _)).trans hsettings, ?_⟩
  rwa [folderOf_of_isFolder htree hfolder]

lemma nearestSettings_congr {start' : FilePath}
    (h : d.projectFolder? start' = d.projectFolder? start) :
    d.nearestSettings start' = d.nearestSettings start := by
  rw [nearestSettings_eq, nearestSettings_eq, h]

/-- A search that finds no settings leaves the usual ones. -/
lemma nearestSettings_of_nowhere [Machine] (h : (d.searchStart start >>= d.look) = .ok .nowhere) :
    d.nearestSettings start = .ok (Settings.usual, none) := by
  cases hstart : d.searchStart start with
  | error o =>
    rw [hstart] at h
    cases h
  | ok l =>
    have hlook : d.look l = .ok .nowhere := by rwa [hstart] at h
    rw [nearestSettings_eq, projectFolder?_of_searchStart hstart, climb_eq, hlook]

/-- The settings that govern a place in a tree of files and folders.

A search from the place moves at most once for each name on the way to its folder.  If neither the
path of the place nor that of settings in its folder is too long, it finds the deepest folder on the
way with something under the name of a settings file, and finds none if and only if there is none;
just then the usual settings govern the place, and otherwise those that the file gives, or its
problem.  The folders between the place and what is found from it are governed alike.  If one of
these paths is too long, the search ends with that obstacle. -/
theorem nearestSettings_of_exists (htree : d.IsTree) (hzero : start.holdsZero = false)
    (hexists : d.exists? (start.resolve d.here)) :
    let folder := d.folderOf (start.resolve d.here)
    (∀ l, d.searchStart start = .ok l →
      l = folder ∧ ∃ n ≤ folder.length, d.Climbs n folder (d.projectFolder? start)) ∧
    (d.HasRoom (start.resolve d.here) → ∃ found,
      d.projectFolder? start = .ok found ∧
      (∀ k, found = some k ↔ d.IsNearest folder k) ∧
      (found = none ↔ ∀ k, k <+: folder → ¬ d.hasSettings k) ∧
      (d.nearestSettings start = .ok (Settings.usual, none) ↔ found = none) ∧
      (∀ k, found = some k → d.nearestSettings start =
        (Settings.load d ⟨.root, k ++ [settingsName]⟩).map fun settings => (settings, some k)) ∧
      ∀ start' : FilePath, start'.holdsZero = false → start'.resolve d.here <+: folder →
        (∀ k ∈ found, k <+: start'.resolve d.here) →
        d.projectFolder? start' = d.projectFolder? start ∧
          d.nearestSettings start' = d.nearestSettings start) ∧
    (¬ d.HasRoom (start.resolve d.here) →
      d.projectFolder? start = .error .tooLong ∧
        d.nearestSettings start = .error (.obstacle .tooLong)) := by
  intro folder
  have hfolder : d.isFolder folder := isFolder_folderOf hexists
  refine ⟨fun l hl => ?_, fun hroom => ?_, fun hroom => ?_⟩
  · obtain rfl : l = folder := by
      have hstart := (searchStart_of_exists htree hzero hexists).symm.trans hl
      split at hstart
      · exact (Except.ok.inj hstart).symm
      · cases hstart
    rw [projectFolder?_of_searchStart hl]
    exact ⟨rfl, exists_climbs d folder⟩
  · obtain ⟨found, hfound, hfinds⟩ := exists_projectFolder?_eq_ok htree hzero hexists hroom
    have hsettings {k : Location} (hk : found = some k) : d.nearestSettings start =
        (Settings.load d ⟨.root, k ++ [settingsName]⟩).map fun settings => (settings, some k) := by
      rw [nearestSettings_eq, hfound, hk]
    refine ⟨found, hfound, hfinds.nearest, hfinds.nothing, ?_, fun k => hsettings, ?_⟩
    · cases found with
      | none => exact iff_of_true (by rw [nearestSettings_eq, hfound]) rfl
      | some k =>
        refine iff_of_false (fun h => ?_) (Option.some_ne_none k)
        rw [hsettings rfl] at h
        cases hload : Settings.load d ⟨.root, k ++ [settingsName]⟩ with
        | error p =>
          rw [hload] at h
          cases h
        | ok settings =>
          rw [hload] at h
          cases h
    · -- the second search starts from a folder that exists and has room, being further up
      intro start' hzero' hway hbelow
      have hfolder' := isFolder_of_onTheWay hfolder hway
      obtain ⟨found', hfound', hfinds'⟩ := exists_projectFolder?_eq_ok htree hzero'
        (exists?_of_isFolder hfolder') (hroom.of_onTheWay htree hfolder' hway)
      rw [folderOf_of_isFolder htree hfolder'] at hfinds'
      have hsame : d.projectFolder? start' = d.projectFolder? start := by
        rw [hfound, hfound', hfinds'.unique (hfinds.of_onTheWay hway hbelow)]
      exact ⟨hsame, nearestSettings_congr hsame⟩
  · have hlong := projectFolder?_eq_tooLong htree hzero hexists hroom
    refine ⟨hlong, ?_⟩
    rw [nearestSettings_eq, hlong]

/-- An empty file tells the usual settings. -/
lemma load_of_empty {p : FilePath} (hl : d.locate p = .ok l) (ht : d.fileAt? l = some []) :
    Settings.load d p = .ok Settings.usual := by
  have htable : Toml.parse [] = .ok [] := by
    rw [Toml.parse, Toml.Document.withJoinedBreaks, Toml.Document.readLines]
    rfl
  simp only [Settings.load, hl, ht, Settings.ofText, htable]
  rfl

/-- A project with a file in one folder, and in another folder a project of its own: the file and
its folder are governed by the settings around them. -/
theorem nearestSettings_beside_project :
    let _ : Machine := .usual
    let d : Disk := ⟨[(["a", "duet.toml"], []), (["a", "b", "c.duet"], []),
      (["a", "d", "duet.toml"], [])], [], ["a"]⟩
    let start := FilePath.ofText "b/c.duet"
    (d.IsTree ∧ start.holdsZero = false ∧ d.exists? (start.resolve d.here) ∧
      d.HasRoom (start.resolve d.here)) ∧
    d.projectFolder? start = .ok (some ["a"]) ∧
    d.nearestSettings start = .ok (Settings.usual, some ["a"]) ∧
    d.nearestSettings (FilePath.ofText "b") = .ok (Settings.usual, some ["a"]) := by
  intro _ d start
  have htree : d.IsTree := isTree_of_forall (by decide) (by decide)
  have hzero : start.holdsZero = false := by decide
  have hexists : d.exists? (start.resolve d.here) := by decide
  have hroom : d.HasRoom (start.resolve d.here) := ⟨by decide, by decide⟩
  have hload : Settings.load d ⟨.root, ["a", settingsName]⟩ = .ok Settings.usual :=
    load_of_empty (l := ["a", "duet.toml"]) (by decide) rfl
  obtain ⟨-, hgoverns, -⟩ := nearestSettings_of_exists htree hzero hexists
  obtain ⟨found, hfound, hnearest, -, -, hsettings, hbetween⟩ := hgoverns hroom
  have hdeepest : ∀ j ∈ Location.onTheWay ["a", "b"], d.hasSettings j → j.length ≤ 1 := by decide
  obtain rfl : found = some [Text.ofString "a"] := (hnearest _).2
    ⟨by decide, by decide, fun j hj => hdeepest j (Location.mem_onTheWay.2 hj)⟩
  have hstart : d.nearestSettings start = .ok (Settings.usual, some ["a"]) := by
    refine (hsettings _ rfl).trans ?_
    rw [List.singleton_append, hload]
    rfl
  obtain ⟨-, hbelow⟩ := hbetween (FilePath.ofText "b") rfl (by decide) (by
    rintro k ⟨⟩
    decide)
  exact ⟨⟨htree, hzero, hexists, hroom⟩, hfound, hstart, hbelow.trans hstart⟩

/-! ### Paths that are too long -/

/-- The way from a project to a folder far below it. -/
def deepWay : List Text :=
  List.replicate 40 (List.replicate 100 (.scalar 'a')) ++ [List.replicate 38 (.scalar 'a')]

/-- A folder with a path that is not too long itself, but leaves no room for settings. -/
def deepFolder : Location := "models" :: deepWay

/-- A project with a deep folder and nothing else. -/
def deepProject : Disk where
  files := [(["models", "duet.toml"], [])]
  folders := [deepFolder]
  here := ["models"]

lemma eq_of_mem_deepWay (h : name ∈ deepWay) :
    name = List.replicate 100 (.scalar 'a') ∨ name = List.replicate 38 (.scalar 'a') :=
  (List.mem_append.1 h).imp List.eq_of_mem_replicate List.mem_singleton.1

lemma isProperName_of_mem_deepWay (h : name ∈ deepWay) : name.IsProperName := by
  rcases eq_of_mem_deepWay h with rfl | rfl <;> decide

lemma settingsName_notMem_deepFolder : settingsName ∉ deepFolder := by
  rw [deepFolder, List.mem_cons, not_or]
  refine ⟨by decide, fun h => ?_⟩
  rcases eq_of_mem_deepWay h with h | h
  · exact absurd h (by decide)
  · exact absurd h (by decide)

lemma isTree_deepProject : deepProject.IsTree := by
  have hmodels : (Text.ofString "models").IsProperName := by decide
  refine isTree_of_forall ?_ (by decide)
  refine List.forall_mem_cons.2 ⟨?_, List.forall_mem_cons.2 ⟨?_, List.forall_mem_singleton.2 ?_⟩⟩
  · exact List.forall_mem_singleton.2 hmodels
  · exact List.forall_mem_cons.2 ⟨hmodels, fun name => isProperName_of_mem_deepWay⟩
  · exact List.forall_mem_cons.2 ⟨hmodels, List.forall_mem_singleton.2 isProperName_settingsName⟩

lemma isFolder_deepFolder : deepProject.isFolder deepFolder :=
  isFolder_iff.2 (.inr (.inl ⟨deepFolder, List.mem_singleton_self _, List.prefix_refl _⟩))

lemma isNearest_deepFolder : deepProject.IsNearest deepFolder ["models"] where
  onTheWay := List.prefix_append [Text.ofString "models"] deepWay
  settings := by decide
  deepest j hway hsettings := by
    obtain ⟨k, hk, hlonger⟩ := List.mem_flatMap.1 (mem_locations.2 hsettings)
    rw [Location.mem_onTheWay] at hlonger
    have hlength := hlonger.length_le
    rw [List.length_append] at hlength
    have hlisted : k = [Text.ofString "models"] ∨ k = deepFolder ∨
        k = [Text.ofString "models", settingsName] := by
      simpa [deepProject, settingsName] using hk
    rcases hlisted with rfl | rfl | rfl
    · simpa using hlength.trans (by decide : _ ≤ 2)
    · exact absurd (hlonger.subset (by simp)) settingsName_notMem_deepFolder
    · simpa using hlength

lemma utf8Size_deepFolder :
    (Location.text (deepFolder ++ [settingsName])).utf8Size = pathLimit + 1 := by
  have hmodels : [Text.ofString "models"] ≠ [] := List.cons_ne_nil _ _
  have hdeep : deepFolder ≠ [] := List.cons_ne_nil _ _
  have hfolder : deepFolder = [Text.ofString "models"] ++
      List.replicate 40 (List.replicate 100 (.scalar 'a')) ++ [List.replicate 38 (.scalar 'a')] :=
    rfl
  rw [Location.utf8Size_text_concat hdeep, hfolder,
    Location.utf8Size_text_concat (List.append_ne_nil_of_left_ne_nil hmodels _),
    Location.utf8Size_text_replicate hmodels]
  decide

/-- From a deep folder the settings of its project are not found, for the path of a settings file
in the folder itself would be too long. -/
theorem projectFolder?_of_deep_folder :
    let start : FilePath := ⟨.none, deepWay⟩
    let folder := deepProject.folderOf (start.resolve deepProject.here)
    (deepProject.IsTree ∧ start.holdsZero = false ∧
      deepProject.exists? (start.resolve deepProject.here) ∧
      deepProject.IsNearest folder ["models"]) ∧
    deepProject.projectFolder? start = .error .tooLong := by
  intro start folder
  have hplace : start.resolve deepProject.here = deepFolder := by
    have hwalk := walk_proper (l := [Text.ofString "models"])
      (exists?_of_isFolder isFolder_deepFolder) fun name => isProperName_of_mem_deepWay
    refine (eq_foldl_of_walk (fun name hname hsilent => ?_) hwalk).symm
    have hproper := isProperName_of_mem_deepWay hname
    exact hsilent.elim hproper.ne_nil hproper.ne_dot
  have hfolder : folder = deepFolder := by
    show deepProject.folderOf _ = _
    rw [hplace]
    exact folderOf_of_isFolder isTree_deepProject isFolder_deepFolder
  have hzero : start.holdsZero = false :=
    holdsZero_eq_false fun name => isProperName_of_mem_deepWay
  have hexists : deepProject.exists? (start.resolve deepProject.here) := by
    rw [hplace]
    exact exists?_of_isFolder isFolder_deepFolder
  have hroom : ¬ deepProject.HasRoom (start.resolve deepProject.here) := by
    intro h
    have hshort : (Location.text (folder ++ [settingsName])).utf8Size ≤ pathLimit := h.settings
    rw [hfolder, utf8Size_deepFolder] at hshort
    omega
  exact ⟨⟨isTree_deepProject, hzero, hexists, hfolder ▸ isNearest_deepFolder⟩,
    projectFolder?_eq_tooLong isTree_deepProject hzero hexists hroom⟩

end Disk

end Idl
