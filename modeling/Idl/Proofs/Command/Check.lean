/-
# Runs of the command that checks

A file that can be read is read as a module, and the only trace is what is said of it
(`Command.checkFile_apply`); a folder in the place of a file cuts the command short
(`Command.checkFile_apply_folder`).  So over all files the command says of each what there is to say
and counts the failures (`Command.onEach_checkFile`), unless one of them is a folder
(`Command.exists_onEach_checkFile_folder`).  A whole run does this for what is below the folder that
is searched and has one of the endings, and it is cut short if and only if one of these is a folder
or the root of the modules cannot be asked about (`Run.check_folder`).
-/
import Idl.Proofs.Command.Session
import Idl.Proofs.Project.Nearest
import Idl.Proofs.Project.Searched
import Idl.Proofs.Text.Sequences

namespace Idl

variable {_ : Machine}

namespace Disk

/-- The text in the file of a path. -/
def textOf (d : Disk) (p : FilePath) : Text := (d.readText? p).getD []

/-- Whether the file of a path holds a module. -/
def parses [Machine] (d : Disk) (p : FilePath) : Bool := (Module.parse (d.textOf p)).toOption.isSome

lemma textOf_eq {d : Disk} {l : Location} {p : FilePath} {t : Text} (hl : d.locate p = .ok l)
    (ht : d.fileAt? l = some t) : d.textOf p = t.withPlainBreaks := by
  rw [textOf, readText?, hl]
  simp only [ht, Option.map_some, Option.getD_some]

end Disk

namespace Command

/-- What the check says of the file of a path. -/
def checkReport [Machine] (pretty verbose : Bool) (d : Disk) (p : FilePath) : Text :=
  reading pretty verbose p.text (d.textOf p) (Module.parse (d.textOf p))

variable {files : List FilePath} {k l : Location} {p : FilePath} {settings : Settings}
  {t target : Text} {x : Session}

/-! ### One file -/

lemma checkFile_apply [Machine] (settings : Settings) (pretty : Bool) (hl : x.disk.locate p = .ok l)
    (ht : x.disk.fileAt? l = some t) : checkFile settings pretty p x = .ok (x.disk.parses p)
      { x with err := x.err ++ checkReport pretty x.verbose x.disk p } := by
  -- the name that a module is given is not told
  have hreading (read : Except SyntaxError Module) (name : Text) :
      reading pretty x.verbose p.text t.withPlainBreaks (read.map (·.withName name)) =
        reading pretty x.verbose p.text t.withPlainBreaks read ∧
      (read.map (·.withName name)).toOption.isSome = read.toOption.isSome := by
    cases read <;> exact ⟨rfl, rfl⟩
  obtain ⟨hsaid, hpasses⟩ := hreading (Module.parse t.withPlainBreaks)
    (p.text.logicalName settings.namingExtensions)
  rw [checkFile, bind_apply (readFile_apply hl ht), checkReport, Disk.parses,
    Disk.textOf_eq hl ht, ← hsaid, ← hpasses]
  exact bind_apply (accept_apply _ _ _ _ _)

/-- A folder cannot be read. -/
lemma checkFile_apply_folder (settings : Settings) (pretty : Bool) (hl : x.disk.locate p = .ok l)
    (ht : x.disk.fileAt? l = none) : checkFile settings pretty p x = .error .folder x := by
  have hread : readFile p x = .error .folder x := by
    have hget : (get : Command Session) x = .ok x x := rfl
    rw [readFile, bind_apply (ask_apply hl), bind_apply hget]
    simp only [ht]
    rfl
  rw [checkFile, bind_apply_error hread]

/-! ### All files -/

lemma onEach_checkFile (settings : Settings) (pretty : Bool)
    (hfiles : ∀ p ∈ files, ∃ l t, x.disk.locate p = .ok l ∧ x.disk.fileAt? l = some t) :
    onEach (checkFile settings pretty) files x = .ok (files.map x.disk.parses)
      { x with err := x.err ++ files.flatMap (checkReport pretty x.verbose x.disk) } := by
  induction files generalizing x with
  | nil =>
    rw [List.flatMap_nil, List.append_nil]
    rfl
  | cons p files ih =>
    obtain ⟨⟨l, t, hl, ht⟩, hrest⟩ := List.forall_mem_cons.1 hfiles
    have hstep := checkFile_apply settings pretty hl ht
    rw [onEach_cons hstep (ih hrest), List.map_cons, List.flatMap_cons, List.append_assoc]

/-- The first folder among the files cuts the command short. -/
lemma exists_onEach_checkFile_folder (settings : Settings) (pretty : Bool)
    (hfiles : ∀ p ∈ files, ∃ l, x.disk.locate p = .ok l)
    (hp : p ∈ files) (hl : x.disk.locate p = .ok l) (ht : x.disk.fileAt? l = none) :
    ∃ x', onEach (checkFile settings pretty) files x = .error .folder x' ∧
      x'.disk = x.disk := by
  induction files generalizing x with
  | nil => cases hp
  | cons q files ih =>
    obtain ⟨⟨k, hk⟩, hrest⟩ := List.forall_mem_cons.1 hfiles
    rcases hfile : x.disk.fileAt? k with _ | u
    · exact ⟨x, bind_apply_error (checkFile_apply_folder settings pretty hk hfile), rfl⟩
    · have hne : p ≠ q := by
        rintro rfl
        rw [hl] at hk
        rw [Except.ok.inj hk, hfile] at ht
        cases ht
      have hstep := checkFile_apply settings pretty hk hfile
      obtain ⟨x', hrun, hdisk⟩ := ih (x := { x with
        err := x.err ++ checkReport pretty x.verbose x.disk q }) hrest
        ((List.mem_cons.1 hp).resolve_left hne) hl ht
      refine ⟨x', ?_, hdisk⟩
      rw [onEach, bind_apply hstep]
      exact bind_apply_error hrun

/-- At the end the failures are counted. -/
lemma conclude_apply (passed : List Bool) (praise : Text → Text) (blame : Text) (x : Session) :
    conclude passed praise blame x = .ok (decide (passed.count false = 0))
      (if passed.count false = 0 then
        { x with out := x.out ++ ((praise (Text.ofNat passed.length)).withoutSequences ++ "\n") }
      else { x with
        err := x.err ++ (Text.withoutSequences (Text.ofNat (passed.count false) ++ " of " ++
          Text.ofNat passed.length ++ " file(s) " ++ blame) ++ "\n") }) := by
  rw [conclude]
  by_cases h : passed.count false = 0
  · simp only [h, if_true, decide_true]
    exact bind_apply (say_apply _ x)
  · simp only [h, if_false, decide_false]
    exact bind_apply (complain_apply _ x)

/-- Where there are files that can all be read, only the count is left to be told. -/
lemma check_apply (pretty : Bool)
    (hselected : x.disk.moduleFiles (FilePath.ofText target) = .ok (files, settings))
    (hne : files ≠ [])
    (hfiles : ∀ p ∈ files, ∃ l t, x.disk.locate p = .ok l ∧ x.disk.fileAt? l = some t) :
    check pretty target x = conclude (files.map x.disk.parses)
      (fun total => "checked " ++ total ++ " file(s), no errors") "failed to parse"
      { x with err := x.err ++ files.flatMap (checkReport pretty x.verbose x.disk) } := by
  have hask : moduleFiles target x = .ok (files, settings) x := ask_apply hselected
  rw [check, bind_apply hask]
  simp only [List.isEmpty_iff, hne, if_false]
  rw [bind_apply (onEach_checkFile settings pretty hfiles)]

end Command

/-! ### Runs -/

namespace Run

open Command (checkReport)

/-- The run that reads files in order, says of each what there is to say, and counts failures. -/
def checked [Machine] (d : Disk) (pretty verbose : Bool) (files : List FilePath) : Run :=
  let total := Text.ofNat files.length
  let failed := (files.map d.parses).count false
  let reports := files.flatMap (checkReport pretty verbose d)
  if files = [] then ⟨.success, d, [], "warning: no module files found\n"⟩
  else if failed = 0 then
    ⟨.success, d, "checked " ++ total ++ " file(s), no errors" ++ "\n", reports⟩
  else
    ⟨.failure, d, [], reports ++ (Text.ofNat failed ++ " of " ++ total ++
      " file(s) failed to parse" ++ "\n")⟩

variable {d : Disk} {files : List FilePath} {flags : List Flag} {path? : Option Text}
  {project : Option Location} {root target : Text} {settings : Settings} {verbose : Bool}

/-- The command checks files that can all be read. -/
lemma ofCommand_check (pretty verbose : Bool)
    (hselected : d.moduleFiles (FilePath.ofText target) = .ok (files, settings))
    (hfiles : ∀ p ∈ files, ∃ l t, d.locate p = .ok l ∧ d.fileAt? l = some t) :
    ofCommand d verbose (Command.check pretty target) = checked d pretty verbose files := by
  by_cases hnone : files = []
  · have hask : Command.moduleFiles target ⟨d, verbose, [], []⟩ =
        .ok (files, settings) ⟨d, verbose, [], []⟩ := Command.ask_apply hselected
    have hcheck : Command.check pretty target ⟨d, verbose, [], []⟩ =
        .ok true ⟨d, verbose, [], "warning: no module files found" ++ "\n"⟩ := by
      rw [Command.check, Command.bind_apply hask]
      simp only [hnone, List.isEmpty_nil, if_true]
      rw [Command.bind_apply (Command.complain_apply _ _),
        Text.withoutSequences_eq_self (by decide)]
      rfl
    rw [ofCommand_of_ok hcheck, checked, if_pos hnone]
    rfl
  have hconclude := Command.check_apply (x := ⟨d, verbose, [], []⟩) pretty hselected hnone hfiles
  have hclear (n : Nat) := Text.escape_notMem_ofNat n
  rw [Command.conclude_apply, List.length_map] at hconclude
  by_cases hfailed : (files.map d.parses).count false = 0
  · have hplain : CodePoint.escape ∉ "checked " ++ Text.ofNat files.length ++
        " file(s), no errors" := by
      simp only [List.mem_append, hclear, or_false]
      decide
    simp only [hfailed, decide_true, if_true, Text.withoutSequences_eq_self hplain] at hconclude
    rw [ofCommand_of_ok hconclude, checked, if_neg hnone, if_pos hfailed]
    rfl
  · have hplain : CodePoint.escape ∉ Text.ofNat ((files.map d.parses).count false) ++ " of " ++
        Text.ofNat files.length ++ " file(s) " ++ "failed to parse" := by
      simp only [List.mem_append, hclear, false_or, or_false]
      decide
    simp only [hfailed, decide_false, if_false, Text.withoutSequences_eq_self hplain] at hconclude
    rw [ofCommand_of_ok hconclude, checked, if_neg hnone, if_neg hfailed]
    simp only [List.append_assoc]
    rfl

/-- The command is cut short at a folder in the place of a file. -/
lemma exists_ofCommand_check_folder (pretty verbose : Bool) {p : FilePath} {l : Location}
    (hselected : d.moduleFiles (FilePath.ofText target) = .ok (files, settings))
    (hfiles : ∀ p ∈ files, ∃ l, d.locate p = .ok l)
    (hp : p ∈ files) (hl : d.locate p = .ok l) (ht : d.fileAt? l = none) :
    ∃ out err, ofCommand d verbose (Command.check pretty target) =
      ⟨.crash .folder, d, out, err⟩ := by
  have hask : Command.moduleFiles target ⟨d, verbose, [], []⟩ =
      .ok (files, settings) ⟨d, verbose, [], []⟩ := Command.ask_apply hselected
  obtain ⟨x', hrun, hdisk⟩ := Command.exists_onEach_checkFile_folder (x := ⟨d, verbose, [], []⟩)
    settings pretty hfiles hp hl ht
  have hcheck : Command.check pretty target ⟨d, verbose, [], []⟩ = .error .folder x' := by
    have hne : files ≠ [] := List.ne_nil_of_mem hp
    rw [Command.check, Command.bind_apply hask]
    simp only [List.isEmpty_iff, hne, if_false]
    exact Command.bind_apply_error hrun
  refine ⟨x'.out, x'.err, ?_⟩
  rw [ofCommand_of_error hcheck, hdisk]

/-- The command is cut short where no files can be selected. -/
lemma ofCommand_check_of_error (pretty verbose : Bool) {problem : ProjectProblem}
    (h : d.moduleFiles (FilePath.ofText target) = .error problem) :
    ofCommand d verbose (Command.check pretty target) =
      ⟨.crash (.project problem), d, [], []⟩ := by
  have hask : Command.moduleFiles target ⟨d, verbose, [], []⟩ =
      .error (.project problem) ⟨d, verbose, [], []⟩ := by
    have hget : (get : Command Session) ⟨d, verbose, [], []⟩ = .ok _ _ := rfl
    rw [Command.moduleFiles, Command.ask, Command.bind_apply hget]
    simp only [h]
    rfl
  have hcheck : Command.check pretty target ⟨d, verbose, [], []⟩ = _ :=
    Command.bind_apply_error hask
  rw [ofCommand_of_error hcheck]

/-! ### Runs on a folder -/

lemma exists_ofWords_check_crash (path? : Option Text)
    (h : d.IsSearchable (path?.getD ".") settings project root)
    (hbad : ¬ d.IsCheckable settings project root (FilePath.ofText (path?.getD ".")))
    (flags : List Flag) (input : Text) (verbose : Bool) :
    ∃ c out err, ofWords d input verbose .check ⟨flags, path?.toList⟩ =
      ⟨.crash c, d, out, err⟩ := by
  obtain ⟨l, hl, -⟩ := h.leads
  rw [ofWords_of_find .check flags input verbose (by decide) hl, task]
  by_cases hask : d.CanAsk project root (FilePath.ofText (path?.getD "."))
  · -- a folder has one of the endings, and is selected
    obtain ⟨files, hselected, -, -, hmem⟩ := h.exists_moduleFiles hask
    obtain ⟨way, name, hway, hending⟩ := Disk.exists_folder_of_not_isCheckable hask hbad
    have hexists := Disk.exists?_of_isFolder hway
    have hnoFile := h.tree.isFile_eq_false hway
    have hlocated : ∀ p ∈ files, ∃ l, d.locate p = .ok l := by
      intro p hp
      obtain ⟨way, name, rfl, hexists, -⟩ := (hmem p).1 hp
      exact ⟨_, h.locate_below hexists⟩
    obtain ⟨out, err, hrun⟩ := exists_ofCommand_check_folder (flags.contains .pretty) verbose
      hselected hlocated ((hmem _).2 ⟨way, name, rfl, hexists, hending⟩) (h.locate_below hexists)
      (Option.isNone_iff_eq_none.1 (Option.isSome_eq_false_iff.1 hnoFile))
    exact ⟨.folder, out, err, hrun⟩
  · obtain ⟨problem, hproblem⟩ := h.exists_moduleFiles_error hask
    exact ⟨.project problem, [], [], ofCommand_check_of_error _ verbose hproblem⟩

/-- The check of a folder reads every file below the folder that is searched whose name has one of
the endings, once and in the order of the paths, tells of each that is no module and counts them,
and changes no file.  It is cut short if and only if a folder has such a name or the root of the
modules cannot be asked about. -/
theorem check_folder (path? : Option Text)
    (h : d.IsSearchable (path?.getD ".") settings project root)
    (flags : List Flag) (input : Text) (verbose : Bool) :
    let target := FilePath.ofText (path?.getD ".")
    let folder := d.searched project root target
    let place := d.searchedPlace project root target
    let run := ofWords d input verbose .check ⟨flags, path?.toList⟩
    (d.IsCheckable settings project root target → ∃ files : List FilePath, files.Nodup ∧
      files.Pairwise (fun p q => FilePath.namesLe p.names q.names) ∧
      (∀ p, p ∈ files ↔ ∃ way name, p = folder.below (way ++ [name]) ∧
        d.isFile (place ++ (way ++ [name])) ∧ ∃ e ∈ settings.extensions, e <:+ name) ∧
      (∀ way t, d.fileAt? (place ++ way) = some t →
        d.textOf (folder.below way) = t.withPlainBreaks) ∧
      run = checked d (flags.contains .pretty) verbose files) ∧
    (¬ d.IsCheckable settings project root target →
      ∃ c out err, run = ⟨.crash c, d, out, err⟩) := by
  intro target folder place run
  refine ⟨fun hcheckable => ?_, fun hbad => ?_⟩
  swap
  · exact exists_ofWords_check_crash path? h hbad flags input verbose
  obtain ⟨l, hl, -⟩ := h.leads
  obtain ⟨files, hselected, hnodup, hsorted, hmem⟩ := h.exists_moduleFiles hcheckable.canAsk
  have hfile : ∀ p, p ∈ files ↔ ∃ way name, p = folder.below (way ++ [name]) ∧
      d.isFile (place ++ (way ++ [name])) ∧ ∃ e ∈ settings.extensions, e <:+ name := by
    intro p
    rw [hmem]
    constructor
    · rintro ⟨way, name, rfl, hexists, e, he, hending⟩
      refine ⟨way, name, rfl, ?_, e, he, hending⟩
      rw [Disk.exists?, Bool.or_eq_true] at hexists
      exact hexists.resolve_right fun hway => hcheckable.noFolder way name hway e he hending
    · rintro ⟨way, name, rfl, hfile, hending⟩
      exact ⟨way, name, rfl, Disk.exists?_of_isFile hfile, hending⟩
  refine ⟨files, hnodup, hsorted, hfile, ?_, ?_⟩
  · intro way t ht
    have hexists : d.exists? (place ++ way) :=
      Disk.exists?_of_isFile (by rw [Disk.isFile, ht]; rfl)
    exact Disk.textOf_eq (h.locate_below hexists) ht
  · show ofWords d input verbose .check ⟨flags, path?.toList⟩ = _
    rw [ofWords_of_find .check flags input verbose (by decide) hl, task]
    refine ofCommand_check _ verbose hselected fun p hp => ?_
    obtain ⟨way, name, rfl, hfile, -⟩ := (hfile p).1 hp
    obtain ⟨t, ht⟩ := Option.isSome_iff_exists.1 hfile
    exact ⟨_, t, h.locate_below (Disk.exists?_of_isFile hfile), ht⟩

/-! ### Two folders without settings -/

/-- In the root as the working folder, without settings, paths are found as they are listed. -/
lemma isSearchable_of_usual (hhere : d.here = [])
    (hnames : ∀ k ∈ d.here :: d.folders ++ d.files.map Prod.fst, ∀ name ∈ k, name.IsProperName)
    (hfiles : ∀ f ∈ d.files, d.isFolder f.1 = false) (hfind : d.find "." = .ok [])
    (hnowhere : (d.searchStart (FilePath.ofText ".") >>= d.look) = .ok .nowhere)
    (hshort : ∀ l ∈ d.locations, (FilePath.below ⟨.none, []⟩ l).text.utf8Size ≤ pathLimit) :
    d.IsSearchable "." Settings.usual none "src" where
  tree := Disk.isTree_of_forall hnames hfiles
  leads := ⟨[], hfind, d.isFolder_root⟩
  governs := Disk.nearestSettings_of_nowhere hnowhere
  rootText := rfl
  endings := by
    have hextensions : Settings.usual.extensions = [Text.ofString ".duet"] := rfl
    rw [hextensions]
    intro e he
    rw [List.mem_singleton.1 he]
    unfold Text.IsPlainEnding
    decide
  short := by
    intro way hway
    have hplace : d.searchedPlace none "src" (FilePath.ofText ".") = [] := by
      rw [Disk.searchedPlace, Disk.searched, if_neg (by simp), hhere]
      rfl
    rw [hplace, List.nil_append] at hway
    exact hshort _ (Disk.mem_locations.2 hway)

/-- A module, a file below another folder that is no module, and a file with another ending. -/
def nestedFiles : Disk where
  files := [([Text.ofString "b", Text.ofString "a.duet"], "?"), ([Text.ofString "c.txt"], []),
    ([Text.ofString "a.duet"], "scala: a\npurs: b\n")]
  folders := []
  here := []

lemma isCheckable_nestedFiles :
    nestedFiles.IsCheckable Settings.usual none "src" (FilePath.ofText ".") where
  canAsk := by
    intro h
    cases h
  noFolder := by
    intro way name hway e he hending
    have hnone : ∀ l ∈ nestedFiles.locations, nestedFiles.isFolder l →
        ∀ name ∈ l.getLast?, ¬ Text.ofString ".duet" <:+ name := by decide
    obtain rfl : e = Text.ofString ".duet" := List.mem_singleton.1 he
    exact hnone _ (Disk.mem_locations.2 (Disk.exists?_of_isFolder hway)) hway name (by simp)
      hending

theorem check_folder_nested :
    let _ : Machine := .usual
    nestedFiles.IsSearchable "." Settings.usual none "src" ∧
    nestedFiles.IsCheckable Settings.usual none "src" (FilePath.ofText ".") ∧
    ∃ files : List FilePath,
      (∀ p, p ∈ files ↔ p = FilePath.ofText "a.duet" ∨ p = FilePath.ofText "b/a.duet") ∧
      ofWords nestedFiles [] false .check ⟨[], []⟩ = checked nestedFiles false false files := by
  intro _
  have hsearchable : nestedFiles.IsSearchable "." Settings.usual none "src" := by
    refine isSearchable_of_usual ?_ ?_ ?_ ?_ ?_ ?_
    · rfl
    · decide
    · decide
    · decide
    · rfl
    · decide
  obtain ⟨files, -, -, hmem, -, hrun⟩ :=
    (check_folder none hsearchable [] [] false).1 isCheckable_nestedFiles
  refine ⟨hsearchable, isCheckable_nestedFiles, files, fun p => ?_, hrun⟩
  rw [hmem]
  constructor
  · rintro ⟨way, name, rfl, hfile, e, he, hending⟩
    obtain rfl : e = Text.ofString ".duet" := List.mem_singleton.1 he
    obtain ⟨f, hf, heq⟩ := Disk.isFile_iff.1 hfile
    have hway : way ++ [name] = f.1 := heq
    have hlast : ∀ f ∈ nestedFiles.files, ∀ name ∈ f.1.getLast?, Text.ofString ".duet" <:+ name →
        FilePath.below ⟨.none, []⟩ f.1 = FilePath.ofText "a.duet" ∨
          FilePath.below ⟨.none, []⟩ f.1 = FilePath.ofText "b/a.duet" := by decide
    rw [hway]
    exact hlast f hf name (by rw [← hway]; simp) hending
  · rintro (rfl | rfl)
    · exact ⟨[], "a.duet", rfl, by decide, ".duet", List.mem_singleton.2 rfl, by decide⟩
    · exact ⟨[Text.ofString "b"], "a.duet", rfl, by decide, ".duet", List.mem_singleton.2 rfl,
        by decide⟩

/-- A module, and beside it a folder with a name like one. -/
def folderLikeModule : Disk where
  files := [([Text.ofString "a.duet"], "scala: a\npurs: b\n")]
  folders := [[Text.ofString "x.duet"]]
  here := []

/-- The folder cuts the check short, though the only file is a module. -/
theorem check_folder_cut_short :
    let _ : Machine := .usual
    folderLikeModule.IsSearchable "." Settings.usual none "src" ∧
    ∃ c out err, ofWords folderLikeModule [] false .check ⟨[], [Text.ofString "."]⟩ =
      ⟨.crash c, folderLikeModule, out, err⟩ := by
  intro _
  have hsearchable : folderLikeModule.IsSearchable "." Settings.usual none "src" := by
    refine isSearchable_of_usual ?_ ?_ ?_ ?_ ?_ ?_
    · rfl
    · decide
    · decide
    · decide
    · rfl
    · decide
  refine ⟨hsearchable, exists_ofWords_check_crash (some ".") hsearchable ?_ [] [] false⟩
  intro h
  exact h.noFolder [] "x.duet" (by decide) ".duet" (List.mem_singleton.2 rfl) (by decide)

end Run

end Idl
