/-
# Runs of the command that formats

One file is left alone, named, or written anew and named, by what formatting finds about it.  Over
all files, the check names those in another form (`Command.exists_onEach_true`), and the command
itself turns the disk into the formatted one (`Command.exists_onEach_false`).  A whole run does this
for the files that its path selects (`Run.exists_ofWords_check`, `Run.exists_ofWords_write`), unless
there is no formatter of the indentation that the settings tell (`Command.format_apply_of_error`).
-/
import Idl.Proofs.Command.Reformat
import Idl.Proofs.Command.Session

namespace Idl

variable {_ : Machine}
variable {checkOnly : Bool} {d d' : Disk} {form : Formatter} {k l : Location} {p : FilePath}
variable {files ps : List FilePath} {settings : Settings} {t : Text} {x : Session}

/-! ### The files one after the other -/

/-- No text that formatting puts into a file holds a surrogate. -/
def Disk.Formattable [Machine] (form : Formatter) (d : Disk) (ps : List FilePath) : Prop :=
  ∀ p ∈ ps, ∀ l t, d.locate p = .ok l → d.fileAt? l = some t →
    d.verdict form p = .different → (t.formatted form).hasSurrogate = false

namespace Disk

lemma exists_of_leadsToFile (h : d.leadsToFile p = .ok true) :
    ∃ l t, d.locate p = .ok l ∧ d.fileAt? l = some t := by
  rw [leadsToFile, locate?] at h
  split at h
  · next l hl =>
    obtain ⟨t, ht⟩ := Option.isSome_iff_exists.1 (Except.ok.inj h)
    exact ⟨l, t, hl, ht⟩
  · cases h
  · cases h

end Disk

lemma Disk.Formattable.reformat (h : d.Formattable form ps) (p : FilePath) :
    (d.reformat form p).Formattable form ps := by
  intro q hq k t hk ht hother
  rw [(Disk.sameShape_reformat form d p).locate_eq] at hk
  rw [Disk.verdict_reformat] at hother
  -- a file that was formatted is in canonical form
  by_cases hsame : d.locate q = d.locate p ∧ d.verdict form q = .different
  · rw [if_pos hsame] at hother
    cases hother
  · rw [if_neg hsame] at hother
    rw [Disk.fileAt?_reformat, if_neg fun hp => hsame ⟨hk.trans hp.symm, hother⟩] at ht
    exact h q hq k t hk ht hother

namespace Command

/-- What is said of a file in another form. -/
def namingLine (checkOnly : Bool) (p : FilePath) : Text :=
  Text.withoutSequences ((if checkOnly then "would reformat " else "formatted ") ++ p.text) ++ "\n"

/-- A file that is no module, or is in canonical form, is left alone. -/
lemma exists_formatFile_of_ne (checkOnly : Bool) (hl : x.disk.locate p = .ok l)
    (ht : x.disk.fileAt? l = some t) (hne : x.disk.verdict form p ≠ .different) :
    ∃ err, formatFile form checkOnly p x =
      .ok (x.disk.verdict form p) { x with err := err } := by
  obtain ⟨err, haccept⟩ := exists_accept false p.text t.withPlainBreaks
    (Module.parse t.withPlainBreaks) x
  refine ⟨err, ?_⟩
  rw [Disk.verdict_eq hl ht] at hne ⊢
  rw [formatFile, bind_apply (readFile_apply hl ht), bind_apply haccept]
  obtain ⟨e, hm, hv, -⟩ | ⟨m, hm, hsame, hv, -⟩ | ⟨m, -, -, hv, -⟩ := t.formatted_cases form
  · rw [hv, hm]
    rfl
  · rw [hv, hm]
    simp only [Except.toOption, if_pos hsame]
    rfl
  · exact absurd hv hne

/-- A file in another form is only named by the check. -/
lemma exists_formatFile_true (hl : x.disk.locate p = .ok l) (ht : x.disk.fileAt? l = some t)
    (h : x.disk.verdict form p = .different) :
    ∃ err, formatFile form true p x =
      .ok .different { x with out := x.out ++ namingLine true p, err := err } := by
  obtain ⟨err, haccept⟩ := exists_accept false p.text t.withPlainBreaks
    (Module.parse t.withPlainBreaks) x
  refine ⟨err, ?_⟩
  obtain ⟨m, hm, hother, -⟩ := Text.exists_of_different ((Disk.verdict_eq hl ht).symm.trans h)
  rw [formatFile, bind_apply (readFile_apply hl ht), bind_apply haccept, hm]
  simp only [Except.toOption, if_neg hother, if_true]
  rw [bind_apply (say_apply _ _)]
  rfl

/-- A file in another form is written anew and named. -/
lemma exists_formatFile_false (hl : x.disk.locate p = .ok l) (ht : x.disk.fileAt? l = some t)
    (h : x.disk.verdict form p = .different)
    (hwrite : (t.formatted form).hasSurrogate = false) :
    ∃ err, formatFile form false p x =
      .ok .different ⟨x.disk.reformat form p, x.verbose, x.out ++ namingLine false p, err⟩ := by
  obtain ⟨err, haccept⟩ := exists_accept false p.text t.withPlainBreaks
    (Module.parse t.withPlainBreaks) x
  refine ⟨err, ?_⟩
  obtain ⟨m, hm, hother, heq⟩ := Text.exists_of_different ((Disk.verdict_eq hl ht).symm.trans h)
  have hwritten := writeFile_apply (x := { x with err := err }) hl (t.formatted form)
  rw [if_neg (by simp [hwrite]), heq] at hwritten
  rw [formatFile, bind_apply (readFile_apply hl ht), bind_apply haccept, hm,
    Disk.reformat_eq hl ht, if_pos h, heq]
  simp only [Except.toOption, if_neg hother, Bool.false_eq_true, if_false]
  rw [bind_apply hwritten, bind_apply (say_apply _ _)]
  rfl

/-! ### All files -/

/-- The check names all files in another form, and does nothing else. -/
lemma exists_onEach_true (form : Formatter)
    (hfiles : ∀ p ∈ ps, x.disk.leadsToFile p = .ok true) :
    ∃ err, onEach (formatFile form true) ps x = .ok (ps.map (x.disk.verdict form))
      { x with
        out := x.out ++ (x.disk.different form ps).flatMap (namingLine true), err := err } := by
  induction ps generalizing x with
  | nil => exact ⟨x.err, by simp [onEach, Disk.different]; rfl⟩
  | cons p ps ih =>
    obtain ⟨hfile, hrest⟩ := List.forall_mem_cons.1 hfiles
    obtain ⟨l, t, hl, ht⟩ := Disk.exists_of_leadsToFile hfile
    by_cases h : x.disk.verdict form p = .different
    · obtain ⟨err, hstep⟩ := exists_formatFile_true hl ht h
      obtain ⟨err', hrun⟩ :=
        ih (x := { x with out := x.out ++ namingLine true p, err := err }) hrest
      refine ⟨err', (onEach_cons hstep hrun).trans ?_⟩
      simp [Disk.different, h]
    · obtain ⟨err, hstep⟩ := exists_formatFile_of_ne true hl ht h
      obtain ⟨err', hrun⟩ := ih (x := { x with err := err }) hrest
      refine ⟨err', (onEach_cons hstep hrun).trans ?_⟩
      simp [Disk.different, h]

/-- Formatting writes the files in another form anew, and names each of them once. -/
lemma exists_onEach_false
    (hfiles : ∀ p ∈ ps, x.disk.leadsToFile p = .ok true)
    (hwrite : x.disk.Formattable form ps) :
    ∃ vs err, onEach (formatFile form false) ps x = .ok vs
      ⟨x.disk.formatted form ps, x.verbose,
        x.out ++ (x.disk.firstPaths (x.disk.different form ps)).flatMap (namingLine false),
        err⟩ ∧
      vs.all (Verdict.passes false) =
        ps.all fun p => (x.disk.verdict form p).passes false := by
  induction ps generalizing x with
  | nil =>
    refine ⟨[], x.err, ?_, by simp⟩
    simp [onEach, Disk.different, Disk.firstPaths, Disk.formatted]
    rfl
  | cons p ps ih =>
    obtain ⟨hfile, hrest⟩ := List.forall_mem_cons.1 hfiles
    obtain ⟨l, t, hl, ht⟩ := Disk.exists_of_leadsToFile hfile
    have hshape := Disk.sameShape_reformat form x.disk p
    have hwriteRest : (x.disk.reformat form p).Formattable form ps :=
      Disk.Formattable.reformat (fun q hq => hwrite q (List.mem_cons_of_mem p hq)) p
    have hpasses (q : FilePath) : ((x.disk.reformat form p).verdict form q).passes false =
        (x.disk.verdict form q).passes false := by
      rw [Disk.verdict_reformat]
      split
      · next hq =>
        rw [hq.2]
        rfl
      · rfl
    have hfilesRest : ∀ q ∈ ps, (x.disk.reformat form p).leadsToFile q = .ok true :=
      fun q hq => (hshape.leadsToFile_eq q).trans (hrest q hq)
    by_cases h : x.disk.verdict form p = .different
    · obtain ⟨err, hstep⟩ := exists_formatFile_false hl ht h
        (hwrite p List.mem_cons_self l t hl ht h)
      obtain ⟨vs, err', hrun, hvs⟩ := ih (x := ⟨x.disk.reformat form p, x.verbose,
        x.out ++ namingLine false p, err⟩) hfilesRest hwriteRest
      refine ⟨.different :: vs, err', (onEach_cons hstep hrun).trans ?_, ?_⟩
      · rw [Disk.firstPaths_different_cons h, List.flatMap_cons, ← List.append_assoc]
        rfl
      · simp only [List.all_cons, hvs, hpasses, h]
    · rw [Disk.reformat_of_ne h] at hwriteRest hfilesRest
      obtain ⟨err, hstep⟩ := exists_formatFile_of_ne false hl ht h
      obtain ⟨vs, err', hrun, hvs⟩ := ih (x := { x with err := err }) hfilesRest hwriteRest
      refine ⟨x.disk.verdict form p :: vs, err', (onEach_cons hstep hrun).trans ?_, ?_⟩
      · simp [Disk.formatted, Disk.different, Disk.reformat_of_ne h, h]
      · rw [List.all_cons, hvs, List.all_cons]

/-- No setting tells a negative indentation, so there is a formatter unless it is too wide. -/
lemma ofIndent_width (h : settings.indent.width ≤ Machine.widest) :
    Formatter.ofIndent settings.indent.width = .ok ⟨settings.indent.width.toNat⟩ := by
  have hnonneg : 0 ≤ settings.indent.width := by
    rcases settings.indent with count | one
    · exact Int.natCast_nonneg count
    · cases one <;> decide
  refine Formatter.ofIndent_eq_ok_iff.2 ⟨⟨?_, h⟩, rfl⟩
  omega

/-- The command formats the files that are selected, if there is a formatter. -/
lemma exists_format {target : Text} {vs : List Verdict} {x' : Session}
    (hselected : x.disk.moduleFiles (FilePath.ofText target) = .ok (files, settings))
    (hform : files ≠ [] → Formatter.ofIndent settings.indent.width = .ok form)
    (hrun : onEach (formatFile form checkOnly) files x = .ok vs x') :
    ∃ err, format checkOnly target x =
      .ok (vs.all (Verdict.passes checkOnly)) { x' with err := err } := by
  have hask : moduleFiles target x = .ok (files, settings) x := ask_apply hselected
  rw [format, bind_apply hask]
  by_cases hnone : files = []
  · subst hnone
    obtain ⟨rfl, rfl⟩ := EStateM.Result.ok.inj hrun
    exact ⟨_, rfl⟩
  · have hformatter : formatterOf settings x = .ok form x := by
      rw [formatterOf, hform hnone]
      rfl
    refine ⟨x'.err, ?_⟩
    simp only [List.isEmpty_iff, hnone, if_false]
    rw [bind_apply hformatter, bind_apply hrun]
    rfl

/-- The command is cut short in front of all files if there is no formatter. -/
lemma format_apply_of_error {target : Text} {problem : WidthProblem}
    (hselected : x.disk.moduleFiles (FilePath.ofText target) = .ok (files, settings))
    (hne : files ≠ []) (hform : Formatter.ofIndent settings.indent.width = .error problem) :
    format checkOnly target x = .error (.indent problem) x := by
  have hask : moduleFiles target x = .ok (files, settings) x := ask_apply hselected
  have hformatter : formatterOf settings x = .error (.indent problem) x := by
    rw [formatterOf, hform]
    rfl
  rw [format, bind_apply hask]
  simp only [List.isEmpty_iff, hne, if_false]
  exact bind_apply_error hformatter

end Command

/-! ### Runs -/

namespace Run

open Command (namingLine Verdict)

variable {path? : Option Text} {verbose : Bool}

lemma ofWords_format (checkOnly : Bool) (flags : List Flag) (path? : Option Text) (input : Text)
    (verbose : Bool) (hpath : d.find (path?.getD ".") = .ok l)
    (hcheck : flags.contains .check = checkOnly) (hinput : flags.contains .input = false) :
    ofWords d input verbose .format ⟨flags, path?.toList⟩ =
      ofCommand d verbose (Command.format checkOnly (path?.getD ".")) := by
  rw [ofWords_of_find .format flags input verbose (by decide) hpath, task, hcheck, hinput]
  rfl

/-- The run of the check. -/
lemma exists_ofWords_check (input : Text) (verbose : Bool)
    (hpath : d.find (path?.getD ".") = .ok l)
    (hselected : d.moduleFiles (FilePath.ofText (path?.getD ".")) = .ok (files, settings))
    (hform : files ≠ [] → Formatter.ofIndent settings.indent.width = .ok form)
    (hfiles : ∀ p ∈ files, d.leadsToFile p = .ok true) :
    ∃ err, ofWords d input verbose .format ⟨[.check], path?.toList⟩ =
      ⟨if files.all fun p => (d.verdict form p).passes true then .success else .failure, d,
        (d.different form files).flatMap (namingLine true), err⟩ := by
  obtain ⟨err, hrun⟩ := Command.exists_onEach_true (x := ⟨d, verbose, [], []⟩) form hfiles
  obtain ⟨err', hformat⟩ := Command.exists_format (x := ⟨d, verbose, [], []⟩)
    hselected hform hrun
  refine ⟨err', (ofWords_format true [.check] path? input verbose hpath rfl rfl).trans <|
    (ofCommand_of_ok hformat).trans ?_⟩
  rw [List.all_map]
  rfl

/-- The run that writes. -/
lemma exists_ofWords_write (input : Text) (verbose : Bool)
    (hpath : d.find (path?.getD ".") = .ok l)
    (hselected : d.moduleFiles (FilePath.ofText (path?.getD ".")) = .ok (files, settings))
    (hform : files ≠ [] → Formatter.ofIndent settings.indent.width = .ok form)
    (hfiles : ∀ p ∈ files, d.leadsToFile p = .ok true)
    (hwrite : d.Formattable form files) :
    ∃ err, ofWords d input verbose .format ⟨[], path?.toList⟩ =
      ⟨if files.all fun p => (d.verdict form p).passes false then .success else .failure,
        d.formatted form files,
        (d.firstPaths (d.different form files)).flatMap (namingLine false), err⟩ := by
  obtain ⟨vs, err, hrun, hpasses⟩ := Command.exists_onEach_false (x := ⟨d, verbose, [], []⟩)
    hfiles hwrite
  obtain ⟨err', hformat⟩ := Command.exists_format (x := ⟨d, verbose, [], []⟩)
    hselected hform hrun
  refine ⟨err', (ofWords_format false [] path? input verbose hpath rfl rfl).trans <|
    (ofCommand_of_ok hformat).trans ?_⟩
  rw [hpasses]
  rfl

end Run

end Idl
