/-
# What formatting makes of a disk

The text of a file is formatted if it holds a module in another form than the canonical one, and
left alone otherwise; then there is nothing left to format (`Text.ofText_formatted`).  A disk is
formatted file by file (`Disk.formatted`).  The result is told for all files at once: it has the
same shape, and just the files that were named have their texts formatted
(`Disk.fileAt?_formatted`).
-/
import Idl.Command.Task
import Idl.Proofs.Canonical.FixedPoint
import Idl.Proofs.Canonical.Points
import Idl.Proofs.Files.Shape

namespace Idl

variable {_ : Machine} {d : Disk} {form : Formatter} {k l : Location} {m : Module} {p q : FilePath}
variable {ps : List FilePath} {s t : Text}

/-! ### Texts -/

/-- What formatting finds about a text. -/
def Command.Verdict.ofText [Machine] (form : Formatter) (s : Text) : Verdict :=
  match Module.parse s with
  | .error _ => .broken
  | .ok m => if m.render form = s then .canonical else .different

/-- What formatting makes of the text of a file. -/
def Text.formatted [Machine] (form : Formatter) (t : Text) : Text :=
  match Module.parse t.withPlainBreaks with
  | .error _ => t
  | .ok m => if m.render form = t.withPlainBreaks then t else m.render form

open Command (Verdict)

/-- What formatting finds, and what it makes of the text then. -/
lemma Text.formatted_cases [Machine] (form : Formatter) (t : Text) :
    (∃ e, Module.parse t.withPlainBreaks = .error e ∧
      Verdict.ofText form t.withPlainBreaks = .broken ∧ t.formatted form = t) ∨
    (∃ m, Module.parse t.withPlainBreaks = .ok m ∧ m.render form = t.withPlainBreaks ∧
      Verdict.ofText form t.withPlainBreaks = .canonical ∧ t.formatted form = t) ∨
    ∃ m, Module.parse t.withPlainBreaks = .ok m ∧ m.render form ≠ t.withPlainBreaks ∧
      Verdict.ofText form t.withPlainBreaks = .different ∧
      t.formatted form = m.render form := by
  unfold formatted Verdict.ofText
  cases Module.parse t.withPlainBreaks with
  | error e => exact .inl ⟨e, rfl, rfl, rfl⟩
  | ok m =>
    by_cases h : m.render form = t.withPlainBreaks
    · exact .inr (.inl ⟨m, rfl, h, if_pos h, if_pos h⟩)
    · exact .inr (.inr ⟨m, rfl, h, if_neg h, if_neg h⟩)

namespace Text

lemma formatted_of_ne (h : Verdict.ofText form t.withPlainBreaks ≠ .different) :
    t.formatted form = t := by
  obtain ⟨_, -, -, heq⟩ | ⟨_, -, -, -, heq⟩ | ⟨_, -, -, hother, -⟩ := t.formatted_cases form
  · exact heq
  · exact heq
  · exact absurd hother h

/-- Only a module can be in another form. -/
lemma exists_of_different (h : Verdict.ofText form t.withPlainBreaks = .different) :
    ∃ m, Module.parse t.withPlainBreaks = .ok m ∧ m.render form ≠ t.withPlainBreaks ∧
      t.formatted form = m.render form := by
  obtain ⟨_, -, hb, -⟩ | ⟨_, -, -, hc, -⟩ | ⟨m, hm, hother, -, heq⟩ := t.formatted_cases form
  · cases hb.symm.trans h
  · cases hc.symm.trans h
  · exact ⟨m, hm, hother, heq⟩

/-- A text that was formatted is in canonical form, unless it is no module. -/
lemma ofText_formatted [Machine] (form : Formatter) (t : Text) :
    Verdict.ofText form (t.formatted form).withPlainBreaks =
      if Verdict.ofText form t.withPlainBreaks = .different then .canonical
      else Verdict.ofText form t.withPlainBreaks := by
  split
  · next h =>
    obtain ⟨m, hm, -, heq⟩ := exists_of_different h
    obtain ⟨m', hm', -, hsettled⟩ := Module.exists_reread hm form
    rw [heq, Module.withPlainBreaks_render (Module.wellFormed_of_parse hm), Verdict.ofText, hm']
    exact if_pos hsettled
  · next h => rw [formatted_of_ne h]

lemma formatted_eq_self_iff :
    t.formatted form = t ↔ Verdict.ofText form t.withPlainBreaks ≠ .different := by
  refine ⟨fun heq h => ?_, formatted_of_ne⟩
  have hcanonical := ofText_formatted form t
  rw [heq, if_pos h, h] at hcanonical
  cases hcanonical

/-- Formatting is settled after the first time. -/
lemma formatted_formatted (form : Formatter) (t : Text) :
    (t.formatted form).formatted form = t.formatted form := by
  refine formatted_of_ne ?_
  rw [ofText_formatted]
  split
  · decide
  · assumption

end Text

/-! ### One file of a disk -/

namespace Disk

/-- What formatting finds about the file that a path leads to. -/
def verdict [Machine] (form : Formatter) (d : Disk) (p : FilePath) : Verdict :=
  match d.readText? p with
  | none => .broken
  | some s => .ofText form s

/-- The disk with the file of a path formatted. -/
def reformat [Machine] (form : Formatter) (d : Disk) (p : FilePath) : Disk :=
  match d.locate p with
  | .error _ => d
  | .ok l =>
    match d.fileAt? l with
    | none => d
    | some t =>
      if Verdict.ofText form t.withPlainBreaks = .different then d.write l (t.formatted form)
      else d

lemma verdict_eq (hl : d.locate p = .ok l) (ht : d.fileAt? l = some t) :
    d.verdict form p = .ofText form t.withPlainBreaks := by
  simp only [verdict, readText?, hl, ht, Option.map_some]

lemma reformat_eq (hl : d.locate p = .ok l) (ht : d.fileAt? l = some t) :
    d.reformat form p =
      if d.verdict form p = .different then d.write l (t.formatted form) else d := by
  simp only [reformat, verdict_eq hl ht, hl, ht]

/-- A disk is either left alone, or one file of it is formatted. -/
lemma reformat_cases (form : Formatter) (d : Disk) (p : FilePath) :
    (d.verdict form p ≠ .different ∧ d.reformat form p = d) ∨
      ∃ l t, d.locate p = .ok l ∧ d.fileAt? l = some t ∧ d.verdict form p = .different ∧
        d.reformat form p = d.write l (t.formatted form) := by
  cases hl : d.locate p with
  | error o => exact .inl (by simp [verdict, readText?, reformat, hl])
  | ok l =>
    cases ht : d.fileAt? l with
    | none => exact .inl (by simp [verdict, readText?, reformat, hl, ht])
    | some t =>
      rw [reformat_eq hl ht]
      by_cases h : d.verdict form p = .different
      · exact .inr ⟨l, t, rfl, ht, h, if_pos h⟩
      · exact .inl ⟨h, if_neg h⟩

lemma reformat_of_ne (h : d.verdict form p ≠ .different) : d.reformat form p = d := by
  obtain ⟨-, heq⟩ | ⟨_, _, -, -, hother, -⟩ := reformat_cases form d p
  · exact heq
  · exact absurd hother h

lemma sameShape_reformat [Machine] (form : Formatter) (d : Disk) (p : FilePath) :
    SameShape d (d.reformat form p) := by
  obtain ⟨-, heq⟩ | ⟨l, t, -, ht, -, heq⟩ := reformat_cases form d p
  · rw [heq]
    exact .refl d
  · rw [heq]
    exact sameShape_write (Option.isSome_iff_exists.2 ⟨t, ht⟩) _

/-- Just the file of the path has its text formatted. -/
lemma fileAt?_reformat [Machine] (form : Formatter) (d : Disk) (p : FilePath) (k : Location) :
    (d.reformat form p).fileAt? k =
      if d.locate p = .ok k then (d.fileAt? k).map (Text.formatted form) else d.fileAt? k := by
  obtain ⟨hsame, heq⟩ | ⟨l, t, hl, ht, -, heq⟩ := reformat_cases form d p
  · rw [heq]
    split
    · next hk =>
      cases ht : d.fileAt? k with
      | none => rfl
      | some t =>
        rw [verdict_eq hk ht] at hsame
        rw [Option.map_some, Text.formatted_of_ne hsame]
    · rfl
  · rw [heq, fileAt?_write (Option.isSome_iff_exists.2 ⟨t, ht⟩)]
    by_cases hk : k = l
    · subst hk
      rw [if_pos rfl, if_pos hl, ht]
      rfl
    · rw [if_neg hk, if_neg fun h => hk (Except.ok.inj (h.symm.trans hl))]

/-- Of a file that was formatted, nothing else is found than that it is canonical. -/
lemma verdict_reformat (form : Formatter) (d : Disk) (p q : FilePath) :
    (d.reformat form p).verdict form q =
      if d.locate q = d.locate p ∧ d.verdict form q = .different then .canonical
      else d.verdict form q := by
  have hlocate := (sameShape_reformat form d p).locate_eq q
  cases hq : d.locate q with
  | error o => simp [verdict, readText?, hlocate, hq]
  | ok k =>
    have hfile := fileAt?_reformat form d p k
    cases ht : d.fileAt? k with
    | none => simp_all [verdict, readText?]
    | some t =>
      rw [hq] at hlocate
      rw [verdict_eq hq ht]
      rw [ht, Option.map_some] at hfile
      by_cases hp : d.locate p = .ok k
      · rw [if_pos hp] at hfile
        rw [verdict_eq hlocate hfile, Text.ofText_formatted]
        simp [hp]
      · rw [if_neg hp] at hfile
        rw [verdict_eq hlocate hfile, if_neg fun h => hp h.1.symm]

/-! ### All files -/

/-- The disk with the files of all paths formatted, one after the other. -/
def formatted [Machine] (form : Formatter) (d : Disk) (ps : List FilePath) : Disk :=
  ps.foldl (reformat form) d

/-- The paths of files that are modules in another form. -/
def different [Machine] (form : Formatter) (d : Disk) (ps : List FilePath) : List FilePath :=
  ps.filter fun p => d.verdict form p = .different

/-- The paths without those that lead to the same file as one in front of them. -/
def firstPaths (d : Disk) (ps : List FilePath) : List FilePath :=
  ps.eraseDupsBy fun p q => d.locate p = d.locate q

lemma sameShape_formatted [Machine] (form : Formatter) (d : Disk) (ps : List FilePath) :
    SameShape d (d.formatted form ps) := by
  induction ps generalizing d with
  | nil => exact .refl d
  | cons p ps ih => exact (sameShape_reformat form d p).trans (ih _)

/-- Just the files of the paths have their texts formatted. -/
lemma fileAt?_formatted [Machine] (form : Formatter) (d : Disk) (ps : List FilePath)
    (k : Location) : (d.formatted form ps).fileAt? k =
      if ∃ p ∈ ps, d.locate p = .ok k then (d.fileAt? k).map (Text.formatted form)
      else d.fileAt? k := by
  induction ps generalizing d with
  | nil => simp [formatted]
  | cons p ps ih =>
    have hshape := sameShape_reformat form d p
    rw [formatted, List.foldl_cons]
    refine (ih (d.reformat form p)).trans ?_
    simp only [hshape.locate_eq, fileAt?_reformat, List.exists_mem_cons_iff]
    -- a file that is formatted a second time stays as it is
    by_cases hp : d.locate p = .ok k
    · simp [hp, Function.comp_def, Text.formatted_formatted]
    · simp [hp]

/-- Without a file in another form, the disk stays as it is. -/
lemma formatted_of_forall_ne (h : ∀ p ∈ ps, d.verdict form p ≠ .different) :
    d.formatted form ps = d := by
  induction ps with
  | nil => rfl
  | cons p ps ih =>
    obtain ⟨hp, hps⟩ := List.forall_mem_cons.1 h
    rw [formatted, List.foldl_cons, reformat_of_ne hp]
    exact ih hps

/-- Of a file that was formatted with others, nothing else is found than that it is canonical. -/
lemma verdict_formatted (hp : p ∈ ps) : (d.formatted form ps).verdict form p =
    if d.verdict form p = .different then .canonical else d.verdict form p := by
  have hlocate := (sameShape_formatted form d ps).locate_eq p
  cases hl : d.locate p with
  | error o => simp [verdict, readText?, hlocate, hl]
  | ok l =>
    have hfile := fileAt?_formatted form d ps l
    rw [if_pos ⟨p, hp, hl⟩] at hfile
    rw [hl] at hlocate
    cases ht : d.fileAt? l with
    | none => simp [verdict, readText?, hlocate, hl, hfile, ht]
    | some t =>
      rw [ht, Option.map_some] at hfile
      rw [verdict_eq hl ht, verdict_eq hlocate hfile, Text.ofText_formatted]

lemma verdict_formatted_ne (hp : p ∈ ps) :
    (d.formatted form ps).verdict form p ≠ .different := by
  rw [verdict_formatted hp]
  split
  · decide
  · assumption

/-- After formatting there is nothing left to format. -/
lemma different_formatted (form : Formatter) (d : Disk) (ps : List FilePath) :
    (d.formatted form ps).different form ps = [] :=
  List.filter_eq_nil_iff.2 fun p hp => by simpa using verdict_formatted_ne hp

/-- Of the paths behind, those to a file that was formatted are left out. -/
lemma different_reformat (form : Formatter) (d : Disk) (p : FilePath) (ps : List FilePath) :
    (d.reformat form p).different form ps =
      (d.different form ps).filter fun q => d.locate q ≠ d.locate p := by
  rw [different, different, List.filter_filter]
  refine List.filter_congr fun q _ => ?_
  rw [verdict_reformat, ← Bool.decide_and]
  refine decide_eq_decide.2 ?_
  by_cases h : d.locate q = d.locate p ∧ d.verdict form q = .different
  · simp [h]
  · rw [if_neg h]
    exact ⟨fun hq => ⟨fun hl => h ⟨hl, hq⟩, hq⟩, And.right⟩

lemma different_ne_nil_iff :
    d.different form ps ≠ [] ↔ ∃ p ∈ ps, d.verdict form p = .different := by
  simp [different]

lemma firstPaths_cons (d : Disk) (p : FilePath) (ps : List FilePath) : d.firstPaths (p :: ps) =
    p :: d.firstPaths (ps.filter fun q => d.locate q ≠ d.locate p) := by
  rw [firstPaths, List.eraseDupsBy_cons, firstPaths]
  simp only [decide_eq_false_iff_not]

/-- The first path that is named is followed by those of the other files. -/
lemma firstPaths_different_cons (h : d.verdict form p = .different) :
    d.firstPaths (d.different form (p :: ps)) =
      p :: (d.reformat form p).firstPaths ((d.reformat form p).different form ps) := by
  have hlocate : (d.reformat form p).locate = d.locate :=
    funext (sameShape_reformat form d p).locate_eq
  have hcons : d.different form (p :: ps) = p :: d.different form ps :=
    List.filter_cons_of_pos (by simp [h])
  rw [hcons, firstPaths_cons, different_reformat, firstPaths, firstPaths, hlocate]

lemma mem_different : p ∈ d.different form ps ↔ p ∈ ps ∧ d.verdict form p = .different := by
  rw [different, List.mem_filter, decide_eq_true_iff]

end Disk

end Idl
