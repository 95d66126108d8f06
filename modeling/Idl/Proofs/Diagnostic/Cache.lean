/-
# The cache of a rendering

What was read from disk for one label is kept for the next ones.  The kept lines always agree
with the files (`Sources.Agree`): a look-up finds the lines of the file and keeps the agreement
(`Sources.Agree.lines`), so that labels, diagnostics and lists of diagnostics are shown as if
every file were read anew (`Diagnostic.renderAll_of_agree`).
-/
import Idl.Diagnostic.Render
import Idl.Module.Problem
import Mathlib.Tactic.Common

namespace Idl

/-- The text of a file: the one at hand, else the one on disk, else the empty text. -/
def sourceOf (disk : Text → Option Text) (texts : List (Text × Text)) (name : Text) : Text :=
  (texts.lookup name).getD ((disk name).getD [])

/-- How an error in a text is shown without colours, the text being at hand. -/
def SyntaxError.shown (disk : Text → Option Text) (file s : Text) (e : SyntaxError) : Text :=
  ((e.failure.diagnostic file []).render false disk (Sources.ofTexts [(file, s)])).1

namespace Sources

/-- What is at hand are lines of the files, and a file that is not at hand is read from disk. -/
structure Agree (disk : Text → Option Text) (source : Text → Text) (s : Sources) : Prop where
  of_mem : ∀ name ls, s.lookup name = some ls → ls = (source name).lines
  of_notMem : ∀ name, s.lookup name = none → (disk name).getD [] = source name

variable {disk : Text → Option Text} {source : Text → Text} {s : Sources} {name : Text}

lemma lookup_ofTexts (texts : List (Text × Text)) (name : Text) :
    (ofTexts texts).lookup name = (texts.lookup name).map Text.lines := by
  induction texts with
  | nil => rfl
  | cons p texts ih =>
    obtain ⟨key, t⟩ := p
    show List.lookup name ((key, t.lines) :: ofTexts texts) = _
    rw [List.lookup_cons, List.lookup_cons, ih]
    cases name == key <;> rfl

lemma agree_ofTexts (disk : Text → Option Text) (texts : List (Text × Text)) :
    Agree disk (sourceOf disk texts) (ofTexts texts) where
  of_mem name ls h := by
    rw [lookup_ofTexts, Option.map_eq_some_iff] at h
    obtain ⟨t, ht, rfl⟩ := h
    rw [sourceOf, ht, Option.getD_some]
  of_notMem name h := by
    rw [lookup_ofTexts, Option.map_eq_none_iff] at h
    rw [sourceOf, h, Option.getD_none]

/-- A file that is read from disk is kept with the lines that it has. -/
lemma Agree.cons (h : Agree disk source s) (name : Text) :
    Agree disk source ((name, (source name).lines) :: s) where
  of_mem other ls hls := by
    rw [List.lookup_cons] at hls
    split at hls
    · next hsame =>
      rw [eq_of_beq hsame]
      exact (Option.some.inj hls).symm
    · exact h.of_mem other ls hls
  of_notMem other hother := by
    rw [List.lookup_cons] at hother
    split at hother
    · cases hother
    · exact h.of_notMem other hother

/-- A look-up finds the lines of the file. -/
lemma Agree.lines_fst (h : Agree disk source s) (name : Text) :
    (s.lines disk name).1 = (source name).lines := by
  unfold lines
  split
  · next ls hls => exact h.of_mem name ls hls
  · next hnone => rw [h.of_notMem name hnone]

/-- A look-up keeps the agreement. -/
lemma Agree.lines_snd (h : Agree disk source s) (name : Text) :
    Agree disk source (s.lines disk name).2 := by
  unfold lines
  split
  · exact h
  · next hnone =>
    show Agree disk source ((name, Text.lines ((disk name).getD [])) :: s)
    rw [h.of_notMem name hnone]
    exact h.cons name

end Sources

namespace Diagnostic

variable {disk : Text → Option Text} {source : Text → Text} {s : Sources}

/-- The lines of a label, the line that it points to being looked up in the file. -/
def labelRows (colour : Bool) (source : Text → Text) (tint : Colour) (l : Label) : List Text :=
  labelLines colour tint l ((source l.file).lineAt l.span.first.line)

/-- The lines of a diagnostic. -/
def rows (colour : Bool) (source : Text → Text) (d : Diagnostic) : List Text :=
  heading colour d :: d.labels.flatMap (labelRows colour source d.severity.colour) ++
    d.notes.map (noteLine colour)

lemma labelsLines_of_agree (h : s.Agree disk source) (colour : Bool) (tint : Colour)
    (labels : List Label) :
    (labelsLines colour disk tint s labels).1 = labels.flatMap (labelRows colour source tint) ∧
      (labelsLines colour disk tint s labels).2.Agree disk source := by
  induction labels generalizing s with
  | nil => exact ⟨rfl, h⟩
  | cons l labels ih =>
    obtain ⟨hrows, hrest⟩ := ih (h.lines_snd l.file)
    constructor
    · show labelLines colour tint l (Text.numbered (s.lines disk l.file).1 l.span.first.line) ++
        (labelsLines colour disk tint (s.lines disk l.file).2 labels).1 = _
      rw [h.lines_fst, hrows, List.flatMap_cons]
      rfl
    · exact hrest

/-- A diagnostic shows nothing of what was looked up before it. -/
lemma render_of_agree (h : s.Agree disk source) (colour : Bool) (d : Diagnostic) :
    (d.render colour disk s).1 = Text.join "\n" (d.rows colour source) ∧
      (d.render colour disk s).2.Agree disk source := by
  obtain ⟨hrows, hrest⟩ := labelsLines_of_agree h colour d.severity.colour d.labels
  constructor
  · show Text.join "\n" (heading colour d ::
      (labelsLines colour disk d.severity.colour s d.labels).1 ++ _) = _
    rw [hrows]
    rfl
  · exact hrest

lemma renderAll_of_agree (h : s.Agree disk source) (colour : Bool) (ds : List Diagnostic) :
    renderAll colour disk s ds = ds.map fun d => Text.join "\n" (d.rows colour source) := by
  induction ds generalizing s with
  | nil => rfl
  | cons d ds ih =>
    obtain ⟨htext, hrest⟩ := render_of_agree h colour d
    show (d.render colour disk s).1 :: renderAll colour disk (d.render colour disk s).2 ds = _
    rw [htext, ih hrest, List.map_cons]

end Diagnostic

end Idl
