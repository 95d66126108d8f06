/-
# Gaps when highlighting

What stands between tokens is highlighted as such, and leaves the machine in its first state: blanks
as plain text, comments as comments.  So the machine comes from one token to the next
(`Highlight.exists_leads_gap`), and to the end of the text (`Highlight.exists_leads_final`).
-/
import Idl.Proofs.Highlight.BlockComments

namespace Idl

namespace Highlight

/-- Whether a style is one of those of text between tokens. -/
def Style.isTrivia : Style → Bool
  | .text | .lineComment | .blockComment => true
  | _ => false

/-- Pieces that show a text between tokens. -/
structure ShowGap (w : Text) (ps : List Piece) : Prop where
  /-- The pieces make up the text. -/
  text : textOf ps = w
  /-- They are blanks and comments. -/
  trivia : ∀ p ∈ ps, p.style.isTrivia
  /-- Where there are only blanks, there are no comments. -/
  bare : (∀ c ∈ w, c.isBlank) → ∀ p ∈ ps, p.style = .text

variable {b : Option CodePoint} {body r s t w : Text} {k : Config} {ps qs : List Piece} {S : Stack}

lemma ShowGap.ne_stray (h : ShowGap w ps) : ∀ p ∈ ps, p.style ≠ .stray := by
  intro p hp hstray
  have htrivia := h.trivia p hp
  rw [hstray] at htrivia
  cases htrivia

/-! ### Blanks -/

lemma ShowGap.append {v : Text} (hv : ShowGap v ps) (hw : ShowGap w qs) :
    ShowGap (v ++ w) (ps ++ qs) := by
  refine ⟨by rw [textOf_append, hv.text, hw.text], List.forall_mem_append.2 ⟨hv.trivia, hw.trivia⟩,
    fun h => ?_⟩
  rw [List.forall_mem_append] at h
  exact List.forall_mem_append.2 ⟨hv.bare h.1, hw.bare h.2⟩

/-- Blanks are one piece, if there are any. -/
def blankPiece (w : Text) : List Piece := if w = [] then [] else [⟨.text, w⟩]

lemma showGap_blankPiece (w : Text) : ShowGap w (blankPiece w) := by
  unfold blankPiece
  split
  · next h => exact ⟨h.symm, by simp, by simp⟩
  · exact ⟨textOf_singleton _ w, by simp [Style.isTrivia], by simp⟩

/-- Blanks are passed in the first state and among parameters. -/
lemma leads_blanks (hst : S.top = .root ∨ S.top = .parameters) (hw : ∀ c ∈ w, c.isBlank)
    (hr : r.StopsAt CodePoint.isBlank) :
    Leads ⟨S, b, w ++ r⟩ (blankPiece w) ⟨S, w.getLast?.or b, r⟩ := by
  by_cases hne : w = []
  · subst hne
    exact .refl _
  · have hrun := recognise_run (b := b) .text .stay hw hne hr
    obtain ⟨rules, hrules⟩ : ∃ rules, S.top.rules = plain [someBlanks] .stay :: rules := by
      rcases hst with hst | hst <;> exact ⟨_, by rw [hst]; rfl⟩
    have hrule : recognise S.top.rules b (w ++ r) = some ([⟨.text, w⟩], r, .stay) := by
      rw [hrules]
      exact recognise_of_some hrun
    have hleads := leads_of_recognise hrule
    have hlast : w.getLast?.or b = w.getLast? := by
      rw [List.getLast?_eq_some_getLast hne]
      rfl
    rw [textOf_singleton] at hleads
    rw [blankPiece, if_neg hne, hlast]
    exact hleads

/-! ### Comments -/

/-- A line comment is one piece. -/
lemma exists_leads_line (b : Option CodePoint) (hbody : .scalar '\n' ∉ body)
    (hr : ∀ d ∈ r.head?, d = .scalar '\n') : ∃ ps b',
      Leads ⟨[], b, .scalar '/' :: .scalar '/' :: (body ++ r)⟩ ps ⟨[], b', r⟩ ∧
        ShowGap (.scalar '/' :: .scalar '/' :: body) ps := by
  have hinner : ∀ c ∈ body, noneOf ['\n'] c := by
    intro c hc
    have hne : c ≠ .scalar '\n' := fun h => hbody (h ▸ hc)
    simpa [noneOf] using hne
  have hstop : r.StopsAt (noneOf ['\n']) := fun d hd => by simp [noneOf, hr d hd]
  have hcut : cutParts [⟨.lineComment, [.word ["//"], .many (noneOf ['\n'])]⟩]
      (.scalar '/' :: .scalar '/' :: (body ++ r)) =
        some ([⟨.lineComment, .scalar '/' :: .scalar '/' :: body⟩], r) := by
    obtain ⟨htake, hdrop⟩ := takeWhile_dropWhile_append hinner hstop
    simp [cutParts, cutAll, Pattern.cut, Text.ofString, htake, hdrop]
  have hrule : recognise rootRules b (.scalar '/' :: .scalar '/' :: (body ++ r)) =
      some ([⟨.lineComment, .scalar '/' :: .scalar '/' :: body⟩], r, .stay) := by
    rw [recognise_filter]
    refine recognise_of_some (R := plain [⟨.lineComment, _⟩] .stay) ?_
    simp [Rule.recognise, plain, hcut]
  refine ⟨_, _, leads_of_recognise (S := []) hrule, textOf_singleton _ _, by
    simp [Style.isTrivia], fun h => ?_⟩
  exact absurd (h (.scalar '/') (by simp)) (by decide)

/-- A block comment is passed as a whole. -/
lemma exists_leads_block (b : Option CodePoint) (hbody : Trivia.Closes body) (r : Text) : ∃ ps b',
    Leads ⟨[], b, .scalar '/' :: .scalar '*' :: (body ++ r)⟩ ps ⟨[], b', r⟩ ∧
      ShowGap (.scalar '/' :: .scalar '*' :: body) ps := by
  have hopen : Config.step? ⟨[], b, .scalar '/' :: .scalar '*' :: (body ++ r)⟩ =
      some ([⟨.blockComment, "/*"⟩], ⟨[.comment], some (.scalar '*'), body ++ r⟩) := rfl
  obtain ⟨ps, ⟨stack, b', rest⟩, hinside, hout⟩ := exists_inside 0 (some (.scalar '*')) (body ++ r)
  rw [Trivia.closeBlock_eq_some_iff.2 ⟨rfl, hbody⟩] at hout
  obtain ⟨rfl, rfl⟩ : stack = [] ∧ rest = r := hout
  have htext := (text_of_leads hinside.leads).1
  have hbodyText : textOf ps = body := (List.append_cancel_right htext).symm
  refine ⟨_, b', .step hopen hinside.leads, ?_, ?_, fun h => ?_⟩
  · rw [textOf_append, textOf_singleton, hbodyText]
    rfl
  · intro p hp
    have hstyle : p.style = .blockComment := by
      rcases List.mem_append.1 hp with hp | hp
      · rw [List.mem_singleton.1 hp]
      · exact hinside.style p hp
    rw [hstyle]
    rfl
  · exact absurd (h (.scalar '/') (by simp)) (by decide)

/-! ### Gaps -/

lemma complete_dropWhile (hw : Trivia.Complete w) :
    Trivia.Complete (w.dropWhile CodePoint.isBlank) := by
  induction hw with
  | nil => exact .nil
  | blank hc _ ih => rwa [List.dropWhile_cons_of_pos hc]
  | line hbody ht => exact .line hbody ht
  | block hbody ht => exact .block hbody ht

/-- Complete trivia are passed, whatever follows them. -/
lemma exists_leads_gap (b : Option CodePoint) {w : Text} (hw : Trivia.Complete w)
    (hr : r.StopsAt CodePoint.isBlank) :
    ∃ ps b', Leads ⟨[], b, w ++ r⟩ ps ⟨[], b', r⟩ ∧ ShowGap w ps := by
  have ih (u : Text) (_ : u.length < w.length) (b : Option CodePoint) (hu : Trivia.Complete u) :
      ∃ ps b', Leads ⟨[], b, u ++ r⟩ ps ⟨[], b', r⟩ ∧ ShowGap u ps :=
    exists_leads_gap b hu hr
  cases hw with
  | nil => exact ⟨[], b, .refl _, rfl, by simp, by simp⟩
  | @blank c t hc ht =>
    -- the blank is passed together with those behind it
    have hrest := complete_dropWhile (.blank hc ht)
    have hsplit : c :: t ++ r = (c :: t).takeWhile CodePoint.isBlank ++
        ((c :: t).dropWhile CodePoint.isBlank ++ r) := by
      rw [← List.append_assoc, List.takeWhile_append_dropWhile]
    have hlt : ((c :: t).dropWhile CodePoint.isBlank).length < (c :: t).length := by
      rw [List.dropWhile_cons_of_pos hc]
      exact Nat.lt_succ_of_le (List.dropWhile_sublist _).length_le
    have hblank : ∀ d ∈ (c :: t).takeWhile CodePoint.isBlank, d.isBlank :=
      fun d => (List.all_eq_true.1 List.all_takeWhile) d
    have hstop := (stopsAt_dropWhile CodePoint.isBlank (c :: t)).append hr
    obtain ⟨ps, b', hleads, hps⟩ :=
      ih _ hlt (((c :: t).takeWhile CodePoint.isBlank).getLast?.or b) hrest
    have hblanks := leads_blanks (b := b) (S := []) (.inl rfl) hblank hstop
    rw [hsplit]
    refine ⟨_, b', hblanks.trans hleads, ?_⟩
    have hshow := (showGap_blankPiece ((c :: t).takeWhile CodePoint.isBlank)).append hps
    rwa [List.takeWhile_append_dropWhile] at hshow
  | @line body t hbody ht =>
    obtain ⟨ps, b₁, hline, hps⟩ :=
      exists_leads_line b hbody (r := .scalar '\n' :: (t ++ r)) (by simp)
    obtain ⟨qs, b₂, hleads, hqs⟩ :=
      ih (.scalar '\n' :: t) (by simp; omega) b₁ (.blank (by decide) ht)
    refine ⟨_, b₂, ?_, hps.append hqs⟩
    simpa using hline.trans hleads
  | @block body t hbody ht =>
    obtain ⟨ps, b₁, hblock, hps⟩ := exists_leads_block b hbody (t ++ r)
    obtain ⟨qs, b₂, hleads, hqs⟩ := ih t (by simp; omega) b₁ ht
    refine ⟨_, b₂, ?_, hps.append hqs⟩
    simpa using hblock.trans hleads
termination_by w.length

/-- Trivia up to the end of the text are passed. -/
lemma exists_leads_final (b : Option CodePoint) (hw : Trivia.Final w) :
    ∃ ps b', Leads ⟨[], b, w⟩ ps ⟨[], b', []⟩ ∧ ShowGap w ps := by
  rcases hw with hw | ⟨t, body, ht, hbody, rfl⟩
  · simpa using exists_leads_gap b hw (r := []) fun _ h => nomatch h
  · obtain ⟨ps, b₁, hleads, hps⟩ := exists_leads_gap b ht
      (r := .scalar '/' :: .scalar '/' :: body) (Text.stopsAt_cons (by decide) _)
    obtain ⟨qs, b₂, hline, hqs⟩ := exists_leads_line b₁ hbody (r := []) (by simp)
    rw [List.append_nil] at hline
    exact ⟨_, b₂, hleads.trans hline, hps.append hqs⟩

end Highlight

end Idl
