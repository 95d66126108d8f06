/-
# Comments in annotations when highlighting

Where a comment stands between the opening angle of an annotation and its name, the machine does not
know the annotation, and reads on in its first state; behind the name it knows no comments.  So what
is stray in a row of annotations and declarations is told by the comments in the annotations alone
(`Highlight.strayFree_bodyStands`).
-/
import Idl.Proofs.Highlight.Rows

namespace Idl

open TokenKind

namespace Highlight

/-- Nothing that the machine comes to is stray. -/
def Config.StrayFree (k : Config) : Prop := ∀ p ∈ k.run, p.style ≠ .stray

/-- Every token of the annotation is known where it stands: behind a comment in front of the name,
no parameter has a value; otherwise there are no comments at all. -/
def KnownInside (name : Lexeme) (inside : List Lexeme) (closing : Lexeme) : Prop :=
  if name.IsBare then ∀ l ∈ inside ++ [closing], l.IsBare
  else ∀ l ∈ inside, l.kind ≠ .mark .assign

/-- Every token of every annotation is known where it stands. -/
def AnnotationsKnown (ls : List Lexeme) : Prop := ∀ front opening name inside closing back,
  ls = front ++ opening :: name :: (inside ++ closing :: back) →
    IsAnnotation opening name inside closing → KnownInside name inside closing

variable {b b' : Option CodePoint} {j : TokenKind} {k k' : Config} {ks : List TokenKind}
  {l l₁ l₂ l₃ : Lexeme} {inside ls us : List Lexeme} {ps : List Piece} {r : Text}

/-! ### Stray pieces -/

lemma strayFree_iff_of_leads (h : Leads k ps k') (hps : ∀ p ∈ ps, p.style ≠ .stray) :
    k.StrayFree ↔ k'.StrayFree := by
  rw [Config.StrayFree, run_eq_of_leads h, List.forall_mem_append]
  exact and_iff_right hps

lemma not_strayFree_of_leads (h : Leads k ps k') (hps : ∃ p ∈ ps, p.style = .stray) :
    ¬ k.StrayFree := by
  obtain ⟨p, hp, hstyle⟩ := hps
  intro hfree
  rw [Config.StrayFree, run_eq_of_leads h] at hfree
  exact hfree p (List.mem_append_left _ hp) hstyle

lemma strayFree_nil (b : Option CodePoint) : Config.StrayFree ⟨[], b, []⟩ := by
  rw [Config.StrayFree, run_nil rfl]
  simp

/-- Nothing behind the last token is stray. -/
lemma strayFree_final (b : Option CodePoint) (hr : Trivia.Final r) :
    Config.StrayFree ⟨[], b, r⟩ := by
  obtain ⟨ps, b', hleads, hps⟩ := exists_leads_final b hr
  exact (strayFree_iff_of_leads hleads hps.ne_stray).2 (strayFree_nil b')

/-! ### Annotations in rows -/

lemma annotationsKnown_nil : AnnotationsKnown [] := by
  intro front opening name inside closing back h
  simp at h

/-- A lexeme that opens no annotation. -/
lemma annotationsKnown_cons
    (h : l.kind = .mark .openAngle → ∀ l' ∈ ls.head?, l'.kind ≠ .lowerName) :
    AnnotationsKnown (l :: ls) ↔ AnnotationsKnown ls := by
  constructor
  · rintro hknown front opening name inside closing back rfl hnote
    exact hknown (l :: front) opening name inside closing back rfl hnote
  · rintro hknown (_ | ⟨_, front⟩) opening name inside closing back hsplit hnote
    · obtain ⟨rfl, rfl⟩ := List.cons.inj hsplit
      exact absurd hnote.name (h hnote.opening name rfl)
    · obtain ⟨rfl, rfl⟩ := List.cons.inj hsplit
      exact hknown front opening name inside closing back rfl hnote

lemma annotationsKnown_append (h : ∀ l ∈ us, l.kind ≠ .mark .openAngle) :
    AnnotationsKnown (us ++ ls) ↔ AnnotationsKnown ls := by
  induction us with
  | nil => exact Iff.rfl
  | cons l us ih =>
    obtain ⟨hl, hus⟩ := List.forall_mem_cons.1 h
    exact (annotationsKnown_cons fun hk => absurd hk hl).trans (ih hus)

/-- An annotation at the front. -/
lemma annotationsKnown_front (h : IsAnnotation l₁ l₂ inside l₃)
    (hinside : ∀ l ∈ inside, l.kind ≠ .mark .openAngle) :
    AnnotationsKnown (l₁ :: l₂ :: (inside ++ l₃ :: ls)) ↔
      KnownInside l₂ inside l₃ ∧ AnnotationsKnown ls := by
  have hbehind : AnnotationsKnown (l₂ :: (inside ++ l₃ :: ls)) ↔ AnnotationsKnown ls := by
    rw [annotationsKnown_cons (by simp [h.name]), annotationsKnown_append hinside,
      annotationsKnown_cons (by simp [h.closing])]
  constructor
  · intro hknown
    refine ⟨hknown [] l₁ l₂ inside l₃ ls rfl h, hbehind.1 ?_⟩
    intro front opening name us closing back hsplit
    exact hknown (l₁ :: front) opening name us closing back (by rw [hsplit]; rfl)
  · rintro ⟨hfirst, hknown⟩ (_ | ⟨_, front⟩) opening name us closing back hsplit hnote
    · simp only [List.nil_append, List.cons.injEq] at hsplit
      obtain ⟨rfl, rfl, hsplit⟩ := hsplit
      -- the closing angle is the first one behind the name
      have htake := congrArg (List.takeWhile fun l => l.kind ≠ .mark .closeAngle) hsplit
      rw [List.takeWhile_append_of_pos (by simpa using h.inside),
        List.takeWhile_append_of_pos (by simpa using hnote.inside),
        List.takeWhile_cons_of_neg (by simp [h.closing]),
        List.takeWhile_cons_of_neg (by simp [hnote.closing]), List.append_nil,
        List.append_nil] at htake
      rw [htake] at hsplit hfirst
      rwa [← (List.cons.inj (List.append_cancel_left hsplit)).1]
    · exact hbehind.2 hknown front opening name us closing back (List.cons.inj hsplit).2 hnote

/-! ### Parameters -/

/-- The first comment behind the name of an annotation is stray. -/
lemma exists_leads_comment (hinside : ∀ l ∈ inside, l.kind = .lowerName ∨ l.kind = .mark .assign ∨
    l.kind = .string) (hstand : StandAll (inside ++ [l₃]) r)
    (h : ¬ ∀ l ∈ inside ++ [l₃], l.IsBare) :
    ∃ ps k, Leads ⟨[.parameters], b, (inside ++ [l₃]).flatMap Lexeme.text ++ r⟩ ps k ∧
      ∃ p ∈ ps, p.style = .stray := by
  induction inside generalizing b with
  | nil =>
    obtain _ | ⟨hclosing, -⟩ := hstand
    simp only [List.nil_append, List.forall_mem_singleton] at h
    simpa using exists_leads_stray hclosing h
  | cons l inside ih =>
    obtain ⟨hl, hinside⟩ := List.forall_mem_cons.1 hinside
    obtain _ | ⟨hstands, hstand⟩ := hstand
    rw [List.cons_append, List.flatMap_cons, List.append_assoc]
    by_cases hbare : l.IsBare
    · obtain ⟨ps, b', hleads, -⟩ :=
        exists_leads_parameter (b := b) (j := .endOfInput) hstands (by simp) hl hbare
      have hmore : ¬ ∀ l ∈ inside ++ [l₃], l.IsBare :=
        fun hall => h (List.forall_mem_cons.2 ⟨hbare, hall⟩)
      obtain ⟨qs, k, hstray, q, hq, hstyle⟩ := ih (b := b') hinside hstand hmore
      exact ⟨ps ++ qs, k, hleads.trans hstray, q, List.mem_append_right _ hq, hstyle⟩
    · exact exists_leads_stray hstands hbare

/-- A name in lower case is never stray. -/
lemma exists_leads_known (h : l.Stands r) (hk : l.kind = .lowerName) (hb : Apart b (l.text ++ r)) :
    ∃ ps b', Leads ⟨[], b, l.text ++ r⟩ ps ⟨[], b', r⟩ ∧ (∀ p ∈ ps, p.style ≠ .stray) ∧
      Apart b' r := by
  obtain ⟨gs, b', hgs, hleads⟩ := exists_leads_lowerName h hk hb
  refine ⟨_, b', hleads, List.forall_mem_append.2 ⟨hgs.ne_stray, ?_⟩, apart_of_leads h hleads⟩
  rw [List.forall_mem_singleton]
  split <;> simp

/-- In the first state parameters without values are passed. -/
lemma exists_leads_looseParams (hrow : ParamRow ks) (hks : ls.map Lexeme.kind = ks)
    (hstand : StandAll ls r) (hplain : ∀ l ∈ ls, l.kind ≠ .mark .assign)
    (hb : Apart b (ls.flatMap Lexeme.text ++ r)) :
    ∃ ps b', Leads ⟨[], b, ls.flatMap Lexeme.text ++ r⟩ ps ⟨[], b', r⟩ ∧
      (∀ p ∈ ps, p.style ≠ .stray) ∧ Apart b' r := by
  induction hrow generalizing ls b with
  | nil =>
    obtain rfl := List.map_eq_nil_iff.1 hks
    exact ⟨[], b, .refl _, by simp, hb⟩
  | plain _ ih =>
    obtain ⟨l, ls, rfl, hl, hls⟩ := List.map_eq_cons_iff.1 hks
    obtain _ | ⟨h, hstand⟩ := hstand
    rw [List.flatMap_cons, List.append_assoc] at hb ⊢
    obtain ⟨ps, b₁, hleads, hps, hb₁⟩ := exists_leads_known h hl hb
    obtain ⟨qs, b', hmore, hqs, hb'⟩ := ih hls hstand (List.forall_mem_cons.1 hplain).2 hb₁
    exact ⟨ps ++ qs, b', hleads.trans hmore, List.forall_mem_append.2 ⟨hps, hqs⟩, hb'⟩
  | valued =>
    obtain ⟨l₁, _, rfl, -, hls⟩ := List.map_eq_cons_iff.1 hks
    obtain ⟨l₂, ls, rfl, hl₂, -⟩ := List.map_eq_cons_iff.1 hls
    exact absurd hl₂ (hplain l₂ (by simp))

/-- In the first state a sign of equality is stray. -/
lemma exists_leads_assign (h : l.Stands r) (hk : l.kind = .mark .assign)
    (hb : Apart b (l.text ++ r)) :
    ∃ ps k, Leads ⟨[], b, l.text ++ r⟩ ps k ∧ ∃ p ∈ ps, p.style = .stray := by
  obtain ⟨gs, b₁, hgap, -, -⟩ := exists_leads_front h hb
  have hrule : recognise State.root.rules b₁ (.scalar '=' :: r) = none := by
    rw [recognise_filter]
    rfl
  have hstray := leads_stray (S := []) hrule (by decide)
  rw [spelling_of_mark h hk] at hgap
  exact ⟨_, _, hgap.trans hstray, ⟨.stray, [.scalar '=']⟩, by simp, rfl⟩

/-- In the first state the first value of a parameter is stray. -/
lemma exists_leads_looseValue (hrow : ParamRow ks) (hks : ls.map Lexeme.kind = ks)
    (hstand : StandAll ls r) (hvalued : ¬ ∀ l ∈ ls, l.kind ≠ .mark .assign)
    (hb : Apart b (ls.flatMap Lexeme.text ++ r)) :
    ∃ ps k, Leads ⟨[], b, ls.flatMap Lexeme.text ++ r⟩ ps k ∧ ∃ p ∈ ps, p.style = .stray := by
  induction hrow generalizing ls b with
  | nil =>
    obtain rfl := List.map_eq_nil_iff.1 hks
    simp at hvalued
  | plain _ ih =>
    obtain ⟨l, ls, rfl, hl, hls⟩ := List.map_eq_cons_iff.1 hks
    obtain _ | ⟨h, hstand⟩ := hstand
    rw [List.flatMap_cons, List.append_assoc] at hb ⊢
    obtain ⟨ps, b₁, hleads, -, hb₁⟩ := exists_leads_known h hl hb
    have hmore : ¬ ∀ l ∈ ls, l.kind ≠ .mark .assign :=
      fun hall => hvalued (List.forall_mem_cons.2 ⟨by simp [hl], hall⟩)
    obtain ⟨qs, k, hstray, q, hq, hstyle⟩ := ih hls hstand hmore hb₁
    exact ⟨ps ++ qs, k, hleads.trans hstray, q, List.mem_append_right _ hq, hstyle⟩
  | valued =>
    obtain ⟨l₁, _, rfl, hl₁, hls⟩ := List.map_eq_cons_iff.1 hks
    obtain ⟨l₂, ls, rfl, hl₂, -⟩ := List.map_eq_cons_iff.1 hls
    obtain _ | ⟨h₁, _ | ⟨h₂, -⟩⟩ := hstand
    simp only [List.flatMap_cons, List.append_assoc] at h₁ hb ⊢
    obtain ⟨ps, b₁, hleads, -, hb₁⟩ := exists_leads_known h₁ hl₁ hb
    obtain ⟨qs, k, hstray, q, hq, hstyle⟩ := exists_leads_assign h₂ hl₂ hb₁
    exact ⟨ps ++ qs, k, hleads.trans hstray, q, List.mem_append_right _ hq, hstyle⟩

/-- An annotation is passed just if every token of it is known. -/
lemma exists_strayFree_annotation (hnote : IsAnnotation l₁ l₂ inside l₃) (hparams : ParamRow ks)
    (hks : inside.map Lexeme.kind = ks)
    (h₁ : l₁.Stands (l₂.text ++ (inside.flatMap Lexeme.text ++ (l₃.text ++ r))))
    (h₂ : l₂.Stands (inside.flatMap Lexeme.text ++ (l₃.text ++ r)))
    (hstand : StandAll inside (l₃.text ++ r)) (h₃ : l₃.Stands r)
    (hb : Apart b (l₁.text ++ (l₂.text ++ (inside.flatMap Lexeme.text ++ (l₃.text ++ r))))) :
    ∃ b', Apart b' r ∧ (Config.StrayFree
      ⟨[], b, l₁.text ++ (l₂.text ++ (inside.flatMap Lexeme.text ++ (l₃.text ++ r)))⟩ ↔
        KnownInside l₂ inside l₃ ∧ Config.StrayFree ⟨[], b', r⟩) := by
  have hkinds : ∀ l ∈ inside, l.kind = .lowerName ∨ l.kind = .mark .assign ∨ l.kind = .string :=
    fun l hl => hparams.kind_of_mem (hks ▸ List.mem_map_of_mem hl)
  have hapart := apart_of_stands h₃
  rw [KnownInside]
  by_cases hbare₂ : l₂.IsBare
  · rw [if_pos hbare₂]
    obtain ⟨ps₁, ps₂, b₁, hopening, hps₁, hps₂⟩ :=
      exists_leads_opening .endOfInput h₁ h₂ hnote.opening hnote.name hbare₂ hb
    rw [hnote.opening] at hps₁
    rw [hnote.opening, hnote.name] at hps₂
    rw [strayFree_iff_of_leads hopening (List.forall_mem_append.2
      ⟨hps₁.ne_stray (by decide), hps₂.ne_stray (by decide)⟩)]
    by_cases hbare : ∀ l ∈ inside ++ [l₃], l.IsBare
    · obtain ⟨hbareInside, hbare₃⟩ := List.forall_mem_append.1 hbare
      obtain ⟨psInside, b₂, hleads, hpsInside⟩ := exists_leads_params (b := b₁) (j := .endOfInput)
        hparams hks hstand hbareInside (by simp)
      have hknown : ∀ l ∈ inside, l.kind ≠ .fault ∧ l.kind ≠ .endOfInput := by
        intro l hl
        rcases hkinds l hl with h | h | h <;> simp [h]
      obtain ⟨ps₃, b', hclosing, hps₃⟩ :=
        exists_leads_closing (b := b₂) h₃ hnote.closing (hbare₃ l₃ (by simp))
      refine ⟨b', apart_of_leads h₃ hclosing, ?_⟩
      rw [and_iff_right hbare, strayFree_iff_of_leads hleads (hpsInside.ne_stray hknown),
        strayFree_iff_of_leads hclosing (hps₃.ne_stray (by decide))]
    · have hstands : StandAll (inside ++ [l₃]) r :=
        StandAll.append_iff.2 ⟨by simpa using hstand, .cons h₃ .nil⟩
      obtain ⟨ps, k, hstray, hps⟩ := exists_leads_comment (b := b₁) hkinds hstands hbare
      simp only [List.flatMap_append, List.flatMap_singleton, List.append_assoc] at hstray
      exact ⟨_, hapart, iff_of_false (not_strayFree_of_leads hstray hps) fun h => hbare h.1⟩
  · rw [if_neg hbare₂]
    have hname := stopsAt_skipBlanks (p := isSmall) h₂ (by decide) fun h => absurd h hbare₂
    obtain ⟨ps₁, b₁, hopening, hps₁⟩ :=
      exists_leads_openAngle .endOfInput h₁ hnote.opening hname hb
    obtain ⟨ps₂, b₂, hleads₂, hps₂, hb₂⟩ :=
      exists_leads_known h₂ hnote.name (apart_of_leads h₁ hopening)
    rw [hnote.opening] at hps₁
    rw [strayFree_iff_of_leads hopening (hps₁.ne_stray (by decide)),
      strayFree_iff_of_leads hleads₂ hps₂]
    by_cases hplain : ∀ l ∈ inside, l.kind ≠ .mark .assign
    · obtain ⟨psInside, b₃, hleads, hpsInside, hb₃⟩ :=
        exists_leads_looseParams hparams hks hstand hplain hb₂
      obtain ⟨ps₃, b', hclosing, hps₃⟩ :=
        exists_leads_alone .endOfInput h₃ (by rw [hnote.closing]; rfl) hb₃
      rw [hnote.closing] at hps₃
      refine ⟨b', apart_of_leads h₃ hclosing, ?_⟩
      rw [and_iff_right hplain, strayFree_iff_of_leads hleads hpsInside,
        strayFree_iff_of_leads hclosing (hps₃.ne_stray (by decide))]
    · obtain ⟨ps, k, hstray, hps⟩ := exists_leads_looseValue hparams hks hstand hplain hb₂
      exact ⟨_, hapart, iff_of_false (not_strayFree_of_leads hstray hps) fun h => hplain h.1⟩

/-! ### Rows -/

/-- Nothing in a row of annotations and declarations is stray just if every token of every
annotation is known. -/
lemma strayFree_bodyStands (hrow : BodyStands ls r) (hr : Trivia.Final r)
    (hb : Apart b (ls.flatMap Lexeme.text ++ r)) :
    Config.StrayFree ⟨[], b, ls.flatMap Lexeme.text ++ r⟩ ↔ AnnotationsKnown ls := by
  induction hrow generalizing b with
  | nil => exact iff_of_true (strayFree_final b hr) annotationsKnown_nil
  | alone hk h _ ih =>
    rw [List.flatMap_cons, List.append_assoc] at hb ⊢
    obtain ⟨ps, b₁, hleads, hps⟩ := exists_leads_alone .endOfInput h hk hb
    have hstyle := styleAfter_ne_stray .endOfInput
      ⟨ne_of_standsAlone hk rfl, ne_of_standsAlone hk rfl⟩
    rw [strayFree_iff_of_leads hleads (hps.ne_stray hstyle), ih hr (apart_of_leads h hleads),
      annotationsKnown_cons fun h => absurd h (ne_of_standsAlone hk rfl)]
  | declared hk₁ hk₂ h₁ h₂ _ ih =>
    simp only [List.flatMap_cons, List.append_assoc] at hb ⊢
    obtain ⟨ps₁, ps₂, b₁, hleads, hb₁, hps₁, hps₂⟩ :=
      exists_leads_declared .endOfInput h₁ h₂ hk₁ hk₂ hb
    have hps : ∀ p ∈ ps₁ ++ ps₂, p.style ≠ .stray := by
      rw [hk₁] at hps₁
      rw [hk₂] at hps₂
      exact List.forall_mem_append.2
        ⟨hps₁.ne_stray (by decide), hps₂.ne_stray (by simp [styleAfter])⟩
    rw [strayFree_iff_of_leads hleads hps, ih hr hb₁, annotationsKnown_cons (by simp [hk₁]),
      annotationsKnown_cons (by simp [hk₂])]
  | field hk₁ hk₂ h₁ h₂ _ ih =>
    simp only [List.flatMap_cons, List.append_assoc] at hb ⊢
    obtain ⟨ps₁, b₁, hleads₁, hps₁, hb₁⟩ := exists_leads_known h₁ hk₁ hb
    obtain ⟨ps₂, b₂, hleads₂, hps₂⟩ := exists_leads_alone .endOfInput h₂ (by rw [hk₂]; rfl) hb₁
    rw [hk₂] at hps₂
    rw [strayFree_iff_of_leads hleads₁ hps₁,
      strayFree_iff_of_leads hleads₂ (hps₂.ne_stray (by decide)),
      ih hr (apart_of_leads h₂ hleads₂), annotationsKnown_cons (by simp [hk₁]),
      annotationsKnown_cons (by simp [hk₂])]
  | argument hk htype hname h _ ih =>
    rw [List.flatMap_cons, List.append_assoc] at hb ⊢
    obtain ⟨ps, b₁, hleads, hps⟩ := exists_leads_openAngle .endOfInput h hk htype hb
    rw [hk] at hps
    rw [strayFree_iff_of_leads hleads (hps.ne_stray (by decide)), ih hr (apart_of_leads h hleads),
      annotationsKnown_cons fun _ => hname]
  | @annotated l₁ l₂ l₃ inside ls r hnote hparams h₁ h₂ hinside h₃ _ ih =>
    have hkinds : ∀ l ∈ inside, l.kind ≠ .mark .openAngle := by
      intro l hl
      rcases hparams.kind_of_mem (List.mem_map_of_mem hl) with h | h | h <;> simp [h]
    simp only [List.flatMap_cons, List.flatMap_append, List.append_assoc] at hb ⊢
    obtain ⟨b', hb', hfree⟩ :=
      exists_strayFree_annotation hnote hparams rfl h₁ h₂ hinside h₃ hb
    rw [hfree, ih hr hb', annotationsKnown_front hnote hkinds]

end Highlight

end Idl
