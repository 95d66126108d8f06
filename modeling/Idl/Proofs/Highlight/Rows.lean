/-
# Rows of lexemes when highlighting

Where only blanks stand between tokens, the machine shows one lexeme after the other, and is in its
first state behind the last one (`Highlight.exists_leads_rows`).  The proof goes along the row of
kinds that the tokens of a module are.
-/
import Idl.Proofs.Highlight.Lexemes

namespace Idl

open TokenKind

namespace Highlight

/-- Lexemes in front of a text, each of which stands in front of the next ones. -/
inductive StandAll : List Lexeme → Text → Prop
  /-- No lexeme at all. -/
  | nil {r : Text} : StandAll [] r
  /-- A lexeme in front of others. -/
  | cons {l : Lexeme} {ls : List Lexeme} {r : Text} (h : l.Stands (ls.flatMap Lexeme.text ++ r))
      (more : StandAll ls r) : StandAll (l :: ls) r

/-- The lexemes of an annotation, from its opening angle to its closing one. -/
structure IsAnnotation (opening name : Lexeme) (inside : List Lexeme) (closing : Lexeme) :
    Prop where
  /-- The first one is an opening angle. -/
  opening : opening.kind = .mark .openAngle
  /-- The second one is a name. -/
  name : name.kind = .lowerName
  /-- Between the name and the closing angle there is no other one. -/
  inside : ∀ l ∈ inside, l.kind ≠ .mark .closeAngle
  /-- The last one is a closing angle. -/
  closing : closing.kind = .mark .closeAngle

/-- Lexemes of annotations and declarations, each of which stands in front of the next ones. -/
inductive BodyStands : List Lexeme → Text → Prop
  /-- No lexeme at all. -/
  | nil {r : Text} : BodyStands [] r
  /-- A lexeme of which nothing is said about the next one. -/
  | alone {l : Lexeme} {ls : List Lexeme} {r : Text} (hk : l.kind.standsAlone)
      (h : l.Stands (ls.flatMap Lexeme.text ++ r)) (more : BodyStands ls r) : BodyStands (l :: ls) r
  /-- The beginning of a declaration. -/
  | declared {l₁ l₂ : Lexeme} {ls : List Lexeme} {r : Text} (hk₁ : l₁.kind = .keyword .type)
      (hk₂ : l₂.kind = .upperName) (h₁ : l₁.Stands (l₂.text ++ (ls.flatMap Lexeme.text ++ r)))
      (h₂ : l₂.Stands (ls.flatMap Lexeme.text ++ r)) (more : BodyStands ls r) :
      BodyStands (l₁ :: l₂ :: ls) r
  /-- The beginning of a field. -/
  | field {l₁ l₂ : Lexeme} {ls : List Lexeme} {r : Text} (hk₁ : l₁.kind = .lowerName)
      (hk₂ : l₂.kind = .mark .colon) (h₁ : l₁.Stands (l₂.text ++ (ls.flatMap Lexeme.text ++ r)))
      (h₂ : l₂.Stands (ls.flatMap Lexeme.text ++ r)) (more : BodyStands ls r) :
      BodyStands (l₁ :: l₂ :: ls) r
  /-- An opening angle in front of a type. -/
  | argument {l : Lexeme} {ls : List Lexeme} {r : Text} (hk : l.kind = .mark .openAngle)
      (htype : (skipBlanks (ls.flatMap Lexeme.text ++ r)).StopsAt isSmall)
      (hname : ∀ l' ∈ ls.head?, l'.kind ≠ .lowerName) (h : l.Stands (ls.flatMap Lexeme.text ++ r))
      (more : BodyStands ls r) : BodyStands (l :: ls) r
  /-- An annotation. -/
  | annotated {l₁ l₂ l₃ : Lexeme} {inside ls : List Lexeme} {r : Text}
      (hnote : IsAnnotation l₁ l₂ inside l₃) (hparams : ParamRow (inside.map Lexeme.kind))
      (h₁ : l₁.Stands (l₂.text ++
        (inside.flatMap Lexeme.text ++ (l₃.text ++ (ls.flatMap Lexeme.text ++ r)))))
      (h₂ : l₂.Stands (inside.flatMap Lexeme.text ++ (l₃.text ++ (ls.flatMap Lexeme.text ++ r))))
      (hinside : StandAll inside (l₃.text ++ (ls.flatMap Lexeme.text ++ r)))
      (h₃ : l₃.Stands (ls.flatMap Lexeme.text ++ r)) (more : BodyStands ls r) :
      BodyStands (l₁ :: l₂ :: (inside ++ l₃ :: ls)) r

/-- The pieces show the lexemes in order, behind a token of a kind; no literal stands directly
behind another one. -/
inductive ShowAll : TokenKind → List Lexeme → List Piece → Prop
  /-- No lexeme at all. -/
  | nil {k : TokenKind} : ShowAll k [] []
  /-- A lexeme in front of others. -/
  | cons {k : TokenKind} {l : Lexeme} {ls : List Lexeme} {ps qs : List Piece}
      (h : Shows (styleAfter k l.kind) l ps) (hk : k = .string → l.kind ≠ .string)
      (more : ShowAll l.kind ls qs) : ShowAll k (l :: ls) (ps ++ qs)

variable {b : Option CodePoint} {ctx : Context} {j : TokenKind} {ks : List TokenKind} {l : Lexeme}
  {ls ls' : List Lexeme} {ps qs : List Piece} {r : Text}

/-! ### Lexemes one behind the other -/

lemma StandAll.append_iff : StandAll (ls ++ ls') r ↔
    StandAll ls (ls'.flatMap Lexeme.text ++ r) ∧ StandAll ls' r := by
  induction ls with
  | nil => exact ⟨fun h => ⟨.nil, h⟩, And.right⟩
  | cons l ls ih =>
    have htext : (ls ++ ls').flatMap Lexeme.text ++ r =
        ls.flatMap Lexeme.text ++ (ls'.flatMap Lexeme.text ++ r) := by simp
    constructor
    · rintro (_ | ⟨h, more⟩)
      exact ⟨.cons (htext ▸ h) (ih.1 more).1, (ih.1 more).2⟩
    · rintro ⟨_ | ⟨h, more⟩, h'⟩
      exact .cons (htext ▸ h) (ih.2 ⟨more, h'⟩)

lemma StandAll.last (h : StandAll ls r) (hl : l ∈ ls.getLast?) : l.Stands r := by
  rcases List.eq_nil_or_concat ls with rfl | ⟨us, p, rfl⟩
  · cases hl
  · obtain rfl : p = l := by simpa using hl
    rw [List.concat_eq_append] at h
    obtain ⟨-, _ | ⟨hstands, -⟩⟩ := StandAll.append_iff.1 h
    exact hstands

lemma ne_underscore_of_trivia {w : Text} (hw : ∀ c ∈ w.head?, c.isBlank ∨ c = .scalar '/') :
    ∀ c ∈ w.head?, c ≠ .scalar '_' := by
  rintro c hc rfl
  have hhead := hw _ hc
  revert hhead
  decide

/-- The lexemes of a text stand in it, if they are ASCII. -/
lemma standAll_of_laid (h : Laid ctx ls r) (hr : ∀ c ∈ r.head?, c ≠ .scalar '_')
    (hascii : ∀ l ∈ ls, l.kind ≠ .string → ∀ c ∈ l.spelling, c.toNat < 0x80) :
    StandAll ls r ∧ ∀ c ∈ (ls.flatMap Lexeme.text ++ r).head?, c ≠ .scalar '_' := by
  induction h with
  | nil => exact ⟨.nil, hr⟩
  | @cons ctx l ls r hgap hword _ hstop _ ih =>
    obtain ⟨hl, hascii⟩ := List.forall_mem_cons.1 hascii
    obtain ⟨hstand, hunderscore⟩ := ih hr hascii
    refine ⟨.cons ⟨hgap, hword, hstop, hunderscore, hl⟩ hstand, ?_⟩
    rw [List.flatMap_cons, List.append_assoc, Lexeme.text, List.append_assoc]
    by_cases hne : l.gap = []
    · obtain ⟨c, t, hspelling, -, hc⟩ := exists_cons_of_written hword
      rw [hne, hspelling]
      intro d hd
      obtain rfl := Option.some.inj hd
      exact hc
    · obtain ⟨c, t, hcons⟩ := List.exists_cons_of_ne_nil hne
      have hhead := ne_underscore_of_trivia hgap.head
      rw [hcons] at hhead ⊢
      exact hhead

/-- Lexemes behind others are shown behind a token of the kind of the last one. -/
lemma ShowAll.append (h : ShowAll j ls ps)
    (h' : ShowAll ((ls.map Lexeme.kind).getLast?.getD j) ls' qs) :
    ShowAll j (ls ++ ls') (ps ++ qs) := by
  induction h with
  | nil => exact h'
  | @cons _ l ls _ _ h hk _ ih =>
    rw [List.append_assoc]
    refine .cons h hk (ih ?_)
    rw [List.map_cons, List.getLast?_cons] at h'
    exact h'

lemma ShowAll.ne_stray (h : ShowAll j ls ps)
    (hls : ∀ l ∈ ls, l.kind ≠ .fault ∧ l.kind ≠ .endOfInput) : ∀ p ∈ ps, p.style ≠ .stray := by
  induction h with
  | nil => simp
  | cons h _ _ ih =>
    obtain ⟨hl, hls⟩ := List.forall_mem_cons.1 hls
    exact List.forall_mem_append.2 ⟨h.ne_stray (styleAfter_ne_stray _ hl), ih hls⟩

/-! ### Bare rows -/

/-- Parameters are passed one after the other. -/
lemma exists_leads_params (hrow : ParamRow ks) (hks : ls.map Lexeme.kind = ks)
    (hstand : StandAll ls r) (hbare : ∀ l ∈ ls, l.IsBare) (hj : j ≠ .mark .openAngle) :
    ∃ ps b', Leads ⟨[.parameters], b, ls.flatMap Lexeme.text ++ r⟩ ps ⟨[.parameters], b', r⟩ ∧
      ShowAll j ls ps := by
  induction hrow generalizing ls j b with
  | nil =>
    obtain rfl := List.map_eq_nil_iff.1 hks
    exact ⟨[], b, .refl _, .nil⟩
  | plain _ ih =>
    obtain ⟨l, ls, rfl, hl, hls⟩ := List.map_eq_cons_iff.1 hks
    obtain ⟨hbl, hbare⟩ := List.forall_mem_cons.1 hbare
    obtain _ | ⟨h, hstand⟩ := hstand
    obtain ⟨ps, b₁, hleads, hps⟩ := exists_leads_parameter (b := b) h hj (.inl hl) hbl
    obtain ⟨qs, b', hmore, hqs⟩ := ih (b := b₁) (j := l.kind) hls hstand hbare (by simp [hl])
    refine ⟨ps ++ qs, b', ?_, .cons hps (by simp [hl]) hqs⟩
    rw [List.flatMap_cons, List.append_assoc]
    exact hleads.trans hmore
  | valued _ ih =>
    obtain ⟨l₁, _, rfl, hl₁, hls⟩ := List.map_eq_cons_iff.1 hks
    obtain ⟨l₂, _, rfl, hl₂, hls⟩ := List.map_eq_cons_iff.1 hls
    obtain ⟨l₃, ls, rfl, hl₃, hls⟩ := List.map_eq_cons_iff.1 hls
    simp only [List.forall_mem_cons] at hbare
    obtain ⟨hb₁, hb₂, hb₃, hbare⟩ := hbare
    obtain _ | ⟨h₁, _ | ⟨h₂, _ | ⟨h₃, hstand⟩⟩⟩ := hstand
    obtain ⟨ps₁, b₁, hleads₁, hps₁⟩ := exists_leads_parameter (b := b) h₁ hj (.inl hl₁) hb₁
    obtain ⟨ps₂, b₂, hleads₂, hps₂⟩ :=
      exists_leads_parameter (b := b₁) (j := l₁.kind) h₂ (by simp [hl₁]) (.inr (.inl hl₂)) hb₂
    obtain ⟨ps₃, b₃, hleads₃, hps₃⟩ :=
      exists_leads_parameter (b := b₂) (j := l₂.kind) h₃ (by simp [hl₂]) (.inr (.inr hl₃)) hb₃
    obtain ⟨qs, b', hmore, hqs⟩ := ih (b := b₃) (j := l₃.kind) hls hstand hbare (by simp [hl₃])
    refine ⟨ps₁ ++ (ps₂ ++ (ps₃ ++ qs)), b', ?_, .cons hps₁ (by simp [hl₁])
      (.cons hps₂ (by simp [hl₂]) (.cons hps₃ (by simp [hl₂]) hqs))⟩
    simp only [List.flatMap_cons, List.append_assoc] at hleads₁ hleads₂ hleads₃ hmore ⊢
    exact hleads₁.trans (hleads₂.trans (hleads₃.trans hmore))

/-- Lexemes that stand in front of each other and are in a row of kinds. -/
lemma bodyStands (hrow : BodyRow ks) (hks : ls.map Lexeme.kind = ks) (hstand : StandAll ls r) :
    BodyStands ls r := by
  induction hrow generalizing ls with
  | nil =>
    obtain rfl := List.map_eq_nil_iff.1 hks
    exact .nil
  | alone hk _ ih =>
    obtain ⟨l, ls, rfl, rfl, hls⟩ := List.map_eq_cons_iff.1 hks
    obtain _ | ⟨h, hstand⟩ := hstand
    exact .alone hk h (ih hls hstand)
  | declared _ ih =>
    obtain ⟨l₁, _, rfl, hl₁, hls⟩ := List.map_eq_cons_iff.1 hks
    obtain ⟨l₂, ls, rfl, hl₂, hls⟩ := List.map_eq_cons_iff.1 hls
    obtain _ | ⟨h₁, _ | ⟨h₂, hstand⟩⟩ := hstand
    rw [List.flatMap_cons, List.append_assoc] at h₁
    exact .declared hl₁ hl₂ h₁ h₂ (ih hls hstand)
  | field _ ih =>
    obtain ⟨l₁, _, rfl, hl₁, hls⟩ := List.map_eq_cons_iff.1 hks
    obtain ⟨l₂, ls, rfl, hl₂, hls⟩ := List.map_eq_cons_iff.1 hls
    obtain _ | ⟨h₁, _ | ⟨h₂, hstand⟩⟩ := hstand
    rw [List.flatMap_cons, List.append_assoc] at h₁
    exact .field hl₁ hl₂ h₁ h₂ (ih hls hstand)
  | @argument k ks hk _ ih =>
    obtain ⟨l₁, _, rfl, hl₁, hls⟩ := List.map_eq_cons_iff.1 hks
    obtain _ | ⟨h₁, hstand⟩ := hstand
    have hmore := ih hls hstand
    obtain ⟨l₂, ls, rfl, rfl, -⟩ := List.map_eq_cons_iff.1 hls
    obtain _ | ⟨h₂, -⟩ := hstand
    refine .argument hl₁ ?_ ?_ h₁ hmore
    · rw [List.flatMap_cons, List.append_assoc]
      exact stopsAt_isSmall_of_isTypeHead h₂ hk
    · rintro l' ⟨⟩ hname
      rw [hname] at hk
      cases hk
  | annotated hparams _ ih =>
    obtain ⟨l₁, _, rfl, hl₁, hls⟩ := List.map_eq_cons_iff.1 hks
    obtain ⟨l₂, _, rfl, hl₂, hls⟩ := List.map_eq_cons_iff.1 hls
    obtain ⟨inside, _, rfl, rfl, hback⟩ := List.map_eq_append_iff.1 hls
    obtain ⟨l₃, ls, rfl, hl₃, hls⟩ := List.map_eq_cons_iff.1 hback
    obtain _ | ⟨h₁, _ | ⟨h₂, hstand⟩⟩ := hstand
    obtain ⟨hinside, _ | ⟨h₃, hstand⟩⟩ := StandAll.append_iff.1 hstand
    simp only [List.flatMap_cons, List.flatMap_append, List.append_assoc] at h₁ h₂ hinside
    have hne : ∀ l ∈ inside, l.kind ≠ .mark .closeAngle := by
      intro l hl
      rcases hparams.kind_of_mem (List.mem_map_of_mem hl) with h | h | h <;> simp [h]
    exact .annotated ⟨hl₁, hl₂, hne, hl₃⟩ hparams h₁ h₂ hinside h₃ (ih hls hstand)

/-- A row is passed where only blanks stand in front of its lexemes. -/
lemma exists_leads_bodyStands (hrow : BodyStands ls r) (hbare : ∀ l ∈ ls, l.IsBare)
    (hj : j = .mark .openAngle → ∀ l ∈ ls.head?, l.kind ≠ .lowerName)
    (hb : Apart b (ls.flatMap Lexeme.text ++ r)) :
    ∃ ps b', Leads ⟨[], b, ls.flatMap Lexeme.text ++ r⟩ ps ⟨[], b', r⟩ ∧ ShowAll j ls ps := by
  induction hrow generalizing j b with
  | nil => exact ⟨[], b, .refl _, .nil⟩
  | @alone l ls r hk h _ ih =>
    obtain ⟨-, hbare⟩ := List.forall_mem_cons.1 hbare
    rw [List.flatMap_cons, List.append_assoc] at hb ⊢
    obtain ⟨ps, b₁, hleads, hps⟩ := exists_leads_alone j h hk hb
    have hangle : l.kind ≠ .mark .openAngle := ne_of_standsAlone hk rfl
    obtain ⟨qs, b', hmore, hqs⟩ :=
      ih hbare (fun h => absurd h hangle) (apart_of_leads h hleads)
    exact ⟨ps ++ qs, b', hleads.trans hmore, .cons hps (fun _ => ne_of_standsAlone hk rfl) hqs⟩
  | @declared l₁ l₂ ls r hk₁ hk₂ h₁ h₂ _ ih =>
    simp only [List.forall_mem_cons] at hbare
    simp only [List.flatMap_cons, List.append_assoc] at hb ⊢
    obtain ⟨ps₁, ps₂, b₁, hleads, hb₁, hps₁, hps₂⟩ := exists_leads_declared j h₁ h₂ hk₁ hk₂ hb
    obtain ⟨qs, b', hmore, hqs⟩ := ih (j := l₂.kind) hbare.2.2 (by simp [hk₂]) hb₁
    refine ⟨ps₁ ++ (ps₂ ++ qs), b', ?_, .cons hps₁ (by simp [hk₁]) (.cons hps₂ (by simp [hk₂]) hqs)⟩
    rw [← List.append_assoc ps₁]
    exact hleads.trans hmore
  | @field l₁ l₂ ls r hk₁ hk₂ h₁ h₂ _ ih =>
    simp only [List.forall_mem_cons] at hbare
    simp only [List.flatMap_cons, List.append_assoc] at hb ⊢
    have hj : j ≠ .mark .openAngle := fun h => hj h l₁ rfl hk₁
    obtain ⟨gs, b₁, hgs, hleads₁⟩ := exists_leads_lowerName h₁ hk₁ hb
    rw [if_pos (colonFollows_of_isBare h₂ hk₂ hbare.2.1)] at hleads₁
    have hps₁ : Shows (styleAfter j l₁.kind) l₁ (gs ++ [⟨.attributeName, l₁.spelling⟩]) := by
      rw [hk₁, styleAfter, if_neg hj]
      exact shows_of_piece hgs (by simp [hk₁])
    obtain ⟨ps₂, b₂, hleads₂, hps₂⟩ :=
      exists_leads_alone l₁.kind h₂ (by rw [hk₂]; rfl) (apart_of_leads h₁ hleads₁)
    obtain ⟨qs, b', hmore, hqs⟩ :=
      ih (j := l₂.kind) hbare.2.2 (by simp [hk₂]) (apart_of_leads h₂ hleads₂)
    exact ⟨_, b', hleads₁.trans (hleads₂.trans hmore),
      .cons hps₁ (by simp [hk₁]) (.cons hps₂ (by simp [hk₂]) hqs)⟩
  | @argument l ls r hk htype hname h _ ih =>
    obtain ⟨-, hbare⟩ := List.forall_mem_cons.1 hbare
    rw [List.flatMap_cons, List.append_assoc] at hb ⊢
    obtain ⟨ps, b₁, hleads, hps⟩ := exists_leads_openAngle j h hk htype hb
    obtain ⟨qs, b', hmore, hqs⟩ :=
      ih (j := l.kind) hbare (fun _ => hname) (apart_of_leads h hleads)
    exact ⟨ps ++ qs, b', hleads.trans hmore, .cons hps (by simp [hk]) hqs⟩
  | @annotated l₁ l₂ l₃ inside ls r hnote hparams h₁ h₂ hinside h₃ _ ih =>
    simp only [List.forall_mem_cons, List.forall_mem_append] at hbare
    obtain ⟨-, hbare₂, hbareInside, hbare₃, hbare⟩ := hbare
    simp only [List.flatMap_cons, List.flatMap_append, List.append_assoc] at hb ⊢
    obtain ⟨ps₁, ps₂, b₁, hopening, hps₁, hps₂⟩ :=
      exists_leads_opening j h₁ h₂ hnote.opening hnote.name hbare₂ hb
    obtain ⟨psInside, b₂, hleads, hpsInside⟩ := exists_leads_params (b := b₁) (j := l₂.kind)
      hparams rfl hinside hbareInside (by simp [hnote.name])
    obtain ⟨ps₃, b₃, hclosing, hps₃⟩ := exists_leads_closing (b := b₂) h₃ hnote.closing hbare₃
    obtain ⟨qs, b', hmore, hqs⟩ :=
      ih (j := l₃.kind) hbare (by simp [hnote.closing]) (apart_of_leads h₃ hclosing)
    have hback (k : TokenKind) : ShowAll k (l₃ :: ls) (ps₃ ++ qs) :=
      .cons (by rw [hnote.closing]; exact hps₃) (by simp [hnote.closing]) hqs
    refine ⟨ps₁ ++ (ps₂ ++ (psInside ++ (ps₃ ++ qs))), b', ?_, .cons hps₁ (by simp [hnote.opening])
      (.cons hps₂ (by simp [hnote.name]) (hpsInside.append (hback _)))⟩
    rw [← List.append_assoc ps₁]
    exact hopening.trans (hleads.trans (hclosing.trans hmore))

/-! ### Lines -/

/-- The lexemes of an entry. -/
lemma isEntry_cases (h : IsEntry (ls.map Lexeme.kind)) :
    (∃ l₁ l₂, ls = [l₁, l₂] ∧ l₁.kind = .keyword .imports ∧ l₂.kind = .packageName) ∨
      ∃ w, (w = .scala ∨ w = .purs) ∧ ∃ l₁ l₂ l₃, ls = [l₁, l₂, l₃] ∧ l₁.kind = .keyword w ∧
        l₂.kind = .mark .colon ∧ l₃.kind = .packageName := by
  rcases h with h | ⟨w, hw, h⟩
  · obtain ⟨l₁, _, rfl, h₁, h⟩ := List.map_eq_cons_iff.1 h
    obtain ⟨l₂, _, rfl, h₂, h⟩ := List.map_eq_cons_iff.1 h
    obtain rfl := List.map_eq_nil_iff.1 h
    exact .inl ⟨l₁, l₂, rfl, h₁, h₂⟩
  · obtain ⟨l₁, _, rfl, h₁, h⟩ := List.map_eq_cons_iff.1 h
    obtain ⟨l₂, _, rfl, h₂, h⟩ := List.map_eq_cons_iff.1 h
    obtain ⟨l₃, _, rfl, h₃, h⟩ := List.map_eq_cons_iff.1 h
    obtain rfl := List.map_eq_nil_iff.1 h
    exact .inr ⟨w, by simpa using hw, l₁, l₂, l₃, rfl, h₁, h₂, h₃⟩

/-- A line is passed where only blanks stand behind its first word. -/
lemma exists_leads_bareEntry (j : TokenKind) (he : IsEntry (ls.map Lexeme.kind))
    (hstand : StandAll ls r) (hbare : ∀ l ∈ ls.tail, l.IsBare)
    (hb : Apart b (ls.flatMap Lexeme.text ++ r)) : ∃ ps b',
      Leads ⟨[], b, ls.flatMap Lexeme.text ++ r⟩ ps ⟨[], b', r⟩ ∧ ShowAll j ls ps ∧ Apart b' r := by
  rcases isEntry_cases he with ⟨l₁, l₂, rfl, hk₁, hk₂⟩ | ⟨w, hw, l₁, l₂, l₃, rfl, hk₁, hk₂, hk₃⟩
  · obtain _ | ⟨h₁, _ | ⟨h₂, -⟩⟩ := hstand
    simp only [List.flatMap_cons, List.flatMap_nil, List.append_nil, List.append_assoc,
      List.nil_append] at h₁ h₂ hb ⊢
    obtain ⟨ps₁, ps₂, b', hleads, hps₁, hps₂⟩ :=
      exists_leads_import j h₁ h₂ hk₁ hk₂ (hbare l₂ (by simp)) hb
    refine ⟨ps₁ ++ (ps₂ ++ []), b', by rwa [List.append_nil],
      .cons hps₁ (by simp [hk₁]) (.cons hps₂ (by simp [hk₂]) .nil), ?_⟩
    exact apart_of_leads (u := l₁.text ++ l₂.gap) h₂ (by simpa [Lexeme.text] using hleads)
  · obtain _ | ⟨h₁, _ | ⟨h₂, _ | ⟨h₃, -⟩⟩⟩ := hstand
    simp only [List.flatMap_cons, List.flatMap_nil, List.append_nil, List.append_assoc,
      List.nil_append] at h₁ h₂ h₃ hb ⊢
    obtain ⟨ps₁, ps₂, ps₃, b', hleads, hps₁, hps₂, hps₃⟩ := exists_leads_header j hw
      h₁ h₂ h₃ hk₁ hk₂ hk₃ (hbare l₂ (by simp)) (hbare l₃ (by simp)) hb
    refine ⟨ps₁ ++ (ps₂ ++ (ps₃ ++ [])), b', by rwa [List.append_nil], .cons hps₁ (by simp [hk₁])
      (.cons hps₂ (by simp [hk₂]) (.cons hps₃ (by simp [hk₃]) .nil)), ?_⟩
    exact apart_of_leads (u := l₁.text ++ (l₂.text ++ l₃.gap)) h₃
      (by simpa [Lexeme.text] using hleads)

/-- Lines of the header and imports, and a row behind them, are passed. -/
lemma exists_leads_rows {es : List (List TokenKind)} (hes : ∀ e ∈ es, IsEntry e) (hrow : BodyRow ks)
    (hks : ls.map Lexeme.kind = es.flatten ++ ks) (hstand : StandAll ls r)
    (hbare : ∀ l ∈ ls, l.IsBare) (hj : j ≠ .mark .openAngle)
    (hb : Apart b (ls.flatMap Lexeme.text ++ r)) :
    ∃ ps b', Leads ⟨[], b, ls.flatMap Lexeme.text ++ r⟩ ps ⟨[], b', r⟩ ∧ ShowAll j ls ps := by
  induction es generalizing ls j b with
  | nil =>
    exact exists_leads_bodyStands (bodyStands hrow hks hstand) hbare (fun h => absurd h hj) hb
  | cons e es ih =>
    obtain ⟨he, hentries⟩ := List.forall_mem_cons.1 hes
    rw [List.flatten_cons, List.append_assoc] at hks
    obtain ⟨us, ls, rfl, rfl, hls⟩ := List.map_eq_append_iff.1 hks
    obtain ⟨hstandEntry, hstand⟩ := StandAll.append_iff.1 hstand
    obtain ⟨hbareEntry, hbare⟩ := List.forall_mem_append.1 hbare
    rw [List.flatMap_append, List.append_assoc] at hb ⊢
    obtain ⟨ps, b₁, hleads, hps, hb₁⟩ := exists_leads_bareEntry j he hstandEntry
      (fun l hl => hbareEntry l (List.mem_of_mem_tail hl)) hb
    have hlast : (us.map Lexeme.kind).getLast?.getD j ≠ .mark .openAngle := by
      rcases he with h | ⟨w, -, h⟩ <;> simp [h]
    obtain ⟨qs, b', hmore, hqs⟩ := ih hentries hls hstand hbare hlast hb₁
    exact ⟨ps ++ qs, b', hleads.trans hmore, hps.append hqs⟩

end Highlight

end Idl
