/-
# Lexemes when highlighting

A lexeme that a reader of tokens finds is shown by pieces for its gap and, unless it is a literal,
by one piece of the style of its kind (`Highlight.Shows`).  This file goes through the kinds that
are treated alike wherever they stand; an opening angle, a name in lower case and the reserved words
with more behind them have to be looked at together with the next lexemes.
-/
import Idl.Proofs.Grammar.Rows
import Idl.Proofs.Highlight.Literals
import Idl.Proofs.Token.Neighbours

namespace Idl

/-- There are only blanks in front of the token. -/
def Lexeme.IsBare (l : Lexeme) : Prop := ∀ c ∈ l.gap, c.isBlank

instance (l : Lexeme) : Decidable l.IsBare := inferInstanceAs (Decidable (∀ c ∈ l.gap, c.isBlank))

/-- What is known of a lexeme in front of a text. -/
structure Lexeme.Stands (l : Lexeme) (r : Text) : Prop where
  /-- There are trivia in front of the token. -/
  gap : Trivia.Complete l.gap
  /-- The token is written by its spelling. -/
  written : l.word.WrittenAs l.spelling
  /-- The text does not continue the token. -/
  stops : r.StopsAt l.kind.continuedBy
  /-- Nothing begins with an underscore. -/
  underscore : ∀ c ∈ r.head?, c ≠ .scalar '_'
  /-- Only a literal holds other characters than ASCII. -/
  ascii : l.kind ≠ .string → ∀ c ∈ l.spelling, c.toNat < 0x80

namespace Highlight

/-- How a token is highlighted behind a token of another kind. -/
def styleAfter (before : TokenKind) : TokenKind → Style
  | .keyword w => keywordStyle w
  | .mark m => markStyle m
  | .string => .string
  | .lowerName => if before = .mark .openAngle then .annotationName else .attributeName
  | .upperName => .className
  | .packageName => .packageName
  | .fault | .endOfInput => .stray

/-- The pieces show a lexeme: its gap, and its spelling as one piece or as parts of a literal. -/
def Shows (style : Style) (l : Lexeme) (ps : List Piece) : Prop :=
  ∃ gs qs, ps = gs ++ qs ∧ ShowGap l.gap gs ∧ textOf qs = l.spelling ∧
    (l.kind ≠ .string → qs = [⟨style, l.spelling⟩]) ∧ (l.kind = .string → ∀ p ∈ qs, p.isLiteral)

/-- No word goes on from one code point to the next. -/
def Apart (b : Option CodePoint) (r : Text) : Prop :=
  (∀ c ∈ b, isWordPoint c = false) ∨ r.StopsAt isWordPoint

variable {b b' : Option CodePoint} {c : CodePoint} {gs ps qs : List Piece} {j k : TokenKind}
  {l : Lexeme} {r s spelling t u value w : Text} {S st' : Stack} {style : Style}

/-! ### Stray pieces -/

/-- Every token has a style. -/
lemma styleAfter_ne_stray (j : TokenKind) (h : k ≠ .fault ∧ k ≠ .endOfInput) :
    styleAfter j k ≠ .stray := by
  cases k with
  | keyword w => cases w <;> simp [styleAfter, keywordStyle]
  | mark m => cases m <;> simp [styleAfter, markStyle]
  | lowerName =>
    rw [styleAfter]
    split <;> decide
  | fault => exact absurd rfl h.1
  | endOfInput => exact absurd rfl h.2
  | _ => simp [styleAfter]

lemma Shows.ne_stray (h : Shows style l ps) (hstyle : style ≠ .stray) :
    ∀ p ∈ ps, p.style ≠ .stray := by
  obtain ⟨gs, qs, rfl, hgs, -, hqs, hliteral⟩ := h
  refine List.forall_mem_append.2 ⟨hgs.ne_stray, fun p hp => ?_⟩
  by_cases hk : l.kind = .string
  · intro hstray
    have hpart := hliteral hk p hp
    simp [Piece.isLiteral, hstray] at hpart
  · rw [hqs hk, List.mem_singleton] at hp
    rwa [hp]

/-! ### Where words end -/

lemma isWordPoint_eq_false_of_isBlank (h : c.isBlank) : isWordPoint c = false := by
  have halpha : c.isAlphanumeric = false := by
    by_contra hc
    rw [CodePoint.not_isBlank_of_isAlphanumeric (by simpa using hc)] at h
    cases h
  have hunderscore : c ≠ .scalar '_' := by
    rintro rfl
    exact absurd h (by decide)
  simp [isWordPoint, halpha, hunderscore]

lemma stopsAt_isWordPoint (h : r.StopsAt CodePoint.isAlphanumeric)
    (hunderscore : ∀ c ∈ r.head?, c ≠ .scalar '_') : r.StopsAt isWordPoint := by
  intro c hc
  simp [isWordPoint, h c hc, hunderscore c hc]

/-- Behind a token no word goes on. -/
lemma apart_of_stands (h : l.Stands r) : Apart l.spelling.getLast? r := by
  obtain ⟨gap, kind, value, spelling⟩ := l
  obtain ⟨-, hwritten, hstops, hunderscore, -⟩ := h
  cases hwritten with
  | keyword | lowerName | upperName => exact .inr (stopsAt_isWordPoint hstops hunderscore)
  | packageName =>
    exact .inr (stopsAt_isWordPoint (Text.StopsAt.isAlphanumeric hstops) hunderscore)
  | mark m =>
    refine .inl fun c hc => ?_
    obtain rfl := Option.some.inj hc
    cases m <;> decide
  | @string body =>
    refine .inl fun c hc => ?_
    rw [← List.cons_append, List.getLast?_concat] at hc
    obtain rfl := Option.some.inj hc
    decide

/-- The machine knows the last code point of what it has passed. -/
lemma before_of_leads_append (h : Leads ⟨S, b, u ++ r⟩ ps ⟨st', b', r⟩) :
    b' = u.getLast?.or b := by
  have htext : textOf ps = u := (List.append_cancel_right (text_of_leads h).1).symm
  have hbefore := before_of_leads h
  rwa [htext] at hbefore

/-- Behind the last token that the machine has passed no word goes on. -/
lemma apart_of_leads (hl : l.Stands r)
    (h : Leads ⟨S, b, u ++ l.spelling ++ r⟩ ps ⟨st', b', r⟩) : Apart b' r := by
  rw [before_of_leads_append h, List.getLast?_append_of_ne_nil _ hl.written.ne_nil,
    List.getLast?_eq_some_getLast hl.written.ne_nil]
  have hapart := apart_of_stands hl
  rwa [List.getLast?_eq_some_getLast hl.written.ne_nil] at hapart

/-! ### Gaps -/

/-- A token begins neither with a blank nor with an underscore. -/
lemma exists_cons_of_written (h : Word.WrittenAs (k, value) spelling) :
    ∃ c t, spelling = c :: t ∧ c.isBlank = false ∧ c ≠ .scalar '_' := by
  have hname {t : Text} (hne : t ≠ []) (ht : ∀ c ∈ t, c.isAlphanumeric) :
      ∃ c u, t = c :: u ∧ c.isBlank = false ∧ c ≠ .scalar '_' := by
    obtain ⟨c, u, rfl⟩ := List.exists_cons_of_ne_nil hne
    have hc := ht c (by simp)
    exact ⟨c, u, rfl, CodePoint.not_isBlank_of_isAlphanumeric hc,
      CodePoint.ne_of_isAlphanumeric hc (by decide)⟩
  have hne := h.ne_nil
  cases h with
  | keyword w => cases w <;> exact ⟨_, _, rfl, by decide⟩
  | mark m => cases m <;> exact ⟨_, _, rfl, by decide⟩
  | lowerName ht | upperName ht => exact hname hne ht.isAlphanumeric
  | packageName ht =>
    obtain ⟨c, u, rfl, hc⟩ := ht.exists_cons
    exact ⟨c, u, rfl, CodePoint.not_isBlank_of_isAlphanumeric hc,
      CodePoint.ne_of_isAlphanumeric hc (by decide)⟩
  | string => exact ⟨_, _, rfl, by decide⟩

lemma stopsAt_isBlank_of_stands (h : l.Stands r) : (l.spelling ++ r).StopsAt CodePoint.isBlank := by
  obtain ⟨c, t, hspelling, hblank, -⟩ := exists_cons_of_written h.written
  rw [hspelling]
  exact Text.stopsAt_cons hblank _

/-- The gap in front of a token is passed, and no word goes on behind it if none did before. -/
lemma exists_leads_front (h : l.Stands r) (hb : Apart b (l.text ++ r)) : ∃ gs b',
    Leads ⟨[], b, l.text ++ r⟩ gs ⟨[], b', l.spelling ++ r⟩ ∧ ShowGap l.gap gs ∧
      Apart b' (l.spelling ++ r) := by
  obtain ⟨gs, b', hleads, hgs⟩ := exists_leads_gap b h.gap (stopsAt_isBlank_of_stands h)
  rw [Lexeme.text, List.append_assoc] at hb ⊢
  refine ⟨gs, b', hleads, hgs, ?_⟩
  rw [before_of_leads_append hleads]
  by_cases hgap : l.gap = []
  · rwa [hgap] at hb ⊢
  · refine .inl fun d hd => ?_
    rw [List.getLast?_eq_some_getLast hgap] at hd
    have hends := h.gap.endsOff (p := isWordPoint) (fun _ => isWordPoint_eq_false_of_isBlank)
      (by decide)
    exact hends d (by rw [List.getLast?_eq_some_getLast hgap]; exact hd)

/-- In front of a word no other word goes on. -/
lemma Apart.before (h : Apart b (c :: s)) (hc : isWordPoint c) :
    ∀ d ∈ b, isWordPoint d = false := by
  rcases h with h | h
  · exact h
  · have hstop := h c rfl
    rw [hc] at hstop
    cases hstop

lemma Apart.before_keyword {w : Keyword} (h : Apart b (w.spelling ++ r)) :
    ∀ d ∈ b, isWordPoint d = false := by
  obtain ⟨c, t, hspelling, hc⟩ : ∃ c t, w.spelling = c :: t ∧ isWordPoint c := by
    cases w <;> exact ⟨_, _, rfl, by decide⟩
  rw [hspelling] at h
  exact h.before hc

/-! ### Names -/

/-- The first letter of an ASCII name, and what it goes on with. -/
lemma exists_of_isName {start : CodePoint → Bool} (h : t.IsName start)
    (hascii : ∀ c ∈ t, c.toNat < 0x80) : ∃ c u, t = c :: u ∧ c.isLetter ∧ start c ∧
      c.toNat < 0x80 ∧ (∀ x ∈ u, isNamePoint x) ∧ ∀ k : Keyword, t ≠ k.spelling := by
  cases t with
  | nil => cases h
  | cons c u =>
    obtain ⟨hletter, hstart, hu, hword⟩ := h
    obtain ⟨hc, hascii⟩ := List.forall_mem_cons.1 hascii
    refine ⟨c, u, rfl, hletter, hstart, hc, fun x hx => ?_, Keyword.ofText?_eq_none_iff.1 hword⟩
    rw [isNamePoint_eq_isAlphanumeric (hascii x hx)]
    exact hu x hx

lemma exists_of_isLowerName (h : t.IsLowerName) (hascii : ∀ c ∈ t, c.toNat < 0x80) :
    ∃ c u, t = c :: u ∧ isSmall c ∧ (∀ x ∈ u, isNamePoint x) ∧ ∀ k : Keyword, t ≠ k.spelling := by
  obtain ⟨c, u, rfl, hletter, hlower, hc, hu, hne⟩ := exists_of_isName h hascii
  exact ⟨c, u, rfl, isSmall_of_isLowercase hc hletter hlower, hu, hne⟩

lemma exists_of_isUpperName (h : t.IsUpperName) (hascii : ∀ c ∈ t, c.toNat < 0x80) :
    ∃ c u, t = c :: u ∧ isCapital c ∧ (∀ x ∈ u, isNamePoint x) ∧ ∀ k : Keyword, t ≠ k.spelling := by
  obtain ⟨c, u, rfl, hletter, hupper, hc, hu, hne⟩ := exists_of_isName h hascii
  exact ⟨c, u, rfl, isCapital_of_isUppercase hc hletter hupper, hu, hne⟩

/-! ### Tokens that stand alone -/

/-- A lexeme is shown by pieces for its gap and one piece for its spelling. -/
lemma shows_of_piece (hgs : ShowGap l.gap gs) (hk : l.kind ≠ .string) :
    Shows style l (gs ++ [⟨style, l.spelling⟩]) :=
  ⟨gs, _, rfl, hgs, textOf_singleton _ _, fun _ => rfl, fun h => absurd h hk⟩

lemma stopsAt_isWordPoint_of_stands (h : l.Stands r) (hk : ∀ c, c.isAlphanumeric →
    l.kind.continuedBy c) : r.StopsAt isWordPoint := by
  refine stopsAt_isWordPoint (fun c hc => ?_) h.underscore
  by_contra halpha
  have hstop := h.stops c hc
  rw [hk c (by simpa using halpha)] at hstop
  cases hstop

/-- A token of which nothing is said about the next one is passed in the first state. -/
lemma exists_leads_token (j : TokenKind) (h : l.Stands r) (hk : l.kind.standsAlone)
    (hb : Apart b (l.spelling ++ r)) : ∃ b',
      Leads ⟨[], b, l.spelling ++ r⟩ [⟨styleAfter j l.kind, l.spelling⟩] ⟨[], b', r⟩ := by
  have hword := stopsAt_isWordPoint_of_stands h
  obtain ⟨gap, kind, value, spelling⟩ := l
  obtain ⟨-, hwritten, -, -, hascii⟩ := h
  simp only [] at hk hb hword hascii ⊢
  cases hwritten with
  | keyword w =>
    have hr := hword fun c hc => hc
    have hw : w ∉ [.scala, .purs, .imports, .type] := by
      revert hk
      cases w <;> decide
    simp only [List.mem_cons, List.not_mem_nil, or_false, not_or] at hw
    exact leads_wholeWord (by simp [hw]) (fun h => absurd h hw.2.2.2) hr
      (Apart.before_keyword (w := w) hb)
  | mark m =>
    have hm : m ≠ .openAngle ∧ m ≠ .assign := by
      revert hk
      cases m <;> decide
    exact leads_mark hm.1 hm.2
  | upperName ht =>
    have hr := hword fun c hc => hc
    obtain ⟨c, u, rfl, hc, hu, hne⟩ := exists_of_isUpperName ht (hascii (by simp))
    obtain ⟨b', hleads⟩ := leads_name (b := b) (.inr hc) hu hne (stopsAt_isNamePoint hr)
    rw [nameStyle, if_pos hc] at hleads
    exact ⟨b', hleads⟩
  | lowerName | packageName | string => cases hk

/-- A lexeme of which nothing is said about the next one is passed in the first state. -/
lemma exists_leads_alone (j : TokenKind) (h : l.Stands r) (hk : l.kind.standsAlone)
    (hb : Apart b (l.text ++ r)) : ∃ ps b',
      Leads ⟨[], b, l.text ++ r⟩ ps ⟨[], b', r⟩ ∧ Shows (styleAfter j l.kind) l ps := by
  obtain ⟨gs, b₁, hgap, hgs, hb₁⟩ := exists_leads_front h hb
  obtain ⟨b', hleads⟩ := exists_leads_token j h hk hb₁
  exact ⟨_, b', hgap.trans hleads, shows_of_piece hgs (TokenKind.ne_of_standsAlone hk rfl)⟩

/-! ### What follows a gap -/

lemma skipBlanks_append (hw : ∀ c ∈ w, c.isBlank) (hr : r.StopsAt CodePoint.isBlank) :
    skipBlanks (w ++ r) = r :=
  (takeWhile_dropWhile_append hw hr).2

/-- Behind the blanks at the front of trivia with a comment the first comment begins. -/
lemma exists_skipBlanks_eq_slash (hw : Trivia.Complete w) (h : ¬ ∀ c ∈ w, c.isBlank) (r : Text) :
    ∃ u, skipBlanks (w ++ r) = .scalar '/' :: u := by
  induction hw with
  | nil => simp at h
  | @blank c t hc _ ih =>
    obtain ⟨u, hu⟩ := ih fun ht => h (List.forall_mem_cons.2 ⟨hc, ht⟩)
    exact ⟨u, by rw [← hu, skipBlanks, List.cons_append, List.dropWhile_cons_of_pos hc]; rfl⟩
  | line => exact ⟨_, rfl⟩
  | block => exact ⟨_, rfl⟩

/-- What stands behind the blanks in front of a lexeme: a comment, or the lexeme itself. -/
lemma stopsAt_skipBlanks {p : CodePoint → Bool} (h : l.Stands r) (hslash : p (.scalar '/') = false)
    (hp : l.IsBare → l.spelling.StopsAt p) : (skipBlanks (l.text ++ r)).StopsAt p := by
  rw [Lexeme.text, List.append_assoc]
  by_cases hbare : l.IsBare
  · rw [skipBlanks_append hbare (stopsAt_isBlank_of_stands h)]
    exact (stopsAt_append_iff h.written.ne_nil r).2 (hp hbare)
  · obtain ⟨u, hu⟩ := exists_skipBlanks_eq_slash h.gap hbare (l.spelling ++ r)
    rw [hu]
    exact Text.stopsAt_cons hslash _

/-! ### Declarations and types -/

variable {l₁ l₂ : Lexeme}

lemma spelling_of_keyword (h : l.Stands r) {w : Keyword} (hk : l.kind = .keyword w) :
    l.spelling = w.spelling := by
  obtain ⟨gap, kind, value, spelling⟩ := l
  obtain ⟨-, hwritten, -⟩ := h
  obtain rfl : kind = .keyword w := hk
  cases hwritten
  rfl

/-- In front of a reserved word the gap is passed, and no word goes on behind it. -/
lemma exists_leads_wordFront (h : l.Stands r) {w : Keyword} (hk : l.kind = .keyword w)
    (hb : Apart b (l.text ++ r)) : ∃ gs b',
      Leads ⟨[], b, l.text ++ r⟩ gs ⟨[], b', l.spelling ++ r⟩ ∧ ShowGap l.gap gs ∧
        ∀ d ∈ b', isWordPoint d = false := by
  obtain ⟨gs, b', hgap, hgs, hb'⟩ := exists_leads_front h hb
  rw [spelling_of_keyword h hk] at hb'
  exact ⟨gs, b', hgap, hgs, hb'.before_keyword⟩

lemma spelling_of_mark (h : l.Stands r) {m : Mark} (hk : l.kind = .mark m) :
    l.spelling = [.scalar m.symbol] := by
  obtain ⟨gap, kind, value, spelling⟩ := l
  obtain ⟨-, hwritten, -⟩ := h
  obtain rfl : kind = .mark m := hk
  exact hwritten.of_mark.2

lemma spelling_of_upperName (h : l.Stands r) (hk : l.kind = .upperName) : ∃ c u,
    l.spelling = c :: u ∧ isCapital c ∧ (∀ x ∈ u, isNamePoint x) ∧
      ∀ k : Keyword, l.spelling ≠ k.spelling := by
  obtain ⟨gap, kind, value, spelling⟩ := l
  obtain ⟨-, hwritten, -, -, hascii⟩ := h
  obtain rfl : kind = .upperName := hk
  cases hwritten with
  | upperName ht => exact exists_of_isUpperName ht (hascii (by simp))

lemma spelling_of_lowerName (h : l.Stands r) (hk : l.kind = .lowerName) : ∃ c u,
    l.spelling = c :: u ∧ isSmall c ∧ (∀ x ∈ u, isNamePoint x) ∧
      ∀ k : Keyword, l.spelling ≠ k.spelling := by
  obtain ⟨gap, kind, value, spelling⟩ := l
  obtain ⟨-, hwritten, -, -, hascii⟩ := h
  obtain rfl : kind = .lowerName := hk
  cases hwritten with
  | lowerName ht => exact exists_of_isLowerName ht (hascii (by simp))

/-- Something stands between a word and a word. -/
lemma gap_ne_nil (h₁ : l₁.Stands (l₂.text ++ r)) (hk₁ : l₁.kind.continuedBy c)
    (hc : c ∈ l₂.spelling.head?) : l₂.gap ≠ [] := by
  intro hgap
  have hstop := h₁.stops
  obtain ⟨t, ht⟩ := List.head?_eq_some_iff.1 hc
  rw [Lexeme.text, hgap, ht] at hstop
  have hfalse := hstop c rfl
  rw [hk₁] at hfalse
  cases hfalse

/-- The beginning of a declaration is passed, with whatever trivia behind the word. -/
lemma exists_leads_declared (j : TokenKind) (h₁ : l₁.Stands (l₂.text ++ r)) (h₂ : l₂.Stands r)
    (hk₁ : l₁.kind = .keyword .type) (hk₂ : l₂.kind = .upperName)
    (hb : Apart b (l₁.text ++ (l₂.text ++ r))) : ∃ ps qs b',
      Leads ⟨[], b, l₁.text ++ (l₂.text ++ r)⟩ (ps ++ qs) ⟨[], b', r⟩ ∧ Apart b' r ∧
        Shows (styleAfter j l₁.kind) l₁ ps ∧ Shows (styleAfter l₁.kind l₂.kind) l₂ qs := by
  obtain ⟨gs, b₁, hgap, hgs, hbefore⟩ := exists_leads_wordFront h₁ hk₁ hb
  have hspelling := spelling_of_keyword h₁ hk₁
  have hshows : Shows (styleAfter j l₁.kind) l₁ (gs ++ [⟨.declarationKeyword, l₁.spelling⟩]) := by
    rw [hk₁]
    exact shows_of_piece hgs (by simp [hk₁])
  by_cases hbare : l₂.IsBare
  · obtain ⟨c, u, hname, hc, hu, -⟩ := spelling_of_upperName h₂ hk₂
    have halpha := isAlphanumeric_of_isNamePoint (isNamePoint_of_isCapital hc)
    have hne : l₂.gap ≠ [] :=
      gap_ne_nil (c := c) h₁ (by rw [hk₁]; exact halpha) (by rw [hname]; rfl)
    have hr := stopsAt_isWordPoint_of_stands h₂ (by simp [hk₂, TokenKind.continuedBy])
    obtain ⟨b', hleads⟩ :=
      leads_type (b := b₁) hbare hne hc hu (stopsAt_isNamePoint hr) hbefore
    rw [← hname, ← hspelling] at hleads
    have hall := hgap.trans ((List.append_assoc l₂.gap l₂.spelling r) ▸ hleads)
    refine ⟨_, blankPiece l₂.gap ++ [⟨.className, l₂.spelling⟩], b', ?_,
      apart_of_leads (u := l₁.text ++ l₂.gap) h₂ (by simpa [Lexeme.text] using hall), hshows, ?_⟩
    · simpa [Lexeme.text] using hall
    · rw [hk₂]
      exact shows_of_piece (showGap_blankPiece _) (by simp [hk₂])
  · have hnone : cutParts behindType (l₂.text ++ r) = none :=
      cutParts_type_eq_none (stopsAt_skipBlanks h₂ (by decide) fun h => absurd h hbare)
    have hr := stopsAt_isWordPoint_of_stands h₁ (by simp [hk₁, TokenKind.continuedBy])
    obtain ⟨b₂, htype⟩ := leads_wholeWord (k := .type) (by decide) (fun _ => hnone) hr hbefore
    rw [← hspelling] at htype
    obtain ⟨qs, b', hname, hqs⟩ := exists_leads_alone l₁.kind h₂ (by rw [hk₂]; rfl)
      (apart_of_leads h₁ (u := []) htype)
    exact ⟨_, qs, b', (hgap.trans htype).trans hname, apart_of_leads h₂ hname, hshows, hqs⟩

/-- An opening angle is passed by itself in front of anything but a name for an annotation. -/
lemma exists_leads_openAngle (j : TokenKind) (h : l.Stands r) (hk : l.kind = .mark .openAngle)
    (hr : (skipBlanks r).StopsAt isSmall) (hb : Apart b (l.text ++ r)) : ∃ ps b',
      Leads ⟨[], b, l.text ++ r⟩ ps ⟨[], b', r⟩ ∧ Shows (styleAfter j l.kind) l ps := by
  obtain ⟨gs, b₁, hgap, hgs, -⟩ := exists_leads_front h hb
  obtain ⟨b', hleads⟩ := leads_openAngle (b := b₁) hr
  have hspelling := spelling_of_mark h hk
  rw [hspelling] at hgap
  refine ⟨gs ++ [⟨.punctuation, l.spelling⟩], b', ?_, ?_⟩
  · rw [hspelling]
    exact hgap.trans hleads
  · rw [hk]
    exact shows_of_piece hgs (by simp [hk])

/-- In front of a type an opening angle opens no annotation. -/
lemma stopsAt_isSmall_of_isTypeHead (h : l.Stands r) (hk : l.kind.isTypeHead) :
    (skipBlanks (l.text ++ r)).StopsAt isSmall := by
  obtain ⟨c, u, hspelling, hc⟩ : ∃ c u, l.spelling = c :: u ∧ isCapital c := by
    rcases TokenKind.eq_of_isTypeHead hk with hkind | ⟨w, hw, hkind⟩
    · obtain ⟨c, u, hname, hc, -⟩ := spelling_of_upperName h hkind
      exact ⟨c, u, hname, hc⟩
    · have hcapital : ∀ w ∈ [Keyword.boolean, .int, .decimal, .string, .array, .maybe],
          ∃ c ∈ w.spelling.head?, isCapital c := by decide
      obtain ⟨c, hhead, hc⟩ := hcapital w hw
      obtain ⟨u, hu⟩ := List.head?_eq_some_iff.1 hhead
      exact ⟨c, u, by rw [spelling_of_keyword h hkind, hu], hc⟩
  refine stopsAt_skipBlanks h (by decide) fun _ => ?_
  rw [hspelling]
  refine Text.stopsAt_cons ?_ u
  by_contra hsmall
  rw [isCapital_eq_false_of_isSmall (by simpa using hsmall)] at hc
  cases hc

/-- A name in lower case is passed as the name of a field if a colon follows. -/
lemma exists_leads_lowerName (h : l.Stands r) (hk : l.kind = .lowerName)
    (hb : Apart b (l.text ++ r)) : ∃ gs b', ShowGap l.gap gs ∧
      Leads ⟨[], b, l.text ++ r⟩
        (gs ++ [⟨if colonFollows r then .attributeName else .plainName, l.spelling⟩])
        ⟨[], b', r⟩ := by
  obtain ⟨gs, b₁, hgap, hgs, -⟩ := exists_leads_front h hb
  obtain ⟨c, u, hname, hc, hu, hne⟩ := spelling_of_lowerName h hk
  have hr := stopsAt_isWordPoint_of_stands h (by simp [hk, TokenKind.continuedBy])
  rw [hname] at hne
  obtain ⟨b', hleads⟩ := leads_name (b := b₁) (.inl hc) hu hne (stopsAt_isNamePoint hr)
  rw [nameStyle, isCapital_eq_false_of_isSmall hc, if_neg Bool.false_ne_true, ← hname] at hleads
  exact ⟨gs, b', hgs, hgap.trans hleads⟩

/-- A colon is found behind blanks. -/
lemma colonFollows_of_isBare (h : l.Stands r) (hk : l.kind = .mark .colon) (hbare : l.IsBare) :
    colonFollows (l.text ++ r) := by
  have hskip := skipBlanks_append hbare (stopsAt_isBlank_of_stands h)
  rw [← List.append_assoc, spelling_of_mark h hk] at hskip
  rw [Lexeme.text, spelling_of_mark h hk, colonFollows, ← skipBlanks, hskip]
  rfl

/-! ### Annotations -/

/-- The beginning of an annotation, with nothing but blanks in front of its name. -/
lemma exists_leads_opening (j : TokenKind) (h₁ : l₁.Stands (l₂.text ++ r)) (h₂ : l₂.Stands r)
    (hk₁ : l₁.kind = .mark .openAngle) (hk₂ : l₂.kind = .lowerName) (hbare : l₂.IsBare)
    (hb : Apart b (l₁.text ++ (l₂.text ++ r))) : ∃ ps qs b',
      Leads ⟨[], b, l₁.text ++ (l₂.text ++ r)⟩ (ps ++ qs) ⟨[.parameters], b', r⟩ ∧
        Shows (styleAfter j l₁.kind) l₁ ps ∧ Shows (styleAfter l₁.kind l₂.kind) l₂ qs := by
  obtain ⟨gs, b₁, hgap, hgs, -⟩ := exists_leads_front h₁ hb
  obtain ⟨c, u, hname, hc, hu, -⟩ := spelling_of_lowerName h₂ hk₂
  have hr := stopsAt_isWordPoint_of_stands h₂ (by simp [hk₂, TokenKind.continuedBy])
  have hspelling := spelling_of_mark h₁ hk₁
  obtain ⟨b', hleads⟩ := leads_opening (b := b₁) hbare hc hu (stopsAt_isNamePoint hr)
  have hopening : Leads ⟨[], b₁, l₁.spelling ++ (l₂.text ++ r)⟩
      (⟨.punctuation, l₁.spelling⟩ :: (blankPiece l₂.gap ++ [⟨.annotationName, l₂.spelling⟩]))
      ⟨[.parameters], b', r⟩ := by
    rw [hspelling, hname]
    simpa [Lexeme.text, hname, Mark.symbol] using hleads
  refine ⟨gs ++ [⟨.punctuation, l₁.spelling⟩],
    blankPiece l₂.gap ++ [⟨.annotationName, l₂.spelling⟩], b', ?_, ?_, ?_⟩
  · simpa using hgap.trans hopening
  · rw [hk₁]
    exact shows_of_piece hgs (by simp [hk₁])
  · rw [hk₁, hk₂]
    exact shows_of_piece (showGap_blankPiece _) (by simp [hk₂])

/-- What a token of a parameter is written by. -/
lemma exists_leads_parameterToken (h : l.Stands r) (hj : j ≠ .mark .openAngle)
    (hk : l.kind = .lowerName ∨ l.kind = .mark .assign ∨ l.kind = .string) : ∃ qs b',
      Leads ⟨[.parameters], b, l.spelling ++ r⟩ qs ⟨[.parameters], b', r⟩ ∧
        textOf qs = l.spelling ∧
          (l.kind ≠ .string → qs = [⟨styleAfter j l.kind, l.spelling⟩]) ∧
            (l.kind = .string → ∀ p ∈ qs, p.isLiteral) := by
  rcases hk with hk | hk | hk
  · obtain ⟨c, u, hname, hc, hu, -⟩ := spelling_of_lowerName h hk
    have hr := stopsAt_isWordPoint_of_stands h (by simp [hk, TokenKind.continuedBy])
    obtain ⟨b', hleads⟩ := leads_parameter (b := b) hc hu (stopsAt_isNamePoint hr)
    rw [← hname] at hleads
    refine ⟨_, b', hleads, textOf_singleton _ _, fun _ => ?_, by simp [hk]⟩
    rw [hk, styleAfter, if_neg hj]
  · obtain ⟨b', hleads⟩ := leads_assign (b := b) r
    have hspelling := spelling_of_mark h hk
    refine ⟨[⟨.operator, l.spelling⟩], b', ?_, textOf_singleton _ _, fun _ => ?_, by simp [hk]⟩
    · rw [hspelling]
      exact hleads
    · rw [hk]
      rfl
  · obtain ⟨gap, kind, value, spelling⟩ := l
    obtain ⟨-, hwritten, -⟩ := h
    obtain rfl : kind = .string := hk
    cases hwritten with
    | string hbody =>
      obtain ⟨qs, b', hleads, htext, hqs⟩ := exists_leads_literal b hbody r
      exact ⟨qs, b', hleads, htext, fun h => absurd rfl h, fun _ => hqs⟩

/-- A token of a parameter is passed behind blanks. -/
lemma exists_leads_parameter (h : l.Stands r) (hj : j ≠ .mark .openAngle)
    (hk : l.kind = .lowerName ∨ l.kind = .mark .assign ∨ l.kind = .string) (hbare : l.IsBare) :
    ∃ ps b', Leads ⟨[.parameters], b, l.text ++ r⟩ ps ⟨[.parameters], b', r⟩ ∧
      Shows (styleAfter j l.kind) l ps := by
  have hgap := leads_blanks (b := b) (S := [.parameters]) (.inr rfl) hbare
    (stopsAt_isBlank_of_stands h)
  obtain ⟨qs, b', hleads, hqs⟩ := exists_leads_parameterToken h hj hk
  refine ⟨blankPiece l.gap ++ qs, b', ?_, _, qs, rfl, showGap_blankPiece _, hqs⟩
  rw [Lexeme.text, List.append_assoc]
  exact hgap.trans hleads

/-- The closing angle leads out of an annotation, behind blanks. -/
lemma exists_leads_closing (h : l.Stands r) (hk : l.kind = .mark .closeAngle) (hbare : l.IsBare) :
    ∃ ps b', Leads ⟨[.parameters], b, l.text ++ r⟩ ps ⟨[], b', r⟩ ∧ Shows .punctuation l ps := by
  have hgap := leads_blanks (b := b) (S := [.parameters]) (.inr rfl) hbare
    (stopsAt_isBlank_of_stands h)
  have hspelling := spelling_of_mark h hk
  obtain ⟨b', hleads⟩ := leads_closeAngle (b := l.gap.getLast?.or b) r
  refine ⟨blankPiece l.gap ++ [⟨.punctuation, l.spelling⟩], b', ?_,
    shows_of_piece (showGap_blankPiece _) (by simp [hk])⟩
  rw [Lexeme.text, List.append_assoc]
  rw [hspelling] at hgap ⊢
  exact hgap.trans hleads

/-- A comment among parameters is stray. -/
lemma exists_leads_stray (h : l.Stands r) (hbare : ¬ l.IsBare) : ∃ ps k,
    Leads ⟨[.parameters], b, l.text ++ r⟩ ps k ∧ ∃ p ∈ ps, p.style = .stray := by
  obtain ⟨u, hu⟩ := exists_skipBlanks_eq_slash h.gap hbare (l.spelling ++ r)
  obtain ⟨w, hsplit, hw, hstop⟩ := exists_blanks (l.gap ++ (l.spelling ++ r))
  have hblanks := leads_blanks (b := b) (S := [.parameters]) (.inr rfl) hw hstop
  rw [← hsplit, hu] at hblanks
  rw [Lexeme.text, List.append_assoc]
  exact ⟨_, _, hblanks.trans (leads_slash u), ⟨.stray, [.scalar '/']⟩, by simp, rfl⟩

/-! ### Entries -/

variable {l₃ : Lexeme}

lemma isPackagePoint_of_isPackagePoint (h : isPackagePoint c) : c.isPackagePoint := by
  rcases Bool.or_eq_true_iff.1 h with h | h
  · simp [CodePoint.isPackagePoint, isAlphanumeric_of_isNamePoint h]
  · simp [CodePoint.isPackagePoint, h]

/-- What a package name is written by, and what does not follow it. -/
lemma spelling_of_packageName (h : l.Stands r) (hk : l.kind = .packageName) :
    l.spelling.IsPackageName ∧ (∀ c ∈ l.spelling, isPackagePoint c) ∧
      r.StopsAt isPackagePoint := by
  have hascii := h.ascii (by simp [hk])
  have hstops := h.stops
  rw [hk] at hstops
  obtain ⟨gap, kind, value, spelling⟩ := l
  obtain ⟨-, hwritten, -⟩ := h
  obtain rfl : kind = .packageName := hk
  cases hwritten with
  | packageName ht =>
    refine ⟨ht, fun c hc => ?_, fun c hc => ?_⟩
    · rw [isPackagePoint, isNamePoint_eq_isAlphanumeric (hascii c hc)]
      exact ht.isPackagePoint c hc
    · exact CodePoint.eq_false_of_imp_isPackagePoint (fun _ => isPackagePoint_of_isPackagePoint)
        (hstops c hc)

/-- A line of the header, with nothing but blanks around the colon. -/
lemma exists_leads_header (j : TokenKind) {w : Keyword} (hw : w = .scala ∨ w = .purs)
    (h₁ : l₁.Stands (l₂.text ++ (l₃.text ++ r))) (h₂ : l₂.Stands (l₃.text ++ r)) (h₃ : l₃.Stands r)
    (hk₁ : l₁.kind = .keyword w) (hk₂ : l₂.kind = .mark .colon) (hk₃ : l₃.kind = .packageName)
    (hbare₂ : l₂.IsBare) (hbare₃ : l₃.IsBare)
    (hb : Apart b (l₁.text ++ (l₂.text ++ (l₃.text ++ r)))) : ∃ ps₁ ps₂ ps₃ b',
      Leads ⟨[], b, l₁.text ++ (l₂.text ++ (l₃.text ++ r))⟩ (ps₁ ++ (ps₂ ++ ps₃)) ⟨[], b', r⟩ ∧
        Shows (styleAfter j l₁.kind) l₁ ps₁ ∧ Shows (styleAfter l₁.kind l₂.kind) l₂ ps₂ ∧
          Shows (styleAfter l₂.kind l₃.kind) l₃ ps₃ := by
  obtain ⟨gs, b₁, hgap, hgs, hbefore⟩ := exists_leads_wordFront h₁ hk₁ hb
  have hspelling₁ := spelling_of_keyword h₁ hk₁
  have hspelling₂ := spelling_of_mark h₂ hk₂
  obtain ⟨-, hpoints, hr⟩ := spelling_of_packageName h₃ hk₃
  obtain ⟨b', hleads⟩ := leads_header hw hbare₂ hbare₃ hpoints h₃.written.ne_nil hr hbefore
  have hline : Leads ⟨[], b₁, l₁.spelling ++ (l₂.text ++ (l₃.text ++ r))⟩
      (⟨.namespaceKeyword, l₁.spelling⟩ :: (blankPiece l₂.gap ++ ⟨.punctuation, l₂.spelling⟩ ::
        (blankPiece l₃.gap ++ [⟨.packageName, l₃.spelling⟩]))) ⟨[], b', r⟩ := by
    rw [hspelling₁, hspelling₂]
    simpa [Lexeme.text, hspelling₂, Mark.symbol] using hleads
  refine ⟨gs ++ [⟨.namespaceKeyword, l₁.spelling⟩],
    blankPiece l₂.gap ++ [⟨.punctuation, l₂.spelling⟩],
    blankPiece l₃.gap ++ [⟨.packageName, l₃.spelling⟩], b', ?_, ?_, ?_, ?_⟩
  · simpa using hgap.trans hline
  · have hstyle : styleAfter j l₁.kind = .namespaceKeyword := by
      rw [hk₁]
      rcases hw with rfl | rfl <;> rfl
    rw [hstyle]
    exact shows_of_piece hgs (by simp [hk₁])
  · rw [hk₂]
    exact shows_of_piece (showGap_blankPiece _) (by simp [hk₂])
  · rw [hk₃]
    exact shows_of_piece (showGap_blankPiece _) (by simp [hk₃])

/-- An import, with nothing but blanks behind the word. -/
lemma exists_leads_import (j : TokenKind) (h₁ : l₁.Stands (l₂.text ++ r)) (h₂ : l₂.Stands r)
    (hk₁ : l₁.kind = .keyword .imports) (hk₂ : l₂.kind = .packageName) (hbare : l₂.IsBare)
    (hb : Apart b (l₁.text ++ (l₂.text ++ r))) : ∃ ps qs b',
      Leads ⟨[], b, l₁.text ++ (l₂.text ++ r)⟩ (ps ++ qs) ⟨[], b', r⟩ ∧
        Shows (styleAfter j l₁.kind) l₁ ps ∧ Shows (styleAfter l₁.kind l₂.kind) l₂ qs := by
  obtain ⟨gs, b₁, hgap, hgs, hbefore⟩ := exists_leads_wordFront h₁ hk₁ hb
  have hspelling := spelling_of_keyword h₁ hk₁
  obtain ⟨hname, hpoints, hr⟩ := spelling_of_packageName h₂ hk₂
  have hne : l₂.gap ≠ [] := by
    obtain ⟨c, u, hc, halpha⟩ := hname.exists_cons
    exact gap_ne_nil (c := c) h₁ (by rw [hk₁]; exact halpha) (by rw [hc]; rfl)
  obtain ⟨b', hleads⟩ := leads_import hbare hne hpoints h₂.written.ne_nil hr hbefore
  have hline : Leads ⟨[], b₁, l₁.spelling ++ (l₂.text ++ r)⟩
      (⟨.namespaceKeyword, l₁.spelling⟩ :: (blankPiece l₂.gap ++ [⟨.packageName, l₂.spelling⟩]))
      ⟨[], b', r⟩ := by
    rw [hspelling]
    simpa [Lexeme.text] using hleads
  refine ⟨gs ++ [⟨.namespaceKeyword, l₁.spelling⟩],
    blankPiece l₂.gap ++ [⟨.packageName, l₂.spelling⟩], b', ?_, ?_, ?_⟩
  · simpa using hgap.trans hline
  · rw [hk₁]
    exact shows_of_piece hgs (by simp [hk₁])
  · rw [hk₂]
    exact shows_of_piece (showGap_blankPiece _) (by simp [hk₂])

end Highlight

end Idl
