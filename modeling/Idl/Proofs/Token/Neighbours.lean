/-
# Tokens and what stands next to them

A name is never run together with what stands next to it: neither a letter nor a numeral stands in
front of it or behind it (`Text.exists_name`).  What stands in front of a token is told by the token
before it and the trivia between them (`Text.exists_neighbours`), and a dot can only be one if that
token is a dot that touches the name (`Token.Neighbours.endsOff`).  A token is known by where it
begins (`Text.split_inj_of_first`).
-/
import Idl.Proofs.Token.Spans

namespace Idl

/-- The text does not end with a code point of a class. -/
def Text.EndsOff (p : CodePoint → Bool) (t : Text) : Prop := ∀ c ∈ t.getLast?, p c = false

/-- A token begins at the position behind another one. -/
def Token.Touches (a t : Token) : Prop :=
  t.span.first = ⟨a.span.last.line, a.span.last.column + 1⟩

instance (a t : Token) : Decidable (a.Touches t) := inferInstanceAs (Decidable (_ = _))

/-- Two tokens stand in a text one right after the other, with nothing but trivia between them. -/
structure Token.Neighbours (a t : Token) (before first gap piece after : Text) : Prop where
  /-- The first of them is written by its piece. -/
  firstWritten : a.word.WrittenAs first
  /-- It stands there. -/
  firstStands : a.StandsAt before first
  /-- There is nothing but trivia behind it. -/
  trivia : Trivia.Complete gap
  /-- The second of them is written by its piece. -/
  written : t.word.WrittenAs piece
  /-- It stands there. -/
  stands : t.StandsAt (before ++ first ++ gap) piece
  /-- It does not continue the first one. -/
  apart : gap = [] → piece.StopsAt a.kind.continuedBy
  /-- Nothing behind it continues it. -/
  stops : after.StopsAt t.kind.continuedBy

variable {a t t₁ t₂ : Token} {after before first gap piece s spelling u v value w : Text}
  {c : CodePoint} {k : TokenKind} {l : Lexeme} {ls : List Lexeme} {p : CodePoint → Bool}
  {r : Text} {us vs us₁ us₂ vs₁ vs₂ : List Token}

/-! ### Ends of trivia and of spellings -/

lemma Text.endsOff_nil : Text.EndsOff p [] := fun _ h => nomatch h

lemma Text.endsOff_concat (h : p c = false) (u : Text) : Text.EndsOff p (u ++ [c]) := by
  intro d hd
  rw [List.getLast?_concat] at hd
  obtain rfl := Option.some.inj hd
  exact h

lemma Text.endsOff_append_iff (hne : v ≠ []) : Text.EndsOff p (u ++ v) ↔ v.EndsOff p := by
  rw [EndsOff, EndsOff, List.getLast?_append_of_ne_nil _ hne]

lemma Text.EndsOff.append (hu : u.EndsOff p) (hv : v.EndsOff p) : Text.EndsOff p (u ++ v) := by
  by_cases hne : v = []
  · rwa [hne, List.append_nil]
  · exact (endsOff_append_iff hne).2 hv

lemma Trivia.Closes.exists_concat (h : Closes w) : ∃ v, w = v ++ [.scalar '/'] := by
  induction h with
  | mark => exact ⟨[.scalar '*'], rfl⟩
  | @point c _ _ _ ih =>
    obtain ⟨v, rfl⟩ := ih
    exact ⟨c :: v, rfl⟩
  | @nested t _ _ _ _ ih =>
    obtain ⟨v, rfl⟩ := ih
    exact ⟨.scalar '/' :: .scalar '*' :: (t ++ v), by simp⟩

/-- Trivia end with a blank or with the end of a block comment. -/
lemma Trivia.Complete.endsOff (h : Complete w) (hblank : ∀ c : CodePoint, c.isBlank → p c = false)
    (hslash : p (.scalar '/') = false) : w.EndsOff p := by
  induction h with
  | nil => exact Text.endsOff_nil
  | @blank c t hc _ ih =>
    have hone : Text.EndsOff p ([] ++ [c]) := Text.endsOff_concat (hblank c hc) []
    exact hone.append ih
  | @line body t _ _ ih =>
    have hline : Text.EndsOff p (.scalar '/' :: .scalar '/' :: body ++ [.scalar '\n']) :=
      Text.endsOff_concat (hblank _ (by decide)) _
    simpa using hline.append ih
  | @block body t hbody _ ih =>
    obtain ⟨v, rfl⟩ := hbody.exists_concat
    have hblock : Text.EndsOff p (.scalar '/' :: .scalar '*' :: v ++ [.scalar '/']) :=
      Text.endsOff_concat hslash _
    simpa using hblock.append ih

/-- A spelling that what follows does not continue, although it begins with a letter or a numeral,
is that of a mark or of a literal. -/
lemma Word.WrittenAs.endsOff (h : Word.WrittenAs (k, value) spelling)
    (hstop : piece.StopsAt k.continuedBy) (hpiece : ∃ c ∈ piece.head?, c.isAlphanumeric)
    (hmark : ∀ m, k = .mark m → p (.scalar m.symbol) = false) (hquote : p (.scalar '"') = false) :
    spelling.EndsOff p := by
  obtain ⟨c, hc, halpha⟩ := hpiece
  have hcontinued := hstop c hc
  cases h with
  | keyword | lowerName | upperName => exact absurd (halpha.symm.trans hcontinued) (by simp)
  | packageName => simp [TokenKind.continuedBy, CodePoint.isPackagePoint, halpha] at hcontinued
  | mark m => exact Text.endsOff_concat (hmark m rfl) []
  | @string body => exact Text.endsOff_concat hquote (.scalar '"' :: body)

/-! ### Neighbours -/

/-- What stands in front of a token, told by the token before it. -/
lemma Text.exists_neighbours (h : s.tokens = us ++ a :: t :: vs) (hfault : t.kind ≠ .fault)
    (hend : t.kind ≠ .endOfInput) : ∃ before first gap piece after,
      s = before ++ first ++ gap ++ piece ++ after ∧
        a.Neighbours t before first gap piece after := by
  obtain ⟨ls, l, r, rfl, hlaid, rfl⟩ := exists_laid_of_mem (s := s) (by simp [h]) hfault hend
  -- the lexeme in front is that of the token before
  have hsplit := h.trans (List.append_cons us a _)
  have hfront := (tokens_inj_of_span hlaid hsplit rfl).1
  have hne : ls ≠ [] := by
    rintro rfl
    simp [Lexeme.tokensFrom] at hfront
  obtain ⟨ls, l', rfl⟩ := (List.eq_nil_or_concat' ls).resolve_left hne
  rw [tokensFrom_append, Position.start_after] at hfront
  obtain rfl : a = l'.tokenAt (Text.place (ls.flatMap Lexeme.text)) :=
    List.singleton_inj.1 (List.append_inj' hfront rfl).2
  rw [List.append_assoc] at hlaid
  obtain ⟨-, _ | ⟨hgap', hword', -, hstop', _ | ⟨hgap, hword, -, hstop, -⟩⟩⟩ :=
    Laid.append_iff.1 hlaid
  have hstands := standsAt_tokenAt ((ls ++ [l']).flatMap Lexeme.text) hword
  refine ⟨ls.flatMap Lexeme.text ++ l'.gap, l'.spelling, l.gap, l.spelling, r,
    by simp [Lexeme.text], hword', standsAt_tokenAt _ hword', hgap, hword, ?_, ?_, hstop⟩
  · simpa [Lexeme.text] using hstands
  · exact (stopsAt_text_append_iff hgap hword l'.kind r).1 (by simpa using hstop')

lemma CodePoint.not_isPackagePoint_of_isBlank (h : c.isBlank) : c.isPackagePoint = false :=
  TokenKind.packageName.continuedBy_eq_false (.inl h)

lemma CodePoint.eq_false_of_imp_isPackagePoint (hp : ∀ c, p c → c.isPackagePoint)
    (hc : c.isPackagePoint = false) : p c = false :=
  Bool.eq_false_iff.2 fun hpc => Bool.false_ne_true (hc.symm.trans (hp c hpc))

/-- Behind trivia stands no point that could stand in a package name. -/
lemma Token.Neighbours.endsOff_of_gap (h : a.Neighbours t before first gap piece after)
    (hgap : gap ≠ []) (hp : ∀ c, p c → c.isPackagePoint) :
    Text.EndsOff p (before ++ first ++ gap) := by
  rw [Text.endsOff_append_iff hgap]
  refine h.trivia.endsOff (fun c hc => ?_) ?_
  · exact CodePoint.eq_false_of_imp_isPackagePoint hp (CodePoint.not_isPackagePoint_of_isBlank hc)
  · exact CodePoint.eq_false_of_imp_isPackagePoint hp (by decide)

/-- Only points that could stand in a package name matter in front of a name, and among these only
a mark that is not kept apart. -/
lemma Token.Neighbours.endsOff (h : a.Neighbours t before first gap piece after)
    (hname : ∃ c ∈ piece.head?, c.isAlphanumeric) (hp : ∀ c, p c → c.isPackagePoint)
    (hmark : gap = [] → ∀ m, a.kind = .mark m → p (.scalar m.symbol) = false) :
    Text.EndsOff p (before ++ first ++ gap) := by
  by_cases hgap : gap = []
  · have hquote : p (.scalar '"') = false :=
      CodePoint.eq_false_of_imp_isPackagePoint hp (by decide)
    rw [hgap, List.append_nil, Text.endsOff_append_iff h.firstStands.ne_nil]
    exact h.firstWritten.endsOff (h.apart hgap) hname (hmark hgap) hquote
  · exact h.endsOff_of_gap hgap hp

/-- One token touches the next one if there is nothing at all between them. -/
lemma Token.Neighbours.touches_iff (h : a.Neighbours t before first gap piece after) :
    a.Touches t ↔ gap = [] := by
  rw [Touches, h.stands.first, ← h.firstStands.place_append]
  constructor
  · intro hplace
    have heq := Text.eq_of_place_eq (List.prefix_refl _) (List.prefix_append _ gap) hplace
    exact List.self_eq_append_right.1 heq.symm
  · rintro rfl
    rw [List.append_nil]

/-! ### Names -/

lemma TokenKind.continuedBy_of_isName (h : k.isName) :
    k.continuedBy = CodePoint.isAlphanumeric := by
  cases k <;> first | rfl | cases h

/-- A name is written by its letters and numerals. -/
lemma Word.WrittenAs.of_isName (h : Word.WrittenAs (k, value) spelling) (hk : k.isName) :
    spelling = value ∧ ∀ c ∈ value, c.isAlphanumeric := by
  cases h with
  | lowerName ht | upperName ht => exact ⟨rfl, ht.isAlphanumeric⟩
  | _ => cases hk

lemma Text.exists_mem_head? (hne : s ≠ []) (hs : ∀ c ∈ s, c.isAlphanumeric) :
    ∃ c ∈ s.head?, c.isAlphanumeric := by
  obtain ⟨c, r, rfl⟩ := List.exists_cons_of_ne_nil hne
  exact ⟨c, rfl, hs c List.mem_cons_self⟩

/-- A name stands in the text without a letter or a numeral next to it. -/
lemma Text.exists_name (ht : t ∈ s.tokens) (hk : t.kind.isName) : ∃ before after,
    s = before ++ t.value ++ after ∧ t.StandsAt before t.value ∧
      before.EndsOff CodePoint.isAlphanumeric ∧ after.StopsAt CodePoint.isAlphanumeric := by
  have hfault : t.kind ≠ .fault := by rintro h; simp [h, TokenKind.isName] at hk
  have hend : t.kind ≠ .endOfInput := by rintro h; simp [h, TokenKind.isName] at hk
  obtain ⟨us, vs, h⟩ := List.append_of_mem ht
  rcases List.eq_nil_or_concat' us with rfl | ⟨us, a, rfl⟩
  · -- in front of the first token there are only trivia
    obtain ⟨ls, l, r, rfl, hlaid, rfl⟩ := exists_laid_of_mem ht hfault hend
    have hfront := (tokens_inj_of_span hlaid h rfl).1
    obtain rfl : ls = [] := by
      cases ls with
      | nil => rfl
      | cons => cases hfront
    obtain _ | ⟨hgap, hword, -, hstop, -⟩ := hlaid
    obtain ⟨hspelling, halpha⟩ := hword.of_isName hk
    rw [TokenKind.continuedBy_of_isName (k := l.kind) hk] at hstop
    have hstands := standsAt_tokenAt [] hword
    rw [hspelling] at hstands
    exact ⟨l.gap, r, by simp [Lexeme.text, Lexeme.tokenAt, hspelling], hstands, hgap.endsOff
      (fun c hc => TokenKind.lowerName.continuedBy_eq_false (.inl hc)) (by decide), hstop⟩
  · obtain ⟨before, first, gap, piece, after, rfl, hpair⟩ :=
      exists_neighbours (by rw [h, List.append_assoc]; rfl) hfault hend
    obtain ⟨rfl, halpha⟩ := hpair.written.of_isName hk
    have hstops := hpair.stops
    rw [TokenKind.continuedBy_of_isName hk] at hstops
    have hhead := exists_mem_head? hpair.stands.ne_nil halpha
    refine ⟨_, _, rfl, hpair.stands, hpair.endsOff hhead ?_ ?_, hstops⟩
    · intro c hc
      simp [CodePoint.isPackagePoint, hc]
    · intro _ m _
      cases m <;> decide

/-! ### Where tokens begin -/

lemma Position.Before.of_not_before {x y z : Position} (h : y.Before z) (hx : ¬ y.Before x) :
    x.Before z := by
  unfold Before at *
  omega

/-- The tokens begin one behind the other. -/
lemma Text.pairwise_first (h : s.tokens = us ++ [t]) :
    t.kind = .endOfInput ∧ us.Pairwise fun t₁ t₂ => t₁.span.first.Before t₂.span.first := by
  obtain ⟨us', stop, hus, hstop, hpairwise, hself⟩ := s.exists_pairwise
  obtain ⟨rfl, hlast⟩ := List.append_inj' (h.symm.trans hus) rfl
  obtain rfl := List.singleton_inj.1 hlast
  exact ⟨hstop, hpairwise.imp_of_mem fun h₁ _ hbefore => hbefore.of_not_before (hself _ h₁)⟩

lemma Text.first_ne_of_tokens_eq {ms : List Token}
    (h : s.tokens = us ++ t₁ :: (ms ++ t₂ :: vs)) (hend : t₂.kind ≠ .endOfInput) :
    t₁.span.first ≠ t₂.span.first := by
  -- the second token is not the last one, which is the end of the input
  have hvs : vs ≠ [] := by
    rintro rfl
    have hlast : s.tokens = us ++ t₁ :: ms ++ [t₂] := by simpa using h
    exact hend (pairwise_first hlast).1
  obtain ⟨vs, v, rfl⟩ := (List.eq_nil_or_concat' vs).resolve_left hvs
  have hlast : s.tokens = us ++ t₁ :: (ms ++ t₂ :: vs) ++ [v] := by simpa using h
  have hpairwise := (pairwise_first hlast).2
  have hbefore := (List.pairwise_cons.1 (List.pairwise_append.1 hpairwise).2.1).1 t₂ (by simp)
  intro hfirst
  rw [hfirst] at hbefore
  simp [Position.Before] at hbefore

/-- The tokens of a text are known by where they begin. -/
lemma Text.split_inj_of_first (h₁ : s.tokens = us₁ ++ t₁ :: vs₁) (h₂ : s.tokens = us₂ ++ t₂ :: vs₂)
    (hfirst : t₁.span.first = t₂.span.first) (hend₁ : t₁.kind ≠ .endOfInput)
    (hend₂ : t₂.kind ≠ .endOfInput) : us₁ = us₂ ∧ t₁ = t₂ ∧ vs₁ = vs₂ := by
  rcases List.append_eq_append_iff.1 (h₁.symm.trans h₂) with ⟨ms, rfl, hms⟩ | ⟨ms, rfl, hms⟩
  · cases ms with
    | nil => simpa using hms
    | cons m ms =>
      obtain ⟨rfl, rfl⟩ := List.cons.inj hms
      exact absurd hfirst (first_ne_of_tokens_eq h₁ hend₂)
  · cases ms with
    | nil => simpa [eq_comm] using hms
    | cons m ms =>
      obtain ⟨rfl, rfl⟩ := List.cons.inj hms
      exact absurd hfirst.symm (first_ne_of_tokens_eq h₂ hend₁)

end Idl
