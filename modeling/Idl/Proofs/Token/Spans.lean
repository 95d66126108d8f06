/-
# Where tokens stand

The tokens in front of a place of a text are settled by the text up to that place
(`Text.tokens_append`), and they stand before all that follow (`Text.tokens_inj_of_span`); so the
tokens in front of the end of the input, a fault included, follow one another
(`Text.exists_pairwise`).
Each token but the end of the input stands at a piece of the text that is its spelling, or at the
code point that is at fault (`Text.exists_standsAt`).
-/
import Idl.Proofs.Token.Partition

namespace Idl

/-- One span ends before another one begins. -/
def Span.Before (a b : Span) : Prop := a.last.Before b.first

/-- A token stands at a piece of a text, behind another piece. -/
structure Token.StandsAt (t : Token) (before piece : Text) : Prop where
  /-- The piece is not empty. -/
  ne_nil : piece ≠ []
  /-- The piece stands on one line. -/
  line : .scalar '\n' ∉ piece
  /-- The span begins behind the other piece. -/
  first : t.span.first = before.place
  /-- The span is as long as the piece. -/
  last : t.span.last = ⟨before.place.line, before.place.column + piece.length - 1⟩

/-- The tokens of lexemes that begin at a position. -/
def Lexeme.tokensFrom (p : Position) : List Lexeme → List Token
  | [] => []
  | l :: ls => l.tokenAt p :: tokensFrom (p.after l.text) ls

variable {ctx : Context} {e : Ending} {l : Lexeme} {ls : List Lexeme} {p q : Position}
  {before piece r r' s : Text} {t t' : Token} {us vs us' vs' : List Token}

/-! ### The order of positions -/

lemma Position.not_before_self (p : Position) : ¬ p.Before p := by
  unfold Before
  omega

lemma Text.place_append (t u : Text) : Text.place (t ++ u) = t.place.after u := by
  rw [← Position.start_after, ← Position.start_after, Position.after_append]

/-- The front parts of a text have places of their own. -/
lemma Text.eq_of_place_eq {x y : Text} (hx : x <+: s) (hy : y <+: s) (h : x.place = y.place) :
    x = y := by
  have hlonger {x u : Text} (h : x.place = Text.place (x ++ u)) : u = [] := by
    by_contra hu
    have hbefore := Position.before_after x.place hu
    rw [← Text.place_append, ← h] at hbefore
    exact Position.not_before_self _ hbefore
  rcases List.prefix_or_prefix_of_prefix hx hy with ⟨u, rfl⟩ | ⟨u, rfl⟩
  · rw [hlonger h, List.append_nil]
  · rw [hlonger h.symm, List.append_nil]

/-- What stands at a piece begins in front of the end of the piece. -/
lemma Token.StandsAt.not_before (h : t.StandsAt before piece) :
    ¬ t.span.last.Before t.span.first := by
  have hlength := List.length_pos_iff.2 h.ne_nil
  rw [h.first, h.last, Position.Before]
  simp only
  omega

/-- The last position of what stands at a piece is the one before the place behind it. -/
lemma Token.StandsAt.place_append (h : t.StandsAt before piece) :
    Text.place (before ++ piece) = ⟨t.span.last.line, t.span.last.column + 1⟩ := by
  rw [Text.place_append, Position.after_of_not_mem h.line, h.last]
  exact congrArg (Position.mk _) (Int.sub_add_cancel _ 1).symm

/-- What stands at a piece comes before the place behind it. -/
lemma Token.StandsAt.before_place (h : t.StandsAt before piece) :
    t.span.last.Before (Text.place (before ++ piece)) := by
  rw [h.place_append]
  exact .inr ⟨rfl, by simp only; omega⟩

/-! ### The tokens of lexemes -/

lemma standsAt_tokenAt (before : Text) (hl : l.word.WrittenAs l.spelling) :
    (l.tokenAt before.place).StandsAt (before ++ l.gap) l.spelling := by
  refine ⟨hl.ne_nil, hl.break_not_mem, ?_, ?_⟩ <;> rw [span_tokenAt _ hl]

lemma tokensFrom_append (p : Position) (ls₁ ls₂ : List Lexeme) :
    Lexeme.tokensFrom p (ls₁ ++ ls₂) = Lexeme.tokensFrom p ls₁ ++
      Lexeme.tokensFrom (p.after (ls₁.flatMap Lexeme.text)) ls₂ := by
  induction ls₁ generalizing p with
  | nil => rfl
  | cons l ls₁ ih =>
    simp only [List.cons_append, Lexeme.tokensFrom, ih, List.flatMap_cons, Position.after_append]

lemma tokensAfter_eq_tokensFrom (e : Ending) (p : Position) (ls₁ ls₂ : List Lexeme) :
    e.tokensAfter p (ls₁ ++ ls₂) = Lexeme.tokensFrom p ls₁ ++
      e.tokensAfter (p.after (ls₁.flatMap Lexeme.text)) ls₂ := by
  induction ls₁ generalizing p with
  | nil => rfl
  | cons l ls₁ ih =>
    rw [List.cons_append, tokensAfter_cons, ih, List.flatMap_cons, Position.after_append]
    rfl

/-- The tokens of lexemes stand in front of the place behind them. -/
lemma before_of_mem_tokensFrom (before : Text) (hls : ∀ l ∈ ls, l.word.WrittenAs l.spelling)
    (ht : t ∈ Lexeme.tokensFrom before.place ls) :
    ¬ t.span.last.Before t.span.first ∧
      t.span.last.Before (Text.place (before ++ ls.flatMap Lexeme.text)) := by
  induction ls generalizing before with
  | nil => cases ht
  | cons l ls ih =>
    obtain ⟨hl, hls⟩ := List.forall_mem_cons.1 hls
    rw [List.flatMap_cons, ← List.append_assoc]
    rcases List.mem_cons.1 ht with rfl | ht
    · have hstands := standsAt_tokenAt before hl
      have hbehind := hstands.before_place.after (ls.flatMap Lexeme.text)
      rw [List.append_assoc, ← Lexeme.text, ← Text.place_append] at hbehind
      exact ⟨hstands.not_before, hbehind⟩
    · rw [← Text.place_append] at ht
      exact ih _ hls ht

/-- All tokens behind a position begin there or later. -/
lemma exists_first_of_mem_tokensAfter (ht : t ∈ e.tokensAfter p ls) :
    ∃ u : Text, t.span.first = p.after u := by
  induction ls generalizing p with
  | nil =>
    cases e with
    | clean gap =>
      obtain rfl := List.mem_singleton.1 ht
      exact ⟨gap, rfl⟩
    | fault f before read rest =>
      rcases List.mem_pair.1 ht with rfl | rfl
      · exact ⟨before, rfl⟩
      · exact ⟨before ++ read, (p.after_append before read).symm⟩
  | cons l ls ih =>
    rw [tokensAfter_cons, List.mem_cons] at ht
    rcases ht with rfl | ht
    · exact ⟨l.gap, rfl⟩
    · obtain ⟨u, hu⟩ := ih ht
      exact ⟨l.text ++ u, by rw [hu, Position.after_append]⟩

lemma exists_tokenAt_of_mem_tokensFrom (ht : t ∈ Lexeme.tokensFrom p ls) :
    ∃ ls₁ l ls₂, ls = ls₁ ++ l :: ls₂ ∧ t = l.tokenAt (p.after (ls₁.flatMap Lexeme.text)) := by
  induction ls generalizing p with
  | nil => cases ht
  | cons l ls ih =>
    rcases List.mem_cons.1 ht with rfl | ht
    · exact ⟨[], l, ls, rfl, rfl⟩
    · obtain ⟨ls₁, l', ls₂, rfl, rfl⟩ := ih ht
      refine ⟨l :: ls₁, l', ls₂, rfl, ?_⟩
      rw [List.flatMap_cons, Position.after_append]

/-- The tokens of an ending are a fault and the end of the input. -/
lemma mem_tokens_ending (ht : t ∈ e.tokens p) (hend : t.kind ≠ .endOfInput) :
    ∃ f before read rest, e = .fault f before read rest ∧
      t = ⟨.fault, f.message, .point (p.after before)⟩ := by
  cases e with
  | clean gap =>
    obtain rfl := List.mem_singleton.1 ht
    exact absurd rfl hend
  | fault f before read rest =>
    rcases List.mem_pair.1 ht with rfl | rfl
    · exact ⟨f, before, read, rest, rfl, rfl⟩
    · exact absurd rfl hend

/-- A token that is neither a fault nor the end of the input is the token of a lexeme. -/
lemma exists_tokenAt_of_mem (ht : t ∈ e.tokensAfter p ls) (hfault : t.kind ≠ .fault)
    (hend : t.kind ≠ .endOfInput) : ∃ ls₁ l ls₂, ls = ls₁ ++ l :: ls₂ ∧
      t = l.tokenAt (p.after (ls₁.flatMap Lexeme.text)) := by
  rw [← ls.append_nil, tokensAfter_eq_tokensFrom, List.mem_append] at ht
  rcases ht with ht | ht
  · exact exists_tokenAt_of_mem_tokensFrom ht
  · obtain ⟨f, before, read, rest, -, rfl⟩ := mem_tokens_ending ht hend
    exact absurd rfl hfault

/-! ### The tokens of a text -/

lemma Laid.written (h : Laid ctx ls r) : ∀ l ∈ ls, l.word.WrittenAs l.spelling := by
  induction h with
  | nil => simp
  | cons _ hword _ _ _ ih => exact List.forall_mem_cons.2 ⟨hword, ih⟩

/-- Only the code point behind the lexemes counts. -/
lemma Laid.congr (h : Laid ctx ls r)
    (hr : ∀ k : TokenKind, Text.StopsAt k.continuedBy r → Text.StopsAt k.continuedBy r') :
    Laid ctx ls r' := by
  induction h with
  | nil => exact .nil
  | @cons ctx l ls r hgap hword hctx hstop h ih =>
    refine .cons hgap hword hctx ?_ (ih hr)
    cases h with
    | nil => exact hr l.kind hstop
    | cons hgap' hword' =>
      rw [List.flatMap_cons, List.append_assoc, stopsAt_text_append_iff hgap' hword'] at hstop ⊢
      exact hstop

lemma Laid.of_head?_eq (h : Laid ctx ls r) (hr : r'.head? = r.head?) :
    Laid ctx ls r' :=
  h.congr fun _ hstop c hc => hstop c (hr ▸ hc)

/-- The tokens of lexemes in front of a text, and those of the rest. -/
lemma Text.tokens_append (h : Laid .ordinary ls r) :
    tokens (ls.flatMap Lexeme.text ++ r) = Lexeme.tokensFrom .start ls ++
      (r.cutFrom (Context.ordinary.behind (ls.map Lexeme.kind))).ending.tokensAfter
        (Text.place (ls.flatMap Lexeme.text))
        (r.cutFrom (Context.ordinary.behind (ls.map Lexeme.kind))).lexemes := by
  rw [tokens, cut, cutFrom_append h, Cutting.tokens, tokensAfter_eq_tokensFrom,
    Position.start_after]

/-- In front of a token of a lexeme stand whole lexemes. -/
lemma Text.exists_laid_of_mem (ht : t ∈ s.tokens) (hfault : t.kind ≠ .fault)
    (hend : t.kind ≠ .endOfInput) : ∃ ls l r, s = (ls ++ [l]).flatMap Lexeme.text ++ r ∧
      Laid .ordinary (ls ++ [l]) r ∧ t = l.tokenAt (Text.place (ls.flatMap Lexeme.text)) := by
  obtain ⟨ls₁, l, ls₂, hls, rfl⟩ := exists_tokenAt_of_mem (p := Position.start) ht hfault hend
  have hlaid : Laid .ordinary s.cut.lexemes s.cut.ending.text := (laid_cutFrom .ordinary s).1
  have htext : s.cut.lexemes.flatMap Lexeme.text ++ s.cut.ending.text = s := Cutting.text_cut s
  have hsplit : ls₁ ++ l :: ls₂ = (ls₁ ++ [l]) ++ ls₂ := by simp
  rw [hls, hsplit] at hlaid htext
  rw [List.flatMap_append, List.append_assoc] at htext
  exact ⟨ls₁, l, _, htext.symm, (Laid.append_iff.1 hlaid).1, by rw [Position.start_after]⟩

/-- The token of a lexeme is the only one at its place. -/
lemma Text.tokens_inj_of_span (h : Laid .ordinary (ls ++ [l]) r)
    (hs : tokens ((ls ++ [l]).flatMap Lexeme.text ++ r) = us ++ t :: vs)
    (hspan : t.span = (l.tokenAt (Text.place (ls.flatMap Lexeme.text))).span) :
    us = Lexeme.tokensFrom .start ls ∧ t = l.tokenAt (Text.place (ls.flatMap Lexeme.text)) := by
  have hfront : Lexeme.tokensFrom .start (ls ++ [l]) = Lexeme.tokensFrom .start ls ++
      [l.tokenAt (Text.place (ls.flatMap Lexeme.text))] := by
    rw [tokensFrom_append, Position.start_after]
    rfl
  rw [tokens_append h, hfront, List.append_assoc, List.singleton_append] at hs
  have hwritten := h.written
  have hstands := standsAt_tokenAt (ls.flatMap Lexeme.text) (hwritten l (by simp))
  -- neither in front of the token nor behind it there is one with its span
  have hbefore : t ∉ Lexeme.tokensFrom .start ls := by
    intro ht
    obtain ⟨hself, hplace⟩ := before_of_mem_tokensFrom []
      (fun l' hl' => hwritten l' (List.mem_append_left _ hl')) ht
    have hgap := hplace.after l.gap
    rw [List.nil_append, ← place_append, ← hstands.first, ← hspan] at hgap
    exact hself hgap
  have hbehind : ∀ k : Cutting, t ∉ k.ending.tokensAfter
      (Text.place ((ls ++ [l]).flatMap Lexeme.text)) k.lexemes := by
    intro k ht
    obtain ⟨u, hu⟩ := exists_first_of_mem_tokensAfter ht
    rw [List.flatMap_append, List.flatMap_singleton, hspan] at hu
    have hplace := hstands.before_place.after u
    rw [List.append_assoc, ← Lexeme.text, ← hu] at hplace
    exact hstands.not_before hplace
  obtain ⟨rfl, rfl, -⟩ := (List.append_cons_inj_of_notMem hbefore (hbehind _)).1 hs
  exact ⟨rfl, rfl⟩

/-- Tokens follow one another up to the end of the input, also if the last of them is a fault. -/
lemma Text.exists_pairwise (s : Text) : ∃ us stop, s.tokens = us ++ [stop] ∧
    stop.kind = .endOfInput ∧ us.Pairwise (fun t t' => t.span.Before t'.span) ∧
      ∀ t ∈ us, ¬ t.span.Before t.span := by
  have hwritten := (laid_cutFrom .ordinary s).1.written
  rw [← cut] at hwritten
  have htokens := tokensAfter_eq_tokensFrom s.cut.ending .start s.cut.lexemes []
  rw [List.append_nil, Position.start_after] at htokens
  have hpairwise : ((Ending.clean []).tokensAfter (Text.place []) s.cut.lexemes).Pairwise
      fun t t' => t.span.last.Before t'.span.first := (pairwise_tokensAfter hwritten []).2
  rw [← List.append_nil s.cut.lexemes, tokensAfter_eq_tokensFrom] at hpairwise
  have hbefore {t : Token} (ht : t ∈ Lexeme.tokensFrom .start s.cut.lexemes) :=
    before_of_mem_tokensFrom [] hwritten ht
  rw [tokens, Cutting.tokens, htokens]
  cases s.cut.ending with
  | clean gap =>
    exact ⟨Lexeme.tokensFrom .start s.cut.lexemes, ⟨.endOfInput, [], _⟩, rfl, rfl,
      (List.pairwise_append.1 hpairwise).1, fun t ht => (hbefore ht).1⟩
  | fault f before read rest =>
    let q := (Text.place (s.cut.lexemes.flatMap Lexeme.text)).after before
    refine ⟨Lexeme.tokensFrom .start s.cut.lexemes ++ [⟨.fault, f.message, .point q⟩],
      ⟨.endOfInput, [], .upTo (q.after read) (q.after read)⟩, ?_, rfl, ?_, ?_⟩
    · rw [List.append_assoc]
      rfl
    · refine List.pairwise_append.2 ⟨(List.pairwise_append.1 hpairwise).1,
        List.pairwise_singleton _ _, fun t ht t' ht' => ?_⟩
      -- the fault stands behind the lexemes and what was read in front of it
      obtain rfl := List.mem_singleton.1 ht'
      exact (hbefore ht).2.after before
    · rw [List.forall_mem_append]
      refine ⟨fun t ht => (hbefore ht).1, fun t ht => ?_⟩
      obtain rfl := List.mem_singleton.1 ht
      exact Position.not_before_self _

/-! ### Faults -/

lemma Literal.Body.prepend_eq_badEscape {f : Fault} {c : CodePoint} {w read rest : Text}
    {b : Literal.Body} (h : b.prepend c w = .badEscape f before read rest) :
    ∃ before', b = .badEscape f before' read rest := by
  cases b with
  | closed => cases h
  | unclosed => cases h
  | badEscape f' before' read' rest' =>
    obtain ⟨rfl, -, rfl, rfl⟩ := Literal.Body.badEscape.inj h
    exact ⟨before', rfl⟩

/-- A wrong escape begins with its backslash. -/
lemma Literal.head_of_badEscape {f : Fault} {read rest : Text}
    (h : Literal.readBody s = .badEscape f before read rest) : ∃ u, read = .scalar '\\' :: u := by
  induction hn : s.length using Nat.strong_induction_on generalizing s before with
  | _ n ih =>
  have hmore {c : CodePoint} {w r : Text} (hr : r.length < s.length)
      (h : (Literal.readBody r).prepend c w = .badEscape f before read rest) :
      ∃ u, read = .scalar '\\' :: u := by
    obtain ⟨before', h⟩ := Literal.Body.prepend_eq_badEscape h
    exact ih _ (hn ▸ hr) h rfl
  cases s with
  | nil => cases h
  | cons c r =>
    unfold readBody at h
    split at h
    · cases h
    split at h
    · cases h
    split at h
    · next hc =>
      subst hc
      repeat' split at h
      all_goals first
        | exact hmore (by simp only [List.length_cons]; omega) h
        | cases h; exact ⟨_, rfl⟩
    · exact hmore (by simp) h

/-- At a fault stands a code point that is no blank. -/
lemma Lexeme.exists_head_of_fault {f : Fault} {c : CodePoint} {read rest : Text}
    (hc : c.isBlank = false) (h : Lexeme.read ctx c r = .fault f before read rest) :
    ∃ d u, read ++ rest = d :: u ∧ d.isBlank = false := by
  unfold Lexeme.read at h
  split at h
  · unfold readPackage at h
    simp only at h
    split at h
    · cases h
      exact ⟨c, r, rfl, hc⟩
    · split at h <;> cases h
      exact ⟨c, r, List.takeWhile_append_dropWhile, hc⟩
  split at h
  · unfold readString at h
    split at h <;> cases h
    · exact ⟨c, _, rfl, hc⟩
    · next hbody =>
      obtain ⟨u, rfl⟩ := Literal.head_of_badEscape hbody
      exact ⟨_, u ++ rest, rfl, by decide⟩
  split at h
  · unfold readWord at h
    split at h <;> cases h
    exact ⟨c, r, rfl, hc⟩
  · split at h <;> cases h
    exact ⟨c, r, rfl, hc⟩

lemma Trivia.not_isBlank_of_first {c : CodePoint} (h : Trivia.first (c :: r) = .none) :
    c.isBlank = false := by
  by_contra hc
  rw [Trivia.first_blank (by simpa using hc)] at h
  cases h

lemma Trivia.head_of_unclosed (h : Trivia.first s = .unclosed) : ∃ u, s = .scalar '/' :: u := by
  cases s with
  | nil => cases h
  | cons c r =>
    by_cases hblank : c.isBlank
    · rw [Trivia.first_blank hblank] at h
      cases h
    · by_cases hslash : c = .scalar '/'
      · exact ⟨r, by rw [hslash]⟩
      · rw [Text.first_eq_none (by simpa using hblank) hslash] at h
        cases h

/-- Skipping stops in front of what is no trivia, or at a comment that is never closed. -/
lemma Trivia.skip_cases (s : Text) :
    (∃ w rest, skip s = .clear w rest ∧ first rest = .none) ∨
      ∃ w rest, skip s = .unclosed w rest ∧ first rest = .unclosed := by
  fun_induction skip s with
  | case1 s h => exact .inl ⟨[], s, rfl, h⟩
  | case2 s h => exact .inr ⟨[], s, rfl, h⟩
  | case3 s v r _ ih =>
    rcases ih with ⟨w, rest, hskip, h⟩ | ⟨w, rest, hskip, h⟩
    · exact .inl ⟨v ++ w, rest, by rw [hskip]; rfl, h⟩
    · exact .inr ⟨v ++ w, rest, by rw [hskip]; rfl, h⟩

lemma Cutting.exists_head_of_fault {f : Fault} {read rest : Text}
    (h : Cutting.step ctx s = .done (.fault f before read rest)) :
    ∃ d u, read ++ rest = d :: u ∧ d.isBlank = false := by
  rcases Trivia.skip_cases s with ⟨w, r, hskip, hfirst⟩ | ⟨w, r, hskip, hfirst⟩
  · cases r with
    | nil =>
      simp only [step, hskip] at h
      cases h
    | cons c r =>
      simp only [step, hskip] at h
      split at h <;> cases h
      next hread => exact Lexeme.exists_head_of_fault (Trivia.not_isBlank_of_first hfirst) hread
  · simp only [step, hskip] at h
    cases h
    obtain ⟨u, rfl⟩ := Trivia.head_of_unclosed hfirst
    exact ⟨_, _, rfl, Trivia.not_isBlank_slash⟩

/-! ### Pieces -/

/-- A fault is a single position, and a code point stands there that is no blank. -/
lemma Text.exists_of_mem_fault (ht : t ∈ s.tokens) (hfault : t.kind = .fault) :
    ∃ before c after, s = before ++ c :: after ∧ c.isBlank = false ∧
      t.span = .point (Text.place before) := by
  have htext : s.cut.lexemes.flatMap Lexeme.text ++ s.cut.ending.text = s := Cutting.text_cut s
  have hlaid := laid_cutFrom .ordinary s
  rw [← cut] at hlaid
  rw [tokens, Cutting.tokens, ← s.cut.lexemes.append_nil, tokensAfter_eq_tokensFrom,
    List.mem_append] at ht
  generalize s.cut = k at *
  rcases ht with ht | ht
  · obtain ⟨ls₁, l, ls₂, hls, rfl⟩ := exists_tokenAt_of_mem_tokensFrom ht
    exact absurd hfault (hlaid.1.kind_ne l (by simp [hls])).1
  · obtain ⟨f, before, read, rest, hending, rfl⟩ := mem_tokens_ending ht (by simp [hfault])
    rw [hending] at hlaid htext
    obtain ⟨c, u, hc, hblank⟩ := Cutting.exists_head_of_fault hlaid.2
    refine ⟨k.lexemes.flatMap Lexeme.text ++ before, c, u, ?_, hblank, ?_⟩
    · rw [← htext, Ending.text, List.append_assoc before, hc, List.append_assoc]
    · rw [place_append, Position.start_after]

/-- Every token but the end of the input stands at a piece of the text: a fault at one code point,
and any other token at its spelling. -/
lemma Text.exists_standsAt (ht : t ∈ s.tokens) (hend : t.kind ≠ .endOfInput) :
    ∃ before piece after, s = before ++ piece ++ after ∧ t.StandsAt before piece ∧
      if t.kind = .fault then ∃ c, piece = [c] ∧ c.isBlank = false
      else t.word.WrittenAs piece := by
  by_cases hfault : t.kind = .fault
  · obtain ⟨before, c, after, rfl, hc, hspan⟩ := exists_of_mem_fault ht hfault
    have hbreak : CodePoint.scalar '\n' ∉ [c] := by
      rw [List.mem_singleton]
      rintro rfl
      exact absurd hc (by decide)
    refine ⟨before, [c], after, by simp, ⟨by simp, hbreak, by rw [hspan]; rfl, ?_⟩, ?_⟩
    · simp [hspan, Span.point]
    · rw [if_pos hfault]
      exact ⟨c, rfl, hc⟩
  · obtain ⟨ls, l, r, rfl, hlaid, rfl⟩ := exists_laid_of_mem ht hfault hend
    have hl := hlaid.written l (by simp)
    refine ⟨ls.flatMap Lexeme.text ++ l.gap, l.spelling, r, ?_, standsAt_tokenAt _ hl, ?_⟩
    · simp [Lexeme.text]
    · rwa [if_neg hfault]

end Idl
