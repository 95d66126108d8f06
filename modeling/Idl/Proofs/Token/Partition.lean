/-
# The tokens partition their text

The tokens of a text end with the end of the input, and a fault can only stand directly in front
of it.  Without a fault the text is cut up completely: nothing but trivia lies between the
tokens, each token is as long as it can be, and its span tells where its spelling stands
(`Text.tokens_partition`).
-/
import Idl.Proofs.Token.Layout
import Mathlib.Data.List.DropRight

namespace Idl

/-- One position comes before another in a text. -/
def Position.Before (p q : Position) : Prop :=
  p.line < q.line ∨ p.line = q.line ∧ p.column < q.column

/-- The place behind a text, told by its line breaks alone. -/
def Text.place (t : Text) : Position :=
  ⟨1 + t.count (.scalar '\n'), 1 + (t.rtakeWhile (· ≠ .scalar '\n')).length⟩

/-- A token stands for a lexeme between two parts of a text. -/
structure Lexeme.Shown (l : Lexeme) (t : Token) (before after : Text) : Prop where
  /-- The token has the kind and the value of the lexeme. -/
  word : t.word = l.word
  /-- The spelling is a spelling of the token. -/
  written : l.word.WrittenAs l.spelling
  /-- A word is a reserved word or a name, by its letters and the case of the first one. -/
  sort : l.kind ≠ .packageName → ∀ c ∈ l.spelling.head?, c.isLetter →
    (∃ w : Keyword, l.spelling = w.spelling ∧ l.kind = .keyword w) ∨
      (∀ w : Keyword, l.spelling ≠ w.spelling) ∧
        l.kind = if c.isUppercase then .upperName else .lowerName
  /-- Nothing that follows would make a longer spelling of a token. -/
  longest : ∀ u : Text, u <+: after → u ≠ [] → ∀ w : Word, w.WrittenAs (l.spelling ++ u) →
    ¬ (w.1 = .packageName ↔ l.kind = .packageName)
  /-- The spelling stands on one line. -/
  line : .scalar '\n' ∉ l.spelling
  /-- The span begins behind the text in front. -/
  first : t.span.first = before.place
  /-- The span is as long as the spelling, which is not empty. -/
  last : t.span.last = ⟨t.span.first.line, t.span.first.column + l.spelling.length - 1⟩

/-- The tokens of a text cut it up into lexemes, with trivia at its end. -/
structure Partition (s : Text) (ls : List Lexeme) (last : Text) : Prop where
  /-- The lexemes and the trivia behind them make up the text. -/
  text : s = ls.flatMap Lexeme.text ++ last
  /-- There is nothing but trivia in front of each token. -/
  gap : ∀ l ∈ ls, Trivia.Complete l.gap
  /-- There is nothing but trivia behind the last token. -/
  final : Trivia.Final last
  /-- Every token but the end of the input has a lexeme. -/
  length : s.tokens.length = ls.length + 1
  /-- Each token stands for its lexeme. -/
  shown : ∀ ls₁ l ls₂, ls = ls₁ ++ l :: ls₂ → ∃ t, s.tokens[ls₁.length]? = some t ∧
    l.Shown t (ls₁.flatMap Lexeme.text ++ l.gap) (ls₂.flatMap Lexeme.text ++ last)
  /-- Each span ends before the next one begins. -/
  increasing : s.tokens.Pairwise fun t t' => t.span.last.Before t'.span.first

variable {ctx : Context} {c : CodePoint} {l : Lexeme} {ls : List Lexeme} {t : Token}
  {us : List Token} {last r s u : Text}

/-! ### Positions -/

namespace Position

variable {p q : Position}

lemma after_append (p : Position) (t u : Text) : p.after (t ++ u) = (p.after t).after u :=
  List.foldl_append

/-- The position behind a text is told by its line breaks. -/
lemma start_after (t : Text) : start.after t = t.place := by
  induction t using List.reverseRecOn with
  | nil => rfl
  | append_singleton t c ih =>
    have hstep : start.after (t ++ [c]) = (Text.place t).step c := by
      rw [after_append, ih]
      rfl
    rw [hstep, step, Text.place, Text.place, List.rtakeWhile_concat, List.count_append]
    by_cases hc : c = .scalar '\n'
    · simp [hc]
      omega
    · simp [hc]
      omega

/-- Within a line only the column changes. -/
lemma after_of_not_mem (h : .scalar '\n' ∉ u) : p.after u = ⟨p.line, p.column + u.length⟩ := by
  induction u generalizing p with
  | nil => simp [after]
  | cons c u ih =>
    rw [List.mem_cons, not_or] at h
    have hstep : p.step c = ⟨p.line, p.column + 1⟩ := by
      rw [step, if_neg (Ne.symm h.1)]
    show (p.step c).after u = _
    rw [ih h.2, hstep]
    simp only [List.length_cons, mk.injEq, true_and]
    omega

lemma Before.trans {r : Position} (hpq : p.Before q) (hqr : q.Before r) : p.Before r := by
  unfold Before at *
  omega

lemma before_step (p : Position) (c : CodePoint) : p.Before (p.step c) := by
  unfold Before step
  split
  · exact .inl (by simp only; omega)
  · exact .inr ⟨rfl, by simp only; omega⟩

lemma eq_or_before_after (p : Position) (t : Text) : p = p.after t ∨ p.Before (p.after t) := by
  induction t generalizing p with
  | nil => exact .inl rfl
  | cons c t ih =>
    have hstep := before_step p c
    rcases ih (p.step c) with h | h
    · exact .inr (h ▸ hstep)
    · exact .inr (hstep.trans h)

/-- What comes before a position comes before every later one. -/
lemma Before.after (h : p.Before q) (t : Text) : p.Before (q.after t) := by
  rcases eq_or_before_after q t with heq | hlt
  · rwa [← heq]
  · exact h.trans hlt

lemma before_after (p : Position) (h : u ≠ []) : p.Before (p.after u) := by
  obtain ⟨c, t, rfl⟩ := List.exists_cons_of_ne_nil h
  exact (before_step p c).after t

lemma one_le_column_place (t : Text) : 1 ≤ t.place.column := by
  simp only [Text.place]
  omega

end Position

/-! ### Spellings -/

lemma Keyword.ofText?_eq_none_iff {t : Text} :
    Keyword.ofText? t = none ↔ ∀ w : Keyword, t ≠ w.spelling := by
  have hall : ∀ w : Keyword, w ∈ Keyword.all := by
    intro w
    cases w <;> decide
  rw [Keyword.ofText?, List.find?_eq_none]
  constructor
  · intro h w hw
    exact h w (hall w) (by simp [hw])
  · intro h w _ hw
    exact h w (by simpa [eq_comm] using hw)

lemma Word.WrittenAs.break_not_mem {k : TokenKind} {value spelling : Text}
    (h : Word.WrittenAs (k, value) spelling) : .scalar '\n' ∉ spelling := by
  have hbreak : CodePoint.isAlphanumeric (.scalar '\n') = false := by decide
  have hword {t : Text} (ht : ∀ c ∈ t, c.isAlphanumeric) : .scalar '\n' ∉ t := by
    intro hmem
    rw [ht _ hmem] at hbreak
    cases hbreak
  cases h with
  | keyword w => cases w <;> decide
  | mark m => cases m <;> decide
  | lowerName ht | upperName ht => exact hword ht.isAlphanumeric
  | packageName ht =>
    intro hmem
    exact absurd (ht.isPackagePoint _ hmem) (by decide)
  | string h => simpa using h.break_not_mem

lemma Word.WrittenAs.sort {k : TokenKind} {value spelling : Text}
    (h : Word.WrittenAs (k, value) spelling) (hk : k ≠ .packageName)
    (hc : c ∈ spelling.head?) (hletter : c.isLetter) :
    (∃ w : Keyword, spelling = w.spelling ∧ k = .keyword w) ∨
      (∀ w : Keyword, spelling ≠ w.spelling) ∧
        k = if c.isUppercase then .upperName else .lowerName := by
  cases h with
  | keyword w => exact .inl ⟨w, rfl, rfl⟩
  | mark m =>
    obtain rfl := Option.some.inj hc
    have hmark : CodePoint.isLetter (.scalar m.symbol) = false := by cases m <;> decide
    rw [hmark] at hletter
    cases hletter
  | lowerName ht =>
    obtain ⟨t, rfl⟩ := List.head?_eq_some_iff.1 hc
    obtain ⟨-, hlower, -, hword⟩ := ht
    refine .inr ⟨Keyword.ofText?_eq_none_iff.1 hword, ?_⟩
    rw [CodePoint.not_isUppercase_of_isLowercase hlower, if_neg Bool.false_ne_true]
  | upperName ht =>
    obtain ⟨t, rfl⟩ := List.head?_eq_some_iff.1 hc
    obtain ⟨-, hupper, -, hword⟩ := ht
    exact .inr ⟨Keyword.ofText?_eq_none_iff.1 hword, by rw [if_pos hupper]⟩
  | packageName => exact absurd rfl hk
  | string =>
    obtain rfl := Option.some.inj hc
    exact absurd hletter (by decide)

/-- Two spellings cannot begin at one place, if the shorter one is not continued. -/
lemma Word.WrittenAs.longest {k : TokenKind} {value spelling : Text} {w : Word}
    (h : Word.WrittenAs (k, value) spelling) (hr : r.StopsAt k.continuedBy) (hu : u <+: r)
    (hne : u ≠ []) (hw : w.WrittenAs (spelling ++ u)) :
    ¬ (w.1 = .packageName ↔ k = .packageName) := by
  intro hpackage
  let ctx : Context := if k = .packageName then .package else .ordinary
  have hctx : k = .packageName ↔ ctx = .package := by
    simp only [ctx]
    split <;> simp_all
  obtain ⟨v, rfl⟩ := hu
  have hend : Text.StopsAt w.1.continuedBy [] := fun _ hc => nomatch hc
  -- both spellings would be read in front of the same text
  obtain ⟨c, t, hspelling, -, hread⟩ := h.exists_read hctx ((stopsAt_append_iff hne v).1 hr)
  obtain ⟨c', t', hspelling', -, hread'⟩ :=
    hw.exists_read (hpackage.trans hctx) hend
  rw [hspelling, List.cons_append] at hspelling'
  obtain ⟨rfl, rfl⟩ := List.cons.inj hspelling'
  rw [List.append_nil, hread] at hread'
  exact hne (Lexeme.Reading.token.inj hread').2.2.2

/-! ### The tokens of lexemes -/

/-- The token of a lexeme that begins at a position. -/
def Lexeme.tokenAt (p : Position) (l : Lexeme) : Token :=
  ⟨l.kind, l.value, Span.upTo (p.after l.gap) (p.after l.text)⟩

lemma tokensAfter_cons (e : Ending) (p : Position) (l : Lexeme) (ls : List Lexeme) :
    e.tokensAfter p (l :: ls) = l.tokenAt p :: e.tokensAfter (p.after l.text) ls := by
  simp only [Ending.tokensAfter, Lexeme.tokenAt, Lexeme.text, Position.after_append]

lemma tokensAfter_append (e : Ending) (p : Position) (ls₁ ls₂ : List Lexeme) :
    ∃ us, us.length = ls₁.length ∧ e.tokensAfter p (ls₁ ++ ls₂) =
      us ++ e.tokensAfter (p.after (ls₁.flatMap Lexeme.text)) ls₂ := by
  induction ls₁ generalizing p with
  | nil => exact ⟨[], rfl, rfl⟩
  | cons l ls₁ ih =>
    obtain ⟨us, hlength, hus⟩ := ih (p.after l.text)
    refine ⟨l.tokenAt p :: us, by simp [hlength], ?_⟩
    rw [List.cons_append, tokensAfter_cons, hus, List.flatMap_cons, Position.after_append]
    rfl

lemma span_tokenAt (before : Text) (hl : l.word.WrittenAs l.spelling) :
    (l.tokenAt before.place).span = ⟨(before ++ l.gap).place,
      ⟨(before ++ l.gap).place.line, (before ++ l.gap).place.column + l.spelling.length - 1⟩⟩ := by
  have hcolumn := Position.one_le_column_place (before ++ l.gap)
  have hlength : 0 < l.spelling.length := List.length_pos_iff.2 hl.ne_nil
  have hfirst : before.place.after l.gap = (before ++ l.gap).place := by
    rw [← Position.start_after, ← Position.start_after, Position.after_append]
  have hstop : before.place.after l.text = ⟨(before ++ l.gap).place.line,
      (before ++ l.gap).place.column + l.spelling.length⟩ := by
    rw [Lexeme.text, Position.after_append, hfirst, Position.after_of_not_mem hl.break_not_mem]
  simp only [Lexeme.tokenAt, hfirst, hstop, Span.upTo]
  rw [if_pos (by omega)]

/-- The spans of tokens are passed one after another. -/
lemma pairwise_tokensAfter (hls : ∀ l ∈ ls, l.word.WrittenAs l.spelling) (before : Text) :
    (∀ t ∈ (Ending.clean last).tokensAfter before.place ls,
      ∀ p : Position, p.Before before.place → p.Before t.span.first) ∧
    ((Ending.clean last).tokensAfter before.place ls).Pairwise
      fun t t' => t.span.last.Before t'.span.first := by
  induction ls generalizing before with
  | nil =>
    refine ⟨fun t ht p hp => ?_, List.pairwise_singleton _ _⟩
    obtain rfl := List.mem_singleton.1 ht
    exact hp.after last
  | cons l ls ih =>
    obtain ⟨hl, hls⟩ := List.forall_mem_cons.1 hls
    have hplace : before.place.after l.text = (before ++ l.text).place := by
      rw [← Position.start_after, ← Position.start_after, Position.after_append]
    obtain ⟨hlater, hpairwise⟩ := ih hls (before ++ l.text)
    rw [tokensAfter_cons, hplace]
    constructor
    · rw [List.forall_mem_cons]
      refine ⟨fun p hp => hp.after l.gap, fun t ht p hp => hlater t ht p ?_⟩
      rw [← hplace]
      exact hp.after l.text
    · refine List.pairwise_cons.2 ⟨fun t ht => hlater t ht _ ?_, hpairwise⟩
      -- the last code point of the spelling comes before the place behind the spelling
      have hstop : (before ++ l.text).place = ⟨(before ++ l.gap).place.line,
          (before ++ l.gap).place.column + l.spelling.length⟩ := by
        rw [Lexeme.text, ← List.append_assoc, ← Position.start_after, Position.after_append,
          Position.start_after, Position.after_of_not_mem hl.break_not_mem]
      rw [span_tokenAt _ hl, hstop]
      exact .inr ⟨rfl, by simp only; omega⟩

/-! ### The tokens of a text -/

lemma Word.WrittenAs.kind_ne {k : TokenKind} {value spelling : Text}
    (h : Word.WrittenAs (k, value) spelling) : k ≠ .fault ∧ k ≠ .endOfInput := by
  cases h <;> simp

lemma Laid.kind_ne (h : Laid ctx ls r) : ∀ l ∈ ls, l.kind ≠ .fault ∧ l.kind ≠ .endOfInput := by
  induction h with
  | nil => simp
  | cons _ hword _ _ _ ih => exact List.forall_mem_cons.2 ⟨hword.kind_ne, ih⟩

/-- Package names stand exactly where they are called for. -/
lemma Laid.package_iff (h : Laid .ordinary ls r) {ks₁ ks₂ : List TokenKind} {k : TokenKind}
    (hks : ls.map Lexeme.kind = ks₁ ++ k :: ks₂) : k = .packageName ↔ CallsForPackage ks₁ := by
  obtain ⟨ls₁, ls₂, rfl, rfl, hls₂⟩ := List.map_eq_append_iff.1 hks
  obtain ⟨l, ls₂, rfl, rfl, -⟩ := List.map_eq_cons_iff.1 hls₂
  obtain ⟨-, _ | ⟨-, -, hctx, -, -⟩⟩ := Laid.append_iff.1 h
  exact hctx.trans behind_eq_package_iff

/-- A text without faults is cut up by its tokens. -/
lemma partition_of_cut (h : s.cut = ⟨ls, .clean last⟩) : Partition s ls last := by
  obtain ⟨htext, hlayout⟩ := Text.cut_eq_clean_iff.1 h
  have htokens : s.tokens = (Ending.clean last).tokensAfter (Text.place []) ls := by
    rw [Text.tokens, Cutting.tokens, h]
    rfl
  refine ⟨htext, hlayout.gap, hlayout.last, ?_, ?_, ?_⟩
  · obtain ⟨us, hlength, hus⟩ := tokensAfter_append (.clean last) (Text.place []) ls []
    rw [List.append_nil] at hus
    rw [htokens, hus, List.length_append, hlength]
    rfl
  · rintro ls₁ l ls₂ rfl
    obtain ⟨-, _ | ⟨-, hword, -, hstop, -⟩⟩ := Laid.append_iff.1 hlayout.laid
    obtain ⟨us, hlength, hus⟩ :=
      tokensAfter_append (.clean last) (Text.place []) ls₁ (l :: ls₂)
    have hplace : (Text.place []).after (ls₁.flatMap Lexeme.text) =
        Text.place (ls₁.flatMap Lexeme.text) := Position.start_after _
    rw [tokensAfter_cons, hplace] at hus
    have hspan := span_tokenAt (ls₁.flatMap Lexeme.text) hword
    refine ⟨l.tokenAt (Text.place (ls₁.flatMap Lexeme.text)), ?_, ?_⟩
    · rw [htokens, hus, ← hlength]
      simp
    · exact ⟨rfl, hword, fun hk c hc => hword.sort hk hc,
        fun u hu hne w hw => hword.longest hstop hu hne hw, hword.break_not_mem,
        by rw [hspan], by rw [hspan]⟩
  · rw [htokens]
    exact (pairwise_tokensAfter hlayout.written []).2

/-- The tokens of a text are those of its lexemes, and behind them those of its ending. -/
lemma Text.exists_tokens (s : Text) : ∃ us q, s.tokens = us ++ s.cut.ending.tokens q ∧
    us.map Token.kind = s.cut.lexemes.map Lexeme.kind ∧
      ∀ t ∈ us, t.kind ≠ .fault ∧ t.kind ≠ .endOfInput := by
  have hlaid : Laid .ordinary s.cut.lexemes s.cut.ending.text := (laid_cutFrom .ordinary s).1
  obtain ⟨us, q, hus, hwords⟩ := tokensAfter_eq s.cut.ending Position.start s.cut.lexemes
  have hkinds : us.map Token.kind = s.cut.lexemes.map Lexeme.kind := by
    have hfst := congrArg (List.map Prod.fst) hwords
    rw [List.map_map, List.map_map] at hfst
    exact hfst
  refine ⟨us, q, hus, hkinds, fun t ht => ?_⟩
  have hmem : t.kind ∈ s.cut.lexemes.map Lexeme.kind := hkinds ▸ List.mem_map_of_mem ht
  obtain ⟨l, hl, hkind⟩ := List.mem_map.1 hmem
  exact hkind ▸ hlaid.kind_ne l hl

/-- The tokens of a text end with the end of the input, and stand for lexemes before it, unless a
fault stands directly in front of it. -/
theorem Text.tokens_partition (s : Text) :
    ∃ us stop, s.tokens = us ++ [stop] ∧ stop.kind = .endOfInput ∧
      (∀ t ∈ us, t.kind ≠ .endOfInput) ∧
      (∀ us₁ t us₂, us = us₁ ++ t :: us₂ → t.kind ≠ .fault →
        (t.kind = .packageName ↔ CallsForPackage (us₁.map Token.kind))) ∧
      ((∃ us' f, us = us' ++ [f] ∧ f.kind = .fault ∧ ∀ t ∈ us', t.kind ≠ .fault) ∨
        (∀ t ∈ us, t.kind ≠ .fault) ∧ ∃ ls last, Partition s ls last) := by
  have hlaid : Laid .ordinary s.cut.lexemes s.cut.ending.text := (laid_cutFrom .ordinary s).1
  obtain ⟨us, q, htokens, hkinds, hne⟩ := exists_tokens s
  have hpackage : ∀ us₁ t us₂, us = us₁ ++ t :: us₂ →
      (t.kind = .packageName ↔ CallsForPackage (us₁.map Token.kind)) := by
    rintro us₁ t us₂ rfl
    rw [List.map_append, List.map_cons] at hkinds
    exact hlaid.package_iff hkinds.symm
  cases hending : s.cut.ending with
  | clean last =>
    rw [hending] at htokens
    refine ⟨us, _, htokens, rfl, fun t ht => (hne t ht).2,
      fun us₁ t us₂ h _ => hpackage us₁ t us₂ h, .inr ⟨fun t ht => (hne t ht).1,
        s.cut.lexemes, last, ?_⟩⟩
    exact partition_of_cut (by rw [← hending])
  | fault f before read rest =>
    rw [hending] at htokens
    obtain ⟨t, stop, ht, hstop, hfault⟩ : ∃ t stop, (Ending.fault f before read rest).tokens q =
        [t, stop] ∧ stop.kind = .endOfInput ∧ t.kind = .fault := ⟨_, _, rfl, rfl, rfl⟩
    refine ⟨us ++ [t], stop, by rw [htokens, ht]; simp, hstop, ?_, ?_,
      .inl ⟨us, t, rfl, hfault, fun t ht => (hne t ht).1⟩⟩
    · intro u hu
      rcases List.mem_append.1 hu with hu | hu
      · exact (hne u hu).2
      · rw [List.mem_singleton.1 hu, hfault]
        simp
    · intro us₁ u us₂ h hu
      -- the fault is the last of the tokens, so that every other one has a lexeme
      rcases List.eq_nil_or_concat us₂ with rfl | ⟨us₂, v, rfl⟩
      · obtain ⟨-, hlast⟩ := List.append_inj' h rfl
        rw [← List.singleton_inj.1 hlast] at hu
        exact absurd hfault hu
      · have hsplit : us ++ [t] = (us₁ ++ u :: us₂) ++ [v] := by simpa using h
        exact hpackage us₁ u us₂ (List.append_inj' hsplit rfl).1

end Idl
