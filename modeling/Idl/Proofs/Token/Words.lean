/-
# The words of a text

What the grammar looks at in a token is its kind and its value, and neither the trivia in front
of it nor its place.  This file follows the cutting of a text with only that in view: one
equation for each sort of token says what stands at the front of a text, and what is left.
The words of a whole text are those of its tokens (`Text.tokens_of_wordsFrom`).
-/
import Idl.Proofs.Text.Names
import Idl.Proofs.Token.Gaps
import Idl.Proofs.Token.Literal
import Idl.Token.Lexeme

namespace Idl

/-- The kind and the value of a token. -/
abbrev Word := TokenKind × Text

/-- The word of a token. -/
def Token.word (t : Token) : Word := (t.kind, t.value)

/-- The word of a lexeme. -/
def Lexeme.word (l : Lexeme) : Word := (l.kind, l.value)

/-- The word of a reserved word. -/
def Keyword.word (w : Keyword) : Word := (.keyword w, w.spelling)

/-- The word of a punctuation mark. -/
def Mark.word (m : Mark) : Word := (.mark m, [.scalar m.symbol])

/-- The words of the tokens that close a list. -/
def Ending.words : Ending → List Word
  | .clean _ => [(.endOfInput, [])]
  | .fault f _ _ _ => [(.fault, f.message), (.endOfInput, [])]

/-- The words of the tokens of a text that has been cut. -/
def Cutting.words (k : Cutting) : List Word := k.lexemes.map Lexeme.word ++ k.ending.words

/-- Puts trivia in front of an ending. -/
def Ending.prepend (w : Text) : Ending → Ending
  | .clean gap => .clean (w ++ gap)
  | .fault f before read rest => .fault f (w ++ before) read rest

namespace Cutting

/-- Puts trivia in front of what a step has found. -/
def Step.prepend (w : Text) : Step → Step
  | .lexeme l rest => .lexeme { l with gap := w ++ l.gap } rest
  | .done e => .done (e.prepend w)

/-- Puts trivia in front of a text that has been cut. -/
def prepend (w : Text) : Cutting → Cutting
  | ⟨[], e⟩ => ⟨[], e.prepend w⟩
  | ⟨l :: ls, e⟩ => ⟨{ l with gap := w ++ l.gap } :: ls, e⟩

lemma step_append (ctx : Context) {w : Text} (hw : Trivia.Complete w) (r : Text) :
    step ctx (w ++ r) = (step ctx r).prepend w := by
  rw [step, step, Trivia.skip_append hw]
  rcases Trivia.skip r with ⟨skipped, _ | ⟨c, r⟩⟩ | ⟨skipped, comment⟩
  · rfl
  · simp only [Trivia.Skip.prepend]
    rcases Lexeme.read ctx c r with ⟨k, value, spelling, rest⟩ | ⟨f, before, read, rest⟩
    · rfl
    · simp [Step.prepend, Ending.prepend]
  · rfl

end Cutting

namespace Text

/-- The word of a name or a reserved word. -/
def word (t : Text) : Word := (t.head?.elim .upperName (Lexeme.wordKind · t), t)

/-- The words of a text from a context on, if it is free of faults. -/
def wordsFrom (ctx : Context) (s : Text) : Option (List Word) :=
  match (s.cutFrom ctx).ending with
  | .clean _ => some ((s.cutFrom ctx).lexemes.map Lexeme.word)
  | .fault .. => none

/-- The text does not begin with a code point of a class. -/
def StopsAt (p : CodePoint → Bool) (s : Text) : Prop := ∀ c ∈ s.head?, p c = false

instance (p : CodePoint → Bool) : DecidablePred (StopsAt p) := fun s =>
  inferInstanceAs (Decidable (∀ c ∈ s.head?, p c = false))

variable {ctx : Context} {c : CodePoint} {r s t w : Text} {ws : List Word}

/-! ### The words at the front of a text -/

lemma cutFrom_of_lexeme {l : Lexeme} (h : Cutting.step ctx s = .lexeme l r) :
    s.cutFrom ctx =
      ⟨l :: (r.cutFrom (ctx.next l.kind)).lexemes, (r.cutFrom (ctx.next l.kind)).ending⟩ := by
  rw [cutFrom]
  split
  · next h' => rw [h] at h'; cases h'
  · next h' => rw [h] at h'; cases h'; rfl

lemma cutFrom_of_done {e : Ending} (h : Cutting.step ctx s = .done e) :
    s.cutFrom ctx = ⟨[], e⟩ := by
  rw [cutFrom]
  split
  · next h' => rw [h] at h'; cases h'; rfl
  · next h' => rw [h] at h'; cases h'

/-- What trivia are put in front of is never looked at again. -/
lemma cutFrom_append_complete (hw : Trivia.Complete w) (r : Text) :
    (w ++ r).cutFrom ctx = (r.cutFrom ctx).prepend w := by
  have hstep := Cutting.step_append ctx hw r
  cases h : Cutting.step ctx r with
  | lexeme l rest =>
    rw [h] at hstep
    rw [cutFrom_of_lexeme h, cutFrom_of_lexeme hstep]
    rfl
  | done e =>
    rw [h] at hstep
    rw [cutFrom_of_done h, cutFrom_of_done hstep]
    rfl

lemma wordsFrom_of_lexeme {l : Lexeme} (h : Cutting.step ctx s = .lexeme l r) :
    wordsFrom ctx s = (wordsFrom (ctx.next l.kind) r).map (l.word :: ·) := by
  simp only [wordsFrom, cutFrom_of_lexeme h]
  split <;> rfl

lemma wordsFrom_of_clean {gap : Text} (h : Cutting.step ctx s = .done (.clean gap)) :
    wordsFrom ctx s = some [] := by
  simp [wordsFrom, cutFrom_of_done h]

/-- A token at the front of a text, with no trivia in front of it, is cut off. -/
lemma step_of_read {k : TokenKind} {value spelling rest : Text}
    (hfirst : Trivia.first (c :: r) = .none)
    (h : Lexeme.read ctx c r = .token k value spelling rest) :
    Cutting.step ctx (c :: r) = .lexeme ⟨[], k, value, spelling⟩ rest := by
  have hskip : Trivia.skip (c :: r) = .clear [] (c :: r) := by
    rw [Trivia.skip]
    split
    · rfl
    · next h' => rw [hfirst] at h'; cases h'
    · next h' => rw [hfirst] at h'; cases h'
  rw [Cutting.step, hskip]
  simp only [h]

lemma wordsFrom_of_read {k : TokenKind} {value spelling rest : Text}
    (hfirst : Trivia.first (c :: r) = .none)
    (h : Lexeme.read ctx c r = .token k value spelling rest) :
    wordsFrom ctx (c :: r) = (wordsFrom (ctx.next k) rest).map ((k, value) :: ·) :=
  wordsFrom_of_lexeme (step_of_read hfirst h)

lemma first_eq_none (hblank : c.isBlank = false) (hslash : c ≠ .scalar '/') :
    Trivia.first (c :: r) = .none := by
  simp [Trivia.first, hblank, hslash]

/-- Trivia in front of a text make no difference to its words. -/
lemma wordsFrom_append (hw : Trivia.Complete w) (r : Text) :
    wordsFrom ctx (w ++ r) = wordsFrom ctx r := by
  unfold wordsFrom
  rw [cutFrom_append_complete hw]
  rcases r.cutFrom ctx with ⟨_ | ⟨l, ls⟩, _ | _⟩ <;> rfl

lemma wordsFrom_blank (hblank : c.isBlank) (r : Text) : wordsFrom ctx (c :: r) = wordsFrom ctx r :=
  wordsFrom_append (.blank hblank .nil) r

lemma wordsFrom_nil : wordsFrom ctx [] = some [] := by
  have hskip : Trivia.skip [] = .clear [] [] := by
    rw [Trivia.skip]
    rfl
  have hstep : Cutting.step ctx [] = .done (.clean []) := by simp only [Cutting.step, hskip]
  exact wordsFrom_of_clean hstep

lemma StopsAt.takeWhile {p : CodePoint → Bool} (h : s.StopsAt p) : s.takeWhile p = [] := by
  cases s with
  | nil => rfl
  | cons c r => rw [List.takeWhile_cons, h c rfl, if_neg Bool.false_ne_true]

lemma StopsAt.dropWhile {p : CodePoint → Bool} (h : s.StopsAt p) : s.dropWhile p = s := by
  cases s with
  | nil => rfl
  | cons c r => rw [List.dropWhile_cons, h c rfl, if_neg Bool.false_ne_true]

/-- A name or reserved word is read up to its end. -/
lemma read_letters (hctx : ctx ≠ .package) (hletter : c.isLetter)
    (hcased : c.isLowercase ∨ c.isUppercase) (ht : ∀ x ∈ t, x.isAlphanumeric)
    (hr : r.StopsAt CodePoint.isAlphanumeric) :
    Trivia.first (c :: t ++ r) = .none ∧
      Lexeme.read ctx c (t ++ r) = .token (Lexeme.wordKind c (c :: t)) (c :: t) (c :: t) r := by
  have halpha := CodePoint.isAlphanumeric_of_isLetter hletter
  have hquote : c ≠ .scalar '"' := CodePoint.ne_of_isAlphanumeric halpha (by decide)
  have hslash : c ≠ .scalar '/' := CodePoint.ne_of_isAlphanumeric halpha (by decide)
  have hcased : (c.isLowercase || c.isUppercase) = true := by simpa using hcased
  refine ⟨first_eq_none (CodePoint.not_isBlank_of_isAlphanumeric halpha) hslash, ?_⟩
  rw [Lexeme.read, if_neg hctx, if_neg hquote, if_pos hletter, Lexeme.readWord, if_pos hcased,
    List.takeWhile_append_of_pos ht, List.dropWhile_append_of_pos ht, hr.takeWhile, hr.dropWhile,
    List.append_nil]

/-- A name or reserved word at the front of a text, if it is not continued. -/
lemma wordsFrom_letters (hctx : ctx ≠ .package) (hletter : c.isLetter)
    (hcased : c.isLowercase ∨ c.isUppercase) (ht : ∀ x ∈ t, x.isAlphanumeric)
    (hr : r.StopsAt CodePoint.isAlphanumeric) :
    wordsFrom ctx (c :: t ++ r) =
      (wordsFrom (ctx.next (Lexeme.wordKind c (c :: t))) r).map (word (c :: t) :: ·) := by
  obtain ⟨hfirst, hread⟩ := read_letters hctx hletter hcased ht hr
  exact wordsFrom_of_read hfirst hread

/-- A punctuation mark is read by itself. -/
lemma read_mark (hctx : ctx ≠ .package) (m : Mark) (r : Text) :
    Trivia.first (.scalar m.symbol :: r) = .none ∧
      Lexeme.read ctx (.scalar m.symbol) r =
        .token (.mark m) [.scalar m.symbol] [.scalar m.symbol] r := by
  have hblank : CodePoint.isBlank (.scalar m.symbol) = false := by cases m <;> decide
  have hslash : CodePoint.scalar m.symbol ≠ .scalar '/' := by cases m <;> decide
  have hquote : ¬ CodePoint.scalar m.symbol = .scalar '"' := by cases m <;> decide
  have hletter : CodePoint.isLetter (.scalar m.symbol) = false := by cases m <;> decide
  have hmark : Mark.ofCodePoint? (.scalar m.symbol) = some m := by cases m <;> decide
  refine ⟨first_eq_none hblank hslash, ?_⟩
  simp only [Lexeme.read, if_neg hctx, if_neg hquote, hletter, hmark, Bool.false_eq_true,
    if_false]

/-- A punctuation mark at the front of a text. -/
lemma wordsFrom_mark (hctx : ctx ≠ .package) (m : Mark) (r : Text) :
    wordsFrom ctx (.scalar m.symbol :: r) =
      (wordsFrom (ctx.next (.mark m)) r).map (m.word :: ·) := by
  obtain ⟨hfirst, hread⟩ := read_mark hctx m r
  exact wordsFrom_of_read hfirst hread

/-- The literal of a text at the front of a text is cut off as a whole. -/
lemma step_literal (hctx : ctx ≠ .package) (value r : Text) :
    Cutting.step ctx (Literal.write value ++ r) =
      .lexeme ⟨[], .string, value, Literal.write value⟩ r := by
  have hblank : CodePoint.isBlank (.scalar '"') = false := by decide
  have hwrite : Literal.write value ++ r =
      .scalar '"' :: (value.flatMap Literal.writePoint ++ .scalar '"' :: r) := by
    simp [Literal.write, ofString]
  have hread :
      Lexeme.read ctx (.scalar '"') (value.flatMap Literal.writePoint ++ .scalar '"' :: r) =
        .token .string value (Literal.write value) r := by
    simp only [Lexeme.read, if_neg hctx, if_true, Lexeme.readString, Literal.readBody_write]
    rfl
  rw [hwrite]
  exact step_of_read (first_eq_none hblank (by decide)) hread

lemma wordsFrom_literal (hctx : ctx ≠ .package) (value r : Text) :
    wordsFrom ctx (Literal.write value ++ r) =
      (wordsFrom .ordinary r).map ((.string, value) :: ·) :=
  wordsFrom_of_lexeme (step_literal hctx value r)

lemma IsPackageName.isPackagePoint (ht : t.IsPackageName) : ∀ x ∈ t, x.isPackagePoint := by
  intro x hx
  rw [← join_pieces (.scalar '.') t] at hx
  rcases mem_of_mem_join hx with rfl | ⟨s, hs, hx⟩
  · decide
  · simp [CodePoint.isPackagePoint, (ht s hs).2 x hx]

/-- A package name begins with a letter or a numeral. -/
lemma IsPackageName.exists_cons (ht : t.IsPackageName) :
    ∃ c u, t = c :: u ∧ c.isAlphanumeric := by
  have hempty : [] ∉ pieces (.scalar '.') t := fun h => (ht [] h).1 rfl
  cases t with
  | nil => exact absurd List.mem_cons_self hempty
  | cons c t =>
    -- a dot at the front would leave an empty piece before it
    have hdot : c ≠ .scalar '.' := by
      rintro rfl
      exact hempty (pieces_cons_sep _ t ▸ List.mem_cons_self)
    exact ⟨c, t, rfl, by
      simpa [CodePoint.isPackagePoint, hdot] using ht.isPackagePoint c List.mem_cons_self⟩

/-- A package name is read up to its end, where one is called for. -/
lemma read_package (ht : IsPackageName (c :: t)) (hr : r.StopsAt CodePoint.isPackagePoint) :
    Trivia.first (c :: t ++ r) = .none ∧
      Lexeme.read .package c (t ++ r) = .token .packageName (c :: t) (c :: t) r := by
  obtain ⟨d, u, heq, halpha⟩ := ht.exists_cons
  obtain ⟨rfl, rfl⟩ := List.cons.inj heq
  have hpoints := ht.isPackagePoint
  have hempty : [] ∉ pieces (.scalar '.') (c :: t) := fun h => (ht [] h).1 rfl
  have hslash : c ≠ .scalar '/' := CodePoint.ne_of_isAlphanumeric halpha (by decide)
  refine ⟨first_eq_none (CodePoint.not_isBlank_of_isAlphanumeric halpha) hslash, ?_⟩
  rw [Lexeme.read, if_pos rfl, Lexeme.readPackage, ← List.cons_append,
    List.takeWhile_append_of_pos hpoints, List.dropWhile_append_of_pos hpoints, hr.takeWhile,
    hr.dropWhile, List.append_nil, if_neg (List.cons_ne_nil c t), if_neg hempty]

/-- A package name at the front of a text, where one is called for, if it is not continued. -/
lemma wordsFrom_package (ht : t.IsPackageName) (hr : r.StopsAt CodePoint.isPackagePoint) :
    wordsFrom .package (t ++ r) = (wordsFrom .ordinary r).map ((.packageName, t) :: ·) := by
  obtain ⟨c, u, rfl, -⟩ := ht.exists_cons
  obtain ⟨hfirst, hread⟩ := read_package ht hr
  exact wordsFrom_of_read hfirst hread

/-- A reserved word is a cased letter and letters behind it. -/
lemma Keyword.exists_cons (w : Keyword) :
    ∃ c t, w.spelling = c :: t ∧ c.isLetter ∧ (c.isLowercase ∨ c.isUppercase) ∧
      (∀ x ∈ t, x.isAlphanumeric) ∧ Lexeme.wordKind c (c :: t) = .keyword w := by
  cases w <;> exact ⟨_, _, rfl, by decide⟩

lemma wordsFrom_keyword (hctx : ctx ≠ .package) (w : Keyword)
    (hr : r.StopsAt CodePoint.isAlphanumeric) :
    wordsFrom ctx (w.spelling ++ r) = (wordsFrom (ctx.next (.keyword w)) r).map (w.word :: ·) := by
  obtain ⟨c, t, h, hletter, hcased, ht, hkind⟩ := Keyword.exists_cons w
  have hword : Text.word (c :: t) = w.word := by
    rw [Keyword.word, h, ← hkind]
    rfl
  rw [h, wordsFrom_letters hctx hletter hcased ht hr, hkind, hword]

/-! ### The words of the tokens -/

lemma tokensAfter_eq (e : Ending) (p : Position) (ls : List Lexeme) :
    ∃ us q, e.tokensAfter p ls = us ++ e.tokens q ∧ us.map Token.word = ls.map Lexeme.word := by
  induction ls generalizing p with
  | nil => exact ⟨[], p, rfl, rfl⟩
  | cons l ls ih =>
    obtain ⟨us, q, hus, hwords⟩ := ih ((p.after l.gap).after l.spelling)
    exact ⟨_ :: us, q, congrArg _ hus, congrArg _ hwords⟩

lemma words_tokens (s : Text) : s.tokens.map Token.word = s.cut.words := by
  obtain ⟨us, q, hus, hwords⟩ := tokensAfter_eq s.cut.ending Position.start s.cut.lexemes
  have hending : (s.cut.ending.tokens q).map Token.word = s.cut.ending.words := by
    cases s.cut.ending <;> rfl
  rw [tokens, Cutting.tokens, hus, List.map_append, hwords, hending]
  rfl

/-- The tokens of a text without faults have its words, and the end of the input behind them. -/
lemma tokens_of_wordsFrom (h : wordsFrom .ordinary s = some ws) :
    ∃ us stop, s.tokens = us ++ [stop] ∧ stop.kind = .endOfInput ∧ us.map Token.word = ws := by
  unfold wordsFrom at h
  split at h
  · next gap hgap =>
    obtain ⟨us, q, hus, hwords⟩ :=
      tokensAfter_eq (.clean gap) Position.start (s.cutFrom .ordinary).lexemes
    have htokens : s.tokens = us ++ (Ending.clean gap).tokens q := by
      rw [tokens, Cutting.tokens, cut, hgap]
      exact hus
    exact ⟨us, _, htokens, rfl, hwords.trans (Option.some.inj h)⟩
  · cases h

end Text

end Idl
