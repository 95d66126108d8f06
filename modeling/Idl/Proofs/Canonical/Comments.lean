/-
# Comments and blanks carry no meaning

Trivia may be put in front of a text, behind any of its tokens, and behind complete trivia there,
whether the text is a module or not: the words of its tokens stay the same, and so does what is
read from them, up to positions (`Module.parse_insertAt`).  The end of the text is such a place
only if no line comment is open there (`Module.insertAt_openComment`).
-/
import Idl.Proofs.Canonical.Parsed
import Idl.Proofs.Grammar.Unplaced
import Idl.Proofs.Token.Spans

namespace Idl

variable {_ : Machine}

/-- The text with another one put in at an offset. -/
def Text.insertAt (s : Text) (n : Nat) (w : Text) : Text := s.take n ++ w ++ s.drop n

/-- The offset lies immediately behind a token: the code point in front of it stands at the last
position of the token. -/
def Text.IsBehind (s : Text) (t : Token) (n : Nat) : Prop :=
  ∃ m < s.length, n = m + 1 ∧ Text.place (s.take m) = t.span.last

/-- The offset lies immediately behind a token that is neither a fault nor the end of the input. -/
def Text.IsBehindToken (s : Text) (n : Nat) : Prop :=
  ∃ t ∈ s.tokens, t.kind ≠ .fault ∧ t.kind ≠ .endOfInput ∧ s.IsBehind t n

/-- The offset lies outside of tokens and comments: there are only complete trivia in front of it,
back to a token or to the beginning of the text. -/
def Text.IsClear (s : Text) (n : Nat) : Prop :=
  ∃ k v, (k = 0 ∨ s.IsBehindToken k) ∧ Trivia.Complete v ∧ s.take n = s.take k ++ v

/-- Two texts are read as the same module up to positions, with the same canonical texts, or
fail in the same way. -/
def Module.ReadAlike : Except SyntaxError Module → Except SyntaxError Module → Prop
  | .ok m, .ok m' => m.unplaced = m'.unplaced ∧ ∀ form : Formatter, m.render form = m'.render form
  | .error e, .error e' =>
    e.problem.kind = e'.problem.kind ∧ e.problem.message = e'.problem.message
  | _, _ => False

variable {ctx : Context} {ls : List Lexeme} {n : Nat} {p : Position} {last r r' s s' v w : Text}
  {t : Token}

/-! ### Offsets and tokens -/

/-- The last position of a token is the place in front of the last code point of its spelling. -/
lemma last_tokenAt {l : Lexeme} {before x : Text} {c : CodePoint}
    (hl : l.word.WrittenAs l.spelling) (hx : l.spelling = x ++ [c]) :
    (l.tokenAt before.place).span.last = Text.place (before ++ l.gap ++ x) := by
  have hbreak := hl.break_not_mem
  rw [hx, List.mem_append, not_or] at hbreak
  rw [span_tokenAt _ hl, Text.place_append _ x, Position.after_of_not_mem hbreak.1, hx]
  simp only [List.length_append, List.length_singleton, Position.mk.injEq, true_and]
  omega

/-- The offset behind a token is the one behind the spelling of its lexeme. -/
lemma Text.isBehind_tokenAt_iff {l : Lexeme} {before : Text} (hl : l.word.WrittenAs l.spelling)
    (hs : s = before ++ l.text ++ r) :
    s.IsBehind (l.tokenAt before.place) n ↔ n = (before ++ l.text).length := by
  obtain ⟨x, c, hx⟩ : ∃ x c, l.spelling = x ++ [c] := by
    obtain h | ⟨x, c, h⟩ := l.spelling.eq_nil_or_concat'
    · exact absurd h hl.ne_nil
    · exact ⟨x, c, h⟩
  have htext : before ++ l.text = before ++ l.gap ++ x ++ [c] := by
    simp [Lexeme.text, hx]
  have hlength : (before ++ l.text).length = (before ++ l.gap ++ x).length + 1 := by
    rw [htext]
    simp only [List.length_append, List.length_singleton]
  have hfront : s = before ++ l.gap ++ x ++ c :: r := by
    rw [hs, htext, List.append_assoc]
    rfl
  rw [IsBehind, last_tokenAt hl hx]
  constructor
  · rintro ⟨m, hm, rfl, hplace⟩
    -- only one front part of the text ends at the last position of the token
    have htake : s.take m = before ++ l.gap ++ x :=
      eq_of_place_eq (List.take_prefix m s) ⟨c :: r, hfront.symm⟩ hplace
    rw [hlength, ← htake, List.length_take, min_eq_left hm.le]
  · rintro rfl
    refine ⟨(before ++ l.gap ++ x).length, ?_, hlength, ?_⟩
    · have hlt : (before ++ l.gap ++ x).length < (before ++ l.gap ++ x ++ c :: r).length := by
        simp only [List.length_append, List.length_cons]
        omega
      rwa [← hfront] at hlt
    · rw [hfront, List.take_left]

/-- In front of an offset behind a token stand whole lexemes. -/
lemma Text.IsBehindToken.exists_laid (h : s.IsBehindToken n) :
    ∃ ls, Laid .ordinary ls (s.drop n) ∧ s.take n = ls.flatMap Lexeme.text := by
  obtain ⟨t, ht, hfault, hend, hbehind⟩ := h
  obtain ⟨ls, l, r, rfl, hlaid, rfl⟩ := exists_laid_of_mem ht hfault hend
  have hflat : (ls ++ [l]).flatMap Lexeme.text = ls.flatMap Lexeme.text ++ l.text := by simp
  rw [isBehind_tokenAt_iff (hlaid.written l (by simp)) (by rw [hflat]), ← hflat] at hbehind
  rw [hbehind, List.drop_left, List.take_left]
  exact ⟨ls ++ [l], hlaid, rfl⟩

/-- The last lexeme of a text ends at an offset behind a token. -/
lemma Text.isBehindToken_of_cut {l : Lexeme} {e : Ending} (h : s.cut = ⟨ls ++ [l], e⟩) :
    s.IsBehindToken ((ls ++ [l]).flatMap Lexeme.text).length := by
  have hlaid : Laid .ordinary (ls ++ [l]) e.text := by
    have hlaid := (laid_cutFrom .ordinary s).1
    rwa [← Text.cut, h] at hlaid
  have htext : (ls ++ [l]).flatMap Lexeme.text ++ e.text = s := by
    have htext := Cutting.text_cut s
    rwa [h] at htext
  obtain ⟨hfault, hend⟩ := hlaid.kind_ne l (by simp)
  obtain ⟨-, _ | ⟨-, hword, -, -, -⟩⟩ := Laid.append_iff.1 hlaid
  have hflat : (ls ++ [l]).flatMap Lexeme.text = ls.flatMap Lexeme.text ++ l.text := by simp
  rw [hflat] at htext ⊢
  refine ⟨l.tokenAt (Text.place (ls.flatMap Lexeme.text)), ?_, hfault, hend,
    (isBehind_tokenAt_iff hword htext.symm).2 rfl⟩
  obtain ⟨us, -, hus⟩ := tokensAfter_append e (Text.place []) ls [l]
  have hplace : (Text.place []).after (ls.flatMap Lexeme.text) =
      Text.place (ls.flatMap Lexeme.text) := Position.start_after _
  have htokens : s.tokens = e.tokensAfter (Text.place []) (ls ++ [l]) := by
    rw [Text.tokens, Cutting.tokens, h]
    rfl
  rw [htokens, hus, tokensAfter_cons, hplace]
  simp

/-- The end of a text is clear if there is no fault, and no line comment is open there. -/
lemma Text.isClear_length (h : s.cut = ⟨ls, .clean last⟩) (hlast : Trivia.Complete last) :
    s.IsClear s.length := by
  have htext : ls.flatMap Lexeme.text ++ last = s := by
    have htext := Cutting.text_cut s
    rwa [h] at htext
  refine ⟨(ls.flatMap Lexeme.text).length, last, ?_, hlast, ?_⟩
  · rcases ls.eq_nil_or_concat' with rfl | ⟨ls, l, rfl⟩
    · exact .inl rfl
    · exact .inr (isBehindToken_of_cut h)
  · rw [List.take_length, ← htext, List.take_left]

/-! ### Words -/

/-- Trivia may be put behind trivia that stand behind lexemes. -/
lemma Laid.insert_complete (h : Laid ctx ls (v ++ r)) (hw : Trivia.Complete w) :
    Laid ctx ls (v ++ w ++ r) := by
  refine h.congr fun k hstop => ?_
  rcases v with _ | ⟨c, v⟩
  · rcases w with _ | ⟨c, w⟩
    · exact hstop
    · exact stopsAt_of_head k hw.head
  · exact hstop

lemma Cutting.words_prepend (k : Cutting) (w : Text) : (k.prepend w).words = k.words := by
  rcases k with ⟨_ | ⟨l, ls⟩, _ | _⟩ <;> rfl

/-- The words of a text are those of its first lexemes, and then those of the rest. -/
lemma Laid.words_append (h : Laid .ordinary ls r) :
    (Text.tokens (ls.flatMap Lexeme.text ++ r)).map Token.word = ls.map Lexeme.word ++
      (r.cutFrom (Context.ordinary.behind (ls.map Lexeme.kind))).words := by
  rw [Text.words_tokens, Text.cut, Text.cutFrom_append h]
  simp only [Cutting.words, List.map_append, List.append_assoc]

/-- Trivia that are put in at clear offsets leave the words of the tokens as they are. -/
lemma Text.words_insertAt (hn : s.IsClear n) (hw : Trivia.Complete w) :
    (s.insertAt n w).tokens.map Token.word = s.tokens.map Token.word := by
  obtain ⟨k, v, hk, hv, hsplit⟩ := hn
  obtain ⟨ls, hlaid, htake⟩ : ∃ ls, Laid .ordinary ls (s.drop k) ∧
      s.take k = ls.flatMap Lexeme.text := by
    rcases hk with rfl | hk
    · exact ⟨[], .nil, rfl⟩
    · exact hk.exists_laid
  rw [htake] at hsplit
  have htext : s = ls.flatMap Lexeme.text ++ (v ++ s.drop n) := by
    rw [← List.append_assoc, ← hsplit, List.take_append_drop]
  have hdrop : s.drop k = v ++ s.drop n := by
    have hsame : s.take k ++ s.drop k = s.take k ++ (v ++ s.drop n) := by
      rw [List.take_append_drop, htake, ← htext]
    exact List.append_cancel_left hsame
  rw [hdrop] at hlaid
  have hinsert : s.insertAt n w = ls.flatMap Lexeme.text ++ (v ++ w ++ s.drop n) := by
    rw [insertAt, hsplit]
    simp only [List.append_assoc]
  conv_rhs => rw [htext]
  rw [hinsert, (hlaid.insert_complete hw).words_append, hlaid.words_append,
    cutFrom_append_complete hv, cutFrom_append_complete (hv.append hw), Cutting.words_prepend,
    Cutting.words_prepend]

/-! ### Modules -/

lemma Text.unplaced_stream (s : Text) : s.stream.unplaced.toList =
    (s.tokens.map Token.word).map fun w => ⟨w.1, w.2, default⟩ := by
  rw [← Text.toList_stream, List.map_map]
  rfl

/-- Reading depends on the words of the tokens only. -/
lemma Module.readAlike_of_words [Machine] (h : s.tokens.map Token.word = s'.tokens.map Token.word) :
    ReadAlike (parse s) (parse s') := by
  have hstream : s.stream.unplaced = s'.stream.unplaced :=
    TokenStream.eq_of_toList_eq (by rw [Text.unplaced_stream, Text.unplaced_stream, h])
  have hread := ofTokens_unplaced s.stream
  rw [hstream, ofTokens_unplaced s'.stream] at hread
  show ReadAlike (ofTokens s.stream) (ofTokens s'.stream)
  generalize ofTokens s.stream = x, ofTokens s'.stream = x' at hread ⊢
  rcases x with e | m <;> rcases x' with e' | m'
  · have he : e'.unplaced = e.unplaced := Except.error.inj hread
    have hproblem : e'.problem.unplaced = e.problem.unplaced := congrArg SyntaxError.problem he
    constructor
    · rw [← e.problem.kind_unplaced, ← hproblem, Problem.kind_unplaced]
    · rw [← e.problem.message_unplaced, ← hproblem, Problem.message_unplaced]
  · cases hread
  · cases hread
  · have hm : m'.unplaced = m.unplaced := Except.ok.inj hread
    refine ⟨hm.symm, fun form => ?_⟩
    rw [← m.render_unplaced, ← hm, render_unplaced]

/-- A text with a fault holds no module: reading cannot come to the end of the input. -/
lemma Module.parse_ne_ok_of_fault {f : Fault} {before read rest : Text}
    (h : s.cut.ending = .fault f before read rest) (m : Module) : parse s ≠ .ok m := by
  intro hread
  obtain ⟨⟨us, stop, behind, hs, hends, hstop, -⟩, -⟩ :=
    spelledBy_of_ofTokens s.closed_stream hread
  obtain ⟨vs, q, htokens, -, hne⟩ := s.exists_tokens
  rw [Text.toList_stream, htokens, h] at hs
  have hvs : ∀ t ∈ vs, t.kind.isEnd = false := fun t ht =>
    TokenKind.isEnd_eq_false_iff.2 (hne t ht)
  -- the first token that stops a reader is the fault on the one side, and the end on the other
  have hdrop := congrArg (List.dropWhile fun t => !t.kind.isEnd) hs
  rw [List.dropWhile_append_of_pos (by simpa using hvs),
    List.dropWhile_append_of_pos (by simpa using hends),
    List.dropWhile_cons_of_neg (by simp [hstop, TokenKind.isEnd])] at hdrop
  rw [← (List.cons.inj hdrop).1] at hstop
  cases hstop

/-- What is read is spelled by all tokens but the end of the input, and these are the tokens of the
lexemes. -/
lemma Module.exists_tokens_of_parse {m : Module} (h : parse s = .ok m) :
    ∃ us stop, s.tokens = us ++ [stop] ∧ m.ContentSpelledBy us ∧
      us.map Token.kind = s.cut.lexemes.map Lexeme.kind := by
  obtain ⟨⟨us, stop, rest, hs, -, hstop, hm⟩, -⟩ := spelledBy_of_ofTokens s.closed_stream h
  rw [s.toList_stream] at hs
  obtain ⟨vs, q, htokens, hkinds, hne⟩ := s.exists_tokens
  cases hending : s.cut.ending with
  | fault f before read behind => exact absurd h (parse_ne_ok_of_fault hending m)
  | clean gap =>
    rw [hending, Ending.tokens, hs] at htokens
    rcases rest.eq_nil_or_concat' with rfl | ⟨rest, last, rfl⟩
    · obtain ⟨rfl, -⟩ := List.append_inj' htokens rfl
      exact ⟨us, stop, hs, hm, hkinds⟩
    · -- the end of the input would not be the last token
      rw [← List.cons_append, ← List.append_assoc] at htokens
      obtain ⟨rfl, -⟩ := List.append_inj' htokens rfl
      exact absurd hstop (hne stop (by simp)).2

/-- Trivia that are put in at a clear offset change neither the words of the tokens nor what is
read from them, nor how reading fails. -/
theorem Module.parse_insertAt (hn : s.IsClear n) (hw : Trivia.Complete w) :
    (s.insertAt n w).tokens.map Token.word = s.tokens.map Token.word ∧
      ReadAlike (parse s) (parse (s.insertAt n w)) := by
  have hwords := Text.words_insertAt hn hw
  exact ⟨hwords, readAlike_of_words hwords.symm⟩

/-- A comment at the end of a header line that is not the whole header, behind a blank there. -/
theorem Module.parse_insertAt_header :
    let _ : Machine := .usual
    let s : Text := "scala:a "
    s.IsClear 8 ∧ Trivia.Complete "// b\n" ∧
      (s.insertAt 8 "// b\n").tokens.map Token.word = s.tokens.map Token.word ∧
      ReadAlike (parse s) (parse (s.insertAt 8 "// b\n")) := by
  intro _ s
  have hblank : Trivia.Complete " " := .blank (by decide) .nil
  have hlaid : Laid .ordinary [⟨[], .keyword .scala, "scala", "scala"⟩,
      ⟨[], .mark .colon, ":", ":"⟩, ⟨[], .packageName, "a", "a"⟩] " " :=
    .cons .nil (.keyword .scala) (by decide) (by decide) <|
      .cons .nil (.mark .colon) (by decide) (by decide) <|
        .cons .nil (.packageName (by decide)) (by decide) (by decide) .nil
  have hcut := Text.cut_eq_clean_iff.2 ⟨(rfl : s = _), hlaid.layout (.inl hblank)⟩
  have hclear : s.IsClear 8 := Text.isClear_length hcut hblank
  have hcomplete : Trivia.Complete "// b\n" := by
    have hbody : .scalar '\n' ∉ (" b" : Text) := by decide
    exact .line hbody .nil
  exact ⟨hclear, hcomplete, Module.parse_insertAt hclear hcomplete⟩

/-- At the end of a text a line comment may be open.  It takes in the beginning of a block comment
that is put in there, and what is left of that is no comment, so the module is not read. -/
theorem Module.insertAt_openComment :
    let _ : Machine := .usual
    let s : Text := "scala:a purs:b// c"
    let w : Text := "/*\n*/"
    (∃ t ∈ s.tokens, t.kind ≠ .fault ∧ s.IsBehind t 18) ∧ Trivia.Complete w ∧
      (s.insertAt 18 w).tokens.map Token.word ≠ s.tokens.map Token.word ∧
      ¬ ReadAlike (parse s) (parse (s.insertAt 18 w)) := by
  intro _ s w
  let ls : List Lexeme := [⟨[], .keyword .scala, "scala", "scala"⟩, ⟨[], .mark .colon, ":", ":"⟩,
    ⟨[], .packageName, "a", "a"⟩, ⟨" ", .keyword .purs, "purs", "purs"⟩,
    ⟨[], .mark .colon, ":", ":"⟩, ⟨[], .packageName, "b", "b"⟩]
  have hlaid : Laid .ordinary ls "// c" :=
    .cons .nil (.keyword .scala) (by decide) (by decide) <|
      .cons .nil (.mark .colon) (by decide) (by decide) <|
        .cons .nil (.packageName (by decide)) (by decide) (by decide) <|
          .cons (.blank (by decide) .nil) (.keyword .purs) (by decide) (by decide) <|
            .cons .nil (.mark .colon) (by decide) (by decide) <|
              .cons .nil (.packageName (by decide)) (by decide) (by decide) .nil
  have hbody : .scalar '\n' ∉ (" c" : Text) := by decide
  let k : Cutting := ⟨ls, .clean "// c"⟩
  have hcut : s.cut = k :=
    Text.cut_eq_clean_iff.2 ⟨rfl, hlaid.layout (.inr ⟨[], " c", .nil, hbody, rfl⟩)⟩
  let k' : Cutting := ⟨ls, .fault (.strayCharacter '*') "// c/*\n" [] "*/"⟩
  have hcut' : (s.insertAt 18 w).cut = k' := by
    have hbody' : .scalar '\n' ∉ (" c/*" : Text) := by decide
    have hline : Trivia.Complete "// c/*\n" := .line hbody' .nil
    have hrest : Text.cutFrom .ordinary "*/" = ⟨[], .fault (.strayCharacter '*') [] [] "*/"⟩ :=
      Text.cutFrom_of_done (by rw [Cutting.step, Trivia.skip_of_none rfl]; rfl)
    have hending : Text.cutFrom .ordinary "// c/*\n*/" =
        ⟨[], .fault (.strayCharacter '*') "// c/*\n" [] "*/"⟩ := by
      show Text.cutFrom .ordinary (("// c/*\n" : Text) ++ ("*/" : Text)) = _
      rw [Text.cutFrom_append_complete hline, hrest]
      rfl
    have hlaid' : Laid .ordinary ls "// c/*\n*/" := hlaid.congr fun _ hstop => hstop
    refine (Text.cutFrom_append hlaid').trans ?_
    rw [show Context.ordinary.behind (ls.map Lexeme.kind) = .ordinary from rfl, hending,
      List.append_nil]
  have hblock : Trivia.Complete w := by
    have hcloses : Trivia.closeBlock 0 "\n*/" = some (("\n*/" : Text), []) := by decide
    exact .block (Trivia.closeBlock_eq_some_iff.1 hcloses).2 .nil
  have htokens : s.tokens = k.tokens := congrArg Cutting.tokens hcut
  refine ⟨⟨⟨.endOfInput, [], ⟨⟨1, 19⟩, ⟨1, 18⟩⟩⟩, ?_, by simp, 17, by decide, rfl, by decide⟩,
    hblock, ?_, ?_⟩
  · rw [htokens]
    decide
  · rw [Text.words_tokens, Text.words_tokens, hcut, hcut']
    decide
  · have hread : parse s = .ok ⟨[], ⟨"a", "b", []⟩, [], [], []⟩ := by
      have hscala := @Phrase.Export.mk .scala ⟨.keyword .scala, "scala", ⟨⟨1, 1⟩, ⟨1, 5⟩⟩⟩
        ⟨.mark .colon, ":", .point ⟨1, 6⟩⟩ ⟨.packageName, "a", .point ⟨1, 7⟩⟩ rfl rfl rfl
      have hpurs := @Phrase.Export.mk .purs ⟨.keyword .purs, "purs", ⟨⟨1, 9⟩, ⟨1, 12⟩⟩⟩
        ⟨.mark .colon, ":", .point ⟨1, 13⟩⟩ ⟨.packageName, "b", .point ⟨1, 14⟩⟩ rfl rfl rfl
      exact ofTokens_of_spelledBy (s.toList_stream.trans htokens) rfl
        (.mk hscala hpurs .nil .nil .nil) fun d hd => absurd hd List.not_mem_nil
    rw [hread]
    cases hread' : parse (s.insertAt 18 w) with
    | error e => exact id
    | ok m => exact absurd hread' (parse_ne_ok_of_fault (congrArg Cutting.ending hcut') m)

end Idl
