/-
# The line of a token

Messages show the line of a token, and the word under the cursor is looked up in a line.  Both
count lines by all breaks, while the line of a token is counted by `\n` alone.  So the right line is
shown, and the token stands in it at its columns, if the breaks up to the end of the token are
plain; otherwise an earlier line is shown (`Text.lineAt_token`), as behind a form feed
(`Text.lineAt_formFeed`).
-/
import Idl.Proofs.Text.Lines
import Idl.Proofs.Token.Spans

namespace Idl

/-- What stands in a line from the first column of a span to its last one. -/
def Span.excerpt (line : Text) (s : Span) : Text :=
  (line.take s.last.column.toNat).drop (s.first.column.toNat - 1)

variable {c : CodePoint} {before piece s spelling value : Text} {k : TokenKind} {t : Token}

/-! ### Where spellings end -/

lemma CodePoint.isBlank_of_isLineBreak (h : c.isLineBreak) : c.isBlank := by
  have hten : c.toNat ∈ [0x0A, 0x0B, 0x0C, 0x0D, 0x1C, 0x1D, 0x1E, 0x85, 0x2028, 0x2029] := by
    simp only [isLineBreak, Bool.or_eq_true, Bool.and_eq_true, decide_eq_true_eq] at h
    simp only [List.mem_cons, List.not_mem_nil, or_false]
    omega
  have hall : ∀ n ∈ [0x0A, 0x0B, 0x0C, 0x0D, 0x1C, 0x1D, 0x1E, 0x85, 0x2028, 0x2029],
      Band.holds blankBands n := by decide
  exact hall _ hten

lemma CodePoint.not_isLineBreak_of_not_isBlank (h : c.isBlank = false) : c.isLineBreak = false := by
  by_contra hbreak
  rw [isBlank_of_isLineBreak (by simpa using hbreak)] at h
  cases h

lemma CodePoint.not_isLineBreak_of_isAlphanumeric (h : c.isAlphanumeric) :
    c.isLineBreak = false :=
  not_isLineBreak_of_not_isBlank (not_isBlank_of_isAlphanumeric h)

/-- A spelling does not end with a line break. -/
lemma Word.WrittenAs.getLast?_not_isLineBreak (h : Word.WrittenAs (k, value) spelling) :
    ∀ c ∈ spelling.getLast?, c.isLineBreak = false := by
  intro c hc
  have hmem := List.mem_of_getLast? hc
  cases h with
  | keyword w =>
    have hall : ∀ c ∈ w.spelling, c.isLineBreak = false := by cases w <;> decide
    exact hall c hmem
  | mark m =>
    obtain rfl := List.mem_singleton.1 hmem
    cases m <;> decide
  | lowerName ht | upperName ht =>
    exact CodePoint.not_isLineBreak_of_isAlphanumeric (ht.isAlphanumeric c hmem)
  | packageName ht =>
    rcases Bool.or_eq_true_iff.1 (ht.isPackagePoint c hmem) with h | h
    · exact CodePoint.not_isLineBreak_of_isAlphanumeric h
    · rw [of_decide_eq_true h]
      decide
  | string =>
    rw [← List.cons_append, List.getLast?_concat] at hc
    obtain rfl := Option.some.inj hc
    decide

/-! ### The line at a place -/

/-- The last line of a text, which no `\n` has ended yet. -/
lemma Text.exists_lastLine (b : Text) : ∃ front line, b = front ++ line ∧ .scalar '\n' ∉ line ∧
    (front = [] ∨ ∃ x, front = x ++ [.scalar '\n']) ∧
      b.place = ⟨1 + b.count (.scalar '\n'), 1 + line.length⟩ := by
  refine ⟨b.rdropWhile (· ≠ .scalar '\n'), b.rtakeWhile (· ≠ .scalar '\n'),
    List.rdropWhile_append_rtakeWhile.symm, fun hmem => ?_, ?_, rfl⟩
  · simpa using List.mem_rtakeWhile_imp hmem
  · by_cases hfront : b.rdropWhile (· ≠ .scalar '\n') = []
    · exact .inl hfront
    · have hlast := List.rdropWhile_last_not _ b hfront
      have hnewline : (b.rdropWhile (· ≠ .scalar '\n')).getLast hfront = .scalar '\n' := by
        simpa using hlast
      have hsplit := List.dropLast_append_getLast hfront
      rw [hnewline] at hsplit
      exact .inr ⟨_, hsplit.symm⟩

/-- Where all breaks are plain, a stretch without `\n` that goes up to the end has no breaks. -/
lemma Text.keepsLine_of_hasPlainBreaks (front : Text) {line : Text}
    (h : HasPlainBreaks (front ++ line)) (hline : .scalar '\n' ∉ line) :
    ∀ c ∈ line, c.keepsLine := by
  intro c hc
  obtain ⟨x, y, rfl⟩ := List.append_of_mem hc
  rw [CodePoint.keepsLine_iff]
  by_contra hbreak
  rcases h (front ++ x) c y (by simp) (by simpa using hbreak) with rfl | ⟨-, hy⟩
  · exact hline hc
  · exact hline (by simp [List.mem_of_mem_head? hy])

/-- Where all breaks are plain, both ways of counting lines and columns come to the same. -/
lemma Text.place_of_hasPlainBreaks (hne : piece ≠ []) (hpiece : .scalar '\n' ∉ piece)
    (hplain : HasPlainBreaks (before ++ piece)) :
    before.place = ⟨1 + before.lineBehind, 1 + before.offsetBehind⟩ := by
  obtain ⟨front, line, rfl, hline, hfront, hplace⟩ := before.exists_lastLine
  have hkeeps : ∀ c ∈ line ++ piece, c.keepsLine := by
    refine keepsLine_of_hasPlainBreaks front (by rwa [← List.append_assoc]) ?_
    simp [hline, hpiece]
  obtain ⟨hkeepsLine, hkeepsPiece⟩ := List.forall_mem_append.1 hkeeps
  have hlast : ∀ c ∈ (front ++ line ++ piece).getLast?, c.isLineBreak = false := by
    intro c hc
    rw [List.getLast?_append_of_ne_nil _ hne] at hc
    exact CodePoint.keepsLine_iff.1 (hkeepsPiece c (List.mem_of_getLast? hc))
  have hlength := (length_lines (by simp [hne]) hlast).2.2 hplain
  rw [length_lines_append hne hkeepsPiece, List.count_append,
    List.count_eq_zero.2 hpiece] at hlength
  have hoffset : front.offsetBehind = 0 := by
    rcases hfront with rfl | ⟨x, rfl⟩
    · rfl
    · rw [offsetBehind, List.rtakeWhile_concat_neg _ _ _ (by decide), List.length_nil]
  rw [hplace, offsetBehind_append hkeepsLine, hoffset]
  simp only [Position.mk.injEq]
  omega

/-- Where all breaks are plain, a piece of a text stands in the line of its place. -/
lemma Token.StandsAt.exists_lineAt (h : t.StandsAt before piece) (after : Text)
    (hplain : Text.HasPlainBreaks (before ++ piece)) :
    ∃ line, Text.lineAt (before ++ piece ++ after) t.span.first.line = some line ∧
      t.span.excerpt line = piece := by
  have hpiece := Text.keepsLine_of_hasPlainBreaks before hplain h.line
  have hfirst := h.first
  have hlast := h.last
  rw [Text.place_of_hasPlainBreaks h.ne_nil h.line hplain] at hfirst hlast
  refine ⟨before.rtakeWhile CodePoint.keepsLine ++ piece ++ after.takeWhile CodePoint.keepsLine,
    ?_, ?_⟩
  · rw [hfirst, Int.add_comm]
    exact Text.lineAt_lineBehind h.ne_nil hpiece before after
  · have hstop : t.span.last.column.toNat =
        (before.rtakeWhile CodePoint.keepsLine ++ piece).length := by
      rw [hlast, List.length_append, ← Text.offsetBehind]
      simp only
      omega
    have hstart : t.span.first.column.toNat - 1 =
        (before.rtakeWhile CodePoint.keepsLine).length := by
      rw [hfirst, ← Text.offsetBehind]
      simp only
      omega
    rw [Span.excerpt, hstop, hstart, List.take_left, List.drop_left]

/-- The line of a token is its line in the text up to its end, if the breaks there are plain, and
the token stands in it at its columns; otherwise its line is an earlier one. -/
theorem Text.lineAt_token (ht : t ∈ s.tokens) (hend : t.kind ≠ .endOfInput) :
    ∃ before piece after, s = before ++ piece ++ after ∧ t.StandsAt before piece ∧
      (if t.kind = .fault then ∃ c, piece = [c] ∧ c.isBlank = false
        else t.word.WrittenAs piece) ∧
      t.span.first.line ≤ (before ++ piece).lines.length ∧
      (t.span.first.line = (before ++ piece).lines.length ↔ HasPlainBreaks (before ++ piece)) ∧
      (HasPlainBreaks (before ++ piece) → ∃ line, s.lineAt t.span.first.line = some line ∧
        t.span.excerpt line = piece) := by
  obtain ⟨before, piece, after, rfl, hstands, hpiece⟩ := exists_standsAt ht hend
  have hlast : ∀ c ∈ (before ++ piece).getLast?, c.isLineBreak = false := by
    rw [List.getLast?_append_of_ne_nil _ hstands.ne_nil]
    by_cases hfault : t.kind = .fault
    · rw [if_pos hfault] at hpiece
      obtain ⟨c, rfl, hc⟩ := hpiece
      simpa using CodePoint.not_isLineBreak_of_not_isBlank hc
    · rw [if_neg hfault] at hpiece
      exact hpiece.getLast?_not_isLineBreak
  obtain ⟨hle, hiff⟩ := length_lines (by simp [hstands.ne_nil]) hlast
  rw [List.count_append, List.count_eq_zero.2 hstands.line, Nat.add_zero] at hle hiff
  have hline : t.span.first.line = (before.count (.scalar '\n') + 1 : Nat) := by
    rw [hstands.first, place]
    push_cast
    omega
  refine ⟨before, piece, after, rfl, hstands, hpiece, by rw [hline]; exact_mod_cast hle, ?_,
    hstands.exists_lineAt after⟩
  rw [hline, ← hiff]
  exact ⟨fun h => by exact_mod_cast h.symm, fun h => by exact_mod_cast h.symm⟩

namespace Text

/-- The lexemes of a header with one blank in it. -/
lemma cut_header (hc : c.isBlank) : cut ("scala:" ++ c :: "x") =
    ⟨[⟨[], .keyword .scala, "scala", "scala"⟩, ⟨[], .mark .colon, ":", ":"⟩,
      ⟨[c], .packageName, "x", "x"⟩], .clean []⟩ := by
  have hpackage : IsPackageName "x" := by decide
  have hlaid : Laid .ordinary [⟨[], .keyword .scala, "scala", "scala"⟩,
      ⟨[], .mark .colon, ":", ":"⟩, ⟨[c], .packageName, "x", "x"⟩] [] := by
    refine .cons .nil (.keyword .scala) (by decide) (fun d hd => ?_) <|
      .cons .nil (.mark .colon) (by decide) (fun _ _ => rfl) <|
        .cons (.blank hc .nil) (.packageName hpackage) (by simp [Context.next])
          (by simp [StopsAt]) .nil
    obtain rfl := Option.some.inj hd
    decide
  exact cut_eq_clean_iff.2 ⟨rfl, hlaid.layout (.inl .nil)⟩

/-- A package on the second line, behind a plain break. -/
theorem lineAt_token_newline :
    let s : Text := "scala:\nx"
    let t : Token := ⟨.packageName, "x", .point ⟨2, 1⟩⟩
    t ∈ s.tokens ∧ t.kind ≠ .endOfInput ∧ ∃ piece line, t.word.WrittenAs piece ∧
      s.lineAt 2 = some line ∧ t.span.excerpt line = piece := by
  intro s t
  have htokens := congrArg Cutting.tokens (cut_header (c := .scalar '\n') (by decide))
  have ht : t ∈ s.tokens := by
    rw [show s.tokens = _ from htokens]
    decide
  have hend : t.kind ≠ .endOfInput := by decide
  obtain ⟨before, piece, after, hs, -, hword, -, -, hshown⟩ := lineAt_token ht hend
  have hplain : HasPlainBreaks (before ++ piece) := by
    have hbreaks : ∀ c ∈ s, c.isLineBreak → c = .scalar '\n' := by decide
    intro x c y hxy hc
    exact .inl (hbreaks c (by simp [hs, hxy]) hc)
  obtain ⟨line, hline, hexcerpt⟩ := hshown hplain
  exact ⟨ht, hend, piece, line, hword, hline, hexcerpt⟩

/-- A form feed behind the colon of a header ends a line, but the package behind it is counted to
the same line, which does not reach as far as its column. -/
theorem lineAt_formFeed :
    let s : Text := "scala:\x0cx"
    let t : Token := ⟨.packageName, "x", .point ⟨1, 8⟩⟩
    t ∈ s.tokens ∧ s.lineAt t.span.first.line = some "scala:" ∧
      t.span.excerpt "scala:" = [] ∧ s.lineAt 2 = some "x" := by
  intro s t
  have htokens := congrArg Cutting.tokens (cut_header (c := .scalar '\x0c') (by decide))
  have ht : t ∈ s.tokens := by
    rw [show s.tokens = _ from htokens]
    decide
  exact ⟨ht, by decide, by decide, by decide⟩

end Text

end Idl
