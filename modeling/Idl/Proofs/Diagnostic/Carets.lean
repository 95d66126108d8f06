/-
# Where the carets stand

The rendering of a syntax error ends with the line of its token and the carets under it, one for
each code point of the token.  In front of the line stands its number, right-aligned in four
columns or more, in front of the carets a gutter of a fixed width that has room for two columns
only.  So the carets begin to the left of the token: by two columns, and by one more for each digit
of the line number past the fourth (`SyntaxError.render_carets`).
-/
import Idl.Module.OfTokens
import Idl.Proofs.Diagnostic.Cache
import Idl.Proofs.Grammar.FirstFailure
import Idl.Proofs.Text.Names
import Idl.Proofs.Text.Numbers
import Idl.Proofs.Token.Excerpt

namespace Idl

variable {_ : Machine}

namespace Diagnostic

variable {l : Label} {line : Text} {n : Int}

/-! ### The two rows -/

/-- What stands in front of a line of the source. -/
def lineLead (n : Int) : Text := "  " ++ (gutter n ++ " |") ++ " "

/-- What stands in front of the carets. -/
def caretLead (s : Span) : Text := "     | " ++ Text.spaces (s.first.column - 1)

lemma length_gutter (n : Int) : (gutter n).length = max 4 (Text.ofInt n).length := by
  rw [gutter, List.length_append, Text.spaces, Text.repeated, List.length_replicate]
  omega

lemma length_lineLead (n : Int) : (lineLead n).length = 5 + max 4 (Text.ofInt n).length := by
  have hindent : List.length ("  " : Text) = 2 := rfl
  have hbar : List.length (" |" : Text) = 2 := rfl
  have hblank : List.length (" " : Text) = 1 := rfl
  rw [lineLead]
  simp only [List.length_append, length_gutter, hindent, hbar, hblank]
  omega

lemma length_caretLead (s : Span) : (caretLead s).length = 7 + (s.first.column.toNat - 1) := by
  have hgutter : List.length ("     | " : Text) = 7 := rfl
  rw [caretLead, List.length_append, hgutter, Text.spaces, Text.repeated, List.length_replicate]
  omega

lemma keepsLine_lineLead : ∀ c ∈ lineLead n, c.keepsLine := by
  have hindent : ∀ c ∈ ("  " : Text), c.keepsLine := by decide
  have hbar : ∀ c ∈ (" |" : Text), c.keepsLine := by decide
  have hblank : ∀ c ∈ (" " : Text), c.keepsLine := by decide
  have hspaces (k : Int) : ∀ c ∈ Text.spaces k, c.keepsLine := by
    intro c hc
    rw [List.eq_of_mem_replicate hc]
    decide
  have hdigits : ∀ c ∈ Text.ofInt n, c.keepsLine := Text.forall_mem_ofInt (by decide) (by decide) n
  simp only [lineLead, gutter, List.forall_mem_append]
  exact ⟨⟨hindent, ⟨hspaces _, hdigits⟩, hbar⟩, hblank⟩

lemma caret_notMem_caretLead (s : Span) : CodePoint.scalar '^' ∉ caretLead s := by
  rw [caretLead, List.mem_append, not_or]
  refine ⟨by decide, fun hmem => ?_⟩
  have hspace := List.eq_of_mem_replicate hmem
  revert hspace
  decide

lemma keepsLine_caretLead (s : Span) (k : Nat) :
    ∀ c ∈ caretLead s ++ Text.repeated k '^', c.keepsLine := by
  intro c hc
  simp only [caretLead, List.mem_append] at hc
  rcases hc with (hc | hc) | hc
  · revert c
    decide
  · rw [List.eq_of_mem_replicate hc]
    decide
  · rw [List.eq_of_mem_replicate hc]
    decide

/-- A label within one line that says nothing shows that line and the carets below it. -/
lemma labelLines_of_line (tint : Colour) (hspan : l.span.first.line = l.span.last.line)
    (hmessage : l.message = []) :
    labelLines false tint l (some line) = [arrow false l, emptyGutter false,
      lineLead l.span.first.line ++ line,
      caretLead l.span ++ Text.repeated (caretCount l.span).toNat '^'] := by
  have hline : excerpt false l.span.first.line line = lineLead l.span.first.line ++ line := rfl
  have hcarets : carets false tint l.span =
      caretLead l.span ++ Text.repeated (caretCount l.span).toNat '^' := rfl
  rw [labelLines, if_pos hspan, if_pos hmessage, Option.map_some, hline, hcarets]
  rfl

end Diagnostic

/-! ### The end of a rendering -/

/-- The last two rows are the last two lines, whatever breaks there are in the rows above. -/
lemma Text.exists_lines_join (t : Text) (ts : List Text) {a b : Text}
    (ha : ∀ c ∈ a, c.keepsLine) (hb : ∀ c ∈ b, c.keepsLine) (hne : b ≠ []) :
    ∃ front, (join "\n" (t :: ts ++ [a, b])).lines = front ++ [a, b] := by
  have hrows : join "\n" (t :: ts ++ [a, b]) =
      join "\n" (t :: ts) ++ .scalar '\n' :: (a ++ .scalar '\n' :: b) := by
    rw [join_append _ t ts (List.cons_ne_nil a [b]), List.append_assoc]
    show _ ++ ([CodePoint.scalar '\n'] ++ (a ++ [CodePoint.scalar '\n'] ++ b)) = _
    rw [List.append_assoc]
    rfl
  refine ⟨lines (join "\n" (t :: ts) ++ [.scalar '\n']), ?_⟩
  rw [hrows, lines_append_of_isLineBreak _ isLineBreak_newline (fun h => absurd h (by decide)),
    lines_append_newline ha, lines_of_forall hne hb]

/-- The rendering of an error within one line ends with that line and its carets. -/
lemma SyntaxError.exists_lines_shown {s line : Text} {e : SyntaxError}
    (hspan : e.span.first.line = e.span.last.line)
    (hline : s.lineAt e.span.first.line = some line) (disk : Text → Option Text) (file : Text) :
    ∃ front, (e.shown disk file s).lines =
      front ++ [Diagnostic.lineLead e.span.first.line ++ line, Diagnostic.caretLead e.span ++
        Text.repeated (Diagnostic.caretCount e.span).toNat '^'] := by
  obtain ⟨hrender, -⟩ := Diagnostic.render_of_agree (Sources.agree_ofTexts disk [(file, s)]) false
    (e.failure.diagnostic file [])
  have hsource : sourceOf disk [(file, s)] file = s := by
    rw [sourceOf, List.lookup_cons_self, Option.getD_some]
  have hrows : (e.failure.diagnostic file []).rows false (sourceOf disk [(file, s)]) =
      Diagnostic.heading false (e.failure.diagnostic file []) ::
        [Diagnostic.arrow false ⟨file, e.span, []⟩, Diagnostic.emptyGutter false] ++
        [Diagnostic.lineLead e.span.first.line ++ line, Diagnostic.caretLead e.span ++
          Text.repeated (Diagnostic.caretCount e.span).toNat '^'] := by
    show _ :: (Diagnostic.labelLines false Severity.error.colour ⟨file, e.span, []⟩
      ((sourceOf disk _ file).lineAt e.span.first.line) ++ []) ++ [] = _
    rw [hsource, hline, Diagnostic.labelLines_of_line _ hspan rfl]
    rfl
  have hkeeps : ∀ c ∈ line, c.keepsLine := by
    rw [Text.lineAt, Text.numbered] at hline
    split at hline
    · exact Text.keepsLine_of_mem_lines (List.mem_of_getElem? hline)
    · cases hline
  rw [shown, hrender, hrows]
  exact Text.exists_lines_join _ _
    (List.forall_mem_append.2 ⟨Diagnostic.keepsLine_lineLead, hkeeps⟩)
    (Diagnostic.keepsLine_caretLead _ _) (by simp [Diagnostic.caretLead, Text.ofString])

/-- There are as many carets as the piece of a token has code points. -/
lemma Token.StandsAt.caretCount {t : Token} {before piece : Text} (h : t.StandsAt before piece) :
    (Diagnostic.caretCount t.span).toNat = piece.length := by
  have hpos := List.length_pos_iff.2 h.ne_nil
  rw [Diagnostic.caretCount, h.first, h.last]
  simp only
  omega

/-- The rendering of a failure at a token ends with the line of the token and with as many carets
as the token has code points.  They begin to the left of the token, by two columns and by one more
for each digit of the line number past the fourth. -/
theorem SyntaxError.render_carets {s : Text} {e : SyntaxError} (he : Module.parse s = .error e)
    (hbreaks : ∀ c ∈ s, c.isLineBreak → c = .scalar '\n') (file : Text)
    (disk : Text → Option Text) :
    (∃ t ∈ s.tokens, e.span = t.span) ∧
    ∀ t ∈ s.tokens, e.span = t.span → t.kind ≠ .endOfInput →
      ∃ before piece after line front lead pad,
        s = before ++ piece ++ after ∧ t.StandsAt before piece ∧
        (if t.kind = .fault then ∃ c, piece = [c] ∧ c.isBlank = false
          else t.word.WrittenAs piece) ∧
        s.lineAt t.span.first.line = some line ∧ t.span.excerpt line = piece ∧
        (e.shown disk file s).lines =
          front ++ [lead ++ line, pad ++ Text.repeated piece.length '^'] ∧
        CodePoint.scalar '^' ∉ pad ∧
        pad.length + (max 4 (Text.ofInt t.span.first.line).length - 2) =
          lead.length + (t.span.first.column.toNat - 1) := by
  constructor
  · obtain ⟨us, t, vs, htokens, hspan, -⟩ := Module.exists_settled_of_parse he
    exact ⟨t, by simp [htokens], hspan⟩
  intro t ht hspan hend
  obtain ⟨before, piece, after, rfl, hstands, hpiece⟩ := Text.exists_standsAt ht hend
  have hplain : Text.HasPlainBreaks (before ++ piece) := by
    intro x c y hxy hc
    exact .inl (hbreaks c (by simp [hxy]) hc)
  obtain ⟨line, hline, hexcerpt⟩ := hstands.exists_lineAt after hplain
  have honeLine : t.span.first.line = t.span.last.line := by rw [hstands.first, hstands.last]
  obtain ⟨front, hfront⟩ := exists_lines_shown (e := e) (by rw [hspan, honeLine])
    (by rw [hspan, hline]) disk file
  rw [hspan, hstands.caretCount] at hfront
  refine ⟨before, piece, after, line, front, Diagnostic.lineLead t.span.first.line,
    Diagnostic.caretLead t.span, rfl, hstands, hpiece, hline, hexcerpt, hfront,
    Diagnostic.caret_notMem_caretLead t.span, ?_⟩
  rw [Diagnostic.length_caretLead, Diagnostic.length_lineLead]
  omega

namespace SyntaxError

/-- The only token of a text that is one colon. -/
def colonToken : Token := ⟨.mark .colon, ":", .point ⟨1, 1⟩⟩

lemma tokens_colon : Text.tokens ":" = [colonToken, ⟨.endOfInput, [], ⟨⟨1, 2⟩, ⟨1, 1⟩⟩⟩] := by
  have hlaid : Laid .ordinary [⟨[], .mark .colon, ":", ":"⟩] [] :=
    .cons .nil (.mark .colon) (by decide) (by decide) .nil
  exact congrArg Cutting.tokens (Text.cut_eq_clean_iff.2 ⟨rfl, hlaid.layout (.inl .nil)⟩)

/-- A text that is one colon fails at it. -/
lemma parse_colon [Machine] : Module.parse ":" =
    .error ⟨.unexpected (.token (.keyword .scala)) colonToken, colonToken.span⟩ := by
  have hstream : Text.stream ":" = ⟨colonToken, [⟨.endOfInput, [], ⟨⟨1, 2⟩, ⟨1, 1⟩⟩⟩]⟩ :=
    TokenStream.eq_of_toList_eq ((Text.toList_stream _).trans tokens_colon)
  rw [Module.parse, hstream]
  rfl

theorem render_carets_colon :
    let _ : Machine := .usual
    ∃ e front lead line pad, Module.parse ":" = .error e ∧
      (∀ c ∈ (":" : Text), c.isLineBreak → c = .scalar '\n') ∧
      (e.shown (fun _ => none) "f" ":").lines = front ++ [lead ++ line, pad ++ [.scalar '^']] ∧
      pad.length + 2 = lead.length := by
  intro _
  have hbreaks : ∀ c ∈ (":" : Text), c.isLineBreak → c = .scalar '\n' := by decide
  obtain ⟨-, hall⟩ := render_carets parse_colon hbreaks "f" (fun _ => none)
  obtain ⟨before, piece, after, line, front, lead, pad, -, -, hpiece, -, -, hlines, -, hplaces⟩ :=
    hall colonToken (by simp [tokens_colon]) rfl (by decide)
  have hword : piece = ":" := by
    rw [if_neg (by decide)] at hpiece
    cases hpiece
    rfl
  refine ⟨_, front, lead, line, pad, parse_colon, hbreaks, ?_, hplaces⟩
  rw [hlines, hword]
  rfl

/-- The caret of the colon does not stand below it. -/
theorem carets_apart_from_colon :
    let _ : Machine := .usual
    ∃ e, Module.parse ":" = .error e ∧ e.span = colonToken.span ∧
      colonToken ∈ Text.tokens ":" ∧ ∀ front lead pad, (e.shown (fun _ => none) "f" ":").lines =
        front ++ [lead ++ [.scalar ':'], pad ++ [.scalar '^']] → pad.length ≠ lead.length := by
  intro _
  refine ⟨_, parse_colon, rfl, by simp [tokens_colon], ?_⟩
  intro front lead pad h
  have hlines : (shown (fun _ => none) "f" ":"
      ⟨.unexpected (.token (.keyword .scala)) colonToken, colonToken.span⟩).lines =
      (["error[E200]: expected 'scala', got ':'", "  --> f:1:1", "     |"] : List Text) ++
        (["     1 | :", "     | ^"] : List Text) := by decide
  obtain ⟨-, htail⟩ := List.append_inj' (hlines.symm.trans h) rfl
  have hlead := congrArg List.length (List.cons.inj htail).1
  have hpad := congrArg List.length (List.cons.inj (List.cons.inj htail).2).1
  simp [Text.ofString] at hlead hpad
  omega

end SyntaxError

end Idl
