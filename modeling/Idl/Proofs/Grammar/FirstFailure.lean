/-
# The first failure counts

Where reading gives up at a token, only the text up to that token and the one code point behind it
count: whatever the text goes on with, be it a fault, reading fails in the same way
(`Module.parse_of_take_eq`).  The code point behind the token is needed to see that the token ends
there.
-/
import Idl.Proofs.Canonical.Comments
import Idl.Proofs.Grammar.Locality

namespace Idl

variable {_ : Machine}
variable {e : SyntaxError} {l : Lexeme} {ls : List Lexeme} {n : Nat} {r r' s s' : Text} {t : Token}

/-! ### Texts with one front part -/

/-- Texts that agree up to one code point behind a front part both begin with that part, and go on
with the same code point or end. -/
lemma Text.exists_of_take_eq {front : Text} (h : s'.take (front.length + 1) =
    (front ++ r).take (front.length + 1)) : ∃ r', s' = front ++ r' ∧ r'.head? = r.head? := by
  rw [List.take_length_add_append] at h
  have hs' : s' = front ++ (r.take 1 ++ s'.drop (front.length + 1)) := by
    rw [← List.append_assoc, ← h, List.take_append_drop]
  refine ⟨_, hs', ?_⟩
  cases r with
  | nil =>
    -- the other text is no longer than the front part either
    have hlength := congrArg List.length h
    simp only [List.length_take, List.take_nil, List.append_nil] at hlength
    rw [List.drop_of_length_le (by omega)]
    rfl
  | cons c r => rfl

/-- The tokens in front of a lexeme, and its own. -/
lemma Text.exists_tokens_cons (h : Laid .ordinary (ls ++ [l]) r) :
    ∃ vs, tokens ((ls ++ [l]).flatMap Lexeme.text ++ r) =
      Lexeme.tokensFrom .start ls ++ l.tokenAt (Text.place (ls.flatMap Lexeme.text)) :: vs := by
  rw [tokens_append h, tokensFrom_append, Position.start_after, List.append_assoc]
  exact ⟨_, rfl⟩

/-! ### Errors -/

/-- Every error is told at a token of the text. -/
lemma Module.exists_settled_of_parse (h : parse s = .error e) :
    ∃ us t vs, s.tokens = us ++ t :: vs ∧ e.span = t.span ∧
      Grammar.Settled Grammar.wholeModule us t (.error e) := by
  obtain ⟨us, x, hx, hspan, hsettled⟩ := settled_of_ofTokens_error s.closed_stream h
  refine ⟨us, x.current, x.ahead, ?_, hspan, hsettled⟩
  rw [← s.toList_stream, hx, TokenStream.toList_behind]
  rfl

/-- Where reading fails at a token that is neither a fault nor the end of the input, it fails in
the same way in every text that is the same up to one code point behind the token. -/
theorem Module.parse_of_take_eq (he : parse s = .error e) (ht : t ∈ s.tokens)
    (hplace : e.span = t.span) (hfault : t.kind ≠ .fault) (hend : t.kind ≠ .endOfInput)
    (hn : s.IsBehind t n) (hs : s'.take (n + 1) = s.take (n + 1)) : parse s' = .error e := by
  obtain ⟨ls, l, r, rfl, hlaid, rfl⟩ := Text.exists_laid_of_mem ht hfault hend
  have hflat : (ls ++ [l]).flatMap Lexeme.text = ls.flatMap Lexeme.text ++ l.text := by simp
  rw [Text.isBehind_tokenAt_iff (hlaid.written l (by simp)) (by rw [hflat]), ← hflat] at hn
  subst hn
  obtain ⟨r', rfl, hr'⟩ := Text.exists_of_take_eq hs
  -- in either text the failure is settled by the tokens up to the one of the lexeme
  obtain ⟨us, t, vs, htokens, hspan, hsettled⟩ := exists_settled_of_parse he
  obtain ⟨rfl, rfl⟩ := Text.tokens_inj_of_span hlaid htokens (hspan.symm.trans hplace)
  obtain ⟨vs', htokens'⟩ := Text.exists_tokens_cons (hlaid.of_head?_eq hr')
  let x : TokenStream := ⟨l.tokenAt (Text.place (ls.flatMap Lexeme.text)), vs'⟩
  have hx : Text.stream ((ls ++ [l]).flatMap Lexeme.text ++ r') =
      x.behind (Lexeme.tokensFrom .start ls) := by
    refine TokenStream.eq_behind ?_
    rw [Text.toList_stream, htokens']
    rfl
  have hclosed := Text.closed_stream ((ls ++ [l]).flatMap Lexeme.text ++ r')
  rw [hx] at hclosed
  rw [parse, hx]
  exact hsettled.ofTokens_behind (hsettled.closed_of_behind hclosed) rfl

/-- A header that begins with the wrong word, whether a colon stands behind it or a literal that is
never closed. -/
theorem Module.parse_of_take_eq_header :
    let _ : Machine := .usual
    let s : Text := "purs :"
    let s' : Text := "purs \"a"
    let t : Token := ⟨.keyword .purs, "purs", ⟨⟨1, 1⟩, ⟨1, 4⟩⟩⟩
    let e : SyntaxError := ⟨.unexpected (.token (.keyword .scala)) t, t.span⟩
    (parse s = .error e ∧ t ∈ s.tokens ∧ t.kind ≠ .fault ∧ t.kind ≠ .endOfInput ∧
      s.IsBehind t 4 ∧ s'.take 5 = s.take 5) ∧ parse s' = .error e := by
  intro _ s s' t e
  have hlaid : Laid .ordinary [⟨[], .keyword .purs, "purs", "purs"⟩, ⟨" ", .mark .colon, ":", ":"⟩]
      [] :=
    .cons .nil (.keyword .purs) (by decide) (by decide) <|
      .cons (.blank (by decide) .nil) (.mark .colon) (by decide) (by decide) .nil
  have hcut := Text.cut_eq_clean_iff.2 ⟨(rfl : s = _), hlaid.layout (.inl .nil)⟩
  have htokens : s.tokens = [t, ⟨.mark .colon, ":", .point ⟨1, 6⟩⟩,
      ⟨.endOfInput, [], ⟨⟨1, 7⟩, ⟨1, 6⟩⟩⟩] := congrArg Cutting.tokens hcut
  have hstream : s.stream = ⟨t, [⟨.mark .colon, ":", .point ⟨1, 6⟩⟩,
      ⟨.endOfInput, [], ⟨⟨1, 7⟩, ⟨1, 6⟩⟩⟩]⟩ :=
    TokenStream.eq_of_toList_eq (s.toList_stream.trans htokens)
  have he : parse s = .error e := by
    rw [parse, hstream]
    rfl
  have ht : t ∈ s.tokens := by simp [htokens]
  have hbehind : s.IsBehind t 4 := ⟨3, by decide, rfl, by decide⟩
  have hs : s'.take 5 = s.take 5 := by decide
  exact ⟨⟨he, ht, by simp [t], by simp [t], hbehind, hs⟩,
    parse_of_take_eq he ht rfl (by simp [t]) (by simp [t]) hbehind hs⟩

end Idl
