/-
# Recognition

Reading a module out of tokens recognises the grammar, and gives up as early as possible.

* `Module.ofTokens_eq_ok_iff` – a module is read exactly if the tokens up to the first end of
  the input spell it, and its types are not nested too deep.
* `Module.ofTokens_fails_at_first_wrong_token` – the error is told at the one token such that the
  tokens before it can still be continued to a module, and with it they cannot.

Both follow from `Grammar.reads_wholeModule`.
-/
import Idl.Proofs.Grammar.Productions

namespace Idl

variable {_ : Machine}

open Grammar Phrase

lemma TokenKind.isEnd_eq_false_iff {k : TokenKind} :
    k.isEnd = false ↔ k ≠ .fault ∧ k ≠ .endOfInput := by
  cases k <;> simp [isEnd]

namespace Grammar

variable {α β : Type} {s : TokenStream}

/-- A sequence of readers succeeds if the first one does, and the second one behind it. -/
lemma bind_eq_ok_iff {P : Grammar α} {Q : α → Grammar β} {b : β} {s'' : TokenStream} :
    (P >>= Q) s = .ok (b, s'') ↔ ∃ a s', P s = .ok (a, s') ∧ Q a s' = .ok (b, s'') := by
  rw [bind_apply]
  rcases P s with e | ⟨a, s'⟩ <;> simp

/-- A module has been read only if the current token is the end of the input. -/
lemma current_of_wholeModule {m : Module} {s' : TokenStream} (h : wholeModule s = .ok (m, s')) :
    s'.current.kind = .endOfInput := by
  unfold wholeModule at h
  simp only [bind_eq_ok_iff] at h
  -- of all that is read, only the last look at the stream matters
  obtain ⟨_, s₁, -, _, s₂, -, _, s₃, -, _, s₄, -, _, s₅, -, t, s₆, ht, h⟩ := h
  by_cases hf : s₅.current.kind = .fault
  · rw [peek_apply_fault hf] at ht
    cases ht
  obtain ⟨rfl, rfl⟩ : s₅.current = t ∧ s₅ = s₆ := by
    simpa [peek_apply hf] using ht
  by_cases hk : s₅.current.kind = .endOfInput
  · rw [if_pos hk] at h
    cases h
    exact hk
  · rw [if_neg hk] at h
    cases h

end Grammar

namespace Module

variable {s : TokenStream} {m : Module}

lemma ofTokens_eq_ok {s' : TokenStream} (h : wholeModule s = .ok (m, s')) :
    ofTokens s = .ok m := by
  change (wholeModule s).map Prod.fst = _
  rw [h]
  rfl

lemma ofTokens_eq_error {e : SyntaxError} (h : wholeModule s = .error e) :
    ofTokens s = .error e := by
  change (wholeModule s).map Prod.fst = _
  rw [h]
  rfl

/-- Whatever the grammar derives is read, as long as it is not nested too deep. -/
lemma ofTokens_of_spelledBy {us rest : List Token} {stop : Token}
    (hs : s.toList = us ++ stop :: rest) (hstop : stop.kind = .endOfInput)
    (hm : m.ContentSpelledBy us) (hnest : m.NestedWithin Machine.nesting) : ofTokens s = .ok m := by
  have hc : s.Closed := ⟨stop, by simp [hs], by simp [hstop, TokenKind.isEnd]⟩
  have hfollows : Follows (· = .endOfInput) (stop :: rest) := ⟨stop, rest, rfl, hstop⟩
  have hreads := reads_wholeModule hc
  unfold Reads at hreads
  split at hreads
  · next m' s' h =>
    -- the tokens that were read, with the next one, leave no other module than the one given
    obtain ⟨w, hw, -, -, -, hfix⟩ := hreads
    have hprefix : w ++ [s'.current] <+: us ++ stop :: rest := by
      rw [← hs, hw, s'.toList_eq_cons]
      simp
    obtain ⟨rfl, -⟩ := hfix m us (stop :: rest) hm hfollows hprefix
    exact ofTokens_eq_ok h
  · -- an error would exclude the module that the tokens spell
    obtain ⟨w, t, rest', hw, -, -, h⟩ := hreads
    have hprefix : w ++ [t] <+: us ++ stop :: rest := by
      rw [← hs, hw]
      simp
    rcases h with ⟨-, hex⟩ | ⟨-, -, hex⟩
    · exact absurd hnest (hex m us (stop :: rest) hm hfollows hprefix)
    · exact absurd trivial (hex m us (stop :: rest) hm hfollows hprefix)

/-- Whatever is read is derived by the grammar, and not nested too deep. -/
lemma spelledBy_of_ofTokens (hc : s.Closed) (h : ofTokens s = .ok m) :
    (∃ us stop rest, s.toList = us ++ stop :: rest ∧ (∀ t ∈ us, t.kind.isEnd = false) ∧
      stop.kind = .endOfInput ∧ m.ContentSpelledBy us) ∧ m.NestedWithin Machine.nesting := by
  have hreads := reads_wholeModule hc
  unfold Reads at hreads
  split at hreads
  · next m' s' hok =>
    obtain rfl : m' = m := by simpa [ofTokens_eq_ok hok] using h
    obtain ⟨w, hw, hends, hm, hnest, -⟩ := hreads
    exact ⟨⟨w, s'.current, s'.ahead, hw, hends, current_of_wholeModule hok, hm⟩, hnest⟩
  · next e herror =>
    rw [ofTokens_eq_error herror] at h
    cases h

/-- Where reading gives up, the tokens before the wrong one begin a module, and with it they do
not. -/
lemma reads_of_ofTokens_error {e : SyntaxError} (hc : s.Closed) (h : ofTokens s = .error e)
    (he : e.problem ≠ .tooDeep) :
    ∃ w t rest, s.toList = w ++ t :: rest ∧ (∀ u ∈ w, u.kind.isEnd = false) ∧ e.span = t.span ∧
      Phrase.Begins ContentSpelledBy w ∧
      Phrase.Excludes ContentSpelledBy (· = .endOfInput) (fun _ => True) w t := by
  have hreads := reads_wholeModule hc
  unfold Reads at hreads
  split at hreads
  · next m' s' hok =>
    rw [ofTokens_eq_ok hok] at h
    cases h
  · next e' herror =>
    obtain rfl : e' = e := by simpa [ofTokens_eq_error herror] using h
    obtain ⟨w, t, rest, hs, hends, hspan, hdeep | ⟨-, hbegins, hex⟩⟩ := hreads
    · exact absurd hdeep.1 he
    · exact ⟨w, t, rest, hs, hends, hspan, hbegins, hex⟩

/-- Tokens that spell a module are refused for its nesting only. -/
lemma problem_of_spelledBy {e : SyntaxError} {us rest : List Token} {stop : Token}
    (hs : s.toList = us ++ stop :: rest) (hstop : stop.kind = .endOfInput)
    (hm : m.ContentSpelledBy us) (h : ofTokens s = .error e) : e.problem = .tooDeep := by
  have hc : s.Closed := ⟨stop, by simp [hs], by simp [hstop, TokenKind.isEnd]⟩
  by_contra he
  obtain ⟨w, t, rest', hw, -, -, -, hex⟩ := reads_of_ofTokens_error hc h he
  refine hex m us (stop :: rest) hm ⟨stop, rest, rfl, hstop⟩ ?_ trivial
  rw [← hs, hw]
  simp

/-- A module is read out of tokens if and only if the tokens up to the first end of the input
hold no fault and spell the module, and none of its types is nested too deep. -/
theorem ofTokens_eq_ok_iff (hc : s.Closed) :
    ofTokens s = .ok m ↔
      (∃ us stop rest, s.toList = us ++ stop :: rest ∧
        (∀ t ∈ us, t.kind ≠ .fault ∧ t.kind ≠ .endOfInput) ∧ stop.kind = .endOfInput ∧
        m.SpelledBy (us ++ [stop])) ∧
      m.NestedWithin Machine.nesting := by
  constructor
  · intro h
    obtain ⟨⟨us, stop, rest, hs, hends, hstop, hm⟩, hnest⟩ := spelledBy_of_ofTokens hc h
    exact ⟨⟨us, stop, rest, hs, fun t ht => TokenKind.isEnd_eq_false_iff.1 (hends t ht), hstop,
      us, stop, hm, hstop, rfl⟩, hnest⟩
  · rintro ⟨⟨us, stop, rest, hs, -, hstop, us', stop', hm, -, heq⟩, hnest⟩
    obtain ⟨rfl, -⟩ := List.append_inj' heq rfl
    exact ofTokens_of_spelledBy hs hstop hm hnest

/-- An annotation behind the type of a field belongs to the field, and one behind the brace to
the declaration; tokens behind the end of the input do not count. -/
theorem ofTokens_annotated_record :
    let _ : Machine := .usual
    ofTokens ⟨⟨.keyword .scala, "scala", default⟩, [⟨.mark .colon, ":", default⟩,
      ⟨.packageName, "a.b", default⟩, ⟨.keyword .purs, "purs", default⟩,
      ⟨.mark .colon, ":", default⟩, ⟨.packageName, "C", default⟩,
      ⟨.keyword .type, "type", default⟩, ⟨.upperName, "T", default⟩,
      ⟨.mark .colon, ":", default⟩, ⟨.mark .openBrace, "\x7b", default⟩,
      ⟨.lowerName, "x", default⟩, ⟨.mark .colon, ":", default⟩,
      ⟨.keyword .int, "Int", default⟩, ⟨.mark .openAngle, "<", default⟩,
      ⟨.lowerName, "near", default⟩, ⟨.mark .closeAngle, ">", default⟩,
      ⟨.mark .closeBrace, "\x7d", default⟩, ⟨.mark .openAngle, "<", .point .start⟩,
      ⟨.lowerName, "far", default⟩, ⟨.mark .closeAngle, ">", default⟩,
      ⟨.endOfInput, [], default⟩, ⟨.fault, [], default⟩]⟩ =
    .ok ⟨[], ⟨"a.b", "C", []⟩, [], [], [⟨"T", .record [⟨"x", .primitive .int,
      [⟨"near", default, []⟩]⟩], [⟨"far", .start, []⟩]⟩]⟩ := by
  intro _
  have htoken (k : TokenKind) (x : Text) (r : Span) : (⟨k, x, r⟩ : Token).kind = k := rfl
  have hnote (name : Text) (r : Span) : Many Annotation.SpelledBy [⟨name, r.first, []⟩] _ :=
    .cons (.mk (htoken (.mark .openAngle) "<" r) (htoken .lowerName name default) .nil
      (htoken (.mark .closeAngle) ">" default)) .nil
  have hexport (w : Keyword) (package : Text) : Phrase.Export w package _ :=
    .mk (htoken (.keyword w) w.spelling default) (htoken (.mark .colon) ":" default)
      (htoken .packageName package default)
  have hfield := Field.SpelledBy.mk (htoken .lowerName "x" default)
    (htoken (.mark .colon) ":" default)
    (.primitive (p := .int) (htoken (.keyword .int) "Int" default) rfl) (hnote "near" default)
  have hbody := Body.SpelledBy.record (htoken (.mark .openBrace) "\x7b" default) hfield .nil
    (htoken (.mark .closeBrace) "\x7d" default)
  have hdeclaration := Declaration.SpelledBy.mk (htoken (.keyword .type) "type" default)
    (htoken .upperName "T" default) (htoken (.mark .colon) ":" default) hbody
    (hnote "far" (.point .start))
  have hmodule := Module.ContentSpelledBy.mk (hexport .scala "a.b") (hexport .purs "C")
    .nil .nil (.cons hdeclaration .nil)
  refine (ofTokens_eq_ok_iff ⟨⟨.fault, [], default⟩, by simp [TokenStream.toList], rfl⟩).2
    ⟨⟨_, _, [⟨.fault, [], default⟩], rfl, ?_, rfl, _, _, hmodule, rfl, rfl⟩, ?_⟩
  · simp
  · decide

/-- If some tokens can be continued to a module, their front parts can. -/
lemma le_of_spelledBy_of_not {ts : List Token} {j k : Nat}
    (hj : ∃ (v : List Token) (m : Module), m.SpelledBy (ts.take j ++ v))
    (hk : ∀ (v : List Token) (m : Module), ¬ m.SpelledBy (ts.take (k + 1) ++ v)) : j ≤ k := by
  obtain ⟨v, m, h⟩ := hj
  by_contra hlt
  have hsplit : ts.take j = ts.take (k + 1) ++ (ts.drop (k + 1)).take (j - (k + 1)) := by
    rw [← List.take_add]
    congr 1
    omega
  rw [hsplit, List.append_assoc] at h
  exact hk _ m h

/-- Where reading gives up, it does so at the one token such that the tokens before it can be
continued to a module, and the tokens up to it cannot. -/
theorem ofTokens_fails_at_first_wrong_token {e : SyntaxError} (hc : s.Closed)
    (h : ofTokens s = .error e) (he : e.problem ≠ .tooDeep) :
    ∃! k, (∃ t, s.toList[k]? = some t ∧ e.span = t.span) ∧
      (∀ t ∈ s.toList.take k, t.kind ≠ .fault ∧ t.kind ≠ .endOfInput) ∧
      (∃ (v : List Token) (m : Module), m.SpelledBy (s.toList.take k ++ v)) ∧
      ∀ (v : List Token) (m : Module), ¬ m.SpelledBy (s.toList.take (k + 1) ++ v) := by
  obtain ⟨w, t, rest, hs, hends, hspan, ⟨m, z, hm, hz⟩, hex⟩ :=
    reads_of_ofTokens_error hc h he
  have htake : s.toList.take w.length = w := by simp [hs]
  have htake' : s.toList.take (w.length + 1) = w ++ [t] := by
    rw [hs, List.take_length_add_append]
    rfl
  have hviable : ∃ (v : List Token) (m : Module), m.SpelledBy (s.toList.take w.length ++ v) := by
    obtain ⟨v, rfl⟩ := hz
    refine ⟨v ++ [⟨.endOfInput, [], default⟩], m, w ++ v, ⟨.endOfInput, [], default⟩, hm, rfl, ?_⟩
    rw [htake, List.append_assoc]
  have hwrong (v : List Token) (m : Module) :
      ¬ m.SpelledBy (s.toList.take (w.length + 1) ++ v) := by
    rintro ⟨us, stop, hm, hstop, heq⟩
    refine hex m us [stop] hm ⟨stop, [], rfl, hstop⟩ ?_ trivial
    exact ⟨v, by rw [← htake', heq]⟩
  refine ⟨w.length, ⟨⟨t, by simp [hs], hspan⟩, ?_, hviable, hwrong⟩, ?_⟩
  · rw [htake]
    exact fun u hu => TokenKind.isEnd_eq_false_iff.1 (hends u hu)
  -- of two such places neither can lie behind the other
  · rintro k ⟨-, -, hviable', hwrong'⟩
    exact Nat.le_antisymm (le_of_spelledBy_of_not hviable' hwrong)
      (le_of_spelledBy_of_not hviable hwrong')

/-- Reading gives up at a literal in the place of a package name. -/
theorem ofTokens_fails_at_literal :
    ∃! k, (∃ t, [(⟨.keyword .scala, "scala", default⟩ : Token), ⟨.mark .colon, ":", default⟩,
        ⟨.string, "a", .point .start⟩, ⟨.endOfInput, [], default⟩][k]? = some t ∧
        Span.point .start = t.span) ∧
      (∀ t ∈ [(⟨.keyword .scala, "scala", default⟩ : Token), ⟨.mark .colon, ":", default⟩,
        ⟨.string, "a", .point .start⟩, ⟨.endOfInput, [], default⟩].take k,
        t.kind ≠ .fault ∧ t.kind ≠ .endOfInput) ∧
      (∃ (v : List Token) (m : Module), m.SpelledBy
        ([⟨.keyword .scala, "scala", default⟩, ⟨.mark .colon, ":", default⟩,
        ⟨.string, "a", .point .start⟩, ⟨.endOfInput, [], default⟩].take k ++ v)) ∧
      ∀ (v : List Token) (m : Module), ¬ m.SpelledBy
        ([⟨.keyword .scala, "scala", default⟩, ⟨.mark .colon, ":", default⟩,
        ⟨.string, "a", .point .start⟩, ⟨.endOfInput, [], default⟩].take (k + 1) ++ v) :=
  ofTokens_fails_at_first_wrong_token
    (s := ⟨⟨.keyword .scala, "scala", default⟩, [⟨.mark .colon, ":", default⟩,
      ⟨.string, "a", .point .start⟩, ⟨.endOfInput, [], default⟩]⟩)
    (e := ⟨.unexpected (.token .packageName) ⟨.string, "a", .point .start⟩, .point .start⟩)
    ⟨⟨.endOfInput, [], default⟩, by simp [TokenStream.toList], rfl⟩
    (show @ofTokens Machine.usual _ = _ from rfl) (by simp)

end Module

end Idl
