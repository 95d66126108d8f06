/-
# Kinds of syntax errors

The kind of a syntax error is determined by the kinds of tokens that could have stood at its place
(`Module.nextKinds`): where the tokens so far make up a module, the error is of the kind
`incomplete`; otherwise it is lexical if it tells of a mistake of spelling, that is of a name in
the place of the only reserved word that could stand there, or of a reserved word where a name
could stand and no reserved word.  Faults are always lexical (`Module.ofTokens_error_kind`).

The reader says by `Grammar.Looks` which tokens it would have passed at the place.  That these are
the tokens that the grammar allows there is seen by reading on with a fault behind such a token.
-/
import Idl.Proofs.Grammar.Kinds
import Idl.Proofs.Grammar.Predictive
import Mathlib.Data.Fintype.EquivFin

namespace Idl

variable {_ : Machine}

open Phrase

/-- How a failure at a token goes with the kinds of tokens that could have stood there. -/
structure Failure.GoesWith (f : Failure) (V : Set TokenKind) (t : Token) : Prop where
  /-- A fault is lexical, and its message is told. -/
  fault : t.kind = .fault → f.kind = .lexical ∧ f.message = t.value
  /-- Input is left over exactly where the end of the input could have stood. -/
  incomplete : f.kind = .incomplete ↔ t.kind ≠ .fault ∧ .endOfInput ∈ V
  /-- Elsewhere a failure is lexical exactly if it is a mistake of spelling. -/
  lexical : t.kind ≠ .fault → .endOfInput ∉ V → (f.kind = .lexical ↔ t.kind.Misspelt V)
  /-- All other tokens are merely unexpected. -/
  unexpected : t.kind ≠ .fault → .endOfInput ∉ V → ¬ t.kind.Misspelt V →
    f.kind = .unexpectedToken

namespace Module

open Grammar

variable {s : TokenStream} {m : Module} {w rest : List Token} {t f : Token} {k : TokenKind}
  {e : SyntaxError}

/-- The kinds of tokens that can stand behind tokens on the way to a module. -/
def nextKinds (w : List Token) : Set TokenKind :=
  {k | ∃ (t : Token) (v : List Token) (m : Module), t.kind = k ∧ m.SpelledBy (w ++ t :: v)}

/-! ### What the grammar allows -/

/-- The tokens of a module end with the only end among them. -/
lemma SpelledBy.cases_next {v : List Token} (h : m.SpelledBy (w ++ t :: v)) :
    t.kind.isEnd = false ∨ t.kind = .endOfInput ∧ m.ContentSpelledBy w := by
  obtain ⟨us, stop, hm, hstop, heq⟩ := h
  rcases v.eq_nil_or_concat' with rfl | ⟨v', stop', rfl⟩
  · obtain ⟨rfl, hlast⟩ := List.append_inj' heq rfl
    obtain rfl := List.singleton_inj.1 hlast
    exact .inr ⟨hstop, hm⟩
  · rw [← List.cons_append, ← List.append_assoc] at heq
    obtain ⟨rfl, -⟩ := List.append_inj' heq rfl
    exact .inl (hm.isEnd_eq_false t (by simp))

lemma fault_notMem_nextKinds : .fault ∉ nextKinds w := by
  rintro ⟨t, v, m, ht, h⟩
  rcases h.cases_next with hend | ⟨hend, -⟩ <;> simp [ht, TokenKind.isEnd] at hend

/-- The end of the input can stand next exactly behind the tokens of a whole module. -/
lemma endOfInput_mem_nextKinds_iff :
    .endOfInput ∈ nextKinds w ↔ ∃ m : Module, m.ContentSpelledBy w := by
  constructor
  · rintro ⟨t, v, m, ht, h⟩
    rcases h.cases_next with hend | ⟨-, hm⟩
    · simp [ht, TokenKind.isEnd] at hend
    · exact ⟨m, hm⟩
  · rintro ⟨m, hm⟩
    exact ⟨⟨.endOfInput, [], default⟩, [], m, rfl, w, _, hm, rfl, rfl⟩

lemma closed_of_spelledBy {v : List Token} (h : m.SpelledBy (w ++ t :: v)) :
    (⟨t, v⟩ : TokenStream).Closed := by
  obtain ⟨us, stop, -, hstop, heq⟩ := h
  have hlast := congrArg List.getLast? heq
  rw [List.getLast?_append_cons, List.getLast?_concat] at hlast
  exact ⟨stop, List.mem_of_getLast? hlast, by simp [hstop, TokenKind.isEnd]⟩

/-- What the reader gives up at is spelled by no module. -/
lemma not_spelledBy_of_error (h : wholeModule s = .error e) (he : e.problem ≠ .tooDeep) :
    ¬ m.SpelledBy s.toList := by
  rintro ⟨us, stop, hm, hstop, hs⟩
  exact he (problem_of_spelledBy hs hstop hm (ofTokens_eq_error h))

lemma notMem_nextKinds_of_refuses (h : Refuses (wholeModule.past w) k) : k ∉ nextKinds w := by
  rintro ⟨t, v, m, ht, hm⟩
  have hc := closed_of_spelledBy hm
  obtain ⟨e, he, hdeep, -⟩ := h ⟨t, v⟩ hc ht
  refine not_spelledBy_of_error he hdeep (m := m) ?_
  rwa [TokenStream.toList_behind]

/-! ### Reading on with a fault -/

instance : Infinite Span :=
  .of_injective (fun n : ℕ => Span.point ⟨n, 0⟩) fun _ _ h =>
    Int.ofNat.inj (congrArg (fun p => p.first.line) h)

/-- There are faults at other places than those of some tokens. -/
lemma exists_fault_apart (w : List Token) :
    ∃ f : Token, f.kind = .fault ∧ ∀ t ∈ w, t.span ≠ f.span := by
  obtain ⟨p, hp⟩ := Infinite.exists_notMem_finset (w.map Token.span).toFinset
  refine ⟨⟨.fault, [], p⟩, rfl, ?_⟩
  rintro t ht rfl
  exact hp (List.mem_toFinset.2 (List.mem_map_of_mem ht))

/-- Tokens behind which a fault is told can be continued to a module. -/
lemma spelledBy_of_reaches (hf : f.kind = .fault) (hw : ∀ t ∈ w, t.span ≠ f.span)
    (h : wholeModule (.behind w ⟨f, []⟩) = .error ⟨.fault f.value, f.span⟩) :
    (∀ t ∈ w, t.kind.isEnd = false) ∧ ∃ (v : List Token) (m : Module), m.SpelledBy (w ++ v) := by
  have hc : (TokenStream.behind w ⟨f, []⟩).Closed :=
    (TokenStream.closed_of_fault (s := ⟨f, []⟩) hf).behind w
  obtain ⟨w', t, rest, hs, hends, hspan, hbegins, -⟩ :=
    reads_of_ofTokens_error hc (ofTokens_eq_error h) (by simp)
  rw [TokenStream.toList_behind] at hs
  change w ++ [f] = w' ++ t :: rest at hs
  -- the error is told at the fault, since no other token stands at its place
  obtain rfl : w = w' := by
    rcases rest.eq_nil_or_concat' with rfl | ⟨rest', f', rfl⟩
    · exact (List.append_inj' hs rfl).1
    · rw [← List.cons_append, ← List.append_assoc] at hs
      obtain ⟨rfl, -⟩ := List.append_inj' hs rfl
      exact absurd hspan.symm (hw t (by simp))
  obtain ⟨m, z, hm, v, rfl⟩ := hbegins
  let stop : Token := ⟨.endOfInput, [], default⟩
  exact ⟨hends, v ++ [stop], m, w ++ v, stop, hm, rfl, (List.append_assoc _ _ _).symm⟩

/-- A module is never returned in front of a fault. -/
lemma error_of_or {s₁ : TokenStream} (hf : f.kind = .fault)
    (h : wholeModule s₁ = .error e ∨ ∃ m, wholeModule s₁ = .ok (m, ⟨f, []⟩)) :
    wholeModule s₁ = .error e := by
  refine h.resolve_right ?_
  rintro ⟨m, hm⟩
  have hend := current_of_wholeModule hm
  rw [hf] at hend
  cases hend

lemma exists_spelledBy_of_tells (h : Tells (wholeModule.past w)) :
    ∃ (v : List Token) (m : Module), m.SpelledBy (w ++ v) := by
  obtain ⟨f, hf, hw⟩ := exists_fault_apart w
  exact (spelledBy_of_reaches hf hw (error_of_or hf (h ⟨f, []⟩ hf))).2

lemma mem_nextKinds_of_takes (h : Takes (wholeModule.past w) k) :
    k ∈ nextKinds w ∧ k.isEnd = false := by
  let t : Token := ⟨k, [], default⟩
  obtain ⟨f, hf, hw⟩ := exists_fault_apart (w ++ [t])
  have herror : wholeModule (.behind (w ++ [t]) ⟨f, []⟩) = .error ⟨.fault f.value, f.span⟩ := by
    rw [TokenStream.behind_append]
    exact error_of_or hf (h t f rfl hf)
  obtain ⟨hends, v, m, hm⟩ := spelledBy_of_reaches hf hw herror
  rw [List.append_assoc] at hm
  exact ⟨⟨t, v, m, rfl, hm⟩, hends t (by simp)⟩

/-! ### What the reader allows -/

lemma past_wholeModule (w : List Token) : wholeModule.past w = content.past w >>= finish := by
  rw [wholeModule_eq, past_bind]

lemma tells_past (h : Tells (content.past w)) : Tells (wholeModule.past w) := by
  rw [past_wholeModule]
  exact tells_bind h fun m => (stops_finish m).tells

lemma takes_past (h : Takes (content.past w) k) : Takes (wholeModule.past w) k := by
  rw [past_wholeModule]
  exact takes_bind h fun m => (stops_finish m).tells

lemma refuses_past (h : Refuses (content.past w) k) : Refuses (wholeModule.past w) k := by
  rw [past_wholeModule]
  exact refuses_bind h

/-- Behind a whole module, everything but the end of the input is refused. -/
lemma refuses_past_of_leaves (h : Leaves (content.past w) m k) (hf : k ≠ .fault)
    (hk : k ≠ .endOfInput) : Refuses (wholeModule.past w) k := by
  rw [past_wholeModule]
  refine h.refuses_bind ?_
  rintro s - rfl
  refine ⟨⟨.trailing s.current, s.current.span⟩, ?_, by simp, rfl⟩
  rw [finish, peek_bind_apply hf, if_neg hk]
  rfl

lemma endOfInput_mem_of_done {C : Set TokenKind} (h : Done (content.past w) m C k) :
    .endOfInput ∈ nextKinds w := by
  rcases h.cases .endOfInput (by simp) with ⟨htakes, -⟩ | hleaves
  · cases (mem_nextKinds_of_takes (takes_past htakes)).2
  let stop : TokenStream := ⟨⟨.endOfInput, [], default⟩, []⟩
  have hc : stop.Closed := ⟨stop.current, by simp [TokenStream.toList], rfl⟩
  have hok : wholeModule (stop.behind w) = .ok (m, stop) := by
    show wholeModule.past w stop = _
    rw [past_wholeModule, hleaves.bind_apply hc rfl, finish, peek_bind_apply (by simp [stop]),
      if_pos rfl]
    rfl
  -- the tokens that were read are all but the end
  have hreads := reads_wholeModule (hc.behind w)
  rw [Reads, hok] at hreads
  obtain ⟨w', hw, -, hm, -⟩ := hreads
  rw [TokenStream.toList_behind] at hw
  obtain rfl := List.append_cancel_right hw
  exact endOfInput_mem_nextKinds_iff.2 ⟨m, hm⟩

section

variable {V : Set TokenKind} {p : Problem}

lemma notMem_nextKinds_of_stuck (h : Stuck (content.past w) V p k) : k ∉ nextKinds w :=
  notMem_nextKinds_of_refuses (refuses_past h.refuses)

lemma endOfInput_notMem_of_stuck (h : Stuck (content.past w) V p k) :
    .endOfInput ∉ nextKinds w := by
  rcases h.cases .endOfInput (by simp) with htakes | hrefuses
  · cases (mem_nextKinds_of_takes (takes_past htakes)).2
  · exact notMem_nextKinds_of_refuses (refuses_past hrefuses)

/-- The tokens that the reader would have passed where it has given up are those that can stand
there. -/
lemma ahead_content (h : Stuck (content.past w) V p k) : ahead content ∅ w = nextKinds w := by
  ext x
  rw [mem_ahead]
  constructor
  · rintro (hx | ⟨-, hx⟩)
    · exact (mem_nextKinds_of_takes (takes_past hx)).1
    · cases hx
  · intro hx
    have hne : x ≠ .fault := by
      rintro rfl
      exact fault_notMem_nextKinds hx
    refine .inl ((h.cases x hne).resolve_right fun hrefuses => ?_)
    exact notMem_nextKinds_of_refuses (refuses_past hrefuses) hx

end

/-! ### The rule -/

lemma goesWith_fault {V : Set TokenKind} (ht : t.kind = .fault) (hp : e.problem = .fault t.value) :
    e.failure.GoesWith V t := by
  obtain ⟨p, r⟩ := e
  obtain rfl : p = .fault t.value := hp
  exact ⟨fun _ => ⟨rfl, rfl⟩, by simp [SyntaxError.failure, Problem.kind, ht],
    fun h => absurd ht h, fun h => absurd ht h⟩

/-- Where the reader has given up, the problem suits the tokens that could stand there, and the
end of the input is none of them. -/
lemma goesWith_of_stuck (ht : t.kind ≠ .fault)
    (h : Stuck (content.past w) (ahead content ∅ w) e.problem t.kind) :
    e.failure.GoesWith (nextKinds w) t := by
  have hend := endOfInput_notMem_of_stuck h
  have hsuits := h.suits
  rw [ahead_content h] at hsuits
  refine ⟨fun hf => absurd hf ht, ?_, fun _ _ => ?_, fun _ _ hspelt => ?_⟩
  · rcases hsuits with ⟨hkind, -⟩ | ⟨hkind, -⟩ <;>
      simp [SyntaxError.failure, hkind, hend]
  · rcases hsuits with ⟨hkind, hspelt⟩ | ⟨hkind, hspelt⟩ <;>
      simp [SyntaxError.failure, hkind, hspelt]
  · rcases hsuits with ⟨-, hmisspelt⟩ | ⟨hkind, -⟩
    · exact absurd hmisspelt hspelt
    · exact hkind

lemma goesWith_trailing (ht : t.kind ≠ .fault) (hend : .endOfInput ∈ nextKinds w)
    (hp : e.problem = .trailing t) : e.failure.GoesWith (nextKinds w) t := by
  refine ⟨fun hf => absurd hf ht, ?_, fun _ h => absurd hend h, fun _ h => absurd hend h⟩
  simp [SyntaxError.failure, hp, Problem.kind, ht, hend]

/-- Where reading fails, the tokens so far can be continued, the next one is not among those that
can stand there, and the failure is of the kind that goes with these. -/
lemma exists_of_ofTokens_error (hc : s.Closed) (h : ofTokens s = .error e)
    (he : e.problem ≠ .tooDeep) :
    ∃ w t rest, s.toList = w ++ t :: rest ∧ e.span = t.span ∧
      (∃ (v : List Token) (m : Module), m.SpelledBy (w ++ v)) ∧ t.kind ∉ nextKinds w ∧
      e.failure.GoesWith (nextKinds w) t := by
  have hlooks := looks_content hc
  rcases hcontent : content s with e' | ⟨m, s'⟩
  · obtain ⟨w, t, rest, hs, -, hspan, htells, hcases⟩ := (looks_iff_of_error hcontent).1 hlooks
    have hviable := exists_spelledBy_of_tells (tells_past htells)
    have hwhole : wholeModule s = .error e' := by
      rw [wholeModule_eq, bind_apply, hcontent]
    obtain rfl := Except.error.inj ((ofTokens_eq_error hwhole).symm.trans h)
    refine ⟨w, t, rest, hs, hspan, hviable, ?_⟩
    rcases hcases with ⟨hf, hp⟩ | ⟨hf, hdeep | ⟨-, hstuck⟩⟩
    · refine ⟨?_, goesWith_fault hf hp⟩
      rw [hf]
      exact fault_notMem_nextKinds
    · exact absurd hdeep he
    · exact ⟨notMem_nextKinds_of_stuck hstuck, goesWith_of_stuck hf hstuck⟩
  · obtain ⟨w, hs, -, hdone⟩ := (looks_iff_of_ok hcontent).1 hlooks
    have hviable := exists_spelledBy_of_tells (tells_past hdone.tells)
    have hend := endOfInput_mem_of_done hdone
    have hwhole : wholeModule s = finish m s' := by
      rw [wholeModule_eq, bind_apply, hcontent]
    by_cases hf : s'.current.kind = .fault
    · rw [stops_finish m s' hf] at hwhole
      obtain rfl := Except.error.inj ((ofTokens_eq_error hwhole).symm.trans h)
      refine ⟨w, s'.current, s'.ahead, hs, rfl, hviable, ?_, goesWith_fault hf rfl⟩
      rw [hf]
      exact fault_notMem_nextKinds
    rw [finish, peek_bind_apply hf] at hwhole
    by_cases hk : s'.current.kind = .endOfInput
    · rw [if_pos hk, pure_apply] at hwhole
      rw [ofTokens_eq_ok hwhole] at h
      cases h
    · rw [if_neg hk] at hwhole
      obtain rfl := Except.error.inj ((ofTokens_eq_error hwhole).symm.trans h)
      refine ⟨w, s'.current, s'.ahead, hs, rfl, hviable, ?_, goesWith_trailing hf hend rfl⟩
      exact notMem_nextKinds_of_refuses (refuses_past_of_leaves hdone.leaves hf hk)

/-- Where reading fails, it does so at the first token that is wrong, and the kind of the failure
is determined by the token and by the kinds of tokens that could have stood in its place. -/
theorem ofTokens_error_kind (hc : s.Closed) (h : ofTokens s = .error e)
    (he : e.problem ≠ .tooDeep) :
    ∃ k t, s.toList[k]? = some t ∧ e.span = t.span ∧
      (∃ (v : List Token) (m : Module), m.SpelledBy (s.toList.take k ++ v)) ∧
      (∀ (v : List Token) (m : Module), ¬ m.SpelledBy (s.toList.take (k + 1) ++ v)) ∧
      e.failure.GoesWith (nextKinds (s.toList.take k)) t ∧
      (.endOfInput ∈ nextKinds (s.toList.take k) ↔
        ∃ m : Module, m.ContentSpelledBy (s.toList.take k)) := by
  obtain ⟨w, t, rest, hs, hspan, hviable, hnext, hkind⟩ := exists_of_ofTokens_error hc h he
  have htake : s.toList.take w.length = w := by simp [hs]
  have htake' : s.toList.take (w.length + 1) = w ++ [t] := by
    rw [hs, List.take_length_add_append]
    rfl
  refine ⟨w.length, t, by simp [hs], hspan, ?_⟩
  rw [htake, htake']
  refine ⟨hviable, fun v m hm => hnext ⟨t, v, m, rfl, ?_⟩, hkind, endOfInput_mem_nextKinds_iff⟩
  rwa [List.append_assoc] at hm

/-- A name in the place of the second header word is a mistake of spelling. -/
theorem ofTokens_error_kind_header :
    let _ : Machine := .usual
    let s : TokenStream := ⟨⟨.keyword .scala, "scala", default⟩, [⟨.mark .colon, ":", default⟩,
      ⟨.packageName, "a", default⟩, ⟨.lowerName, "pure", .point .start⟩,
      ⟨.endOfInput, [], default⟩]⟩
    let e : SyntaxError := ⟨.missingWord .purs "pure", .point .start⟩
    s.Closed ∧ ofTokens s = .error e ∧ e.problem ≠ .tooDeep ∧
      ∃ k t, s.toList[k]? = some t ∧ e.span = t.span ∧
        (∃ (v : List Token) (m : Module), m.SpelledBy (s.toList.take k ++ v)) ∧
        (∀ (v : List Token) (m : Module), ¬ m.SpelledBy (s.toList.take (k + 1) ++ v)) ∧
        e.failure.GoesWith (nextKinds (s.toList.take k)) t ∧
        (.endOfInput ∈ nextKinds (s.toList.take k) ↔
          ∃ m : Module, m.ContentSpelledBy (s.toList.take k)) := by
  intro _ s e
  have hc : s.Closed := ⟨⟨.endOfInput, [], default⟩, by simp [s, TokenStream.toList], rfl⟩
  have he : e.problem ≠ .tooDeep := by simp [e]
  have hs : ofTokens s = .error e := rfl
  exact ⟨hc, hs, he, ofTokens_error_kind hc hs he⟩

end Module

end Idl
