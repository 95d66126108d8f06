/-
# Readers pass tokens, and never an end

The tokens of a stream up to its first end are all that a reader can pass
(`Grammar.Consumes`): it stops in front of one of them or in front of the end, and whatever stands
behind the end makes no difference.  Every round of a repetition passes at least one token, and so
does the way down to the type inside an `Array` or a `Maybe` (`Grammar.Progresses`).  For the whole
module this gives the bound on what is read, and that only the tokens up to the first end count
(`Module.ofTokens_progress`).
-/
import Idl.Proofs.Grammar.Locality

namespace Idl

variable {_ : Machine}

namespace TokenStream

variable {rest us : List Token} {s : TokenStream} {stop : Token}

/-- The stream of some tokens, a token that stops behind them, and any others behind that. -/
def upTo (us : List Token) (stop : Token) (rest : List Token) : TokenStream :=
  behind us ⟨stop, rest⟩

lemma toList_upTo (us : List Token) (stop : Token) (rest : List Token) :
    (upTo us stop rest).toList = us ++ stop :: rest :=
  toList_behind us _

lemma current_upTo (us : List Token) (stop : Token) (rest : List Token) :
    (upTo us stop rest).current = us.headD stop := by
  cases us <;> rfl

lemma closed_upTo (hstop : stop.kind.isEnd) : (upTo us stop rest).Closed :=
  ⟨stop, by simp [toList_upTo], hstop⟩

lemma behind_upTo (w us : List Token) (stop : Token) (rest : List Token) :
    (upTo us stop rest).behind w = upTo (w ++ us) stop rest :=
  (behind_append w us _).symm

lemma next_upTo (u : Token) (us : List Token) (stop : Token) (rest : List Token) :
    (upTo (u :: us) stop rest).next = upTo us stop rest := by
  cases us <;> rfl

lemma ofList_eq_upTo (h : us ++ stop :: rest ≠ []) :
    ofList (us ++ stop :: rest) h = upTo us stop rest := by
  cases us <;> rfl

/-- Tokens that are no ends and stand in front of a stream up to an end are some of the first. -/
lemma exists_append_of_upTo_eq {w : List Token} (h : upTo us stop rest = s.behind w)
    (hw : ∀ u ∈ w, u.kind.isEnd = false) (hstop : stop.kind.isEnd) :
    ∃ vs, us = w ++ vs ∧ s = upTo vs stop rest := by
  have hlist := congrArg toList h
  rw [toList_upTo, toList_behind] at hlist
  rcases List.append_eq_append_iff.1 hlist with ⟨vs, rfl, hvs⟩ | ⟨vs, rfl, hvs⟩
  · cases vs with
    | nil => exact ⟨[], by simp, eq_of_toList_eq (by simpa [toList_upTo] using hvs.symm)⟩
    | cons u vs =>
      obtain rfl : stop = u := (List.cons.inj hvs).1
      exact absurd hstop (by simp [hw stop (by simp)])
  · exact ⟨vs, rfl, eq_of_toList_eq (by rw [hvs, toList_upTo])⟩

end TokenStream

namespace Grammar

open TokenStream

variable {α β : Type} {P : Grammar α} {k : TokenKind} {n : ℕ} {part : Grammar α}
  {r : Except SyntaxError α} {rest us w : List Token} {s : TokenStream} {stop : Token}

/-- What comes of the reader in front of some tokens and an end: it passes the first `n` of the
tokens, and returns in front of the next one or gives up at it, whatever stands behind the end. -/
structure Consumes (P : Grammar α) (us : List Token) (stop : Token) (n : ℕ)
    (r : Except SyntaxError α) : Prop where
  bound : n ≤ us.length
  place : ∀ e, r = .error e → e.span = ((us.drop n).headD stop).span
  outcome : ∀ rest, P (upTo us stop rest) = r.map (·, upTo (us.drop n) stop rest)

/-- What is settled by the tokens up to the next one stays in front of the first end. -/
lemma Settled.consumes (h : Settled P w s.current r) (heq : upTo us stop rest = s.behind w)
    (hstop : stop.kind.isEnd) : Consumes P us stop w.length r := by
  obtain ⟨vs, rfl, rfl⟩ := exists_append_of_upTo_eq heq h.passed hstop
  rw [current_upTo] at h
  refine ⟨by simp, by simpa using h.place, fun rest' => ?_⟩
  rw [← behind_upTo, List.drop_left]
  exact h.outcome _ (closed_upTo hstop) (current_upTo vs stop rest')

lemma LocalAt.exists_consumes (h : LocalAt P (upTo us stop rest)) (hstop : stop.kind.isEnd) :
    ∃ n r, Consumes P us stop n r := by
  obtain ⟨w, s', r, heq, h⟩ := h
  exact ⟨w.length, r, h.consumes heq hstop⟩

/-- A reader that comes to a fault behind the current token has passed that token where it returns a
value. -/
lemma Settled.ne_nil_of_takes {a : α} (h : Settled P w s.current (.ok a))
    (ht : Takes P (s.behind w).current.kind) : w ≠ [] := by
  rintro rfl
  let f : Token := ⟨.fault, [], default⟩
  have hclosed : TokenStream.Closed ⟨s.current, [f]⟩ := closed_of_fault_ahead rfl _
  have happly : P ⟨s.current, [f]⟩ = .ok (a, ⟨s.current, [f]⟩) := h.outcome _ hclosed rfl
  rcases ht s.current f rfl rfl with h' | ⟨a', h'⟩ <;> rw [happly] at h'
  · cases h'
  · exact absurd (congrArg (fun p => p.2.ahead) (Except.ok.inj h')) (by simp)

/-! ### The readers of the grammar -/

/-- The repetitions of the grammar: the kind of the token at which there is one more round, and
what is read in it. -/
inductive Repeats [Machine] : {α : Type} → TokenKind → Grammar α → Prop
  | imports : Repeats (.keyword .imports) importPackage
  | declarations : Repeats (.keyword .type) declaration
  | fields : Repeats (.mark .comma) do discard advance; field
  | variants : Repeats (.mark .pipe) do
      discard advance
      return (← expectName .upperName .variant).value
  | segments : Repeats (.mark .dot) do
      discard advance
      return (← expectName .upperName .segment).value
  | annotations : Repeats (.mark .openAngle) annotation
  | params : Repeats .lowerName param

/-- The readers of the grammar, each with the kinds of the current token at which it is called. -/
inductive Called [Machine] : {α : Type} → TokenKind → Grammar α → Prop
  | expect (k : TokenKind) {x : TokenKind} (hx : x.isEnd = false) : Called k (expect x)
  | expectName (k : TokenKind) {x : TokenKind} (hx : x.isEnd = false) (role : NameRole) :
    Called k (expectName x role)
  | wholeModule (k : TokenKind) : Called k wholeModule
  | exportPackage (k : TokenKind) (w : Keyword) : Called k (exportPackage w)
  | body (k : TokenKind) : Called k body
  | record : Called (.mark .openBrace) record
  | field (k : TokenKind) : Called k field
  | sum : Called (.mark .openBracket) sum
  | typeExpr (k : TokenKind) (limit : ℕ) : Called k (typeExpr limit)
  | array (limit : ℕ) : Called (.keyword .array) (typeExpr.argument limit)
  | maybe (limit : ℕ) : Called (.keyword .maybe) (typeExpr.argument limit)
  | reference (k : TokenKind) : Called k reference
  | round {α : Type} {k : TokenKind} {part : Grammar α} (h : Repeats k part) : Called k part
  | repetition {α : Type} {k : TokenKind} {part : Grammar α} (h : Repeats k part)
      (k' : TokenKind) : Called k' (whileAt k part)

lemma Repeats.isEnd_eq_false (h : Repeats k part) : k.isEnd = false := by
  cases h <;> rfl

/-- Every round begins by passing the token at which it is called. -/
lemma Repeats.takes (h : Repeats k part) : Takes part k := by
  cases h with
  | imports => exact opens_importPackage.takes
  | declarations => exact opens_declaration.takes
  | fields => exact opens_fieldBehind.takes
  | variants => exact (opens_nameBehind .pipe .variant).takes
  | segments => exact (opens_nameBehind .dot .segment).takes
  | annotations => exact opens_annotation.takes
  | params => exact opens_param.takes

lemma Repeats.localFrom (h : Repeats k part) : LocalFrom k part := by
  cases h with
  | imports => exact local_importPackage.localFrom _
  | declarations => exact local_declaration.localFrom _
  | fields => exact localFrom_discard_advance rfl local_field
  | variants => exact localFrom_discard_advance rfl ((local_expectName rfl _).map _)
  | segments => exact localFrom_discard_advance rfl ((local_expectName rfl _).map _)
  | annotations => exact localFrom_annotation
  | params => exact localFrom_param

lemma Called.localFrom (h : Called k P) : LocalFrom k P := by
  cases h with
  | expect _ hx => exact (local_expect hx).localFrom k
  | expectName _ hx role => exact (local_expectName hx role).localFrom k
  | wholeModule => exact local_wholeModule.localFrom k
  | exportPackage _ w => exact (local_exportPackage w).localFrom k
  | body => exact local_body.localFrom k
  | record => exact localFrom_record
  | field => exact local_field.localFrom k
  | sum => exact localFrom_sum
  | typeExpr _ limit => exact (local_typeExpr limit).localFrom k
  | array limit => exact localFrom_argument rfl (local_typeExpr limit)
  | maybe limit => exact localFrom_argument rfl (local_typeExpr limit)
  | reference => exact local_reference.localFrom k
  | round h => exact h.localFrom
  | repetition h => exact (local_whileAt h.isEnd_eq_false h.localFrom).localFrom k

/-! ### Progress -/

/-- A reader that is called in front of the first end stops in front of it. -/
lemma Called.exists_consumes (h : Called k P) (hk : (us.headD stop).kind = k)
    (hstop : stop.kind.isEnd) : ∃ n r, Consumes P us stop n r :=
  (h.localFrom (upTo us stop []) (closed_upTo hstop) (by rwa [current_upTo])).exists_consumes hstop

/-- A round that is complete has passed at least one token. -/
lemma Repeats.exists_consumes (h : Repeats k part) (hk : (us.headD stop).kind = k)
    (hstop : stop.kind.isEnd) :
    ∃ n r, Consumes part us stop n r ∧ ∀ a, r = .ok a → 0 < n := by
  have hcurrent : (upTo us stop []).current.kind = k := by rwa [current_upTo]
  obtain ⟨w, s', r, heq, hsettled⟩ := h.localFrom _ (closed_upTo hstop) hcurrent
  refine ⟨w.length, r, hsettled.consumes heq hstop, ?_⟩
  rintro a rfl
  have htakes : Takes part (s'.behind w).current.kind := by
    rw [← heq, hcurrent]
    exact h.takes
  exact List.length_pos_iff.2 (hsettled.ne_nil_of_takes htakes)

/-- Behind a token more, fewer are left. -/
lemma Consumes.length_ahead_lt (h : Consumes P us stop n r) (hn : 0 < n) (rest : List Token) :
    (upTo (us.drop n) stop rest).ahead.length < (upTo us stop rest).ahead.length := by
  have hpassed : us.take n ≠ [] := by
    have hbound := h.bound
    rw [← List.length_pos_iff, List.length_take]
    omega
  have hlt := (upTo (us.drop n) stop rest).length_ahead_lt_iff.2 hpassed
  rwa [behind_upTo, List.take_append_drop] at hlt

/-- No repetition is cut short for want of progress: it is one round and then the others. -/
lemma Repeats.whileAt_upTo (h : Repeats k part) (hk : (us.headD stop).kind = k)
    (hstop : stop.kind.isEnd) (rest : List Token) :
    whileAt k part (upTo us stop rest) =
      (part >>= fun a => whileAt k part >>= fun as => pure (a :: as)) (upTo us stop rest) := by
  obtain ⟨n, r, hconsumes, hpos⟩ := h.exists_consumes hk hstop
  rw [whileAt_apply_cons h.isEnd_eq_false (by rwa [current_upTo]), bind_apply, bind_apply,
    hconsumes.outcome rest]
  rcases r with e | a
  · rfl
  · exact if_pos (hconsumes.length_ahead_lt (hpos a rfl) rest)

/-- The way down to the type inside angles passes two tokens, or ends before that type is read. -/
lemma argument_upTo (hk : (us.headD stop).kind.isEnd = false) (hstop : stop.kind.isEnd) :
    (2 ≤ us.length ∧ ∀ limit rest, typeExpr.argument limit (upTo us stop rest) =
      (typeExpr limit >>= fun inner => expect (.mark .closeAngle) >>= fun _ => pure inner)
        (upTo (us.drop 2) stop rest)) ∨
    ∃ e, ∀ limit rest, typeExpr.argument limit (upTo us stop rest) = .error e := by
  have hne {vs : List Token} (h : (vs.headD stop).kind.isEnd = false) :
      ∃ v vs', vs = v :: vs' := by
    cases vs with
    | nil => exact absurd hstop (by simpa using h)
    | cons v vs' => exact ⟨v, vs', rfl⟩
  obtain ⟨u, us, rfl⟩ := hne hk
  -- behind the word, all depends on whether the angle is there
  have hfirst (limit : ℕ) (rest : List Token) : typeExpr.argument limit (upTo (u :: us) stop rest) =
      (expect (.mark .openAngle) >>= fun _ => typeExpr limit >>= fun inner =>
        expect (.mark .closeAngle) >>= fun _ => pure inner) (upTo us stop rest) := by
    have hcurrent : (upTo (u :: us) stop rest).current.kind ≠ .fault := ne_fault_of_isEnd hk
    rw [typeExpr.argument]
    simp only [discard_bind]
    rw [bind_apply, advance_apply hcurrent, next_upTo]
  have hend : (TokenKind.mark .openAngle).isEnd = false := rfl
  by_cases hangle : (us.headD stop).kind = .mark .openAngle
  · have hopen : (us.headD stop).kind.isEnd = false := by rw [hangle]; rfl
    obtain ⟨v, vs, rfl⟩ := hne hopen
    refine .inl ⟨by simp, fun limit rest => ?_⟩
    have hpassed := (passes_expect (s := upTo (v :: vs) stop rest) hend).resolve_right
      fun h => h.1 hangle
    rw [hfirst, bind_apply, hpassed.2, next_upTo]
    rfl
  · obtain ⟨n, r, hconsumes⟩ :=
      (local_expect hend (upTo us stop []) (closed_upTo hstop)).exists_consumes hstop
    have hfails := ((passes_expect (s := upTo us stop []) hend).resolve_left
      fun h => hangle (by rw [← current_upTo us stop []]; exact h.1)).2
    obtain ⟨e, he, -⟩ := hfails
    obtain rfl : r = .error e := by
      rw [hconsumes.outcome] at he
      cases r with
      | error e' => exact congrArg Except.error (Except.error.inj he)
      | ok a => cases he
    exact .inr ⟨e, fun limit rest => by rw [hfirst, bind_apply, hconsumes.outcome]; rfl⟩

/-- How the readers get on in front of some tokens and an end: whichever is called stops in front
of the end; each round of a repetition that is complete has passed a token, so that the repetition
goes on behind it; and the type inside an `Array` or a `Maybe` is read two tokens further, if at
all. -/
structure Progresses [Machine] (us : List Token) (stop : Token) : Prop where
  calls : ∀ {α : Type} {k : TokenKind} {P : Grammar α}, Called k P → (us.headD stop).kind = k →
    ∃ n r, Consumes P us stop n r
  rounds : ∀ {α : Type} {k : TokenKind} {part : Grammar α}, Repeats k part →
    (us.headD stop).kind = k →
      (∃ n r, Consumes part us stop n r ∧ ∀ a, r = .ok a → 0 < n) ∧
      ∀ rest, whileAt k part (upTo us stop rest) =
        (part >>= fun a => whileAt k part >>= fun as => pure (a :: as)) (upTo us stop rest)
  descents : (us.headD stop).kind = .keyword .array ∨ (us.headD stop).kind = .keyword .maybe →
    (2 ≤ us.length ∧ ∀ limit rest, typeExpr.argument limit (upTo us stop rest) =
      (typeExpr limit >>= fun inner => expect (.mark .closeAngle) >>= fun _ => pure inner)
        (upTo (us.drop 2) stop rest)) ∨
    ∃ e, ∀ limit rest, typeExpr.argument limit (upTo us stop rest) = .error e

lemma progresses [Machine] (us : List Token) (hstop : stop.kind.isEnd) : Progresses us stop where
  calls h hk := h.exists_consumes hk hstop
  rounds h hk := ⟨h.exists_consumes hk hstop, h.whileAt_upTo hk hstop⟩
  descents hk := by
    refine argument_upTo ?_ hstop
    rcases hk with hk | hk <;> rw [hk] <;> rfl

end Grammar

/-! ### Modules -/

namespace Module

open Grammar TokenStream

/-- The tokens of a list up to the first end. -/
lemma exists_upTo {tokens : List Token} (h : ∃ t ∈ tokens, t.kind.isEnd) :
    ∃ us stop rest, tokens = us ++ stop :: rest ∧ (∀ u ∈ us, u.kind.isEnd = false) ∧
      stop.kind.isEnd := by
  obtain ⟨t, ht, hend⟩ := h
  obtain ⟨stop, us, rest, hus, hstop, htokens, -⟩ :=
    List.exists_of_eraseP (p := fun t => t.kind.isEnd) ht hend
  exact ⟨us, stop, rest, htokens, fun u hu => Bool.eq_false_iff.2 (hus u hu), hstop⟩

/-- Where a list of tokens holds an end, every reader makes progress at each place up to the first
one and none passes it.  So the module is read out of no more tokens than stand in front of it, out
of all of them if it is read at all, and the outcome is the same whatever stands behind. -/
theorem ofTokens_progress {tokens : List Token} (h : ∃ t ∈ tokens, t.kind.isEnd) :
    ∃ us stop rest, tokens = us ++ stop :: rest ∧ (∀ u ∈ us, u.kind.isEnd = false) ∧
      stop.kind.isEnd ∧
      (∀ vs, vs <:+ us → Progresses vs stop) ∧
      ∃ n r, Consumes wholeModule us stop n r ∧ (∀ m, r = .ok m → n = us.length) ∧
        ∀ rest', ofTokens (.ofList (us ++ stop :: rest') (by simp)) = r := by
  obtain ⟨us, stop, rest, htokens, hus, hstop⟩ := exists_upTo h
  obtain ⟨n, r, hconsumes⟩ : ∃ n r, Consumes wholeModule us stop n r :=
    (Called.wholeModule _).exists_consumes rfl hstop
  refine ⟨us, stop, rest, htokens, hus, hstop, fun vs _ => progresses vs hstop, n, r, hconsumes,
    ?_, fun rest' => ?_⟩
  · rintro m rfl
    have hend := current_of_wholeModule (hconsumes.outcome [])
    rw [current_upTo] at hend
    -- the end of the input is none of the tokens in front of the first end
    have hleft : us.drop n = [] := by
      cases hdrop : us.drop n with
      | nil => rfl
      | cons u vs =>
        have hu : u ∈ us := List.mem_of_mem_drop (hdrop ▸ List.mem_cons_self)
        rw [hdrop, List.headD_cons] at hend
        exact absurd (hus u hu) (by simp [hend, TokenKind.isEnd])
    exact Nat.le_antisymm hconsumes.bound (List.drop_eq_nil_iff.1 hleft)
  · rw [ofList_eq_upTo, ofTokens, StateT.run, hconsumes.outcome]
    cases r <;> rfl

/-- Behind the end of the input after the first word of a header, all that was looked for is the
colon, whatever the list goes on with. -/
theorem ofTokens_progress_header :
    let _ : Machine := .usual
    let scala : Token := ⟨.keyword .scala, "scala", ⟨⟨1, 1⟩, ⟨1, 5⟩⟩⟩
    let stop : Token := ⟨.endOfInput, [], .point ⟨1, 6⟩⟩
    (∃ t ∈ [scala, stop, scala], t.kind.isEnd) ∧
      ∀ rest, ofTokens (.ofList ([scala] ++ stop :: rest) (by simp)) =
        .error ⟨.unexpected (.token (.mark .colon)) stop, stop.span⟩ := by
  intro _ scala stop
  have hend : ∃ t ∈ [scala, stop, scala], t.kind.isEnd := ⟨stop, by simp, rfl⟩
  refine ⟨hend, fun rest => ?_⟩
  obtain ⟨us, stop', rest', htokens, hus, hstop', -, n, r, -, -, hsame⟩ := ofTokens_progress hend
  -- the first end is the second of the three tokens
  obtain ⟨rfl, rfl⟩ : us = [scala] ∧ stop' = stop := by
    rcases us with _ | ⟨u, _ | ⟨v, us⟩⟩
    · obtain rfl : scala = stop' := (List.cons.inj htokens).1
      exact absurd hstop' (by decide)
    · obtain ⟨hfirst, htokens⟩ := List.cons.inj htokens
      exact ⟨by rw [← hfirst], (List.cons.inj htokens).1.symm⟩
    · obtain ⟨-, htokens⟩ := List.cons.inj htokens
      obtain rfl : stop = v := (List.cons.inj htokens).1
      exact absurd (hus stop (by simp)) (by decide)
  exact (hsame rest).trans (hsame []).symm

end Module

end Idl
