/-
# Readers look no further than the token at which they stop

A reader passes some tokens and stops at the one behind them: it returns in front of that token or
gives up at it.  What comes of it is settled by the tokens up to that one, whatever stands behind
(`Grammar.Settled`), and the tokens that are passed are no ends.  So an error stays the same if
the tokens behind the one that it is told at are exchanged for others
(`Module.settled_of_ofTokens_error`).

The statement is kept by sequencing, by choices that look at the current token, and by repetition.
-/
import Idl.Proofs.Grammar.Predictive

namespace Idl

variable {_ : Machine}

namespace TokenStream

variable {s s' : TokenStream}

lemma current_behind (h : s.current = s'.current) (w : List Token) :
    (s.behind w).current = (s'.behind w).current := by
  cases w with
  | nil => exact h
  | cons t w => rfl

/-- In front of more tokens, more are left. -/
lemma length_ahead_lt_iff {w : List Token} (s : TokenStream) :
    s.ahead.length < (s.behind w).ahead.length ↔ w ≠ [] := by
  cases w with
  | nil => simp [behind]
  | cons t w =>
    simp only [behind, toList, List.length_append, List.length_cons, ne_eq, reduceCtorEq,
      not_false_eq_true, iff_true]
    omega

end TokenStream

namespace Grammar

variable {α β : Type} {P P' : Grammar α} {Q : α → Grammar β} {a : α} {e : SyntaxError}
  {k : TokenKind} {s : TokenStream} {t : Token} {w : List Token} {r : Except SyntaxError α}

/-- What comes of the reader in front of the tokens and the one behind them: it passes the tokens,
and returns in front of the last one or gives up at it, whatever stands behind. -/
structure Settled (P : Grammar α) (w : List Token) (t : Token) (r : Except SyntaxError α) :
    Prop where
  passed : ∀ u ∈ w, u.kind.isEnd = false
  place : ∀ e, r = .error e → e.span = t.span
  outcome : ∀ x : TokenStream, x.Closed → x.current = t → P (x.behind w) = r.map (·, x)

/-- What comes of the reader at the stream is settled by the tokens up to the one where it stops. -/
def LocalAt (P : Grammar α) (s : TokenStream) : Prop :=
  ∃ (w : List Token) (s' : TokenStream) (r : Except SyntaxError α),
    s = s'.behind w ∧ Settled P w s'.current r

/-- The reader is local at all closed streams. -/
def Local (P : Grammar α) : Prop := ∀ s : TokenStream, s.Closed → LocalAt P s

/-- The reader is local where the current token is of the kind. -/
def LocalFrom (k : TokenKind) (P : Grammar α) : Prop :=
  ∀ s : TokenStream, s.Closed → s.current.kind = k → LocalAt P s

lemma Local.localFrom (h : Local P) (k : TokenKind) : LocalFrom k P := fun s hs _ => h s hs

/-- A reader that comes to its outcome at the current token. -/
lemma localAt_of_outcome (hplace : ∀ e, r = .error e → e.span = s.current.span)
    (h : ∀ x : TokenStream, x.current = s.current → P x = r.map (·, x)) : LocalAt P s :=
  ⟨[], s, r, rfl, by simp, hplace, fun x _ hx => h x hx⟩

lemma localAt_of_error (hplace : e.span = s.current.span)
    (h : ∀ x : TokenStream, x.current = s.current → P x = .error e) : LocalAt P s :=
  localAt_of_outcome (r := .error e) (by rintro _ ⟨⟩; exact hplace) h

lemma localAt_of_ok (h : ∀ x : TokenStream, x.current = s.current → P x = .ok (a, x)) :
    LocalAt P s :=
  localAt_of_outcome (r := .ok a) (by simp) h

lemma localAt_fault (hf : s.current.kind = .fault)
    (h : ∀ x : TokenStream, x.current.kind = .fault →
      P x = .error ⟨.fault x.current.value, x.current.span⟩) : LocalAt P s :=
  localAt_of_error (e := ⟨.fault s.current.value, s.current.span⟩) rfl fun x hx => by
    rw [h x (by rwa [hx]), hx]

/-! ### Putting readers together -/

/-- A reader that does behind some tokens what a second one does in front of them. -/
lemma Settled.behind {w' : List Token} (h : Settled P' w' s.current r)
    (hw : ∀ u ∈ w, u.kind.isEnd = false)
    (heq : ∀ x : TokenStream, x.Closed → x.current = (s.behind w').current →
      P (x.behind w) = P' x) : Settled P (w ++ w') s.current r := by
  refine ⟨List.forall_mem_append.2 ⟨hw, h.passed⟩, h.place, fun x hc hx => ?_⟩
  rw [TokenStream.behind_append, heq _ (hc.behind w') (TokenStream.current_behind hx w')]
  exact h.outcome x hc hx

lemma LocalAt.behind (h : LocalAt P' s) (hw : ∀ u ∈ w, u.kind.isEnd = false)
    (heq : ∀ x : TokenStream, x.Closed → x.current = s.current → P (x.behind w) = P' x) :
    LocalAt P (s.behind w) := by
  obtain ⟨w', s', r, rfl, h⟩ := h
  exact ⟨w ++ w', s', r, (TokenStream.behind_append _ _ _).symm, h.behind hw heq⟩

/-- Only what a reader does at streams with the same current token counts. -/
lemma LocalAt.congr (h : LocalAt P' s)
    (heq : ∀ x : TokenStream, x.current = s.current → P x = P' x) : LocalAt P s :=
  h.behind (w := []) (by simp) fun x _ hx => heq x hx

/-- Where a reader returns, a second one goes on. -/
lemma Settled.bind (h : Settled P w s.current (.ok a)) (hQ : LocalAt (Q a) s) :
    LocalAt (P >>= Q) (s.behind w) :=
  hQ.behind h.passed fun x hc hx => by rw [bind_apply, h.outcome x hc hx]; rfl

lemma Settled.bind_error (h : Settled P w t (.error e)) : Settled (P >>= Q) w t (.error e) :=
  ⟨h.passed, by rintro _ ⟨⟩; exact h.place e rfl, fun x hc hx => by
    rw [bind_apply, h.outcome x hc hx]; rfl⟩

/-- The tokens that are passed are no ends, so there is still one among those that are left. -/
lemma Settled.closed_of_behind (h : Settled P w t r) (hc : (s.behind w).Closed) : s.Closed :=
  hc.of_append h.passed (TokenStream.toList_behind w s)

lemma LocalAt.bind (hP : LocalAt P s) (hc : s.Closed) (hQ : ∀ a, Local (Q a)) :
    LocalAt (P >>= Q) s := by
  obtain ⟨w, s', e | a, rfl, h⟩ := hP
  · exact ⟨w, s', .error e, rfl, h.bind_error⟩
  · exact h.bind (hQ a s' (h.closed_of_behind hc))

lemma Local.bind (hP : Local P) (hQ : ∀ a, Local (Q a)) : Local (P >>= Q) :=
  fun s hs => (hP s hs).bind hs hQ

lemma LocalFrom.bind (hP : LocalFrom k P) (hQ : ∀ a, Local (Q a)) : LocalFrom k (P >>= Q) :=
  fun s hs hk => (hP s hs hk).bind hs hQ

lemma local_pure (a : α) : Local (pure a) := fun _ _ => localAt_of_ok fun x _ => pure_apply a x

lemma Local.map (h : Local P) (f : α → β) : Local (P >>= fun a => pure (f a)) :=
  h.bind fun _ => local_pure _

lemma LocalFrom.map (h : LocalFrom k P) (f : α → β) :
    LocalFrom k (P >>= fun a => pure (f a)) :=
  h.bind fun _ => local_pure _

lemma localAt_throw (p : Problem) : LocalAt (throw ⟨p, s.current.span⟩ : Grammar α) s :=
  localAt_of_error rfl fun _ _ => rfl

/-! ### Single tokens -/

/-- A choice by the current token. -/
lemma local_peek_bind {Q : Token → Grammar α}
    (h : ∀ s : TokenStream, s.Closed → s.current.kind ≠ .fault → LocalAt (Q s.current) s) :
    Local (peek >>= Q) := by
  intro s hs
  by_cases hf : s.current.kind = .fault
  · exact localAt_fault hf fun x hx => by rw [bind_apply, peek_apply_fault hx]
  · refine (h s hs hf).congr fun x hx => ?_
    rw [peek_bind_apply (by rwa [hx]), hx]

lemma localFrom_advance (hend : k.isEnd = false) : LocalFrom k advance := by
  intro s hs hk
  have hcurrent : s.current.kind.isEnd = false := by rwa [hk]
  have hne := ne_fault_of_isEnd hcurrent
  exact ⟨[s.current], s.next, .ok s.current, hs.eq_behind_next hcurrent, by simpa using hcurrent,
    by simp, fun x _ _ => advance_behind s.current hne x⟩

/-- Passing a token whose kind is known, for what stands behind it. -/
lemma localFrom_discard_advance {R : Grammar β} (hend : k.isEnd = false) (hR : Local R) :
    LocalFrom k (discard advance >>= fun _ => R) := by
  rw [discard_bind]
  exact (localFrom_advance hend).bind fun _ => hR

lemma local_unexpected (e : Expected) : Local (unexpected e : Grammar α) :=
  local_peek_bind fun _ _ _ => localAt_throw _

lemma local_expect (hend : k.isEnd = false) : Local (expect k) := by
  refine local_peek_bind fun s hs _ => ?_
  by_cases hk : s.current.kind = k
  · rw [if_pos hk]
    exact localFrom_advance hend s hs hk
  · rw [if_neg hk]
    cases k with
    | keyword w =>
      by_cases hname : s.current.kind.isName
      · simpa only [if_pos hname] using localAt_throw _
      · simpa only [if_neg hname] using local_unexpected _ s hs
    | _ => exact local_unexpected _ s hs

lemma local_expectName (hend : k.isEnd = false) (role : NameRole) : Local (expectName k role) := by
  refine local_peek_bind fun s hs _ => ?_
  by_cases hk : s.current.kind = k
  · rw [if_pos hk]
    exact localFrom_advance hend s hs hk
  rw [if_neg hk]
  by_cases hword : s.current.kind.isKeyword
  · rw [if_pos hword]
    exact localAt_throw _
  · rw [if_neg hword]
    exact local_unexpected _ s hs

/-- The token that closes a phrase, or another reader at the place. -/
lemma local_closing {m : Mark} {a : α} {R : Token → Grammar α}
    (hR : ∀ s : TokenStream, s.Closed → LocalAt (R s.current) s) :
    Local (peek >>= fun t =>
      if t.kind = .mark m then discard advance >>= fun _ => pure a else R t) := by
  refine local_peek_bind fun s hs _ => ?_
  by_cases hk : s.current.kind = .mark m
  · rw [if_pos hk]
    exact localFrom_discard_advance rfl (local_pure a) s hs hk
  · rw [if_neg hk]
    exact hR s hs

/-! ### Repetition -/

lemma whileAt_apply_cons {part : Grammar α} (hend : k.isEnd = false) (h : s.current.kind = k) :
    whileAt k part s = (part >>= fun a y =>
      if y.ahead.length < s.ahead.length then
        (whileAt k part >>= fun as => pure (a :: as)) y else .ok ([a], y)) s := by
  have hne : s.current.kind ≠ .fault := ne_fault_of_isEnd (by rwa [h])
  rw [whileAt, peek_apply hne, bind_apply]
  simp only [if_pos h]
  rcases part s with e | ⟨a, y⟩
  · rfl
  by_cases hy : y.ahead.length < s.ahead.length
  · simp only [dif_pos hy, if_pos hy, bind_apply]
    rcases whileAt k part y with e | ⟨as, z⟩ <;> rfl
  · simp only [dif_neg hy, if_neg hy]

/-- A repetition of parts that are local is local. -/
lemma local_whileAt {part : Grammar α} (hend : k.isEnd = false) (hpart : LocalFrom k part) :
    Local (whileAt k part) := by
  intro s hs
  induction hn : s.ahead.length using Nat.strong_induction_on generalizing s with
  | _ n ih =>
  by_cases hf : s.current.kind = .fault
  · exact localAt_fault hf (stops_whileAt k part)
  by_cases hk : s.current.kind = k
  · obtain ⟨w, s', r, rfl, h⟩ := hpart s hs hk
    have hkind (x : TokenStream) (hx : x.current = s'.current) : (x.behind w).current.kind = k := by
      rw [TokenStream.current_behind hx w, hk]
    rcases r with e | a
    · refine ⟨w, s', .error e, rfl, h.passed, by rintro _ ⟨⟩; exact h.place e rfl,
        fun x hc hx => ?_⟩
      rw [whileAt_apply_cons hend (hkind x hx), bind_apply, h.outcome x hc hx]
      rfl
    -- the part returns: if it has passed a token, the repetition goes on
    have hfirst (x : TokenStream) (hc : x.Closed) (hx : x.current = s'.current) :
        whileAt k part (x.behind w) =
          if w ≠ [] then (whileAt k part >>= fun as => pure (a :: as)) x else .ok ([a], x) := by
      rw [whileAt_apply_cons hend (hkind x hx), bind_apply, h.outcome x hc hx]
      exact if_congr x.length_ahead_lt_iff rfl rfl
    have hs' := h.closed_of_behind hs
    by_cases hw : w ≠ []
    · have hmore := (ih _ (hn ▸ s'.length_ahead_lt_iff.2 hw) s' hs' rfl).bind hs'
        fun as => local_pure (a :: as)
      exact hmore.behind h.passed fun x hc hx => by rw [hfirst x hc hx, if_pos hw]
    · refine (local_pure [a] s' hs').behind h.passed fun x hc hx => ?_
      rw [hfirst x hc hx, if_neg hw, pure_apply]
  · exact localAt_of_ok fun x hx => whileAt_of_ne (by rwa [hx]) (by rwa [hx])

/-! ### Productions -/

lemma localFrom_param : LocalFrom .lowerName param := by
  refine (localFrom_advance rfl).bind fun name => local_peek_bind fun s hs _ => ?_
  by_cases hassign : s.current.kind = .mark .assign
  · rw [if_pos hassign]
    exact localFrom_discard_advance rfl ((local_expect rfl).map _) s hs hassign
  · rw [if_neg hassign]
    exact local_pure _ s hs

lemma localFrom_annotation : LocalFrom (.mark .openAngle) annotation := by
  refine (localFrom_advance rfl).bind fun opening => (local_expectName rfl _).bind fun name =>
    (local_whileAt rfl localFrom_param).bind fun params => local_closing fun s hs => ?_
  by_cases hword : s.current.kind.isKeyword
  · rw [if_pos hword]
    exact localAt_throw _
  · rw [if_neg hword]
    exact local_unexpected _ s hs

lemma local_annotations : Local annotations := local_whileAt rfl localFrom_annotation

/-- Names behind marks, of which only the text counts. -/
lemma local_names (m : Mark) (role : NameRole) :
    Local (whileAt (.mark m) do discard advance; return (← expectName .upperName role).value) :=
  local_whileAt rfl (localFrom_discard_advance rfl ((local_expectName rfl role).map _))

lemma local_reference : Local reference :=
  (local_expectName rfl _).bind fun _ => (local_names _ _).map _

lemma localFrom_argument {limit : Nat} (hend : k.isEnd = false) (h : Local (typeExpr limit)) :
    LocalFrom k (typeExpr.argument limit) := by
  rw [typeExpr.argument]
  simp only [discard_bind]
  exact (localFrom_advance hend).bind fun _ => (local_expect rfl).bind fun _ => h.bind fun inner =>
    (local_expect rfl).bind fun _ => local_pure inner

lemma local_typeExpr (limit : Nat) : Local (typeExpr limit) := by
  induction limit with
  | zero =>
    rw [typeExpr]
    exact local_peek_bind fun s _ _ => localAt_throw _
  | succ limit ih =>
    rw [typeExpr]
    refine local_peek_bind fun s hs _ => ?_
    rcases hp : primitive? s.current.kind with _ | p
    · by_cases harray : s.current.kind = .keyword .array
      · simp only [if_pos harray]
        exact (localFrom_argument rfl ih).map TypeExpr.array s hs harray
      by_cases hmaybe : s.current.kind = .keyword .maybe
      · simp only [if_neg harray, if_pos hmaybe]
        exact (localFrom_argument rfl ih).map TypeExpr.maybe s hs hmaybe
      by_cases hname : s.current.kind = .upperName
      · simp only [if_neg harray, if_neg hmaybe, if_pos hname]
        exact local_reference s hs
      · simp only [if_neg harray, if_neg hmaybe, if_neg hname]
        exact local_unexpected _ s hs
    · have hend := isEnd_of_startsType (startsType_iff.2 (.inl ⟨p, hp⟩))
      exact localFrom_discard_advance hend (local_pure (TypeExpr.primitive p)) s hs rfl

lemma local_type : Local type := local_typeExpr Machine.nesting

lemma local_field : Local field := by
  rw [field]
  simp only [discard_bind]
  exact (local_expectName rfl _).bind fun _ => (local_expect rfl).bind fun _ =>
    local_type.bind fun _ => local_annotations.map _

lemma localFrom_record : LocalFrom (.mark .openBrace) record := by
  rw [record]
  simp only [pure_bind]
  refine localFrom_discard_advance rfl (local_peek_bind fun s hs _ => ?_)
  have hclose (fields : List Field) : Local (peek >>= fun t =>
      if t.kind = .mark .closeBrace then discard advance >>= fun _ => pure (Body.record fields)
      else unexpected .fieldOrEnd) := local_closing fun s hs => local_unexpected _ s hs
  by_cases hempty : s.current.kind = .mark .closeBrace
  · rw [if_pos hempty]
    exact hclose [] s hs
  · rw [if_neg hempty]
    have hmore : Local (whileAt (.mark .comma) do discard advance; field) :=
      local_whileAt rfl (localFrom_discard_advance rfl local_field)
    exact (local_field.bind fun first => hmore.bind fun more => hclose (first :: more)) s hs

lemma localFrom_sum : LocalFrom (.mark .openBracket) sum := by
  refine localFrom_discard_advance rfl ((local_expectName rfl _).bind fun first => ?_)
  exact (local_names _ _).bind fun more => local_closing fun s hs => local_unexpected _ s hs

lemma local_body : Local body := by
  refine local_peek_bind fun s hs _ => ?_
  by_cases htype : startsType s.current.kind
  · simp only [if_pos htype]
    exact local_type.map Body.alias s hs
  by_cases hrecord : s.current.kind = .mark .openBrace
  · simp only [if_neg htype, if_pos hrecord]
    exact localFrom_record s hs hrecord
  by_cases hsum : s.current.kind = .mark .openBracket
  · simp only [if_neg htype, if_neg hrecord, if_pos hsum]
    exact localFrom_sum s hs hsum
  by_cases hwrap : s.current.kind = .keyword .wrap
  · simp only [if_neg htype, if_neg hrecord, if_neg hsum, if_pos hwrap]
    exact localFrom_discard_advance rfl (local_type.map Body.wrap) s hs hwrap
  · simp only [if_neg htype, if_neg hrecord, if_neg hsum, if_neg hwrap]
    exact local_unexpected _ s hs

lemma local_declaration : Local declaration := by
  rw [declaration]
  simp only [discard_bind]
  exact (local_expect rfl).bind fun _ => (local_expectName rfl _).bind fun _ =>
    (local_expect rfl).bind fun _ => local_body.bind fun _ => local_annotations.map _

lemma local_exportPackage (w : Keyword) : Local (exportPackage w) := by
  rw [exportPackage]
  simp only [discard_bind]
  exact (local_expect rfl).bind fun _ => (local_expect rfl).bind fun _ => (local_expect rfl).map _

lemma local_importPackage : Local importPackage := by
  rw [importPackage, discard_bind]
  exact (local_expect rfl).bind fun _ => (local_expect rfl).map _

lemma local_finish (m : Module) : Local (finish m) := by
  refine local_peek_bind fun s hs _ => ?_
  by_cases hend : s.current.kind = .endOfInput
  · rw [if_pos hend]
    exact local_pure m s hs
  · rw [if_neg hend]
    exact localAt_throw _

lemma local_wholeModule : Local wholeModule := by
  rw [wholeModule_eq]
  have hcontent : Local content :=
    (local_exportPackage _).bind fun _ => (local_exportPackage _).bind fun _ =>
      (local_whileAt rfl (local_importPackage.localFrom _)).bind fun _ =>
        local_annotations.bind fun _ =>
          (local_whileAt rfl (local_declaration.localFrom _)).map _
  exact hcontent.bind local_finish

end Grammar

/-! ### Modules -/

/-- An error is settled by the tokens up to the one that it is told at. -/
lemma Module.settled_of_ofTokens_error {s : TokenStream} {e : SyntaxError} (hs : s.Closed)
    (he : Module.ofTokens s = .error e) :
    ∃ (w : List Token) (s' : TokenStream), s = s'.behind w ∧ e.span = s'.current.span ∧
      Grammar.Settled Grammar.wholeModule w s'.current (.error e) := by
  obtain ⟨w, s', r, rfl, h⟩ := Grammar.local_wholeModule s hs
  have hr := h.outcome s' (h.closed_of_behind hs) rfl
  rw [Module.ofTokens, StateT.run, hr] at he
  obtain rfl : r = .error e := by
    cases r with
    | error e' => rw [← he]; rfl
    | ok a => cases he
  exact ⟨w, s', rfl, h.place e rfl, h⟩

/-- Whatever stands behind the token that an error is told at, the error stays. -/
lemma Grammar.Settled.ofTokens_behind {w : List Token} {t : Token} {e : SyntaxError}
    (h : Settled wholeModule w t (.error e)) {x : TokenStream} (hc : x.Closed)
    (hx : x.current = t) : Module.ofTokens (x.behind w) = .error e := by
  rw [Module.ofTokens, StateT.run, h.outcome x hc hx]
  rfl

end Idl
