/-
# Looking at one token

How a reader goes on behind tokens that it has passed depends on the kind of the next token
only: it passes the token, leaves it where it is and returns, or gives up at it.  A fault behind
a token tells the first from the others, since a reader that passes the token comes to the fault.
`Grammar.Looks` says of a reader at a stream that this is so where it returns or gives up, and
that an error is of the kind that belongs to the tokens that it would have passed instead
(`Problem.Suits`).

The statement is kept by sequencing (`Grammar.Looks.bind`), by passing a token, by choices, and
by repetition (`Grammar.looks_whileAt`), so that a production is treated by following its text.
-/
import Idl.Proofs.Grammar.Recognition
import Mathlib.Data.Set.Insert

namespace Idl

namespace TokenStream

variable {s s' : TokenStream} {t : Token} {w w₁ w₂ : List Token}

/-- The stream with tokens in front of it. -/
def behind (w : List Token) (s : TokenStream) : TokenStream :=
  match w with
  | [] => s
  | t :: w => ⟨t, w ++ s.toList⟩

lemma toList_behind (w : List Token) (s : TokenStream) : (s.behind w).toList = w ++ s.toList := by
  cases w <;> rfl

lemma eq_behind (h : s.toList = w ++ s'.toList) : s = s'.behind w :=
  eq_of_toList_eq (by rw [h, toList_behind])

lemma behind_append (w₁ w₂ : List Token) (s : TokenStream) :
    s.behind (w₁ ++ w₂) = (s.behind w₂).behind w₁ :=
  eq_of_toList_eq (by simp [toList_behind])

lemma Closed.behind (h : s.Closed) (w : List Token) : (s.behind w).Closed := by
  obtain ⟨t, ht, hend⟩ := h
  exact ⟨t, by simp [toList_behind, ht], hend⟩

lemma closed_of_fault (h : s.current.kind = .fault) : s.Closed :=
  ⟨s.current, by simp [toList], by simp [h, TokenKind.isEnd]⟩

/-- A fault behind one token closes the stream. -/
lemma closed_of_fault_ahead {f : Token} (h : f.kind = .fault) (t : Token) :
    (⟨t, [f]⟩ : TokenStream).Closed :=
  ⟨f, by simp [toList], by simp [h, TokenKind.isEnd]⟩

lemma Closed.next (h : s.Closed) (hk : s.current.kind.isEnd = false) : s.next.Closed :=
  h.of_append (w := [s.current]) (by simpa using hk) (h.toList_next hk)

lemma Closed.length_next (h : s.Closed) (hk : s.current.kind.isEnd = false) :
    s.next.ahead.length < s.ahead.length := by
  have hlength := congrArg List.length (h.toList_next hk)
  simp only [toList, List.length_cons] at hlength
  omega

/-- Behind its first token, a closed stream goes on, if that token is no end. -/
lemma Closed.eq_behind_next (h : s.Closed) (hk : s.current.kind.isEnd = false) :
    s = s.next.behind [s.current] :=
  eq_behind (h.toList_next hk)

end TokenStream

/-! ### Kinds of errors -/

/-- Where tokens of some kinds could stand, a name or a reserved word is a mistake of spelling:
the name, if only one reserved word could stand there, and the reserved word, if a name could. -/
def TokenKind.Misspelt (V : Set TokenKind) (k : TokenKind) : Prop :=
  (k.isName ∧ ∃ w : Keyword, V = {.keyword w}) ∨
    (k.isKeyword ∧ (∃ x ∈ V, x.isName) ∧ ∀ x ∈ V, x.isKeyword = false)

/-- The problem is of the kind that belongs to a token, where tokens of some kinds could stand. -/
def Problem.Suits (p : Problem) (V : Set TokenKind) (k : TokenKind) : Prop :=
  (p.kind = .lexical ∧ k.Misspelt V) ∨ (p.kind = .unexpectedToken ∧ ¬ k.Misspelt V)

namespace Grammar

variable {α β : Type} {P R R' : Grammar α} {Q : α → Grammar β} {a : α} {k : TokenKind}
  {p : Problem}
  {s s' : TokenStream} {t : Token} {w : List Token} {C D E V : Set TokenKind}

/-! ### The next token -/

/-- The reader as it goes on behind tokens. -/
def past (w : List Token) (P : Grammar α) : Grammar α := fun s => P (s.behind w)

/-- The reader passes a token of the kind, so that it comes to a fault behind it. -/
def Takes (R : Grammar α) (k : TokenKind) : Prop :=
  ∀ t f : Token, t.kind = k → f.kind = .fault →
    R ⟨t, [f]⟩ = .error ⟨.fault f.value, f.span⟩ ∨ ∃ a, R ⟨t, [f]⟩ = .ok (a, ⟨f, []⟩)

/-- The reader returns a value without passing a token of the kind. -/
def Leaves (R : Grammar α) (a : α) (k : TokenKind) : Prop :=
  ∀ s : TokenStream, s.Closed → s.current.kind = k → R s = .ok (a, s)

/-- The reader gives up at a token of the kind, and not for the depth of a type. -/
def Refuses (R : Grammar α) (k : TokenKind) : Prop :=
  ∀ s : TokenStream, s.Closed → s.current.kind = k →
    ∃ e, R s = .error e ∧ e.problem ≠ .tooDeep ∧ e.span = s.current.span

/-- The reader tells of a fault, or returns in front of it. -/
def Tells (R : Grammar α) : Prop :=
  ∀ s : TokenStream, s.current.kind = .fault →
    R s = .error ⟨.fault s.current.value, s.current.span⟩ ∨ ∃ a, R s = .ok (a, s)

/-- Readers that agree on closed streams cannot be told apart here. -/
def Agree (R R' : Grammar α) : Prop := ∀ s : TokenStream, s.Closed → R s = R' s

lemma Agree.takes (h : Agree R R') (hR : Takes R k) : Takes R' k := by
  intro t f ht hf
  rw [← h ⟨t, [f]⟩ (TokenStream.closed_of_fault_ahead hf t)]
  exact hR t f ht hf

lemma Agree.symm (h : Agree R R') : Agree R' R := fun s hs => (h s hs).symm

lemma Agree.leaves (h : Agree R R') (hR : Leaves R a k) : Leaves R' a k := by
  intro s hs hk
  rw [← h s hs]
  exact hR s hs hk

lemma Agree.refuses (h : Agree R R') (hR : Refuses R k) : Refuses R' k := by
  intro s hs hk
  rw [← h s hs]
  exact hR s hs hk

lemma Agree.tells (h : Agree R R') (hR : Tells R) : Tells R' := by
  intro s hs
  rw [← h s (TokenStream.closed_of_fault hs)]
  exact hR s hs

/-- A token that is passed is not one to give up at: the error would tell of the fault behind. -/
lemma Takes.not_refuses (h : Takes R k) : ¬ Refuses R k := by
  intro hrefuses
  let t : Token := ⟨k, [], .point ⟨0, 0⟩⟩
  let f : Token := ⟨.fault, [], .point ⟨1, 0⟩⟩
  have hne : f.span ≠ t.span := by
    show Span.point ⟨1, 0⟩ ≠ Span.point ⟨0, 0⟩
    decide
  obtain ⟨e, he, -, hspan⟩ := hrefuses ⟨t, [f]⟩ (TokenStream.closed_of_fault_ahead rfl t) rfl
  rcases h t f rfl rfl with h | ⟨a, h⟩
  · rw [he] at h
    obtain rfl := Except.error.inj h
    exact hne hspan
  · rw [he] at h
    cases h

lemma Takes.not_leaves (h : Takes R k) : ¬ Leaves R a k := by
  intro hleaves
  let t : Token := ⟨k, [], default⟩
  let f : Token := ⟨.fault, [], default⟩
  have hs := hleaves ⟨t, [f]⟩ (TokenStream.closed_of_fault_ahead rfl t) rfl
  rcases h t f rfl rfl with h | ⟨a', h⟩ <;> rw [hs] at h
  · cases h
  · exact absurd (congrArg (fun p => p.2.ahead) (Except.ok.inj h)) (by simp)

lemma Tells.not_takes (h : Tells R) : ¬ Takes R .fault := by
  intro htakes
  let t : Token := ⟨.fault, [], .point ⟨0, 0⟩⟩
  let f : Token := ⟨.fault, [], .point ⟨1, 0⟩⟩
  have hne : t ≠ f := by decide
  rcases h ⟨t, [f]⟩ rfl with h | ⟨a, h⟩ <;> rcases htakes t f rfl rfl with h' | ⟨a', h'⟩ <;>
    rw [h] at h'
  · exact absurd (congrArg SyntaxError.span (Except.error.inj h')) (by decide)
  · cases h'
  · cases h'
  · exact hne (congrArg (fun p => p.2.current) (Except.ok.inj h'))

/-- The kinds of tokens that would have been passed at a place: those that the reader passes
behind the tokens in front, and if there are none, those that could stand there anyway. -/
def ahead (P : Grammar α) (E : Set TokenKind) (w : List Token) : Set TokenKind :=
  {k | Takes (P.past w) k ∨ w = [] ∧ k ∈ E}

lemma mem_ahead : k ∈ ahead P E w ↔ Takes (P.past w) k ∨ w = [] ∧ k ∈ E := Iff.rfl

/-- How a reader stands where it has returned a value: at tokens of some kinds it would have gone
on, and at all others it would have returned the same. -/
structure Done (R : Grammar α) (a : α) (C : Set TokenKind) (k : TokenKind) : Prop where
  tells : Tells R
  leaves : Leaves R a k
  cases : ∀ x, x ≠ .fault → Takes R x ∧ x ∈ C ∨ Leaves R a x

/-- Where a reader returns, it passes only tokens of those kinds. -/
lemma Done.mem_of_takes (h : Done R a C k) {x : TokenKind} (hx : Takes R x) : x ∈ C := by
  have hne : x ≠ .fault := by
    rintro rfl
    exact h.tells.not_takes hx
  exact ((h.cases x hne).resolve_right hx.not_leaves).2

/-- How a reader stands where it has given up at a token: it would have passed tokens of some
kinds, and have given up at all others. -/
structure Stuck (R : Grammar α) (V : Set TokenKind) (p : Problem) (k : TokenKind) : Prop where
  refuses : Refuses R k
  cases : ∀ x, x ≠ .fault → Takes R x ∨ Refuses R x
  suits : p.Suits V k

/-- How a reader stands where it has come to an error: the error tells of a fault, or of the
depth of a type, or the reader has given up. -/
structure Failed (R : Grammar α) (V : Set TokenKind) (p : Problem) (t : Token) : Prop where
  tells : Tells R
  cases : t.kind = .fault ∧ p = .fault t.value ∨
    t.kind ≠ .fault ∧ (p = .tooDeep ∨ p ≠ .tooDeep ∧ Stuck R V p t.kind)

/-- How a reader fares at a stream where tokens of some kinds could stand anyway.  Where it
returns, it would have gone on only at tokens of the last set of kinds. -/
def Looks (P : Grammar α) (E C : Set TokenKind) (s : TokenStream) : Prop :=
  match P s with
  | .ok (a, s') =>
    ∃ w, s.toList = w ++ s'.toList ∧ (∀ t ∈ w, t.kind.isEnd = false) ∧
      Done (P.past w) a C s'.current.kind
  | .error e =>
    ∃ w t rest, s.toList = w ++ t :: rest ∧ (∀ u ∈ w, u.kind.isEnd = false) ∧ e.span = t.span ∧
      Failed (P.past w) (ahead P E w) e.problem t

lemma looks_iff_of_ok (h : P s = .ok (a, s')) :
    Looks P E C s ↔ ∃ w, s.toList = w ++ s'.toList ∧ (∀ t ∈ w, t.kind.isEnd = false) ∧
      Done (P.past w) a C s'.current.kind := by
  rw [Looks, h]

lemma looks_iff_of_error {e : SyntaxError} (h : P s = .error e) :
    Looks P E C s ↔ ∃ w t rest, s.toList = w ++ t :: rest ∧ (∀ u ∈ w, u.kind.isEnd = false) ∧
      e.span = t.span ∧ Failed (P.past w) (ahead P E w) e.problem t := by
  rw [Looks, h]

/-! ### Sequencing -/

lemma past_nil (P : Grammar α) : P.past [] = P := rfl

lemma past_bind (w : List Token) (P : Grammar α) (Q : α → Grammar β) :
    (P >>= Q).past w = P.past w >>= Q := by
  funext s
  rw [past, bind_apply, bind_apply]
  rfl

lemma takes_bind (h : Takes R k) (hQ : ∀ a, Tells (Q a)) : Takes (R >>= Q) k := by
  intro t f ht hf
  rw [bind_apply]
  rcases h t f ht hf with h | ⟨a, h⟩ <;> rw [h]
  · exact .inl rfl
  · exact hQ a ⟨f, []⟩ hf

lemma tells_bind (h : Tells R) (hQ : ∀ a, Tells (Q a)) : Tells (R >>= Q) := by
  intro s hs
  rw [bind_apply]
  rcases h s hs with h | ⟨a, h⟩ <;> rw [h]
  · exact .inl rfl
  · exact hQ a s hs

lemma refuses_bind (h : Refuses R k) : Refuses (R >>= Q) k := by
  intro s hs hk
  obtain ⟨e, he, hdeep, hspan⟩ := h s hs hk
  exact ⟨e, by rw [bind_apply, he], hdeep, hspan⟩

/-- Where the first reader leaves the token, the second one comes to it. -/
lemma Leaves.bind_apply (h : Leaves R a k) (hs : s.Closed) (hk : s.current.kind = k) :
    (R >>= Q) s = Q a s := by
  rw [Grammar.bind_apply, h s hs hk]

lemma Leaves.takes_bind_iff (h : Leaves R a k) : Takes (R >>= Q) k ↔ Takes (Q a) k := by
  refine forall₄_congr fun t f ht hf => ?_
  rw [h.bind_apply (TokenStream.closed_of_fault_ahead hf t) ht]

lemma Leaves.leaves_bind {b : β} (h : Leaves R a k) (hQ : Leaves (Q a) b k) :
    Leaves (R >>= Q) b k := by
  intro s hs hk
  rw [h.bind_apply hs hk, hQ s hs hk]

lemma Leaves.refuses_bind (h : Leaves R a k) (hQ : Refuses (Q a) k) : Refuses (R >>= Q) k := by
  intro s hs hk
  rw [h.bind_apply hs hk]
  exact hQ s hs hk

/-- Behind more tokens only the second reader is left. -/
lemma Done.agree_past {c : Token} {w' : List Token} (h : Done (P.past w) a C c.kind) :
    Agree ((P >>= Q).past (w ++ c :: w')) ((Q a).past (c :: w')) := by
  intro s hs
  have hleaves := h.leaves (s.behind (c :: w')) (hs.behind _) rfl
  rw [past, TokenStream.behind_append, bind_apply]
  rw [past] at hleaves
  rw [hleaves]
  rfl

lemma Done.ahead_subset (h : Done (P.past w) a C k) (hE : E ⊆ D) (hC : C ⊆ D) :
    ahead P E w ⊆ D := by
  rintro x (hx | ⟨-, hx⟩)
  · exact hC (h.mem_of_takes hx)
  · exact hE hx

/-- Right behind what the first reader has passed, either reader may go on. -/
lemma Done.ahead_bind (h : Done (P.past w) a C k) (hQ : ∀ a, Tells (Q a)) :
    ahead (P >>= Q) E w = ahead (Q a) (ahead P E w) [] := by
  have htells := tells_bind h.tells hQ
  ext x
  rw [mem_ahead, mem_ahead, mem_ahead, past_bind, past_nil]
  constructor
  · rintro (hx | hx)
    · have hne : x ≠ .fault := by
        rintro rfl
        exact htells.not_takes hx
      rcases h.cases x hne with ⟨htakes, -⟩ | hleaves
      · exact .inr ⟨rfl, .inl htakes⟩
      · exact .inl (hleaves.takes_bind_iff.1 hx)
    · exact .inr ⟨rfl, .inr hx⟩
  · rintro (hx | ⟨-, hx | hx⟩)
    · have hne : x ≠ .fault := by
        rintro rfl
        exact (hQ a).not_takes hx
      rcases h.cases x hne with ⟨htakes, -⟩ | hleaves
      · exact .inl (takes_bind htakes hQ)
      · exact .inl (hleaves.takes_bind_iff.2 hx)
    · exact .inl (takes_bind hx hQ)
    · exact .inr hx

lemma Done.ahead_past {c : Token} {w' : List Token} (h : Done (P.past w) a C c.kind) :
    ahead (P >>= Q) E (w ++ c :: w') = ahead (Q a) D (c :: w') := by
  ext x
  rw [mem_ahead, mem_ahead]
  exact or_congr ⟨h.agree_past.takes, h.agree_past.symm.takes⟩ (by simp)

lemma Done.bind {b : β} {C₁ : Set TokenKind} (h : Done R a C₁ k) (hQ : ∀ a, Tells (Q a))
    (hb : Done (Q a) b C k) (hC : C₁ ⊆ C) : Done (R >>= Q) b C k := by
  refine ⟨tells_bind h.tells hQ, h.leaves.leaves_bind hb.leaves, fun x hx => ?_⟩
  rcases h.cases x hx with ⟨htakes, hx₁⟩ | hleaves
  · exact .inl ⟨takes_bind htakes hQ, hC hx₁⟩
  · rcases hb.cases x hx with ⟨htakes, hx₂⟩ | hleaves'
    · exact .inl ⟨hleaves.takes_bind_iff.2 htakes, hx₂⟩
    · exact .inr (hleaves.leaves_bind hleaves')

lemma Agree.done (h : Agree R R') (hR : Done R a C k) : Done R' a C k :=
  ⟨h.tells hR.tells, h.leaves hR.leaves,
    fun x hx => (hR.cases x hx).imp (And.imp_left h.takes) h.leaves⟩

lemma Done.stuck_bind (h : Done R a C k) (hQ : ∀ a, Tells (Q a)) (hp : Stuck (Q a) V p k) :
    Stuck (R >>= Q) V p k := by
  refine ⟨h.leaves.refuses_bind hp.refuses, fun x hx => ?_, hp.suits⟩
  rcases h.cases x hx with ⟨htakes, -⟩ | hleaves
  · exact .inl (takes_bind htakes hQ)
  · exact (hp.cases x hx).imp hleaves.takes_bind_iff.2 hleaves.refuses_bind

lemma Stuck.bind (h : Stuck R V p k) (hQ : ∀ a, Tells (Q a)) : Stuck (R >>= Q) V p k :=
  ⟨refuses_bind h.refuses, fun x hx => (h.cases x hx).imp (takes_bind · hQ) refuses_bind,
    h.suits⟩

lemma Stuck.ahead_bind (h : Stuck (P.past w) V p k) (ht : Tells (P.past w))
    (hQ : ∀ a, Tells (Q a)) : ahead (P >>= Q) E w = ahead P E w := by
  have htells := tells_bind ht hQ
  ext x
  rw [mem_ahead, mem_ahead, past_bind]
  refine or_congr_left ⟨fun hx => ?_, (takes_bind · hQ)⟩
  have hne : x ≠ .fault := by
    rintro rfl
    exact htells.not_takes hx
  exact (h.cases x hne).resolve_right fun hrefuses => hx.not_refuses (refuses_bind hrefuses)

lemma Agree.stuck (h : Agree R R') (hR : Stuck R V p k) : Stuck R' V p k :=
  ⟨h.refuses hR.refuses, fun x hx => (hR.cases x hx).imp h.takes h.refuses, hR.suits⟩

/-- A failure is carried over from one reader to another with what the readers would have done
at other tokens. -/
lemma Failed.imp {R' : Grammar β} {V' : Set TokenKind} (h : Failed R V p t) (ht : Tells R')
    (hstuck : Stuck R V p t.kind → Stuck R' V' p t.kind) : Failed R' V' p t :=
  ⟨ht, h.cases.imp_right (And.imp_right (Or.imp_right (And.imp_right hstuck)))⟩

/-- What the second reader does behind what the first one has passed, both together do. -/
lemma Done.done_bind {b : β} {C₁ : Set TokenKind} {w' : List Token} {s'' : TokenStream}
    (h : Done (P.past w) a C₁ s'.current.kind) (hT : ∀ a, Tells (Q a))
    (hC : C₁ ⊆ C ∨ ∃ x, x ∉ C ∧ Takes (Q a) x) (hs : s'.toList = w' ++ s''.toList)
    (hQ : Done ((Q a).past w') b C s''.current.kind) :
    Done ((P >>= Q).past (w ++ w')) b C s''.current.kind := by
  rcases w' with _ | ⟨c, w'⟩
  · obtain rfl : s' = s'' := TokenStream.eq_of_toList_eq hs
    rw [List.append_nil, past_bind]
    refine h.bind hT hQ (hC.resolve_right ?_)
    rintro ⟨x, hx, htakes⟩
    exact hx (hQ.mem_of_takes htakes)
  · obtain ⟨rfl, -⟩ := List.cons.inj hs
    exact h.agree_past.symm.done hQ

/-- Where the second reader fails, both together do. -/
lemma Done.failed_bind {w' rest : List Token} (h : Done (P.past w) a C s'.current.kind)
    (hT : ∀ a, Tells (Q a)) (hs : s'.toList = w' ++ t :: rest)
    (hQ : Failed ((Q a).past w') (ahead (Q a) (ahead P E w) w') p t) :
    Failed ((P >>= Q).past (w ++ w')) (ahead (P >>= Q) E (w ++ w')) p t := by
  rcases w' with _ | ⟨c, w'⟩
  · obtain ⟨rfl, -⟩ := List.cons.inj hs
    rw [List.append_nil, h.ahead_bind hT, past_bind]
    exact hQ.imp (tells_bind h.tells hT) (h.stuck_bind hT)
  · obtain ⟨rfl, -⟩ := List.cons.inj hs
    have hagree : Agree ((Q a).past (s'.current :: w'))
        ((P >>= Q).past (w ++ s'.current :: w')) := h.agree_past.symm
    rw [h.ahead_past (D := ahead P E w)]
    exact hQ.imp (hagree.tells hQ.tells) hagree.stuck

/-- Where the first reader fails, both together do. -/
lemma Failed.bind (h : Failed (P.past w) (ahead P E w) p t) (hT : ∀ a, Tells (Q a)) :
    Failed ((P >>= Q).past w) (ahead (P >>= Q) E w) p t := by
  rw [past_bind]
  refine h.imp (tells_bind h.tells hT) fun hstuck => ?_
  rw [hstuck.ahead_bind h.tells hT]
  exact hstuck.bind hT

/-- Readers in sequence.  The second one is asked about the kinds at which the first one would
have gone on.  They do not count for both together if the second one has to pass a token. -/
lemma Looks.bind {C₁ : Set TokenKind} (hP : Looks P E C₁ s) (hc : s.Closed)
    (hT : ∀ a, Tells (Q a)) (hC : C₁ ⊆ C ∨ ∀ a, ∃ x, x ∉ C ∧ Takes (Q a) x)
    (hQ : ∀ a s' w, P s = .ok (a, s') → s'.Closed → Done (P.past w) a C₁ s'.current.kind →
      Looks (Q a) (ahead P E w) C s') : Looks (P >>= Q) E C s := by
  rcases ha : P s with e | ⟨a, s'⟩
  · obtain ⟨w, t, rest, hs, hw, hspan, hfailed⟩ := (looks_iff_of_error ha).1 hP
    refine (looks_iff_of_error (e := e) ?_).2 ⟨w, t, rest, hs, hw, hspan, hfailed.bind hT⟩
    rw [bind_apply, ha]
  obtain ⟨w, hs, hw, hdone⟩ := (looks_iff_of_ok ha).1 hP
  have hlooks := hQ a s' w ha (hc.of_append hw hs) hdone
  have hbind : (P >>= Q) s = Q a s' := by rw [bind_apply, ha]
  rcases hb : Q a s' with e | ⟨b, s''⟩
  · obtain ⟨w', t, rest, hs', hw', hspan, hfailed⟩ := (looks_iff_of_error hb).1 hlooks
    refine (looks_iff_of_error (hbind.trans hb)).2 ⟨w ++ w', t, rest, ?_,
      List.forall_mem_append.2 ⟨hw, hw'⟩, hspan, hdone.failed_bind hT hs' hfailed⟩
    rw [hs, hs', List.append_assoc]
  · obtain ⟨w', hs', hw', hdone'⟩ := (looks_iff_of_ok hb).1 hlooks
    refine (looks_iff_of_ok (hbind.trans hb)).2 ⟨w ++ w', ?_,
      List.forall_mem_append.2 ⟨hw, hw'⟩, hdone.done_bind hT (hC.imp_right fun h => h a) hs' hdone'⟩
    rw [hs, hs', List.append_assoc]

lemma done_pure (a : α) (k : TokenKind) : Done (pure a) a C k :=
  ⟨fun s _ => .inr ⟨a, pure_apply a s⟩, fun s _ _ => pure_apply a s,
    fun _ _ => .inr fun s _ _ => pure_apply a s⟩

lemma looks_pure (a : α) : Looks (pure a) E C s :=
  (looks_iff_of_ok (pure_apply a s)).2 ⟨[], rfl, by simp, done_pure a _⟩

lemma tells_pure (a : α) : Tells (pure a) := (done_pure (C := ∅) a .fault).tells

lemma Done.mono (h : Done R a C k) (hC : C ⊆ D) : Done R a D k :=
  ⟨h.tells, h.leaves, fun x hx => (h.cases x hx).imp_left (And.imp_right (@hC x))⟩

lemma Looks.mono (h : Looks P E C s) (hC : C ⊆ D) : Looks P E D s := by
  rcases hs : P s with e | ⟨a, s'⟩
  · exact (looks_iff_of_error hs).2 ((looks_iff_of_error hs).1 h)
  · obtain ⟨w, hw, hends, hdone⟩ := (looks_iff_of_ok hs).1 h
    exact (looks_iff_of_ok hs).2 ⟨w, hw, hends, hdone.mono hC⟩

/-- Returning a value made of what was read. -/
lemma Looks.map (h : Looks P E C s) (hc : s.Closed) (f : α → β) :
    Looks (P >>= fun a => pure (f a)) E C s :=
  h.bind hc (fun _ => tells_pure _) (.inl subset_rfl) fun _ _ _ _ _ _ => looks_pure _

/-- The reader tells of faults, and decides by one token, as long as only tokens of some kinds
could stand anyway. -/
structure Predictive (C : Set TokenKind) (P : Grammar α) : Prop where
  tells : Tells P
  looks : ∀ E s, E ⊆ C → s.Closed → Looks P E C s

lemma predictive_pure (a : α) : Predictive C (pure a) :=
  ⟨tells_pure a, fun _ _ _ _ => looks_pure a⟩

/-- Readers in sequence, with one bound on the kinds at which they would have gone on. -/
lemma Looks.seq (hP : Looks P E C s) (hc : s.Closed) (hE : E ⊆ C)
    (hQ : ∀ a, Predictive C (Q a)) : Looks (P >>= Q) E C s :=
  hP.bind hc (fun a => (hQ a).tells) (.inl subset_rfl) fun a s' _ _ hc' hdone =>
    (hQ a).looks _ s' (hdone.ahead_subset hE subset_rfl) hc'

lemma Predictive.bind (hP : Predictive C P) (hQ : ∀ a, Predictive C (Q a)) :
    Predictive C (P >>= Q) :=
  ⟨tells_bind hP.tells fun a => (hQ a).tells, fun E s hE hc => (hP.looks E s hE hc).seq hc hE hQ⟩

lemma Looks.length_le (h : Looks P E C s) (hs : P s = .ok (a, s')) :
    s'.ahead.length ≤ s.ahead.length := by
  obtain ⟨w, hw, -⟩ := (looks_iff_of_ok hs).1 h
  have hlength := congrArg List.length hw
  simp only [TokenStream.toList, List.length_append, List.length_cons] at hlength
  omega

/-! ### Faults -/

/-- The reader looks at the current token first, so that it tells of a fault. -/
def Stops (R : Grammar α) : Prop :=
  ∀ s : TokenStream, s.current.kind = .fault →
    R s = .error ⟨.fault s.current.value, s.current.span⟩

lemma Stops.tells (h : Stops R) : Tells R := fun s hs => .inl (h s hs)

lemma Stops.bind (h : Stops R) (Q : α → Grammar β) : Stops (R >>= Q) := by
  intro s hs
  rw [bind_apply, h s hs]

lemma stops_peek : Stops peek := fun _ hs => peek_apply_fault hs

lemma stops_expect (k : TokenKind) : Stops (expect k) := stops_peek.bind _

lemma stops_expectName (k : TokenKind) (role : NameRole) : Stops (expectName k role) :=
  stops_peek.bind _

lemma stops_whileAt (k : TokenKind) (part : Grammar α) : Stops (whileAt k part) := by
  intro s hs
  rw [whileAt, peek_apply_fault hs]

lemma looks_fault (hT : Stops R) (hf : s.current.kind = .fault) : Looks R E C s :=
  (looks_iff_of_error (hT s hf)).2
    ⟨[], s.current, s.ahead, rfl, by simp, rfl, hT.tells, .inl ⟨hf, rfl⟩⟩

/-! ### Passing a token -/

/-- At a token of the kind, the reader passes it and goes on like another one. -/
def Enters (R : Grammar α) (k : TokenKind) (Q : Token → Grammar α) : Prop :=
  ∀ (t : Token) (s : TokenStream), t.kind = k → s.Closed → R (s.behind [t]) = Q t s

/-- The reader reads phrases that begin with a token of the kind. -/
def Opens (R : Grammar α) (k : TokenKind) (C : Set TokenKind) : Prop :=
  ∃ Q : Token → Grammar α, Enters R k Q ∧ (∀ t, Tells (Q t)) ∧
    ∀ t s, s.Closed → Looks (Q t) ∅ C s

lemma Enters.takes {Q : Token → Grammar α} (h : Enters R k Q) (hQ : ∀ t, Tells (Q t)) :
    Takes R k := by
  intro t f ht hf
  have hbehind : R ⟨t, [f]⟩ = Q t ⟨f, []⟩ := h t ⟨f, []⟩ ht (TokenStream.closed_of_fault hf)
  rw [hbehind]
  exact hQ t ⟨f, []⟩ hf

lemma Opens.takes (h : Opens R k C) : Takes R k := by
  obtain ⟨Q, henters, hT, -⟩ := h
  exact henters.takes hT

lemma Enters.apply {Q : Token → Grammar α} (h : Enters R k Q) (hend : k.isEnd = false)
    (hc : s.Closed) (hk : s.current.kind = k) : R s = Q s.current s.next := by
  have hcurrent : s.current.kind.isEnd = false := by rwa [hk]
  conv_lhs => rw [hc.eq_behind_next hcurrent]
  exact h s.current s.next hk (hc.next hcurrent)

/-- At a token that the reader passes, it fares like the reader behind it, and nothing else could
stand there any more. -/
lemma Enters.looks {Q : Token → Grammar α} (h : Enters R k Q) (hend : k.isEnd = false)
    (hc : s.Closed) (hk : s.current.kind = k) (hQ : Looks (Q s.current) ∅ C s.next) :
    Looks R E C s := by
  have hcurrent : s.current.kind.isEnd = false := by rwa [hk]
  have htoList := hc.toList_next hcurrent
  have hagree (w : List Token) : Agree ((Q s.current).past w) (R.past (s.current :: w)) := by
    intro x hx
    have hpast := h s.current (x.behind w) hk (hx.behind w)
    rw [past, past, ← hpast, ← TokenStream.behind_append]
    rfl
  have hahead (w : List Token) : ahead R E (s.current :: w) = ahead (Q s.current) ∅ w := by
    ext x
    rw [mem_ahead, mem_ahead]
    exact or_congr ⟨(hagree w).symm.takes, (hagree w).takes⟩ (by simp)
  have happly := h.apply hend hc hk
  rcases ha : Q s.current s.next with e | ⟨a, s'⟩
  · obtain ⟨w, t, rest, hs, hw, hspan, hfailed⟩ := (looks_iff_of_error ha).1 hQ
    refine (looks_iff_of_error (happly.trans ha)).2 ⟨s.current :: w, t, rest,
      by rw [htoList, hs]; rfl, List.forall_mem_cons.2 ⟨hcurrent, hw⟩, hspan, ?_⟩
    rw [hahead]
    exact hfailed.imp ((hagree w).tells hfailed.tells) (hagree w).stuck
  · obtain ⟨w, hs, hw, hdone⟩ := (looks_iff_of_ok ha).1 hQ
    exact (looks_iff_of_ok (happly.trans ha)).2 ⟨s.current :: w, by rw [htoList, hs]; rfl,
      List.forall_mem_cons.2 ⟨hcurrent, hw⟩, (hagree w).done hdone⟩

lemma Opens.looks (h : Opens R k C) (hend : k.isEnd = false) (hc : s.Closed)
    (hk : s.current.kind = k) : Looks R E C s := by
  obtain ⟨Q, henters, -, hQ⟩ := h
  exact henters.looks hend hc hk (hQ s.current s.next (hc.next (by rwa [hk])))

/-- Only what a reader does at tokens of the kind counts. -/
lemma Opens.congr (h : Opens R k C)
    (heq : ∀ s : TokenStream, s.current.kind = k → R' s = R s) : Opens R' k C := by
  obtain ⟨Q, henters, hrest⟩ := h
  refine ⟨Q, fun t s ht hs => ?_, hrest⟩
  rw [heq (s.behind [t]) ht, henters t s ht hs]

lemma Opens.mono (h : Opens R k C) (hC : C ⊆ D) : Opens R k D := by
  obtain ⟨Q, henters, hT, hQ⟩ := h
  exact ⟨Q, henters, hT, fun t s hs => (hQ t s hs).mono hC⟩

lemma Opens.bind (h : Opens P k C) (hQ : ∀ a, Predictive C (Q a)) : Opens (P >>= Q) k C := by
  obtain ⟨R, henters, hR, hlooks⟩ := h
  refine ⟨fun t => R t >>= Q, fun t s ht hs => ?_, fun t => tells_bind (hR t) fun a => (hQ a).tells,
    fun t s hs => ?_⟩
  · show (P >>= Q) _ = (R t >>= Q) s
    rw [bind_apply, bind_apply, henters t s ht hs]
  · exact (hlooks t s hs).seq hs (Set.empty_subset C) hQ

lemma Opens.map (h : Opens P k C) (f : α → β) : Opens (P >>= fun a => pure (f a)) k C :=
  h.bind fun _ => predictive_pure _

/-- A reader that passes just one token of the kind. -/
lemma opens_of_behind {R : Grammar Token} (h : ∀ t s, t.kind = k → R (s.behind [t]) = .ok (t, s)) :
    Opens R k C :=
  ⟨fun t => pure t, fun t s ht _ => h t s ht, fun t => tells_pure t, fun _ _ _ => looks_pure _⟩

lemma advance_behind (t : Token) (ht : t.kind ≠ .fault) (s : TokenStream) :
    advance (s.behind [t]) = .ok (t, s) :=
  advance_apply (s := s.behind [t]) ht

lemma peek_bind_apply {Q : Token → Grammar α} (h : s.current.kind ≠ .fault) :
    (peek >>= Q) s = Q s.current s := by
  rw [bind_apply, peek_apply h]

lemma opens_advance (hk : k ≠ .fault) : Opens advance k C :=
  opens_of_behind fun t s ht => advance_behind t (by rwa [ht]) s

lemma opens_expect (hk : k ≠ .fault) : Opens (expect k) k C := by
  refine opens_of_behind fun t s ht => ?_
  subst ht
  rw [expect, peek_bind_apply (s := s.behind [t]) hk]
  exact (congrFun (if_pos rfl) _).trans (advance_behind t hk s)

lemma opens_expectName (hk : k ≠ .fault) (role : NameRole) : Opens (expectName k role) k C := by
  refine opens_of_behind fun t s ht => ?_
  subst ht
  rw [expectName, peek_bind_apply (s := s.behind [t]) hk]
  exact (congrFun (if_pos rfl) _).trans (advance_behind t hk s)

/-! ### Choices -/

/-- The reader gives up at the current token, with a problem of the kind that belongs to it. -/
def GivesUp (R : Grammar α) (V : Set TokenKind) (s : TokenStream) : Prop :=
  ∃ p, R s = .error ⟨p, s.current.span⟩ ∧ p ≠ .tooDeep ∧ p.Suits V s.current.kind

lemma GivesUp.of_eq (h : GivesUp R' V s) (heq : R s = R' s) : GivesUp R V s := by
  rwa [GivesUp, heq]

lemma GivesUp.bind (h : GivesUp P V s) (Q : α → Grammar β) : GivesUp (P >>= Q) V s := by
  obtain ⟨p, hp, hrest⟩ := h
  exact ⟨p, by rw [bind_apply, hp], hrest⟩

lemma GivesUp.peek {Q : Token → Grammar α} (hf : s.current.kind ≠ .fault)
    (h : GivesUp (Q s.current) V s) : GivesUp (peek >>= Q) V s :=
  h.of_eq (peek_bind_apply hf)

lemma givesUp_unexpected (hf : s.current.kind ≠ .fault) (hV : ¬ s.current.kind.Misspelt V)
    (e : Expected) : GivesUp (unexpected e : Grammar α) V s :=
  ⟨_, unexpected_apply hf e, by simp, .inr ⟨rfl, hV⟩⟩

/-- The reader passes tokens of some kinds, and gives up at all others. -/
lemma looks_of_opens (K : Set TokenKind) (hT : Stops R) (hK : ∀ x ∈ K, x.isEnd = false)
    (hopens : ∀ x ∈ K, Opens R x C)
    (herror : ∀ y : TokenStream, y.current.kind ≠ .fault → y.current.kind ∉ K →
      GivesUp R (K ∪ E) y)
    (hc : s.Closed) : Looks R E C s := by
  by_cases hk : s.current.kind ∈ K
  · exact (hopens _ hk).looks (hK _ hk) hc rfl
  by_cases hf : s.current.kind = .fault
  · exact looks_fault hT hf
  have hrefuses : ∀ x, x ≠ .fault → x ∉ K → Refuses R x := by
    rintro x hx hxK y - rfl
    obtain ⟨p, hp, hdeep, -⟩ := herror y hx hxK
    exact ⟨_, hp, hdeep, rfl⟩
  have hahead : ahead R E [] = K ∪ E := by
    ext x
    rw [mem_ahead, past_nil]
    refine or_congr ⟨fun hx => ?_, fun hx => (hopens x hx).takes⟩ (by simp)
    by_contra hxK
    refine hx.not_refuses (hrefuses x ?_ hxK)
    rintro rfl
    exact hT.tells.not_takes hx
  obtain ⟨p, hp, hdeep, hsuits⟩ := herror s hf hk
  refine (looks_iff_of_error hp).2 ⟨[], s.current, s.ahead, rfl, by simp, rfl, hT.tells,
    .inr ⟨hf, .inr ⟨hdeep, hrefuses _ hf hk, fun x hx => ?_, ?_⟩⟩⟩
  · by_cases hxK : x ∈ K
    · exact .inl (hopens x hxK).takes
    · exact .inr (hrefuses x hx hxK)
  · rwa [hahead]

/-- The reader passes tokens of one kind, and gives up at all others. -/
lemma looks_of_opens_one (hT : Stops R) (hend : k.isEnd = false) (hopens : Opens R k C)
    (herror : ∀ y : TokenStream, y.current.kind ≠ .fault → y.current.kind ≠ k →
      GivesUp R ({k} ∪ E) y)
    (hc : s.Closed) : Looks R E C s := by
  refine looks_of_opens {k} hT ?_ ?_ herror hc
  · rintro x rfl
    exact hend
  · rintro x rfl
    exact hopens

lemma predictive_of_opens (hT : Stops R) (hend : k.isEnd = false) (hopens : Opens R k C)
    (herror : ∀ E y, E ⊆ C → y.current.kind ≠ .fault → y.current.kind ≠ k →
      GivesUp R ({k} ∪ E) y) : Predictive C R :=
  ⟨hT.tells, fun E _ hE hc => looks_of_opens_one hT hend hopens (fun y => herror E y hE) hc⟩

/-- The reader returns in front of all tokens but those of one kind. -/
lemma looks_of_leaves (hT : Stops R) (htakes : Takes R k) (hkC : k ∈ C)
    (hleaves : ∀ y : TokenStream, y.current.kind ≠ .fault → y.current.kind ≠ k →
      R y = .ok (a, y))
    (hk : s.current.kind ≠ k) : Looks R E C s := by
  by_cases hf : s.current.kind = .fault
  · exact looks_fault hT hf
  have hleft : ∀ x, x ≠ .fault → x ≠ k → Leaves R a x := by
    rintro x hx hxk y - rfl
    exact hleaves y hx hxk
  refine (looks_iff_of_ok (hleaves s hf hk)).2
    ⟨[], rfl, by simp, hT.tells, hleft _ hf hk, fun x hx => ?_⟩
  by_cases hxk : x = k
  · rw [hxk]
    exact .inl ⟨htakes, hkC⟩
  · exact .inr (hleft x hx hxk)

/-- The reader passes tokens of one kind, and returns in front of all others. -/
lemma predictive_of_leaves (hT : Stops R) (hend : k.isEnd = false) (hopens : Opens R k C)
    (hkC : k ∈ C)
    (hleaves : ∀ y : TokenStream, y.current.kind ≠ .fault → y.current.kind ≠ k →
      R y = .ok (a, y)) : Predictive C R := by
  refine ⟨hT.tells, fun E s _ hc => ?_⟩
  by_cases hk : s.current.kind = k
  · exact hopens.looks hend hc hk
  · exact looks_of_leaves hT hopens.takes hkC hleaves hk

/-! ### Repetition -/

section

variable {part : Grammar α}

/-- A repetition of parts that begin with a token passes this token, and reads the rest of the part
and more of them. -/
lemma enters_whileAt {Q : Token → Grammar α} (hk : k ≠ .fault) (hpart : Enters part k Q)
    (hQ : ∀ t s, s.Closed → Looks (Q t) ∅ C s) :
    Enters (whileAt k part) k
      (fun t => Q t >>= fun a => whileAt k part >>= fun as => pure (a :: as)) := by
  rintro t s rfl hs
  have hpeek : peek (s.behind [t]) = .ok (t, s.behind [t]) := peek_apply (s := s.behind [t]) hk
  rw [whileAt, hpeek, hpart t s rfl hs]
  simp only [if_pos, bind_apply]
  rcases h : Q t s with e | ⟨a, s'⟩
  · rfl
  -- the part is never empty, so the loop does not stop after it for want of progress
  have hlength := (hQ t s hs).length_le h
  have hshort : s'.ahead.length < (s.behind [t]).ahead.length := by
    show _ < ([] ++ s.toList).length
    simp only [List.nil_append, TokenStream.toList, List.length_cons]
    omega
  simp only [dif_pos hshort]
  rcases whileAt t.kind part s' with e | ⟨as, s''⟩ <;> rfl

lemma whileAt_of_ne (hf : s.current.kind ≠ .fault) (hk : s.current.kind ≠ k) :
    whileAt k part s = .ok ([], s) := by
  rw [whileAt, peek_apply hf]
  simp only [if_neg hk]

/-- Behind a repetition stands a token of another kind. -/
lemma current_of_whileAt (hend : k.isEnd = false) (hpart : Opens part k C) (s : TokenStream)
    (hc : s.Closed) {as : List α} (h : whileAt k part s = .ok (as, s')) : s'.current.kind ≠ k := by
  have ih : ∀ s₁ : TokenStream, s₁.ahead.length < s.ahead.length → s₁.Closed →
      ∀ as, whileAt k part s₁ = .ok (as, s') → s'.current.kind ≠ k :=
    fun s₁ _ hc₁ _ h₁ => current_of_whileAt hend hpart s₁ hc₁ h₁
  obtain ⟨Q, henters, -, hQ⟩ := hpart
  by_cases hf : s.current.kind = .fault
  · rw [stops_whileAt k part s hf] at h
    cases h
  by_cases hk : s.current.kind = k
  · have hcurrent : s.current.kind.isEnd = false := by rwa [hk]
    have hnext := hc.next hcurrent
    rw [(enters_whileAt (ne_fault_of_isEnd hend) henters hQ).apply hend hc hk,
      bind_eq_ok_iff] at h
    obtain ⟨a, s₁, ha, h⟩ := h
    rw [bind_eq_ok_iff] at h
    obtain ⟨as, s₂, has, h⟩ := h
    obtain ⟨-, rfl⟩ := Prod.mk.inj (Except.ok.inj h)
    have hlooks := hQ s.current s.next hnext
    have hlength := hlooks.length_le ha
    obtain ⟨w, hw, hends, -⟩ := (looks_iff_of_ok ha).1 hlooks
    have hshort := hlength.trans_lt (hc.length_next hcurrent)
    exact ih s₁ hshort (hnext.of_append hends hw) as has
  · rw [whileAt_of_ne hf hk] at h
    obtain ⟨-, rfl⟩ := Prod.mk.inj (Except.ok.inj h)
    exact hk
termination_by s.ahead.length

/-- Parts that begin with a token are read as long as a token of its kind stands there. -/
lemma looks_whileAt (hend : k.isEnd = false) (hpart : Opens part k C) (hkC : k ∈ C)
    (s : TokenStream) (hc : s.Closed) (E : Set TokenKind) : Looks (whileAt k part) E C s := by
  have ih : ∀ s₁ : TokenStream, s₁.ahead.length < s.ahead.length → s₁.Closed →
      ∀ E, Looks (whileAt k part) E C s₁ :=
    fun s₁ _ hc₁ E => looks_whileAt hend hpart hkC s₁ hc₁ E
  obtain ⟨Q, hpart, hT, hQ⟩ := hpart
  have henters := enters_whileAt (ne_fault_of_isEnd hend) hpart hQ
  have htells : ∀ a : α, Tells (whileAt k part >>= fun as => pure (a :: as)) :=
    fun a => ((stops_whileAt k part).bind _).tells
  by_cases hk : s.current.kind = k
  · have hcurrent : s.current.kind.isEnd = false := by rwa [hk]
    have hnext := hc.next hcurrent
    refine henters.looks hend hc hk ?_
    have hlooks := hQ s.current s.next hnext
    refine hlooks.bind hnext htells (.inl subset_rfl) fun a s₁ w ha hc₁ _ => ?_
    have hshort := (hlooks.length_le ha).trans_lt (hc.length_next hcurrent)
    exact (ih s₁ hshort hc₁ _).map hc₁ _
  · have htakes := henters.takes fun t => tells_bind (hT t) htells
    exact looks_of_leaves (stops_whileAt k part) htakes hkC (fun y => whileAt_of_ne) hk
termination_by s.ahead.length

lemma predictive_whileAt (hend : k.isEnd = false) (hpart : Opens part k C) (hkC : k ∈ C) :
    Predictive C (whileAt k part) :=
  ⟨(stops_whileAt k part).tells, fun E s _ hc => looks_whileAt hend hpart hkC s hc E⟩

/-- Behind a repetition one more part could stand. -/
lemma mem_ahead_whileAt {as : List α} {x : TokenKind} (hend : k.isEnd = false)
    (hpart : Opens part k C) (h : Done ((whileAt k part).past w) as D x) :
    k ∈ ahead (whileAt k part) E w := by
  rcases h.cases k (ne_fault_of_isEnd hend) with ⟨htakes, -⟩ | hleaves
  · exact .inl htakes
  · let y : TokenStream := ⟨⟨k, [], default⟩, [⟨.fault, [], default⟩]⟩
    have hy : y.Closed := TokenStream.closed_of_fault_ahead rfl _
    have hne := current_of_whileAt hend hpart (y.behind w) (hy.behind w) (hleaves y hy rfl)
    exact absurd rfl hne

end

end Grammar

end Idl
