/-
# Reading without positions

Positions are carried through the grammar, but nothing is decided by them.  Taking the positions
out of the tokens and reading then gives the same as reading first, and taking the positions out
of what was read, or out of the error (`Module.ofTokens_unplaced`).  The statement is kept by
sequencing, by choices that look at kinds, and by repetition.
-/
import Idl.Proofs.Canonical.ReadBack
import Idl.Proofs.Grammar.Reading

namespace Idl

variable {_ : Machine}

/-- The token without its place. -/
def Token.unplaced (t : Token) : Token := { t with span := default }

/-- The stream without the places of its tokens. -/
def TokenStream.unplaced (s : TokenStream) : TokenStream :=
  ⟨s.current.unplaced, s.ahead.map Token.unplaced⟩

/-- The problem without the places of the tokens that it tells of. -/
def Problem.unplaced : Problem → Problem
  | .unexpected e found => .unexpected e found.unplaced
  | .trailing found => .trailing found.unplaced
  | p => p

/-- The error without its place. -/
def SyntaxError.unplaced (e : SyntaxError) : SyntaxError := ⟨e.problem.unplaced, default⟩

lemma Problem.kind_unplaced (p : Problem) : p.unplaced.kind = p.kind := by
  cases p <;> rfl

lemma Problem.message_unplaced (p : Problem) : p.unplaced.message = p.message := by
  cases p <;> rfl

lemma TokenStream.next_unplaced (s : TokenStream) : s.unplaced.next = s.next.unplaced := by
  obtain ⟨t, _ | ⟨u, us⟩⟩ := s <;> rfl

namespace Grammar

variable {α β γ δ : Type} {u : α → β} {v : γ → δ} {P : Grammar α} {P' : Grammar β}
  {Q : α → Grammar γ} {Q' : β → Grammar δ} {k : TokenKind} {s : TokenStream}

/-- What comes of reading, without positions. -/
def outcomeUnplaced (u : α → β) :
    Except SyntaxError (α × TokenStream) → Except SyntaxError (β × TokenStream)
  | .ok (a, s) => .ok (u a, s.unplaced)
  | .error e => .error e.unplaced

/-- Without positions, the second reader fares like the first one. -/
def Unplaces (u : α → β) (P : Grammar α) (P' : Grammar β) : Prop :=
  ∀ s, P' s.unplaced = outcomeUnplaced u (P s)

/-! ### Putting readers together -/

lemma Unplaces.bind (hP : Unplaces u P P') (hQ : ∀ a, Unplaces v (Q a) (Q' (u a))) :
    Unplaces v (P >>= Q) (P' >>= Q') := by
  intro s
  rw [bind_apply, bind_apply, hP s]
  rcases P s with e | ⟨a, s'⟩
  · rfl
  · exact hQ a s'

lemma Unplaces.congr {u' : α → β} (h : Unplaces u P P') (hu : ∀ a, u a = u' a) :
    Unplaces u' P P' := by
  obtain rfl : u = u' := funext hu
  exact h

lemma unplaces_pure {a : α} {b : β} (h : u a = b) : Unplaces u (pure a) (pure b) := by
  intro s
  rw [pure_apply, pure_apply, ← h]
  rfl

lemma Unplaces.discard (h : Unplaces u P P') :
    Unplaces id (Functor.discard P) (Functor.discard P') := by
  intro s
  have hunit : Unplaces id (pure PUnit.unit) (pure PUnit.unit) := unplaces_pure rfl
  have hs : (P' >>= fun _ => pure PUnit.unit) s.unplaced =
      outcomeUnplaced id ((P >>= fun _ => pure PUnit.unit) s) := h.bind (fun _ => hunit) s
  rw [← bind_pure (Functor.discard P), ← bind_pure (Functor.discard P'), discard_bind,
    discard_bind]
  exact hs

lemma unplaces_throw {e e' : SyntaxError} (h : e.unplaced = e') :
    Unplaces u (throw e) (throw e') := by
  intro s
  rw [← h]
  rfl

lemma unplaces_ite {c c' : Prop} [Decidable c] [Decidable c'] {R : Grammar α} {R' : Grammar β}
    (hc : c ↔ c') (hP : Unplaces u P P') (hR : Unplaces u R R') :
    Unplaces u (if c then P else R) (if c' then P' else R') := by
  by_cases h : c
  · rwa [if_pos h, if_pos (hc.1 h)]
  · rwa [if_neg h, if_neg (mt hc.2 h)]

/-! ### Single tokens -/

lemma unplaces_peek : Unplaces Token.unplaced peek peek := by
  intro s
  by_cases hf : s.current.kind = .fault
  · rw [peek_apply_fault hf, peek_apply_fault (s := s.unplaced) hf]
    rfl
  · rw [peek_apply hf, peek_apply (s := s.unplaced) hf]
    rfl

lemma unplaces_advance : Unplaces Token.unplaced advance advance := by
  refine unplaces_peek.bind fun t s => ?_
  show Except.ok (t.unplaced, s.unplaced.next) = _
  rw [TokenStream.next_unplaced]
  rfl

lemma unplaces_unexpected (e : Expected) : Unplaces u (unexpected e) (unexpected e) :=
  unplaces_peek.bind fun _ => unplaces_throw rfl

lemma unplaces_expect (k : TokenKind) : Unplaces Token.unplaced (expect k) (expect k) := by
  refine unplaces_peek.bind fun t => unplaces_ite Iff.rfl unplaces_advance ?_
  cases k with
  | keyword w => exact unplaces_ite Iff.rfl (unplaces_throw rfl) (unplaces_unexpected _)
  | _ => exact unplaces_unexpected _

lemma unplaces_expectName (k : TokenKind) (role : NameRole) :
    Unplaces Token.unplaced (expectName k role) (expectName k role) :=
  unplaces_peek.bind fun _ => unplaces_ite Iff.rfl unplaces_advance <|
    unplaces_ite Iff.rfl (unplaces_throw rfl) (unplaces_unexpected _)

/-! ### Repetition -/

lemma whileAt_unplaced {part : Grammar α} {part' : Grammar β} (h : Unplaces u part part')
    (k : TokenKind) (s : TokenStream) :
    whileAt k part' s.unplaced = outcomeUnplaced (List.map u) (whileAt k part s) := by
  rw [whileAt, whileAt, unplaces_peek s]
  rcases peek s with e | ⟨t, s₁⟩
  · rfl
  simp only [outcomeUnplaced]
  by_cases hk : t.kind = k
  · have hk' : t.unplaced.kind = k := hk
    simp only [if_pos hk, if_pos hk', h s]
    rcases part s with e | ⟨a, s'⟩
    · rfl
    simp only [outcomeUnplaced]
    have hlength : s'.unplaced.ahead.length < s.unplaced.ahead.length ↔
        s'.ahead.length < s.ahead.length := by
      simp [TokenStream.unplaced]
    by_cases hshort : s'.ahead.length < s.ahead.length
    · have ih := whileAt_unplaced h k s'
      rw [dif_pos hshort, dif_pos (hlength.2 hshort), ih]
      rcases whileAt k part s' with e | ⟨as, s''⟩ <;> rfl
    · rw [dif_neg hshort, dif_neg (mt hlength.1 hshort)]
      rfl
  · have hk' : ¬ t.unplaced.kind = k := hk
    simp only [if_neg hk, if_neg hk']
    rfl
termination_by s.ahead.length

lemma unplaces_whileAt {part : Grammar α} {part' : Grammar β} (h : Unplaces u part part')
    (k : TokenKind) : Unplaces (List.map u) (whileAt k part) (whileAt k part') :=
  whileAt_unplaced h k

/-- Texts have no positions in them. -/
lemma unplaces_whileAt_text {part : Grammar Text} (h : Unplaces id part part) (k : TokenKind) :
    Unplaces id (whileAt k part) (whileAt k part) :=
  (unplaces_whileAt h k).congr List.map_id

/-! ### Annotations -/

lemma unplaces_param : Unplaces Param.unplaced param param := by
  refine unplaces_advance.bind fun name => unplaces_peek.bind fun _ => ?_
  refine unplaces_ite Iff.rfl ?_ (unplaces_pure rfl)
  exact unplaces_advance.discard.bind fun _ => (unplaces_expect _).bind fun _ => unplaces_pure rfl

lemma unplaces_annotation : Unplaces Annotation.unplaced annotation annotation := by
  refine unplaces_advance.bind fun opening => (unplaces_expectName _ _).bind fun name => ?_
  refine (unplaces_whileAt unplaces_param _).bind fun params => unplaces_peek.bind fun _ => ?_
  refine unplaces_ite Iff.rfl ?_ (unplaces_ite Iff.rfl (unplaces_throw rfl) (unplaces_unexpected _))
  exact unplaces_advance.discard.bind fun _ => unplaces_pure rfl

lemma unplaces_annotations : Unplaces (List.map Annotation.unplaced) annotations annotations :=
  unplaces_whileAt unplaces_annotation _

/-! ### Types -/

/-- A name behind a token, of which only the text counts. -/
lemma unplaces_nameBehind (k : TokenKind) (role : NameRole) :
    Unplaces id
      (do discard advance; return (← expectName k role).value)
      (do discard advance; return (← expectName k role).value) :=
  unplaces_advance.discard.bind fun _ =>
    (unplaces_expectName k role).bind fun _ => unplaces_pure rfl

lemma unplaces_reference : Unplaces TypeExpr.unplaced reference reference := by
  refine (unplaces_expectName _ _).bind fun first => ?_
  exact (unplaces_whileAt_text (unplaces_nameBehind _ _) _).bind fun more => unplaces_pure rfl

lemma unplaces_argument {limit : Nat}
    (h : Unplaces TypeExpr.unplaced (typeExpr limit) (typeExpr limit)) :
    Unplaces TypeExpr.unplaced (typeExpr.argument limit) (typeExpr.argument limit) := by
  rw [typeExpr.argument]
  refine unplaces_advance.discard.bind fun _ => (unplaces_expect _).discard.bind fun _ => ?_
  exact h.bind fun t => (unplaces_expect _).discard.bind fun _ => unplaces_pure rfl

lemma unplaces_typeExpr (limit : Nat) :
    Unplaces TypeExpr.unplaced (typeExpr limit) (typeExpr limit) := by
  induction limit with
  | zero =>
    rw [typeExpr]
    exact unplaces_peek.bind fun _ => unplaces_throw rfl
  | succ limit ih =>
    have hargument := unplaces_argument ih
    rw [typeExpr]
    refine unplaces_peek.bind fun t => ?_
    have hkind : t.unplaced.kind = t.kind := rfl
    rw [hkind]
    cases primitive? t.kind with
    | some p => exact unplaces_advance.discard.bind fun _ => unplaces_pure rfl
    | none =>
      refine unplaces_ite Iff.rfl (hargument.bind fun _ => unplaces_pure rfl) ?_
      refine unplaces_ite Iff.rfl (hargument.bind fun _ => unplaces_pure rfl) ?_
      exact unplaces_ite Iff.rfl unplaces_reference (unplaces_unexpected _)

lemma unplaces_type : Unplaces TypeExpr.unplaced type type := unplaces_typeExpr _

/-! ### Declarations -/

lemma unplaces_field : Unplaces Field.unplaced field field := by
  refine (unplaces_expectName _ _).bind fun name => (unplaces_expect _).discard.bind fun _ => ?_
  exact unplaces_type.bind fun t => unplaces_annotations.bind fun as => unplaces_pure rfl

lemma unplaces_record : Unplaces Body.unplaced record record := by
  -- both ways through a record end in the same choice
  have hend (fields : List Field) : Unplaces Body.unplaced
      (do
        if (← peek).kind = .mark .closeBrace then
          discard advance
          return .record fields
        else unexpected .fieldOrEnd)
      (do
        if (← peek).kind = .mark .closeBrace then
          discard advance
          return .record (fields.map Field.unplaced)
        else unexpected .fieldOrEnd) :=
    unplaces_peek.bind fun _ => unplaces_ite Iff.rfl
      (unplaces_advance.discard.bind fun _ => unplaces_pure rfl) (unplaces_unexpected _)
  have hmore : Unplaces (List.map Field.unplaced)
      (whileAt (.mark .comma) do discard advance; field)
      (whileAt (.mark .comma) do discard advance; field) :=
    unplaces_whileAt (unplaces_advance.discard.bind fun _ => unplaces_field) _
  rw [record]
  simp only [pure_bind]
  refine unplaces_advance.discard.bind fun _ => unplaces_peek.bind fun _ => ?_
  refine unplaces_ite Iff.rfl (hend []) ?_
  exact unplaces_field.bind fun first => hmore.bind fun more => hend (first :: more)

lemma unplaces_sum : Unplaces Body.unplaced sum sum := by
  refine unplaces_advance.discard.bind fun _ => (unplaces_expectName _ _).bind fun first => ?_
  refine (unplaces_whileAt_text (unplaces_nameBehind _ _) _).bind fun more => ?_
  exact unplaces_peek.bind fun _ => unplaces_ite Iff.rfl
    (unplaces_advance.discard.bind fun _ => unplaces_pure rfl) (unplaces_unexpected _)

lemma unplaces_body : Unplaces Body.unplaced body body := by
  refine unplaces_peek.bind fun t => ?_
  refine unplaces_ite Iff.rfl (unplaces_type.bind fun _ => unplaces_pure rfl) ?_
  refine unplaces_ite Iff.rfl unplaces_record (unplaces_ite Iff.rfl unplaces_sum ?_)
  refine unplaces_ite Iff.rfl ?_ (unplaces_unexpected _)
  exact unplaces_advance.discard.bind fun _ => unplaces_type.bind fun _ => unplaces_pure rfl

lemma unplaces_declaration : Unplaces Declaration.unplaced declaration declaration := by
  refine (unplaces_expect _).discard.bind fun _ => (unplaces_expectName _ _).bind fun name => ?_
  refine (unplaces_expect _).discard.bind fun _ => unplaces_body.bind fun b => ?_
  exact unplaces_annotations.bind fun as => unplaces_pure rfl

/-! ### Modules -/

lemma unplaces_exportPackage (w : Keyword) : Unplaces id (exportPackage w) (exportPackage w) := by
  refine (unplaces_expect _).discard.bind fun _ => (unplaces_expect _).discard.bind fun _ => ?_
  exact (unplaces_expect _).bind fun _ => unplaces_pure rfl

lemma unplaces_importPackage : Unplaces id importPackage importPackage :=
  (unplaces_expect _).discard.bind fun _ => (unplaces_expect _).bind fun _ => unplaces_pure rfl

lemma unplaces_wholeModule [Machine] : Unplaces Module.unplaced wholeModule wholeModule := by
  refine (unplaces_exportPackage _).bind fun scala => (unplaces_exportPackage _).bind fun purs => ?_
  refine (unplaces_whileAt_text unplaces_importPackage _).bind fun imports => ?_
  refine unplaces_annotations.bind fun as => ?_
  refine (unplaces_whileAt unplaces_declaration _).bind fun ds => unplaces_peek.bind fun _ => ?_
  exact unplaces_ite Iff.rfl (unplaces_pure rfl) (unplaces_throw rfl)

end Grammar

/-- A module is read without positions as it is read with them. -/
lemma Module.ofTokens_unplaced [Machine] (s : TokenStream) :
    ofTokens s.unplaced = match ofTokens s with
      | .ok m => .ok m.unplaced
      | .error e => .error e.unplaced := by
  have h := Grammar.unplaces_wholeModule s
  change (Grammar.wholeModule s.unplaced).map Prod.fst =
    match (Grammar.wholeModule s).map Prod.fst with
      | .ok m => .ok m.unplaced
      | .error e => .error e.unplaced
  rw [h]
  rcases Grammar.wholeModule s with e | ⟨m, s'⟩ <;> rfl

end Idl
