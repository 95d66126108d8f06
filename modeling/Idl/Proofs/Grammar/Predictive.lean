/-
# Productions and lookahead

Each production of the grammar decides by one token, and an error in it is of the kind that belongs
to the tokens that could have stood at its place (`Grammar.looks_content`).  A production is
treated by following its text.  What could have stood at a place inside a declaration besides the
token that is called for are marks only (`Grammar.plain`), so that only this token decides about
mistakes of spelling.
-/
import Idl.Proofs.Grammar.Lookahead

namespace Idl

variable {_ : Machine}

namespace Grammar

variable {α β : Type} {P R : Grammar α} {k x : TokenKind} {s : TokenStream}
  {C E V : Set TokenKind}

/-! ### Mistakes of spelling -/

/-- The kinds that are neither names nor reserved words. -/
def plain : Set TokenKind := {k | k.isName = false ∧ k.isKeyword = false}

lemma mark_mem_plain (m : Mark) : .mark m ∈ plain := ⟨rfl, rfl⟩

lemma string_mem_plain : .string ∈ plain := ⟨rfl, rfl⟩

lemma packageName_mem_plain : .packageName ∈ plain := ⟨rfl, rfl⟩

/-- Where only plain tokens could stand, nothing is misspelt. -/
lemma not_misspelt_of_plain (hx : x ∈ plain) (hE : E ⊆ plain) : ¬ k.Misspelt ({x} ∪ E) := by
  have hV : {x} ∪ E ⊆ plain := Set.union_subset (Set.singleton_subset_iff.2 hx) hE
  rintro (⟨-, w, hw⟩ | ⟨-, ⟨y, hy, hname⟩, -⟩)
  · have hplain : .keyword w ∈ plain := hV (by rw [hw]; rfl)
    cases hplain.2
  · simp [(hV hy).1] at hname

/-- Where a name could stand and no reserved word, just the reserved words are misspelt. -/
lemma givesUp_reservedWord {role : NameRole} {e : Expected} (hx : x ∈ V) (hname : x.isName)
    (hV : ∀ y ∈ V, y.isKeyword = false) (hf : s.current.kind ≠ .fault) :
    GivesUp (if s.current.kind.isKeyword then
        throw ⟨.reservedWord s.current.value role, s.current.span⟩
      else unexpected e : Grammar α) V s := by
  by_cases hword : s.current.kind.isKeyword
  · rw [if_pos hword]
    exact ⟨_, rfl, by simp, .inl ⟨rfl, .inr ⟨hword, ⟨x, hx, hname⟩, hV⟩⟩⟩
  · rw [if_neg hword]
    refine givesUp_unexpected hf ?_ e
    rintro (⟨-, w, rfl⟩ | ⟨hword', -⟩)
    · obtain rfl : x = .keyword w := hx
      simp [TokenKind.isName] at hname
    · exact hword hword'

/-! ### Single tokens -/

lemma predictive_expect (hk : k ∈ plain) (hend : k.isEnd = false) (hC : C ⊆ plain) :
    Predictive C (expect k) := by
  refine predictive_of_opens (stops_expect k) hend (opens_expect (ne_fault_of_isEnd hend))
    fun E y hE hf hy => GivesUp.peek hf ?_
  simp only [if_neg hy]
  have hspelt : ¬ y.current.kind.Misspelt ({k} ∪ E) := not_misspelt_of_plain hk (hE.trans hC)
  cases k with
  | keyword w => cases hk.2
  | _ => exact givesUp_unexpected hf hspelt _

/-- A reserved word is told from a name in its place, if nothing else could stand there. -/
lemma predictive_expect_keyword (w : Keyword) : Predictive ∅ (expect (.keyword w)) := by
  refine predictive_of_opens (stops_expect _) rfl (opens_expect (by simp))
    fun E y hE hf hy => GivesUp.peek hf ?_
  obtain rfl := Set.subset_empty_iff.1 hE
  simp only [if_neg hy, Set.union_empty]
  by_cases hname : y.current.kind.isName
  · rw [if_pos hname]
    exact ⟨_, rfl, by simp, .inl ⟨rfl, .inl ⟨hname, w, rfl⟩⟩⟩
  · rw [if_neg hname]
    refine givesUp_unexpected hf ?_ _
    rintro (⟨hname', -⟩ | ⟨-, ⟨x, rfl, hx⟩, -⟩)
    · exact hname hname'
    · simp [TokenKind.isName] at hx

/-- A name is told from a reserved word in its place, if no reserved word could stand there. -/
lemma givesUp_expectName (role : NameRole) (hname : k.isName) (hkV : k ∈ V)
    (hV : ∀ x ∈ V, x.isKeyword = false) (hf : s.current.kind ≠ .fault)
    (hk : s.current.kind ≠ k) : GivesUp (expectName k role) V s := by
  refine GivesUp.peek hf ?_
  simp only [if_neg hk]
  exact givesUp_reservedWord hkV hname hV hf

lemma isKeyword_of_mem_union (hname : k.isName) (hE : E ⊆ plain) :
    ∀ x ∈ {k} ∪ E, x.isKeyword = false := by
  rintro x (rfl | hx)
  · cases x <;> simp_all [TokenKind.isName, TokenKind.isKeyword]
  · exact (hE hx).2

lemma predictive_expectName {role : NameRole} (hname : k.isName) (hC : C ⊆ plain) :
    Predictive C (expectName k role) := by
  have hend : k.isEnd = false := by cases k <;> simp_all [TokenKind.isName, TokenKind.isEnd]
  refine predictive_of_opens (stops_expectName k role) hend
    (opens_expectName (ne_fault_of_isEnd hend) role) fun E y hE hf hy => ?_
  have hV := isKeyword_of_mem_union hname (hE.trans hC)
  exact givesUp_expectName role hname (.inl rfl) hV hf hy

/-! ### Choices by the current token -/

lemma stops_peek_bind (Q : Token → Grammar α) : Stops (peek >>= Q) := stops_peek.bind Q

lemma opens_peek {Q : Token → Grammar α} (h : Opens R k C) (hk : k ≠ .fault)
    (hQ : ∀ t : Token, t.kind = k → Q t = R) : Opens (peek >>= Q) k C := by
  refine h.congr fun s hs => ?_
  rw [peek_bind_apply (by rwa [hs]), hQ _ hs]

/-- A phrase that may be left out. -/
lemma predictive_optional (h : Opens R k C) (hend : k.isEnd = false) (hk : k ∈ C) (a : α) :
    Predictive C (peek >>= fun t => if t.kind = k then R else pure a) := by
  refine predictive_of_leaves (a := a) (stops_peek_bind _) hend
    (opens_peek h (ne_fault_of_isEnd hend) fun t ht => if_pos ht) hk fun y hf hy => ?_
  rw [peek_bind_apply hf, if_neg hy, pure_apply]

/-- Passing the token that closes a phrase. -/
lemma opens_closing (hk : k ≠ .fault) (a : α) (Q : Token → Grammar α) :
    Opens (peek >>= fun t => if t.kind = k then discard advance >>= fun _ => pure a else Q t) k
      C := by
  refine opens_peek ((opens_advance hk).map fun _ => a) hk fun t ht => ?_
  rw [if_pos ht, discard_bind]

lemma predictive_closing {m : Mark} {e : Expected} (a : α) :
    Predictive plain (peek >>= fun t =>
      if t.kind = .mark m then discard advance >>= fun _ => pure a else unexpected e) := by
  refine predictive_of_opens (stops_peek_bind _) rfl (opens_closing (by simp) a _)
    fun E y hE hf hy => GivesUp.peek hf ?_
  rw [if_neg hy]
  exact givesUp_unexpected hf (not_misspelt_of_plain (mark_mem_plain m) hE) e

/-- A name behind a mark, of which only the text counts. -/
lemma opens_nameBehind (m : Mark) (role : NameRole) :
    Opens (do discard advance; return (← expectName .upperName role).value) (.mark m) plain := by
  rw [discard_bind]
  exact (opens_advance (by simp)).bind fun _ =>
    (predictive_expectName rfl subset_rfl).bind fun _ => predictive_pure _

lemma predictive_names (m : Mark) (role : NameRole) :
    Predictive plain
      (whileAt (.mark m) do discard advance; return (← expectName .upperName role).value) :=
  predictive_whileAt rfl (opens_nameBehind m role) (mark_mem_plain m)

/-! ### Annotations -/

lemma opens_param : Opens param .lowerName plain := by
  refine (opens_advance (by simp)).bind fun name => ?_
  have hvalue : Opens (discard advance >>= fun _ => expect .string >>= fun value =>
      pure (⟨name.value, name.span.first, some value.value⟩ : Param)) (.mark .assign) plain := by
    rw [discard_bind]
    exact (opens_advance (by simp)).bind fun _ =>
      (predictive_expect string_mem_plain rfl subset_rfl).bind fun _ => predictive_pure _
  exact predictive_optional hvalue rfl (mark_mem_plain _) _

/-- Where an annotation may end, another parameter could stand, so that a reserved word is a
mistake of spelling there. -/
lemma looks_endOfAnnotation {params : List Param} {name opening : Token} (hc : s.Closed)
    (hname : .lowerName ∈ E) (hE : E ⊆ insert .lowerName plain) :
    Looks (peek >>= fun t =>
      if t.kind = .mark .closeAngle then
        discard advance >>= fun _ =>
          pure (⟨name.value, opening.span.first, params⟩ : Annotation)
      else if t.kind.isKeyword then throw ⟨.reservedWord t.value .parameter, t.span⟩
      else unexpected .parameterOrEnd) E ∅ s := by
  have hV : ∀ x ∈ ({.mark .closeAngle} ∪ E : Set TokenKind), x.isKeyword = false := by
    rintro x (rfl | hx)
    · rfl
    · rcases hE hx with rfl | hx
      · rfl
      · exact hx.2
  refine looks_of_opens_one (stops_peek_bind _) rfl (opens_closing (by simp) _ _)
    (fun y hf hy => GivesUp.peek hf ?_) hc
  rw [if_neg hy]
  exact givesUp_reservedWord (.inr hname) rfl hV hf

lemma opens_annotation : Opens annotation (.mark .openAngle) ∅ := by
  refine (opens_advance (by simp)).bind fun opening => ?_
  refine (predictive_expectName rfl (Set.empty_subset _)).bind fun name => ?_
  have hparams (E s) (hc : s.Closed) :
      Looks (whileAt .lowerName param) E (insert .lowerName plain) s :=
    looks_whileAt rfl (opens_param.mono (Set.subset_insert _ _)) (Set.mem_insert _ _) s hc E
  refine ⟨tells_bind (stops_whileAt _ _).tells fun _ => (stops_peek_bind _).tells,
    fun E s hE hc => ?_⟩
  refine (hparams E s hc).bind hc (fun _ => (stops_peek_bind _).tells)
    (.inr fun params => ⟨.mark .closeAngle, by simp, ?_⟩) fun params s' w _ hc' hdone => ?_
  · exact (opens_closing (C := ∅) (by simp) _ _).takes
  · exact looks_endOfAnnotation hc' (mem_ahead_whileAt rfl opens_param hdone)
      (hdone.ahead_subset (hE.trans (Set.empty_subset _)) subset_rfl)

lemma predictive_annotations : Predictive plain annotations :=
  predictive_whileAt rfl (Opens.mono opens_annotation (Set.empty_subset _)) (mark_mem_plain _)

/-! ### Types -/

lemma opens_reference : Opens reference .upperName plain :=
  (opens_expectName (by simp) _).bind fun _ => (predictive_names _ _).bind fun _ =>
    predictive_pure _

/-- Where types are nested too deep, anything but a fault is told for that reason. -/
lemma predictive_tooDeep : Predictive C (typeExpr 0) := by
  rw [typeExpr]
  have hstops : Stops (peek >>= fun t => throw ⟨.tooDeep, t.span⟩ : Grammar TypeExpr) :=
    stops_peek_bind _
  refine ⟨hstops.tells, fun E s _ _ => ?_⟩
  by_cases hf : s.current.kind = .fault
  · exact looks_fault hstops hf
  · exact (looks_iff_of_error (peek_bind_apply hf)).2
      ⟨[], s.current, s.ahead, rfl, by simp, rfl, hstops.tells, .inr ⟨hf, .inl rfl⟩⟩

lemma opens_argument {limit : Nat} (hk : k ≠ .fault) (h : Predictive plain (typeExpr limit)) :
    Opens (typeExpr.argument limit) k plain := by
  have hmark (m : Mark) : Predictive plain (expect (.mark m)) :=
    predictive_expect (mark_mem_plain m) rfl subset_rfl
  rw [typeExpr.argument]
  simp only [discard_bind]
  exact (opens_advance hk).bind fun _ => (hmark _).bind fun _ => h.bind fun _ =>
    (hmark _).bind fun _ => predictive_pure _

lemma startsType_iff : startsType k ↔
    (∃ p, primitive? k = some p) ∨ k = .keyword .array ∨ k = .keyword .maybe ∨ k = .upperName := by
  simp [startsType, Option.isSome_iff_exists, or_assoc]

lemma isEnd_of_startsType (h : startsType k) : k.isEnd = false := by
  cases k <;> first | rfl | simp [startsType, primitive?] at h

/-- Types can start with more than one reserved word, so where one could stand nothing is
misspelt. -/
lemma not_misspelt_of_startsType (hV : {x | startsType x} ⊆ V) : ¬ k.Misspelt V := by
  have hboolean : .keyword .boolean ∈ V := hV rfl
  have hint : .keyword .int ∈ V := hV rfl
  rintro (⟨-, w, rfl⟩ | ⟨-, -, hV⟩)
  · obtain rfl := TokenKind.keyword.inj hboolean
    cases hint
  · exact absurd (hV _ hint) (by simp [TokenKind.isKeyword])

lemma opens_typeExpr {limit : Nat} (h : Predictive plain (typeExpr limit)) (hk : startsType k) :
    Opens (typeExpr (limit + 1)) k plain := by
  rw [typeExpr]
  have hne := ne_fault_of_isEnd (isEnd_of_startsType hk)
  rcases startsType_iff.1 hk with ⟨p, hp⟩ | rfl | rfl | rfl
  · refine opens_peek ((opens_advance hne).map fun _ => .primitive p) hne fun t ht => ?_
    simp only [ht, hp, discard_bind]
  · exact opens_peek ((opens_argument hne h).map .array) hne fun t ht => by rw [ht]; rfl
  · exact opens_peek ((opens_argument hne h).map .maybe) hne fun t ht => by rw [ht]; rfl
  · exact opens_peek opens_reference hne fun t ht => by rw [ht]; rfl

lemma predictive_typeExpr (limit : Nat) : Predictive plain (typeExpr limit) := by
  induction limit with
  | zero => exact predictive_tooDeep
  | succ limit ih =>
    have hstops : Stops (typeExpr (limit + 1)) := by
      rw [typeExpr]
      exact stops_peek_bind _
    refine ⟨hstops.tells, fun E s _ hc => ?_⟩
    refine looks_of_opens {k | startsType k} hstops (fun x hx => isEnd_of_startsType hx)
      (fun x hx => opens_typeExpr ih hx) (fun y hf (hy : ¬ startsType y.current.kind) => ?_) hc
    rw [startsType_iff] at hy
    push Not at hy
    obtain ⟨hprimitive, harray, hmaybe, hname⟩ := hy
    have hnone : primitive? y.current.kind = none :=
      Option.eq_none_iff_forall_ne_some.2 hprimitive
    rw [typeExpr]
    refine GivesUp.peek hf ?_
    simp only [hnone, if_neg harray, if_neg hmaybe, if_neg hname]
    exact givesUp_unexpected hf (not_misspelt_of_startsType Set.subset_union_left) _

lemma predictive_type : Predictive plain type := predictive_typeExpr Machine.nesting

lemma opens_type [Machine] (hk : startsType k) : Opens type k plain := by
  obtain ⟨limit, hlimit⟩ := Nat.exists_eq_succ_of_ne_zero Machine.nesting_pos.ne'
  rw [type, hlimit]
  exact opens_typeExpr (predictive_typeExpr limit) hk

/-! ### Declarations -/

/-- What stands behind the name of a field. -/
lemma predictive_behindFieldName (name : Text) : Predictive plain (do
    discard <| expect (.mark .colon)
    let type ← type
    return (⟨name, type, ← annotations⟩ : Field)) := by
  rw [discard_bind]
  exact (predictive_expect (mark_mem_plain _) rfl subset_rfl).bind fun _ =>
    predictive_type.bind fun _ => predictive_annotations.bind fun _ => predictive_pure _

lemma predictive_field : Predictive plain field :=
  (predictive_expectName rfl subset_rfl).bind fun _ => predictive_behindFieldName _

lemma opens_field : Opens field .lowerName plain :=
  (opens_expectName (by simp) _).bind fun _ => predictive_behindFieldName _

lemma opens_fieldBehind : Opens (do discard advance; field) (.mark .comma) plain := by
  rw [discard_bind]
  exact (opens_advance (by simp)).bind fun _ => predictive_field

lemma predictive_fields :
    Predictive plain (whileAt (.mark .comma) do discard advance; field) :=
  predictive_whileAt rfl opens_fieldBehind (mark_mem_plain _)

lemma opens_record : Opens record (.mark .openBrace) plain := by
  rw [record, discard_bind]
  simp only [pure_bind]
  refine (opens_advance (by simp)).bind fun _ => ?_
  refine ⟨(stops_peek_bind _).tells, fun E s hE hc => ?_⟩
  refine looks_of_opens {.lowerName, .mark .closeBrace} (stops_peek_bind _) ?_ ?_
    (fun y hf hy => ?_) hc
  · rintro x (rfl | rfl) <;> rfl
  · rintro x (rfl | rfl)
    · refine opens_peek (opens_field.bind fun first => predictive_fields.bind fun more =>
        predictive_closing _) (by simp) fun t ht => if_neg (by simp [ht])
    · exact opens_peek (opens_closing (by simp) _ _) (by simp) fun t ht => if_pos ht
  · obtain ⟨hname, hclose⟩ : y.current.kind ≠ .lowerName ∧ y.current.kind ≠ .mark .closeBrace := by
      simpa using hy
    have hV : ∀ x ∈ ({.lowerName, .mark .closeBrace} ∪ E : Set TokenKind),
        x.isKeyword = false := by
      rintro x ((rfl | rfl) | hx)
      · rfl
      · rfl
      · exact (hE hx).2
    refine GivesUp.peek hf ?_
    rw [if_neg hclose]
    exact ((givesUp_expectName .field rfl (.inl (.inl rfl)) hV hf hname).bind _).bind _

lemma opens_sum : Opens sum (.mark .openBracket) plain := by
  rw [sum, discard_bind]
  refine (opens_advance (by simp)).bind fun _ => ?_
  exact (predictive_expectName rfl subset_rfl).bind fun _ =>
    (predictive_names _ _).bind fun _ => predictive_closing _

lemma predictive_body : Predictive plain body := by
  have hwraps : Opens (discard advance >>= fun _ => type >>= fun t => pure (Body.wrap t))
      (.keyword .wrap) plain := by
    rw [discard_bind]
    exact (opens_advance (by simp)).bind fun _ => predictive_type.bind fun _ => predictive_pure _
  refine ⟨(stops_peek_bind _).tells, fun E s hE hc => ?_⟩
  refine looks_of_opens ({x | startsType x} ∪ {.mark .openBrace, .mark .openBracket,
    .keyword .wrap}) (stops_peek_bind _) ?_ ?_ (fun y hf hy => ?_) hc
  · rintro x (hx | rfl | rfl | rfl)
    · exact isEnd_of_startsType hx
    all_goals rfl
  · rintro x (hx | rfl | rfl | rfl)
    · refine opens_peek ((opens_type hx).map .alias) (ne_fault_of_isEnd (isEnd_of_startsType hx))
        fun t ht => ?_
      rw [ht]
      exact if_pos hx
    · exact opens_peek opens_record (by simp) fun t ht => by rw [ht]; rfl
    · exact opens_peek opens_sum (by simp) fun t ht => by rw [ht]; rfl
    · exact opens_peek hwraps (by simp) fun t ht => by rw [ht]; rfl
  · simp only [Set.mem_union, Set.mem_ofPred_eq, Set.mem_insert_iff, Set.mem_singleton_iff,
      not_or] at hy
    obtain ⟨htype, hrecord, hsum, hwrap⟩ := hy
    refine GivesUp.peek hf ?_
    simp only [if_neg htype, if_neg hrecord, if_neg hsum, if_neg hwrap]
    exact givesUp_unexpected hf (not_misspelt_of_startsType fun x hx => .inl (.inl hx)) _

lemma opens_declaration : Opens declaration (.keyword .type) plain := by
  rw [declaration]
  simp only [discard_bind]
  exact (opens_expect (by simp)).bind fun _ => (predictive_expectName rfl subset_rfl).bind fun _ =>
    (predictive_expect (mark_mem_plain _) rfl subset_rfl).bind fun _ =>
      predictive_body.bind fun _ => predictive_annotations.bind fun _ => predictive_pure _

/-! ### Modules -/

lemma predictive_exportPackage (w : Keyword) : Predictive ∅ (exportPackage w) := by
  have hleaf {k : TokenKind} (hk : k ∈ plain) (hend : k.isEnd = false) : Predictive ∅ (expect k) :=
    predictive_expect hk hend (Set.empty_subset _)
  rw [exportPackage]
  simp only [discard_bind]
  exact (predictive_expect_keyword w).bind fun _ => (hleaf (mark_mem_plain _) rfl).bind fun _ =>
    (hleaf packageName_mem_plain rfl).bind fun _ => predictive_pure _

lemma opens_importPackage : Opens importPackage (.keyword .imports) ∅ := by
  rw [importPackage, discard_bind]
  exact (opens_expect (by simp)).bind fun _ =>
    (predictive_expect packageName_mem_plain rfl (Set.empty_subset _)).bind fun _ =>
      predictive_pure _

/-- Reads a module up to where the end of the input has to stand. -/
def content [Machine] : Grammar Module := do
  let scala ← exportPackage .scala
  let purs ← exportPackage .purs
  let imports ← whileAt (.keyword .imports) importPackage
  let annotations ← annotations
  let declarations ← whileAt (.keyword .type) declaration
  return { name := [], exports := ⟨scala, purs, []⟩, imports, annotations, declarations }

/-- Returns a module in front of the end of the input. -/
def finish (m : Module) : Grammar Module := do
  let t ← peek
  if t.kind = .endOfInput then return m else throw ⟨.trailing t, t.span⟩

lemma stops_finish (m : Module) : Stops (finish m) := stops_peek_bind _

lemma wholeModule_eq : wholeModule = content >>= finish := by
  rw [wholeModule, content]
  simp only [bind_assoc, pure_bind]
  rfl

lemma looks_content [Machine] (hc : s.Closed) : Looks content ∅ Set.univ s := by
  have himports : Predictive Set.univ (whileAt (.keyword .imports) importPackage) :=
    predictive_whileAt rfl (opens_importPackage.mono (Set.subset_univ _)) trivial
  have hannotations : Predictive Set.univ annotations :=
    predictive_whileAt rfl (Opens.mono opens_annotation (Set.subset_univ _)) trivial
  have hdeclarations : Predictive Set.univ (whileAt (.keyword .type) declaration) :=
    predictive_whileAt rfl (opens_declaration.mono (Set.subset_univ _)) trivial
  have hbehind (scala purs : Text) := himports.bind fun imports =>
    hannotations.bind fun annotations => hdeclarations.bind fun declarations =>
      predictive_pure (⟨[], ⟨scala, purs, []⟩, imports, annotations, declarations⟩ : Module)
  refine ((predictive_exportPackage .scala).looks ∅ s subset_rfl hc).bind hc
    (fun _ => tells_bind (predictive_exportPackage .purs).tells fun _ => (hbehind _ _).tells)
    (.inl (Set.empty_subset _)) fun scala s₁ w _ hc₁ hdone => ?_
  have hahead := hdone.ahead_subset (E := ∅) subset_rfl subset_rfl
  exact ((predictive_exportPackage .purs).looks _ s₁ hahead hc₁).bind hc₁
    (fun _ => (hbehind _ _).tells) (.inl (Set.empty_subset _)) fun purs s₂ _ _ hc₂ _ =>
      (hbehind scala purs).looks _ s₂ (Set.subset_univ _) hc₂

end Grammar

end Idl
