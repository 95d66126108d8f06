/-
# The productions read their phrases

For each production of the grammar its reader is shown to read its phrase, from the
parameters of annotations up to whole modules.  A production is first written as a sequence
of phrases (`param_iff`, `annotation_iff`, …); then the reader is followed through it.  What
may stand behind a production is told by the kinds that would continue it: a dot continues a
reference, an opening angle a list of annotations.
-/
import Idl.Proofs.Grammar.Reading

namespace Idl

variable {_ : Machine}

/-- Every kind but a fault and the listed ones. -/
def NoneOf (ks : List TokenKind) (k : TokenKind) : Prop := k ≠ .fault ∧ k ∉ ks

lemma NoneOf.mono {ks ls : List TokenKind} {k : TokenKind} (h : NoneOf ks k) (hsub : ls ⊆ ks) :
    NoneOf ls k :=
  ⟨h.1, fun hk => h.2 (hsub hk)⟩

namespace Phrase

variable {α : Type} {G : Phrase α} {k : TokenKind}

/-- The token that closes a phrase, with the value of the phrase. -/
def closing (k : TokenKind) (a : α) : Phrase α := after k fun _ => nothing a

lemma possible_closing (k : TokenKind) (a : α) : (closing k a).Possible :=
  possible_after fun _ => possible_nothing a

lemma word_iff {x : Text} {ts : List Token} :
    word k x ts ↔ after k (fun t => nothing t.value) x ts := by
  constructor
  · rintro ⟨t, rfl, hk, rfl⟩
    exact ⟨t, [], rfl, hk, rfl, rfl⟩
  · rintro ⟨t, _, rfl, hk, rfl, rfl⟩
    exact ⟨t, rfl, hk, rfl⟩

lemma possible_word (k : TokenKind) : (word k).Possible :=
  ⟨_, _, ⟨k, [], default⟩, rfl, rfl, rfl⟩

lemma startsWith_behind : (behind k G).StartsWith (· = k) := startsWith_after

end Phrase

open Phrase

namespace Grammar

variable {α : Type} {F : TokenKind → Prop} {S : α → Prop} {s : TokenStream}

/-- Passing the token that closes a phrase, or giving up. -/
lemma reads_closing {k : TokenKind} {P : Token → Grammar α} {a : α} (hc : s.Closed)
    (hend : k.isEnd = false) (hS : S a)
    (hP : s.current.kind ≠ k → s.current.kind ≠ .fault →
      ∃ e, P s.current s = .error e ∧ e.problem ≠ .tooDeep ∧ e.span = s.current.span) :
    Reads (peek >>= fun t => if t.kind = k then discard advance >>= fun _ => pure a else P t)
      (closing k a) F S s := by
  refine reads_peek (possible_closing k a) (fun hf => startsWith_after.excludes ?_) fun hf => ?_
  · rw [hf]
    exact (ne_fault_of_isEnd hend).symm
  by_cases hk : s.current.kind = k
  · rw [if_pos hk, discard_bind]
    exact (passes_advance hk hend).reads hc hend (fun _ _ _ => reads_pure hS)
      fun _ => possible_nothing _
  · obtain ⟨e, he, hdeep, hspan⟩ := hP hk hf
    refine reads_of_error ?_ hdeep hspan (possible_closing k a) (startsWith_after.excludes hk)
    rw [if_neg hk]
    exact he

/-- The same, where nothing else is told apart. -/
lemma reads_closing_or {k : TokenKind} {e : Expected} {a : α} (hc : s.Closed)
    (hend : k.isEnd = false) (hS : S a) :
    Reads
      (peek >>= fun t => if t.kind = k then discard advance >>= fun _ => pure a else unexpected e)
      (closing k a) F S s :=
  reads_closing hc hend hS fun _ hf => ⟨_, unexpected_apply hf e, by simp, rfl⟩

/-- A mark and a name behind it. -/
lemma reads_behindName {S : Text → Prop} {k : TokenKind} {role : NameRole} (hc : s.Closed)
    (hk : s.current.kind = k) (hend : k.isEnd = false) (hS : ∀ x, S x) :
    Reads (do discard advance; return (← expectName .upperName role).value)
      (behind k (word .upperName)) F S s := by
  rw [discard_bind]
  refine (passes_advance hk hend).reads hc hend (fun _ s' hc' => ?_) fun _ => possible_word _
  refine Reads.of_iff ?_ fun _ _ => word_iff.symm
  exact (passes_expectName rfl).reads hc' rfl (fun _ _ _ => reads_pure (hS _))
    fun _ => possible_nothing _

/-- Names with a mark in front of each. -/
lemma reads_names {k : TokenKind} {role : NameRole} (hend : k.isEnd = false) (hc : s.Closed) :
    Reads (whileAt k do discard advance; return (← expectName .upperName role).value)
      (Many (behind k (word .upperName))) (NoneOf [k]) (fun xs => ∀ x ∈ xs, True) s :=
  reads_whileAt (S := fun _ => True) hend startsWith_behind (by simp [NoneOf]) (by simp [NoneOf])
    (fun _ hc hk => reads_behindName hc hk hend fun _ => trivial) s hc

end Grammar

/-! ### Annotations -/

lemma param_iff {p : Param} {ts : List Token} :
    p.SpelledBy ts ↔ after .lowerName (fun name =>
      (after (.mark .assign) fun _ => after .string fun value =>
        nothing ⟨name.value, name.span.first, some value.value⟩).either
      (nothing ⟨name.value, name.span.first, none⟩)) p ts := by
  constructor
  · rintro (hname | ⟨hname, hassign, hvalue⟩)
    · exact ⟨_, _, rfl, hname, .inr ⟨rfl, rfl⟩⟩
    · exact ⟨_, _, rfl, hname, .inl ⟨_, _, rfl, hassign, _, _, rfl, hvalue, rfl, rfl⟩⟩
  · rintro ⟨name, _, rfl, hname, ⟨_, _, rfl, hassign, _, _, rfl, hvalue, rfl, rfl⟩ | ⟨rfl, rfl⟩⟩
    · exact .valued hname hassign hvalue
    · exact .plain hname

lemma annotation_iff {a : Annotation} {ts : List Token} :
    a.SpelledBy ts ↔ after (.mark .openAngle) (fun opening => after .lowerName fun name =>
      (Many Param.SpelledBy).andThen fun params =>
        closing (.mark .closeAngle) ⟨name.value, opening.span.first, params⟩) a ts := by
  constructor
  · rintro ⟨hopening, hname, hparams, hclosing⟩
    exact ⟨_, _, rfl, hopening, _, _, rfl, hname, _, _, _, hparams,
      ⟨_, _, rfl, hclosing, rfl, rfl⟩, rfl⟩
  · rintro ⟨_, _, rfl, hopening, _, _, rfl, hname, _, _, _, hparams,
      ⟨_, _, rfl, hclosing, rfl, rfl⟩, rfl⟩
    exact .mk hopening hname hparams hclosing

lemma startsWith_param : Phrase.StartsWith Param.SpelledBy (· = .lowerName) :=
  fun _ _ h => startsWith_after _ _ (param_iff.1 h)

lemma startsWith_annotation : Phrase.StartsWith Annotation.SpelledBy (· = .mark .openAngle) :=
  fun _ _ h => startsWith_after _ _ (annotation_iff.1 h)

namespace Grammar

variable {F : TokenKind → Prop} {s : TokenStream}

lemma reads_param (hc : s.Closed) (hk : s.current.kind = .lowerName) :
    Reads param Param.SpelledBy (NoneOf [.mark .assign]) (fun _ => True) s := by
  rw [param]
  refine Reads.of_iff ?_ fun _ _ => param_iff.symm
  refine (passes_advance hk rfl).reads hc rfl (fun name s' hc' => ?_)
    fun _ => (possible_nothing _).either_right
  refine reads_peek (possible_nothing _).either_right (fun hf => ?_) fun hf => ?_
  · exact excludes_either (startsWith_after.excludes (by simp [hf]))
      (excludes_nothing (by simp [NoneOf, hf]))
  by_cases hassign : s'.current.kind = .mark .assign
  · rw [if_pos hassign, discard_bind]
    refine Reads.either_left ?_ (excludes_nothing (by simp [NoneOf, hassign]))
    exact (passes_advance hassign rfl).reads hc' rfl
      (fun _ s'' hc'' => (passes_expect rfl).reads hc'' rfl (fun _ _ _ => reads_pure trivial)
        fun _ => possible_nothing _)
      fun _ => possible_after fun _ => possible_nothing _
  · rw [if_neg hassign]
    exact (reads_pure trivial).either_right (startsWith_after.excludes hassign)

lemma reads_params (hc : s.Closed) :
    Reads (whileAt .lowerName param) (Many Param.SpelledBy) (NoneOf [.lowerName, .mark .assign])
      (fun ps => ∀ p ∈ ps, True) s := by
  refine reads_whileAt (S := fun _ => True) rfl startsWith_param (by simp [NoneOf])
    (by simp [NoneOf]) (fun s hc hk => (reads_param hc hk).weaken ?_) s hc
  rintro k (rfl | hk)
  · simp [NoneOf]
  · exact hk.mono (by simp)

lemma reads_annotation (hc : s.Closed) (hk : s.current.kind = .mark .openAngle) :
    Reads annotation Annotation.SpelledBy F (fun _ => True) s := by
  unfold annotation
  refine Reads.of_iff ?_ fun _ _ => annotation_iff.symm
  refine (passes_advance hk rfl).reads hc rfl (fun opening s₁ hc₁ => ?_)
    fun _ => possible_after fun _ =>
      possible_andThen (possible_many _) fun _ => possible_closing _ _
  refine (passes_expectName rfl).reads hc₁ rfl (fun name s₂ hc₂ => ?_)
    fun _ => possible_andThen (possible_many _) fun _ => possible_closing _ _
  -- a further parameter and the value of the last one are what could continue the parameters
  refine (reads_params hc₂).bind hc₂ (fun params s₃ _ hc₃ _ => ?_) ?_
    (fun _ => possible_closing _ _) (by simp)
  · refine reads_closing hc₃ rfl trivial fun hne hf => ?_
    by_cases hword : s₃.current.kind.isKeyword
    · rw [if_pos hword]
      exact ⟨_, rfl, by simp, rfl⟩
    · rw [if_neg hword]
      exact ⟨_, unexpected_apply hf _, by simp, rfl⟩
  · intro _ b z v h _
    exact ((startsWith_after b z h).mono (by simp [NoneOf])).append v

lemma reads_annotations (hc : s.Closed) :
    Reads annotations (Many Annotation.SpelledBy) (NoneOf [.mark .openAngle])
      (fun as => ∀ a ∈ as, True) s :=
  reads_whileAt (S := fun _ => True) rfl startsWith_annotation (by simp [NoneOf])
    (by simp [NoneOf]) (fun _ hc hk => reads_annotation hc hk) s hc

end Grammar

/-! ### Type expressions -/

namespace Phrase

/-- A reserved word and a type between angles. -/
def argument (w : Keyword) : Phrase TypeExpr :=
  after (.keyword w) fun _ => after (.mark .openAngle) fun _ =>
    Phrase.andThen TypeExpr.SpelledBy fun inner => closing (.mark .closeAngle) inner

/-- Dotted segments that name a type. -/
def reference : Phrase TypeExpr :=
  after .upperName fun first => (Many (behind (.mark .dot) (word .upperName))).andThen fun more =>
    nothing (.reference first.span.first (Grammar.qualifierOf (first.value :: more).dropLast)
      (more.getLastD first.value))

/-- A single token that names a primitive type. -/
def primitive : Phrase TypeExpr :=
  fun t ts => ∃ u p, ts = [u] ∧ Grammar.primitive? u.kind = some p ∧ t = .primitive p

end Phrase

/-- The reader's primitive types are those with the spelling of a reserved word. -/
lemma primitive?_eq_some_iff {k : TokenKind} {p : Primitive} :
    Grammar.primitive? k = some p ↔ ∃ w : Keyword, k = .keyword w ∧ w.spelling = p.spelling := by
  constructor
  · intro h
    unfold Grammar.primitive? at h
    split at h <;> cases h <;> exact ⟨_, rfl, rfl⟩
  · rintro ⟨w, rfl, h⟩
    revert h
    cases w <;> cases p <;> decide

lemma qualifierOf_eq_iff {segments : List Text} {q : Option Text} :
    Grammar.qualifierOf segments = q ↔ q.getD [] = Text.join "." segments ∧ q ≠ some [] := by
  unfold Grammar.qualifierOf
  generalize Text.join "." segments = x
  rcases q with _ | q
  · by_cases h : x = [] <;> simp [h, Ne.symm]
  · by_cases h : x = []
    · simp [h]
    · simp only [h, if_false, Option.some.injEq, Option.getD_some]
      constructor
      · rintro rfl
        exact ⟨rfl, by simpa using h⟩
      · rintro ⟨rfl, -⟩
        rfl

lemma typeExpr_iff {t : TypeExpr} {ts : List Token} :
    t.SpelledBy ts ↔ (Phrase.primitive.either
      (((argument .array).andThen fun inner => nothing (.array inner)).either
        (((argument .maybe).andThen fun inner => nothing (.maybe inner)).either
          Phrase.reference))) t ts := by
  constructor
  · rintro (⟨hword, hspelling⟩ | ⟨hfirst, hmore, hname, hq, hne⟩ |
      ⟨hhead, hopening, hinner, hclosing⟩ | ⟨hhead, hopening, hinner, hclosing⟩)
    · exact .inl ⟨_, _, rfl, primitive?_eq_some_iff.2 ⟨_, hword, hspelling⟩, rfl⟩
    · refine .inr (.inr (.inr ⟨_, _, rfl, hfirst, _, _, [], hmore, ⟨?_, rfl⟩, by simp⟩))
      simp only [← List.getLast_eq_getLastD (List.cons_ne_nil _ _), hname, List.dropLast_concat,
        List.getLast_concat]
      rw [qualifierOf_eq_iff.2 ⟨hq, hne⟩]
    · exact .inr (.inl ⟨_, _, [], ⟨_, _, rfl, hhead, _, _, rfl, hopening, _, _, _, hinner,
        ⟨_, _, rfl, hclosing, rfl, rfl⟩, rfl⟩, ⟨rfl, rfl⟩, by simp⟩)
    · exact .inr (.inr (.inl ⟨_, _, [], ⟨_, _, rfl, hhead, _, _, rfl, hopening, _, _, _, hinner,
        ⟨_, _, rfl, hclosing, rfl, rfl⟩, rfl⟩, ⟨rfl, rfl⟩, by simp⟩))
  · rintro (⟨u, p, rfl, h, rfl⟩ | ⟨_, _, _, ⟨_, _, rfl, hhead, _, _, rfl, hopening, _, _, _, hinner,
      ⟨_, _, rfl, hclosing, rfl, rfl⟩, rfl⟩, ⟨rfl, rfl⟩, rfl⟩ |
      ⟨_, _, _, ⟨_, _, rfl, hhead, _, _, rfl, hopening, _, _, _, hinner,
      ⟨_, _, rfl, hclosing, rfl, rfl⟩, rfl⟩, ⟨rfl, rfl⟩, rfl⟩ |
      ⟨first, _, rfl, hfirst, more, us, _, hmore, ⟨rfl, rfl⟩, rfl⟩)
    · obtain ⟨w, hw, hspelling⟩ := primitive?_eq_some_iff.1 h
      exact .primitive hw hspelling
    · rw [List.append_nil]
      exact .array hhead hopening hinner hclosing
    · rw [List.append_nil]
      exact .maybe hhead hopening hinner hclosing
    · obtain ⟨hq, hne⟩ := qualifierOf_eq_iff.1 (Eq.refl
        (Grammar.qualifierOf (first.value :: more).dropLast))
      rw [List.append_nil, ← List.getLast_eq_getLastD (List.cons_ne_nil _ _)]
      exact .reference hfirst hmore (List.dropLast_concat_getLast _).symm hq hne

lemma possible_typeExpr : Phrase.Possible TypeExpr.SpelledBy :=
  ⟨.primitive .int, _, .primitive (t := ⟨.keyword .int, [], default⟩) rfl rfl⟩

lemma startsWith_typeExpr :
    Phrase.StartsWith TypeExpr.SpelledBy (fun k => Grammar.startsType k = true) := by
  rintro t _ (⟨hword, hspelling⟩ | ⟨hfirst, -, -, -, -⟩ | ⟨hhead, -, -, -⟩ | ⟨hhead, -, -, -⟩)
  · refine ⟨_, _, rfl, ?_⟩
    simp [Grammar.startsType, primitive?_eq_some_iff.2 ⟨_, hword, hspelling⟩]
  · exact ⟨_, _, rfl, by simp [Grammar.startsType, hfirst]⟩
  · exact ⟨_, _, rfl, by simp [Grammar.startsType, hhead]⟩
  · exact ⟨_, _, rfl, by simp [Grammar.startsType, hhead]⟩

lemma one_le_nesting (t : TypeExpr) : 1 ≤ t.nesting := by
  cases t <;> simp [TypeExpr.nesting]

namespace Grammar

variable {F : TokenKind → Prop} {S : TypeExpr → Prop} {s : TokenStream}

lemma reads_reference (hc : s.Closed) (hS : ∀ p q name, S (.reference p q name)) :
    Reads reference Phrase.reference (NoneOf [.mark .dot]) S s := by
  rw [reference]
  simp only [List.getLast_eq_getLastD]
  refine (passes_expectName rfl).reads hc rfl (fun first s' hc' => ?_)
    fun _ => possible_andThen (possible_many _) fun _ => possible_nothing _
  exact (reads_names rfl hc').bind hc' (fun _ _ _ _ _ => reads_pure (hS _ _ _))
    (fun _ _ _ _ => follows_nothing) (fun _ => possible_nothing _) (by simp)

/-- Reading the single token that names a primitive type. -/
lemma reads_primitive {p : Primitive} (hc : s.Closed)
    (hp : primitive? s.current.kind = some p) (hS : S (.primitive p)) :
    Reads (discard advance >>= fun _ => pure (.primitive p)) Phrase.primitive F S s := by
  have hend : s.current.kind.isEnd = false := by
    obtain ⟨w, hw, -⟩ := primitive?_eq_some_iff.1 hp
    simp [hw, TokenKind.isEnd]
  rw [discard_bind]
  refine ((passes_advance rfl hend).reads hc hend (fun _ _ _ => reads_pure hS)
    fun _ => possible_nothing _).congr ?_ ?_
  · rintro _ _ ⟨u, _, rfl, hu, rfl, rfl⟩
    exact ⟨u, p, rfl, by rw [hu, hp], rfl⟩
  · rintro _ _ v ⟨u, p', rfl, hu, rfl⟩ - hcur
    obtain ⟨rfl, -⟩ := List.cons_prefix_cons.1 hcur
    obtain rfl : p = p' := by simpa [hp] using hu
    exact ⟨_, [], rfl, rfl, rfl, rfl⟩

lemma excludes_primitive {t : Token} (h : primitive? t.kind = none) :
    Phrase.primitive.Excludes F S [] t := by
  rintro _ _ v ⟨u, p, rfl, hp, rfl⟩ - hz
  obtain ⟨rfl, -⟩ := List.cons_prefix_cons.1 hz
  rw [h] at hp
  exact absurd hp (by simp)

/-- Reading a type between angles, if types can be read. -/
lemma reads_argument {limit : Nat} {w : Keyword}
    (htype : ∀ s : TokenStream, s.Closed →
      Reads (typeExpr limit) TypeExpr.SpelledBy (NoneOf [.mark .dot]) (·.nesting ≤ limit) s)
    (hc : s.Closed) (hk : s.current.kind = .keyword w) :
    Reads (typeExpr.argument limit) (Phrase.argument w) F (·.nesting ≤ limit) s := by
  rw [typeExpr.argument]
  simp only [discard_bind]
  refine (passes_advance hk rfl).reads hc rfl (fun _ s₁ hc₁ => ?_)
    fun _ => possible_after fun _ =>
      possible_andThen possible_typeExpr fun _ => possible_closing _ _
  refine (passes_expect rfl).reads hc₁ rfl (fun _ s₂ hc₂ => ?_)
    fun _ => possible_andThen possible_typeExpr fun _ => possible_closing _ _
  -- only a dot could continue the type inside, and the angle is none
  refine (htype s₂ hc₂).bind hc₂ (fun inner s₃ _ hc₃ hin => ?_) ?_
    (fun _ => possible_closing _ _) ?_
  · exact (passes_expect rfl).reads hc₃ rfl (fun _ _ _ => reads_pure hin)
      fun _ => possible_nothing _
  · intro _ b z v h _
    exact ((startsWith_after b z h).mono (by simp [NoneOf])).append v
  · rintro _ _ _ ⟨_, _, rfl, -, rfl, -⟩ h
    exact h

/-- The induction is on the limit: each `Array` and each `Maybe` takes one off it. -/
lemma reads_typeExpr (limit : Nat) (s : TokenStream) (hc : s.Closed) :
    Reads (typeExpr limit) TypeExpr.SpelledBy (NoneOf [.mark .dot]) (·.nesting ≤ limit) s := by
  induction limit generalizing s with
  | zero =>
    rw [typeExpr]
    refine reads_peek possible_typeExpr (fun hf => startsWith_typeExpr.excludes ?_) fun hf => ?_
    · simp [hf, startsType, primitive?]
    -- no type at all is within the limit
    rw [Reads]
    exact ⟨[], s.current, s.ahead, rfl, by simp, rfl, .inl ⟨rfl, fun t _ _ _ _ _ h =>
      absurd (one_le_nesting t) (by omega)⟩⟩
  | succ limit ih =>
    rw [typeExpr]
    refine reads_peek possible_typeExpr (fun hf => startsWith_typeExpr.excludes ?_) fun hf => ?_
    · simp [hf, startsType, primitive?]
    refine Reads.of_iff ?_ fun _ _ => typeExpr_iff.symm
    -- one case for each choice of the reader; the current token excludes the other phrases
    rcases hp : primitive? s.current.kind with _ | p
    · refine Reads.either_right ?_ (excludes_primitive hp)
      by_cases harray : s.current.kind = .keyword .array
      · simp only [if_pos harray]
        refine Reads.either_left ?_ (excludes_either (startsWith_after.andThen.excludes ?_)
          (startsWith_after.excludes ?_))
        · exact (reads_argument ih hc harray).map hc (by simp [TypeExpr.nesting])
        all_goals simp [harray]
      refine Reads.either_right ?_ (startsWith_after.andThen.excludes harray)
      by_cases hmaybe : s.current.kind = .keyword .maybe
      · simp only [if_neg harray, if_pos hmaybe]
        refine Reads.either_left ?_ (startsWith_after.excludes (by simp [hmaybe]))
        exact (reads_argument ih hc hmaybe).map hc (by simp [TypeExpr.nesting])
      refine Reads.either_right ?_ (startsWith_after.andThen.excludes hmaybe)
      by_cases hname : s.current.kind = .upperName
      · simp only [if_neg harray, if_neg hmaybe, if_pos hname]
        exact reads_reference hc (by simp [TypeExpr.nesting])
      · simp only [if_neg harray, if_neg hmaybe, if_neg hname]
        refine reads_of_error (unexpected_apply hf _) (by simp) rfl ?_
          (startsWith_after.excludes hname)
        exact possible_after fun _ =>
          possible_andThen (possible_many _) fun _ => possible_nothing _
    · refine Reads.either_left (reads_primitive hc hp (by simp [TypeExpr.nesting])) ?_
      obtain ⟨w, hw, hspelling⟩ := primitive?_eq_some_iff.1 hp
      have hne : w ≠ .array ∧ w ≠ .maybe := by
        constructor <;> rintro rfl <;> revert hspelling <;> cases p <;> decide
      exact excludes_either (startsWith_after.andThen.excludes (by simp [hw, hne]))
        (excludes_either (startsWith_after.andThen.excludes (by simp [hw, hne]))
          (startsWith_after.excludes (by simp [hw])))

lemma reads_type (hc : s.Closed) :
    Reads type TypeExpr.SpelledBy (NoneOf [.mark .dot]) (·.nesting ≤ Machine.nesting) s :=
  reads_typeExpr Machine.nesting s hc

end Grammar

/-! ### Declarations -/

lemma field_iff {f : Field} {ts : List Token} :
    f.SpelledBy ts ↔ after .lowerName (fun name => after (.mark .colon) fun _ =>
      Phrase.andThen TypeExpr.SpelledBy fun type =>
        (Many Annotation.SpelledBy).andThen fun annotations =>
          nothing ⟨name.value, type, annotations⟩) f ts := by
  constructor
  · rintro ⟨hname, hcolon, htype, hannotations⟩
    exact ⟨_, _, rfl, hname, _, _, rfl, hcolon, _, _, _, htype,
      ⟨_, _, [], hannotations, ⟨rfl, rfl⟩, rfl⟩, by simp⟩
  · rintro ⟨_, _, rfl, hname, _, _, rfl, hcolon, _, _, _, htype,
      ⟨_, _, _, hannotations, ⟨rfl, rfl⟩, rfl⟩, rfl⟩
    rw [List.append_nil]
    exact .mk hname hcolon htype hannotations

namespace Phrase

/-- Fields between braces. -/
def record : Phrase Body :=
  after (.mark .openBrace) fun _ => (closing (.mark .closeBrace) (.record [])).either
    (Phrase.andThen Field.SpelledBy fun field =>
      (Many (behind (.mark .comma) Field.SpelledBy)).andThen fun fields =>
        closing (.mark .closeBrace) (.record (field :: fields)))

/-- Variants between brackets. -/
def sum : Phrase Body :=
  after (.mark .openBracket) fun _ => after .upperName fun first =>
    (Many (behind (.mark .pipe) (word .upperName))).andThen fun more =>
      closing (.mark .closeBracket) (.sum (first.value :: more))

/-- A type behind `wrap`. -/
def wrap : Phrase Body :=
  after (.keyword .wrap) fun _ => Phrase.andThen TypeExpr.SpelledBy fun type =>
    nothing (.wrap type)

end Phrase

lemma body_iff {b : Body} {ts : List Token} :
    b.SpelledBy ts ↔ ((Phrase.andThen TypeExpr.SpelledBy fun type => nothing (.alias type)).either
      (Phrase.record.either (Phrase.sum.either Phrase.wrap))) b ts := by
  constructor
  · rintro (htype | ⟨hhead, htype⟩ | ⟨hopening, hclosing⟩ |
      ⟨hopening, hfield, hfields, hclosing⟩ | ⟨hopening, hfirst, hvariants, hclosing⟩)
    · exact .inl ⟨_, _, [], htype, ⟨rfl, rfl⟩, by simp⟩
    · exact .inr (.inr (.inr ⟨_, _, rfl, hhead, _, _, [], htype, ⟨rfl, rfl⟩, by simp⟩))
    · exact .inr (.inl ⟨_, _, rfl, hopening, .inl ⟨_, _, rfl, hclosing, rfl, rfl⟩⟩)
    · exact .inr (.inl ⟨_, _, rfl, hopening, .inr ⟨_, _, _, hfield,
        ⟨_, _, _, hfields, ⟨_, _, rfl, hclosing, rfl, rfl⟩, rfl⟩, by simp⟩⟩)
    · exact .inr (.inr (.inl ⟨_, _, rfl, hopening, _, _, rfl, hfirst, _, _, _, hvariants,
        ⟨_, _, rfl, hclosing, rfl, rfl⟩, rfl⟩))
  · rintro (⟨_, _, _, htype, ⟨rfl, rfl⟩, rfl⟩ |
      ⟨_, _, rfl, hopening, ⟨_, _, rfl, hclosing, rfl, rfl⟩ | ⟨_, _, _, hfield,
        ⟨_, _, _, hfields, ⟨_, _, rfl, hclosing, rfl, rfl⟩, rfl⟩, rfl⟩⟩ |
      ⟨_, _, rfl, hopening, _, _, rfl, hfirst, _, _, _, hvariants,
        ⟨_, _, rfl, hclosing, rfl, rfl⟩, rfl⟩ |
      ⟨_, _, rfl, hhead, _, _, _, htype, ⟨rfl, rfl⟩, rfl⟩)
    · rw [List.append_nil]
      exact .alias htype
    · exact .emptyRecord hopening hclosing
    · rw [← List.append_assoc, ← List.cons_append, ← List.cons_append]
      exact .record hopening hfield hfields hclosing
    · exact .sum hopening hfirst hvariants hclosing
    · rw [List.append_nil]
      exact .wrap hhead htype

lemma declaration_iff {d : Declaration} {ts : List Token} :
    d.SpelledBy ts ↔ after (.keyword .type) (fun _ => after .upperName fun name =>
      after (.mark .colon) fun _ => Phrase.andThen Body.SpelledBy fun body =>
        (Many Annotation.SpelledBy).andThen fun annotations =>
          nothing ⟨name.value, body, annotations⟩) d ts := by
  constructor
  · rintro ⟨hhead, hname, hcolon, hbody, hannotations⟩
    exact ⟨_, _, rfl, hhead, _, _, rfl, hname, _, _, rfl, hcolon, _, _, _, hbody,
      ⟨_, _, [], hannotations, ⟨rfl, rfl⟩, rfl⟩, by simp⟩
  · rintro ⟨_, _, rfl, hhead, _, _, rfl, hname, _, _, rfl, hcolon, _, _, _, hbody,
      ⟨_, _, _, hannotations, ⟨rfl, rfl⟩, rfl⟩, rfl⟩
    rw [List.append_nil]
    exact .mk hhead hname hcolon hbody hannotations

lemma possible_field : Phrase.Possible Field.SpelledBy := by
  obtain ⟨t, ts, ht⟩ := possible_typeExpr
  exact ⟨_, _, field_iff.2 ⟨⟨.lowerName, [], default⟩, _, rfl, rfl, ⟨.mark .colon, [], default⟩, _,
    rfl, rfl, t, ts, [], ht, ⟨[], [], [], .nil, ⟨rfl, rfl⟩, rfl⟩, rfl⟩⟩

lemma possible_body : Phrase.Possible Body.SpelledBy := by
  obtain ⟨t, ts, ht⟩ := possible_typeExpr
  exact ⟨_, _, .alias ht⟩

lemma startsWith_field : Phrase.StartsWith Field.SpelledBy (· = .lowerName) :=
  fun _ _ h => startsWith_after _ _ (field_iff.1 h)

lemma startsWith_declaration : Phrase.StartsWith Declaration.SpelledBy (· = .keyword .type) :=
  fun _ _ h => startsWith_after _ _ (declaration_iff.1 h)

namespace Grammar

variable {F : TokenKind → Prop} {s : TokenStream}

/-- Annotations that make up a value are possible. -/
lemma possible_annotations {β : Type} (f : List Annotation → β) :
    ((Many Annotation.SpelledBy).andThen fun as => nothing (f as)).Possible :=
  possible_andThen (possible_many _) fun _ => possible_nothing _

/-- Where annotations and what follows them begin, stands no kind that is neither an opening
angle nor one that may follow. -/
lemma follows_annotations {β : Type} {b : β} {z v : List Token} {f : List Annotation → β}
    {ks ls : List TokenKind}
    (h : ((Many Annotation.SpelledBy).andThen fun as => nothing (f as)) b z)
    (hv : Follows (NoneOf ks) v) (hopen : .mark .openAngle ∉ ls) (hsub : ls ⊆ ks) :
    Follows (NoneOf ls) (z ++ v) := by
  obtain ⟨as, us, _, has, ⟨-, rfl⟩, rfl⟩ := h
  rw [List.append_nil]
  refine (follows_many startsWith_annotation has hv).mono ?_
  rintro k (rfl | hk)
  · exact ⟨by simp, hopen⟩
  · exact hk.mono hsub

lemma reads_field (hc : s.Closed) :
    Reads field Field.SpelledBy (NoneOf [.mark .dot, .mark .openAngle])
      (fun f => f.type.nesting ≤ Machine.nesting) s := by
  rw [field]
  simp only [discard_bind]
  refine Reads.of_iff ?_ fun _ _ => field_iff.symm
  refine (passes_expectName rfl).reads hc rfl (fun name s₁ hc₁ => ?_)
    fun _ => possible_after fun _ =>
      possible_andThen possible_typeExpr fun _ => possible_annotations _
  refine (passes_expect rfl).reads hc₁ rfl (fun _ s₂ hc₂ => ?_)
    fun _ => possible_andThen possible_typeExpr fun _ => possible_annotations _
  refine (reads_type hc₂).bind hc₂ (fun type s₃ _ hc₃ hnest => ?_) ?_
    (fun _ => possible_annotations _) ?_
  · exact ((reads_annotations hc₃).weaken fun _ hk => hk.mono (by simp)).map hc₃ (by simp [hnest])
  · exact fun _ _ _ _ h hv => follows_annotations h hv (by simp) (by simp)
  · rintro _ _ _ ⟨_, _, _, -, ⟨rfl, -⟩, -⟩ h
    exact h

/-- Reading further fields, each behind a comma. -/
lemma reads_fields (hc : s.Closed) :
    Reads (whileAt (.mark .comma) do discard advance; field)
      (Many (behind (.mark .comma) Field.SpelledBy))
      (NoneOf [.mark .dot, .mark .openAngle, .mark .comma])
      (fun fs => ∀ f ∈ fs, f.type.nesting ≤ Machine.nesting) s := by
  refine reads_whileAt (S := fun f : Field => f.type.nesting ≤ Machine.nesting) rfl
    startsWith_behind (by simp [NoneOf]) (by simp [NoneOf]) (fun s hc hk => ?_) s hc
  rw [discard_bind]
  refine (passes_advance hk rfl).reads hc rfl (fun _ s' hc' => ?_) fun _ => possible_field
  refine (reads_field hc').weaken ?_
  rintro k (rfl | hk)
  · simp [NoneOf]
  · exact hk.mono (by simp)

lemma reads_record (hc : s.Closed) (hk : s.current.kind = .mark .openBrace) :
    Reads record Phrase.record F (Body.NestedWithin Machine.nesting) s := by
  have hfields (f : Field) : ((Many (behind (.mark .comma) Field.SpelledBy)).andThen fun fields =>
      closing (.mark .closeBrace) (Body.record (f :: fields))).Possible :=
    possible_andThen (possible_many _) fun _ => possible_closing _ _
  rw [record, discard_bind]
  simp only [pure_bind]
  refine (passes_advance hk rfl).reads hc rfl (fun _ s₁ hc₁ => ?_)
    fun _ => (possible_andThen possible_field hfields).either_right
  refine reads_peek (possible_andThen possible_field hfields).either_right (fun hf => ?_)
    fun hf => ?_
  · exact excludes_either (startsWith_after.excludes (by simp [hf]))
      (startsWith_field.andThen.excludes (by simp [hf]))
  by_cases hclose : s₁.current.kind = .mark .closeBrace
  · rw [if_pos hclose]
    refine Reads.either_left ?_ (startsWith_field.andThen.excludes (by simp [hclose]))
    exact reads_closing_or hc₁ rfl (by simp [Body.NestedWithin, Body.types])
  · rw [if_neg hclose]
    refine Reads.either_right ?_ (startsWith_after.excludes hclose)
    refine (reads_field hc₁).bind hc₁ (fun f s₂ _ hc₂ hf => ?_) ?_ hfields ?_
    · refine (reads_fields hc₂).bind hc₂ (fun fs s₃ _ hc₃ hfs => ?_) ?_
        (fun _ => possible_closing _ _) ?_
      · refine reads_closing_or hc₃ rfl ?_
        simpa [Body.NestedWithin, Body.types] using ⟨hf, hfs⟩
      · intro _ b z v h _
        exact ((startsWith_after b z h).mono (by simp [NoneOf])).append v
      · rintro fs _ _ ⟨_, _, rfl, -, rfl, -⟩ h f hf
        exact h _ (by simp [Body.types, List.mem_map_of_mem hf])
    · rintro _ b _ v ⟨fs, us, vs, hfs, hclose, rfl⟩ -
      rw [List.append_assoc]
      refine (follows_many startsWith_behind hfs ((startsWith_after b vs hclose).append v)).mono ?_
      rintro k (rfl | rfl) <;> simp [NoneOf]
    -- the first field is one of those whose types are within the limit
    · rintro f _ _ ⟨_, _, _, -, ⟨_, _, rfl, -, rfl, -⟩, rfl⟩ h
      exact h _ (by simp [Body.types])

lemma reads_sum (hc : s.Closed) (hk : s.current.kind = .mark .openBracket) :
    Reads sum Phrase.sum F (Body.NestedWithin Machine.nesting) s := by
  rw [sum, discard_bind]
  refine (passes_advance hk rfl).reads hc rfl (fun _ s₁ hc₁ => ?_)
    fun _ => possible_after fun _ =>
      possible_andThen (possible_many _) fun _ => possible_closing _ _
  refine (passes_expectName rfl).reads hc₁ rfl (fun first s₂ hc₂ => ?_)
    fun _ => possible_andThen (possible_many _) fun _ => possible_closing _ _
  refine (reads_names rfl hc₂).bind hc₂ (fun more s₃ _ hc₃ _ => ?_) ?_
    (fun _ => possible_closing _ _) (by simp)
  · exact reads_closing_or hc₃ rfl (by simp [Body.NestedWithin, Body.types])
  · intro _ b z v h _
    exact ((startsWith_after b z h).mono (by simp [NoneOf])).append v

lemma reads_body (hc : s.Closed) :
    Reads body Body.SpelledBy (NoneOf [.mark .dot]) (Body.NestedWithin Machine.nesting) s := by
  have hnest (t : TypeExpr) :
      (t.nesting ≤ Machine.nesting ↔ (Body.alias t).NestedWithin Machine.nesting) ∧
        (t.nesting ≤ Machine.nesting ↔ (Body.wrap t).NestedWithin Machine.nesting) := by
    simp [Body.NestedWithin, Body.types]
  have halias : Phrase.StartsWith
      (Phrase.andThen TypeExpr.SpelledBy fun type => nothing (Body.alias type)) _ :=
    startsWith_typeExpr.andThen
  have hwraps : Phrase.wrap.Possible :=
    possible_after fun _ => possible_andThen possible_typeExpr fun _ => possible_nothing _
  rw [body]
  refine Reads.of_iff ?_ fun _ _ => body_iff.symm
  refine reads_peek hwraps.either_right.either_right.either_right (fun hf => ?_) fun hf => ?_
  · refine excludes_either (halias.excludes (by simp [hf, startsType, primitive?]))
      (excludes_either (startsWith_after.excludes ?_)
        (excludes_either (startsWith_after.excludes ?_) (startsWith_after.excludes ?_)))
    all_goals simp [hf]
  by_cases htype : startsType s.current.kind
  · simp only [if_pos htype]
    refine Reads.either_left ((reads_type hc).map hc fun t => (hnest t).1)
      (excludes_either (startsWith_after.excludes ?_)
        (excludes_either (startsWith_after.excludes ?_) (startsWith_after.excludes ?_)))
    all_goals
      intro hk
      simp [hk, startsType, primitive?] at htype
  refine Reads.either_right ?_ (halias.excludes htype)
  by_cases hrecord : s.current.kind = .mark .openBrace
  · simp only [if_neg htype, if_pos hrecord]
    refine (reads_record hc hrecord).either_left
      (excludes_either (startsWith_after.excludes ?_) (startsWith_after.excludes ?_))
    all_goals simp [hrecord]
  refine Reads.either_right ?_ (startsWith_after.excludes hrecord)
  by_cases hsum : s.current.kind = .mark .openBracket
  · simp only [if_neg htype, if_neg hrecord, if_pos hsum]
    exact (reads_sum hc hsum).either_left (startsWith_after.excludes (by simp [hsum]))
  refine Reads.either_right ?_ (startsWith_after.excludes hsum)
  by_cases hwrap : s.current.kind = .keyword .wrap
  · simp only [if_neg htype, if_neg hrecord, if_neg hsum, if_pos hwrap, discard_bind]
    refine (passes_advance hwrap rfl).reads hc rfl (fun _ s₁ hc₁ => ?_)
      fun _ => possible_andThen possible_typeExpr fun _ => possible_nothing _
    exact (reads_type hc₁).map hc₁ fun t => (hnest t).2
  · simp only [if_neg htype, if_neg hrecord, if_neg hsum, if_neg hwrap]
    exact reads_of_error (unexpected_apply hf _) (by simp) rfl hwraps
      (startsWith_after.excludes hwrap)

lemma reads_declaration (hc : s.Closed) :
    Reads declaration Declaration.SpelledBy (NoneOf [.mark .dot, .mark .openAngle])
      (fun d => d.body.NestedWithin Machine.nesting) s := by
  rw [declaration]
  simp only [discard_bind]
  refine Reads.of_iff ?_ fun _ _ => declaration_iff.symm
  refine (passes_expect rfl).reads hc rfl (fun _ s₁ hc₁ => ?_) fun _ => possible_after fun _ =>
    possible_after fun _ => possible_andThen possible_body fun _ => possible_annotations _
  refine (passes_expectName rfl).reads hc₁ rfl (fun name s₂ hc₂ => ?_)
    fun _ => possible_after fun _ => possible_andThen possible_body fun _ => possible_annotations _
  refine (passes_expect rfl).reads hc₂ rfl (fun _ s₃ hc₃ => ?_)
    fun _ => possible_andThen possible_body fun _ => possible_annotations _
  refine (reads_body hc₃).bind hc₃ (fun body s₄ _ hc₄ hnest => ?_) ?_
    (fun _ => possible_annotations _) ?_
  · exact ((reads_annotations hc₄).weaken fun _ hk => hk.mono (by simp)).map hc₄ (by simp [hnest])
  · exact fun _ _ _ _ h hv => follows_annotations h hv (by simp) (by simp)
  · rintro _ _ _ ⟨_, _, _, -, ⟨rfl, -⟩, -⟩ h
    exact h

end Grammar

/-! ### Modules -/

lemma export_iff {w : Keyword} {x : Text} {ts : List Token} :
    Phrase.Export w x ts ↔ after (.keyword w) (fun _ => after (.mark .colon) fun _ =>
      after .packageName fun package => nothing package.value) x ts := by
  constructor
  · rintro ⟨hhead, hcolon, hpackage⟩
    exact ⟨_, _, rfl, hhead, _, _, rfl, hcolon, _, _, rfl, hpackage, rfl, rfl⟩
  · rintro ⟨_, _, rfl, hhead, _, _, rfl, hcolon, _, _, rfl, hpackage, rfl, rfl⟩
    exact .mk hhead hcolon hpackage

namespace Phrase

/-- The declarations that complete a module. -/
def declarations (scala purs : Text) (imports : List Text) (annotations : List Annotation) :
    Phrase Module :=
  Phrase.andThen (Many Declaration.SpelledBy) fun declarations =>
    nothing ⟨[], ⟨scala, purs, []⟩, imports, annotations, declarations⟩

/-- What stands behind the header of a module. -/
def behindHeader (scala purs : Text) : Phrase Module :=
  Phrase.andThen (Many (behind (.keyword .imports) (word .packageName))) fun imports =>
    Phrase.andThen (Many Annotation.SpelledBy) fun annotations =>
      Phrase.declarations scala purs imports annotations

end Phrase

lemma content_iff {m : Module} {ts : List Token} :
    m.ContentSpelledBy ts ↔ ((Phrase.Export .scala).andThen fun scala =>
      (Phrase.Export .purs).andThen fun purs => behindHeader scala purs) m ts := by
  constructor
  · rintro ⟨hscala, hpurs, himports, hannotations, hdeclarations⟩
    exact ⟨_, _, _, hscala, ⟨_, _, _, hpurs, ⟨_, _, _, himports, ⟨_, _, _, hannotations,
      ⟨_, _, [], hdeclarations, ⟨rfl, rfl⟩, rfl⟩, rfl⟩, rfl⟩, rfl⟩, by simp⟩
  · rintro ⟨_, _, _, hscala, ⟨_, _, _, hpurs, ⟨_, _, _, himports, ⟨_, _, _, hannotations,
      ⟨_, _, _, hdeclarations, ⟨rfl, rfl⟩, rfl⟩, rfl⟩, rfl⟩, rfl⟩, rfl⟩
    rw [List.append_nil, ← List.append_assoc, ← List.append_assoc, ← List.append_assoc]
    exact .mk hscala hpurs himports hannotations hdeclarations

namespace Grammar

variable {F : TokenKind → Prop} {s : TokenStream}

lemma reads_exportPackage {w : Keyword} (hc : s.Closed) :
    Reads (exportPackage w) (Phrase.Export w) F (fun _ => True) s := by
  rw [exportPackage]
  simp only [discard_bind]
  refine Reads.of_iff ?_ fun _ _ => export_iff.symm
  refine (passes_expect rfl).reads hc rfl (fun _ s₁ hc₁ => ?_)
    fun _ => possible_after fun _ => possible_after fun _ => possible_nothing _
  refine (passes_expect rfl).reads hc₁ rfl (fun _ s₂ hc₂ => ?_)
    fun _ => possible_after fun _ => possible_nothing _
  exact (passes_expect rfl).reads hc₂ rfl (fun _ _ _ => reads_pure trivial)
    fun _ => possible_nothing _

lemma reads_importPackage (hc : s.Closed) :
    Reads importPackage (behind (.keyword .imports) (word .packageName)) F (fun _ => True) s := by
  rw [importPackage, discard_bind]
  refine (passes_expect rfl).reads hc rfl (fun _ s₁ hc₁ => ?_) fun _ => possible_word _
  refine Reads.of_iff ?_ fun _ _ => word_iff.symm
  exact (passes_expect rfl).reads hc₁ rfl (fun _ _ _ => reads_pure trivial)
    fun _ => possible_nothing _

lemma reads_imports (hc : s.Closed) :
    Reads (whileAt (.keyword .imports) importPackage)
      (Many (behind (.keyword .imports) (word .packageName))) (NoneOf [.keyword .imports])
      (fun xs => ∀ x ∈ xs, True) s :=
  reads_whileAt (S := fun _ => True) rfl startsWith_behind (by simp [NoneOf]) (by simp [NoneOf])
    (fun _ hc _ => reads_importPackage hc) s hc

lemma reads_declarations (hc : s.Closed) :
    Reads (whileAt (.keyword .type) declaration) (Many Declaration.SpelledBy) (· = .endOfInput)
      (fun ds => ∀ d ∈ ds, d.body.NestedWithin Machine.nesting) s := by
  refine reads_whileAt (S := fun d : Declaration => d.body.NestedWithin Machine.nesting) rfl
    startsWith_declaration (by simp) (by simp) (fun s hc _ => (reads_declaration hc).weaken ?_) s hc
  rintro k (rfl | rfl) <;> simp [NoneOf]

/-- Where a complete module is returned, the end of the input has to follow. -/
lemma reads_endOfInput {α : Type} {S : α → Prop} {a : α} (hS : S a) :
    Reads (peek >>= fun t => if t.kind = .endOfInput then pure a else
      throw ⟨.trailing t, t.span⟩) (nothing a) (· = .endOfInput) S s := by
  refine reads_peek (possible_nothing a) (fun hf => excludes_nothing (by simp [hf])) fun hf => ?_
  by_cases hk : s.current.kind = .endOfInput
  · rw [if_pos hk]
    exact reads_pure hS
  · rw [if_neg hk]
    exact reads_of_error (e := ⟨.trailing s.current, s.current.span⟩) rfl (by simp) rfl
      (possible_nothing a) (excludes_nothing hk)

lemma follows_declarations {scala purs : Text} {imports : List Text}
    {annotations : List Annotation} {m : Module} {z v : List Token}
    (h : Phrase.declarations scala purs imports annotations m z)
    (hv : Follows (· = .endOfInput) v) :
    Follows (fun k => k = .keyword .type ∨ k = .endOfInput) (z ++ v) := by
  obtain ⟨ds, us, _, hds, ⟨-, rfl⟩, rfl⟩ := h
  rw [List.append_nil]
  exact follows_many startsWith_declaration hds hv

lemma reads_wholeModule [Machine] (hc : s.Closed) :
    Reads wholeModule Module.ContentSpelledBy (· = .endOfInput)
      (Module.NestedWithin Machine.nesting) s := by
  have hdeclarations (scala purs imports annotations) :
      (Phrase.declarations scala purs imports annotations).Possible :=
    possible_andThen (possible_many _) fun _ => possible_nothing _
  have hheader (scala purs) : (Phrase.behindHeader scala purs).Possible :=
    possible_andThen (possible_many _) fun imports =>
      possible_andThen (possible_many _) fun annotations => hdeclarations scala purs _ _
  have hexport (w : Keyword) : (Phrase.Export w).Possible := by
    obtain ⟨x, ts, h⟩ : (after (.keyword w) fun _ => after (.mark .colon) fun _ =>
        after .packageName fun package => nothing package.value).Possible :=
      possible_after fun _ => possible_after fun _ => possible_after fun _ => possible_nothing _
    exact ⟨x, ts, export_iff.2 h⟩
  rw [wholeModule]
  refine Reads.of_iff ?_ fun _ _ => content_iff.symm
  refine (reads_exportPackage hc).bind hc (fun scala s₁ _ hc₁ _ => ?_)
    (fun _ _ z _ _ hv => hv.any z) (fun _ => possible_andThen (hexport _) fun _ => hheader _ _)
    (by simp)
  refine (reads_exportPackage hc₁).bind hc₁ (fun purs s₂ _ hc₂ _ => ?_)
    (fun _ _ z _ _ hv => hv.any z) (fun _ => hheader _ _) (by simp)
  refine (reads_imports hc₂).bind hc₂ (fun imports s₃ _ hc₃ _ => ?_) ?_
    (fun _ => possible_andThen (possible_many _) fun _ => hdeclarations _ _ _ _) (by simp)
  · refine (reads_annotations hc₃).bind hc₃ (fun annotations s₄ _ hc₄ _ => ?_) ?_
      (fun _ => hdeclarations _ _ _ _) (by simp)
    · refine (reads_declarations hc₄).bind hc₄ (fun ds s₅ _ _ hds => reads_endOfInput hds)
        (fun _ _ _ _ => follows_nothing) (fun _ => possible_nothing _) ?_
      rintro ds _ _ ⟨rfl, -⟩ h
      exact h
    · intro _ m z v h hv
      refine (follows_declarations h hv).mono ?_
      rintro k (rfl | rfl) <;> simp [NoneOf]
  -- behind the imports stand annotations, declarations or the end, and none of them is an import
  · rintro _ m _ v ⟨as, us, vs, has, hds, rfl⟩ hv
    rw [List.append_assoc]
    refine (follows_many startsWith_annotation has (follows_declarations hds hv)).mono ?_
    rintro k (rfl | rfl | rfl) <;> simp [NoneOf]

end Grammar

end Idl
