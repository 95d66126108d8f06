/-
# Names, members and declarations nest

Whatever a text holds, its outline is sound: the three maps have the same names in the same order,
the name of a declaration and the names of its members stand in the declaration one after the
other, and the declarations follow one another.  So in every document the range of a symbol covers
the range of its name and the ranges of its children (`Document.outline_nested`).
-/
import Idl.Proofs.Document.Walks
import Idl.Proofs.Token.Spans

namespace Idl

variable {_ : Machine}

/-- A span begins in another one, and ends in it. -/
structure Span.Within (a b : Span) : Prop where
  /-- It does not begin in front of the other one. -/
  first : ¬ a.first.Before b.first
  /-- It does not end behind the other one. -/
  last : ¬ b.last.Before a.last

/-- One place comes before another in a document. -/
def Place.Before (p q : Place) : Prop :=
  p.line < q.line ∨ p.line = q.line ∧ p.offset < q.offset

/-- A range begins in another one, and ends in it. -/
structure Range.Within (a b : Range) : Prop where
  /-- It does not begin in front of the other one. -/
  first : ¬ a.first.Before b.first
  /-- It does not end behind the other one. -/
  stop : ¬ b.stop.Before a.stop

/-- The range of a symbol covers the range of its name and those of its children. -/
structure Symbol.Nested (x : Symbol) : Prop where
  /-- The name stands in the declaration. -/
  selection : x.selection.Within x.range
  /-- The names of fields and variants stand in the declaration. -/
  children : ∀ c ∈ x.children, c.range.Within x.range

namespace Outline.Section

/-- The name of a declaration and the names of its members stand in it one after the other. -/
structure Nested (s : Section) : Prop where
  /-- The name stands in the declaration. -/
  name : s.name.span.Within s.extent
  /-- The names of members stand in the declaration. -/
  members : ∀ p ∈ s.members, p.Within s.extent
  /-- Each of the names ends before the next one begins. -/
  increasing : (s.name.span :: s.members).Pairwise Span.Before

end Outline.Section

variable {a b c : Span} {s : Outline.Section} {t : Token}

/-! ### Spans and ranges -/

lemma Span.Within.range (h : a.Within b) : a.range.Within b.range := by
  obtain ⟨hfirst, hlast⟩ := h
  unfold Position.Before at hfirst hlast
  constructor
  · simp only [Place.Before, Span.range]
    omega
  · simp only [Place.Before, Span.range]
    omega

/-- What stands between two spans lies within the stretch from the one to the other. -/
lemma Span.within_of_before (hab : b = a ∨ a.Before b) (ha : ¬ a.Before a)
    (hbc : b = c ∨ b.Before c) (hc : ¬ c.Before c) : b.Within ⟨a.first, c.last⟩ := by
  unfold Before at *
  constructor
  · rcases hab with rfl | hab
    · exact Position.not_before_self _
    · exact fun h => ha (hab.trans h)
  · rcases hbc with rfl | hbc
    · exact Position.not_before_self _
    · exact fun h => hc (h.trans hbc)

namespace Outline.Section

/-! ### One section -/

/-- The names of members are among the tokens, in their order. -/
lemma membersAfter_sublist (before : Token) (ts : List Token) :
    (membersAfter before ts).Sublist (ts.map Token.span) := by
  induction ts generalizing before with
  | nil => exact .slnil
  | cons t ts ih =>
    simp only [membersAfter, List.map_cons]
    split
    · exact (ih t).cons_cons _
    · exact (ih t).cons _

/-- A section ends with its last token. -/
lemma exists_tokens_eq (s : Section) : ∃ ts, s.tokens = ts ++ [s.last] := by
  have hlast : s.tokens.getLast? = some s.last := by
    rw [tokens, List.getLast?_cons, List.getLast?_cons]
    rfl
  exact List.getLast?_eq_some_iff.1 hlast

/-- Where tokens follow one another, each token of a section lies within it. -/
lemma within_extent (hpairwise : s.tokens.Pairwise fun t t' => t.span.Before t'.span)
    (hself : ∀ t ∈ s.tokens, ¬ t.span.Before t.span) (ht : t ∈ s.tokens) :
    t.span.Within s.extent := by
  obtain ⟨ts, hts⟩ := s.exists_tokens_eq
  have hlast : s.last ∈ s.tokens := by simp [hts]
  refine Span.within_of_before ?_ (hself _ List.mem_cons_self) ?_ (hself _ hlast)
  · rcases List.mem_cons.1 ht with rfl | ht
    · exact .inl rfl
    · exact .inr ((List.pairwise_cons.1 hpairwise).1 t ht)
  · rw [hts, List.mem_append, List.mem_singleton] at ht
    rw [hts, List.pairwise_append] at hpairwise
    rcases ht with ht | rfl
    · exact .inr (hpairwise.2.2 t ht _ (List.mem_singleton_self _))
    · exact .inl rfl

lemma nested_of_pairwise (hpairwise : s.tokens.Pairwise fun t t' => t.span.Before t'.span)
    (hself : ∀ t ∈ s.tokens, ¬ t.span.Before t.span) : s.Nested := by
  have hsublist : s.members.Sublist (s.following.map Token.span) := membersAfter_sublist _ _
  refine ⟨within_extent hpairwise hself (by simp [tokens]), fun p hp => ?_, ?_⟩
  · obtain ⟨t, ht, rfl⟩ := List.mem_map.1 (hsublist.subset hp)
    exact within_extent hpairwise hself (by simp [tokens, ht])
  · have hspans : ((s.name :: s.following).map Token.span).Pairwise Span.Before :=
      List.pairwise_map.2 (List.pairwise_cons.1 hpairwise).2
    exact hspans.sublist (hsublist.cons_cons _)

end Outline.Section

/-! ### The sections of a text -/

/-- The sections of a text are sound, and follow one another. -/
lemma Text.nested_sections (s : Text) : (∀ x ∈ Outline.sections s.tokens, x.Nested) ∧
    (Outline.sections s.tokens).Pairwise fun x y => x.extent.Before y.extent := by
  obtain ⟨us, stop, htokens, hstop, hpairwise, hself⟩ := s.exists_pairwise
  have hend : stop.kind ≠ .upperName := by simp [hstop]
  have hsplit := Outline.split_spec hend us
  rw [← htokens] at hsplit
  rw [hsplit, List.pairwise_append, List.pairwise_flatMap] at hpairwise
  obtain ⟨-, ⟨heach, hsections⟩, -⟩ := hpairwise
  refine ⟨fun x hx => ?_, hsections.imp fun {x y} hxy => ?_⟩
  · refine Outline.Section.nested_of_pairwise (heach x hx) fun t ht => hself t ?_
    rw [hsplit]
    exact List.mem_append_right _ (List.mem_flatMap.2 ⟨x, hx, ht⟩)
  · obtain ⟨ts, hts⟩ := x.exists_tokens_eq
    exact hxy x.last (by simp [hts]) y.opening List.mem_cons_self

lemma Outline.mem_sections_of_mem {tokens : List Token} {x : Text} {s : Section}
    (h : (x, s) ∈ firstSections tokens) : s ∈ sections tokens := by
  obtain ⟨s', hs', heq⟩ := List.mem_map.1 ((firstOfEach_sublist _).subset h)
  cases heq
  exact hs'

/-! ### Symbols -/

/-- Children stand where members do, or where the name stands. -/
lemma Document.exists_of_mem_memberSymbols {owner : Span} {ms : List (Text × Option Text)}
    {spans : List Span} {c : MemberSymbol} (hc : c ∈ memberSymbols owner ms spans) :
    ∃ p ∈ owner :: spans, c.range = p.range := by
  fun_induction memberSymbols owner ms spans with
  | case1 => cases hc
  | case2 name detail ms ih =>
    rcases List.mem_cons.1 hc with rfl | hc
    · exact ⟨owner, List.mem_cons_self, rfl⟩
    · exact ih hc
  | case3 name detail ms p spans ih =>
    rcases List.mem_cons.1 hc with rfl | hc
    · exact ⟨p, by simp, rfl⟩
    · obtain ⟨q, hq, heq⟩ := ih hc
      exact ⟨q, by rcases List.mem_cons.1 hq with rfl | hq <;> simp [*], heq⟩

lemma Declaration.nested_symbolIn (hs : s.Nested) (d : Declaration) : (d.symbolIn s).Nested := by
  refine ⟨hs.name.range, fun c hc => ?_⟩
  obtain ⟨p, hp, heq⟩ := Document.exists_of_mem_memberSymbols hc
  rw [heq]
  rcases List.mem_cons.1 hp with rfl | hp
  · exact hs.name.range
  · exact (hs.members p hp).range

/-- The three maps of a text have the same names in the same order, each name once; the names of a
declaration and of its members stand in it one after the other, and declarations follow one
another; and every symbol covers its name and its children. -/
theorem Document.outline_nested (s : Text) :
    let o := Outline.ofTokens s.tokens
    (o.wholes.map Prod.fst = o.names.map Prod.fst ∧ o.parts.map Prod.fst = o.names.map Prod.fst ∧
      (o.names.map Prod.fst).Nodup) ∧
    (∀ x name whole parts, (x, name) ∈ o.names → (x, whole) ∈ o.wholes → (x, parts) ∈ o.parts →
      name.Within whole ∧ (∀ p ∈ parts, p.Within whole) ∧
        (name :: parts).Pairwise Span.Before) ∧
    o.wholes.Pairwise (fun x y => x.2.Before y.2) ∧
    ∀ x ∈ (ofText s).symbols, x.Nested := by
  intro o
  obtain ⟨hnested, hpairwise⟩ := s.nested_sections
  have hnames : o.names = _ := Outline.names_eq s.tokens
  have hwholes : o.wholes = _ := Outline.wholes_eq s.ended_tokens
  have hparts : o.parts = _ := Outline.parts_eq s.ended_tokens
  have hnodup : ((Outline.firstSections s.tokens).map Prod.fst).Nodup :=
    Outline.nodup_firstOfEach _
  refine ⟨?_, ?_, ?_, ?_⟩
  · simp only [hnames, hwholes, hparts, List.map_map]
    exact ⟨rfl, rfl, hnodup⟩
  · intro x name whole parts hname hwhole hpart
    rw [hnames] at hname
    rw [hwholes] at hwhole
    rw [hparts] at hpart
    -- of one name there is one section
    obtain ⟨⟨y, a⟩, ha, hx⟩ := List.mem_map.1 hname
    obtain ⟨⟨y', b⟩, hb, hx'⟩ := List.mem_map.1 hwhole
    obtain ⟨⟨y'', c⟩, hc, hx''⟩ := List.mem_map.1 hpart
    cases hx
    cases hx'
    cases hx''
    obtain rfl : a = b := by
      simpa using List.inj_on_of_nodup_map hnodup ha hb rfl
    obtain rfl : a = c := by
      simpa using List.inj_on_of_nodup_map hnodup ha hc rfl
    have ha := hnested a (Outline.mem_sections_of_mem ha)
    exact ⟨ha.name, ha.members, ha.increasing⟩
  · rw [hwholes, List.pairwise_map]
    have hall := hpairwise.map (S := fun x y : Text × Outline.Section =>
      x.2.extent.Before y.2.extent) (fun s => (s.name.value, s)) fun _ _ h => h
    exact hall.sublist (Outline.firstOfEach_sublist _)
  · intro x hx
    rw [symbols] at hx
    split at hx
    · cases hx
    · obtain ⟨d, -, hd⟩ := List.mem_filterMap.1 hx
      rw [show (ofText s).tokens = s.tokens from rfl, symbol?_ofTokens s.ended_tokens] at hd
      obtain ⟨a, ha, rfl⟩ := Option.map_eq_some_iff.1 hd
      exact d.nested_symbolIn (hnested a (List.mem_of_find?_eq_some ha))

end Idl
