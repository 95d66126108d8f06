/-
# What is stray in a text that holds a module

The machine does not know all texts that hold a module.  Where comments stand in annotations or in
the lines of packages it may come to something stray; which comments these are is told by the
lexemes of the text alone (`Text.strayFree_highlight_iff`).
-/
import Idl.Proofs.Canonical.RoundTrip
import Idl.Proofs.Highlight.Packages
import Idl.Proofs.Highlight.Prepared

namespace Idl

variable {_ : Machine}

open TokenKind

namespace Highlight

/-- The lexemes end with a package that the machine reads as code: behind the first word of its line
there is a comment, or this word has been taken for a package itself, behind another package that is
read as code and ends with `import`. -/
inductive Overlooked : List Lexeme → Prop
  /-- There is a comment in the line. -/
  | commented {front e : List Lexeme} (he : IsEntry (e.map Lexeme.kind))
      (h : ∃ l ∈ e.tail, ¬ l.IsBare) : Overlooked (front ++ e)
  /-- The first word has been taken. -/
  | taken {front e : List Lexeme} (h : Overlooked front)
      (himport : ∃ l ∈ front.getLast?, l.EndsWithImport) (he : IsEntry (e.map Lexeme.kind))
      (hbare : ∀ l ∈ e.head?, l.IsBare) : Overlooked (front ++ e)

/-- No segment of a package that is read as code begins with a digit. -/
def PackagesKnown (ls : List Lexeme) : Prop := ∀ front l back,
  ls = front ++ l :: back → Overlooked (front ++ [l]) → l.HasLetters

/-- The same for the packages behind some lexemes. -/
def KnownBehind (front ls : List Lexeme) : Prop := ∀ us l back,
  ls = us ++ l :: back → Overlooked (front ++ us ++ [l]) → l.HasLetters

/-- The first lexeme is a reserved word with only blanks in front of it. -/
def StartsBare (ls : List Lexeme) : Prop := ∃ l ∈ ls.head?, l.IsBare ∧ ∃ w, l.kind = .keyword w

/-- Behind these lexemes a word with only blanks in front of it is taken for a package. -/
def Takes (front : List Lexeme) : Prop :=
  Overlooked front ∧ ∃ l ∈ front.getLast?, l.EndsWithImport

variable {b : Option CodePoint} {e e' front front' ls : List Lexeme} {es : List (List TokenKind)}
  {k : TokenKind} {ks : List TokenKind} {l l₁ l₂ l₃ : Lexeme} {r : Text}

/-! ### Entries -/

/-- An entry begins with a reserved word, and its last token alone is a package. -/
lemma exists_of_isEntry (h : IsEntry (e.map Lexeme.kind)) : ∃ us p, e = us ++ [p] ∧
    p.kind = .packageName ∧ (∀ l ∈ us, l.kind ≠ .packageName) ∧
      ∃ l ∈ e.head?, ∃ w, l.kind = .keyword w := by
  rcases isEntry_cases h with ⟨l₁, l₂, rfl, h₁, h₂⟩ | ⟨w, -, l₁, l₂, l₃, rfl, h₁, h₂, h₃⟩
  · exact ⟨[l₁], l₂, rfl, h₂, by simp [h₁], l₁, rfl, _, h₁⟩
  · exact ⟨[l₁, l₂], l₃, rfl, h₃, by simp [h₁, h₂], l₁, rfl, _, h₁⟩

lemma exists_package_of_isEntry (h : IsEntry (e.map Lexeme.kind)) :
    ∃ p ∈ e.getLast?, p.kind = .packageName ∧ e ≠ [] := by
  obtain ⟨us, p, rfl, hp, -⟩ := exists_of_isEntry h
  exact ⟨p, List.getLast?_concat, hp, by simp⟩

lemma ne_fault_of_isEntry (h : IsEntry (e.map Lexeme.kind)) :
    ∀ l ∈ e, l.kind ≠ .fault ∧ l.kind ≠ .endOfInput := by
  rcases isEntry_cases h with ⟨l₁, l₂, rfl, h₁, h₂⟩ | ⟨w, -, l₁, l₂, l₃, rfl, h₁, h₂, h₃⟩
  · simp [h₁, h₂]
  · simp [h₁, h₂, h₃]

/-- Where an entry ends, no other one does. -/
lemma isEntry_append_inj (he : IsEntry (e.map Lexeme.kind)) (he' : IsEntry (e'.map Lexeme.kind))
    (h : front ++ e = front' ++ e') : front = front' ∧ e = e' := by
  refine List.append_inj' h ?_
  have hkinds := congrArg (fun ls => (ls.map Lexeme.kind).reverse) h
  clear h
  rcases isEntry_cases he with ⟨l₁, l₂, rfl, h₁, h₂⟩ | ⟨w, hw, l₁, l₂, l₃, rfl, h₁, h₂, h₃⟩ <;>
    rcases isEntry_cases he' with ⟨l₁', l₂', rfl, h₁', h₂'⟩ |
      ⟨w', hw', l₁', l₂', l₃', rfl, h₁', h₂', h₃'⟩ <;>
    simp_all

lemma Overlooked.kind (h : Overlooked ls) : ∃ l ∈ ls.getLast?, l.kind = .packageName := by
  have hlast {front e : List Lexeme} (he : IsEntry (e.map Lexeme.kind)) :
      ∃ l ∈ (front ++ e).getLast?, l.kind = .packageName := by
    obtain ⟨us, p, rfl, hp, -⟩ := exists_of_isEntry he
    exact ⟨p, by rw [← List.append_assoc, List.getLast?_concat]; rfl, hp⟩
  cases h with
  | commented he => exact hlast he
  | taken _ _ he => exact hlast he

/-- The package of an entry is read as code behind a comment, or if the first word is taken. -/
lemma overlooked_append_iff (he : IsEntry (e.map Lexeme.kind)) : Overlooked (front ++ e) ↔
    (∃ l ∈ e.tail, ¬ l.IsBare) ∨ Takes front ∧ StartsBare e := by
  obtain ⟨-, -, -, -, -, l, hl, w, hw⟩ := exists_of_isEntry he
  constructor
  · intro h
    generalize hs : front ++ e = ls at h
    cases h with
    | commented he' h =>
      obtain ⟨rfl, rfl⟩ := isEntry_append_inj he he' hs
      exact .inl h
    | taken h himport he' hbare =>
      obtain ⟨rfl, rfl⟩ := isEntry_append_inj he he' hs
      exact .inr ⟨⟨h, himport⟩, l, hl, hbare l hl, w, hw⟩
  · rintro (h | ⟨⟨h, himport⟩, l', hl', hbare, -⟩)
    · exact .commented he h
    · refine .taken h himport he fun l'' hl'' => ?_
      rwa [Option.mem_unique hl'' hl']

/-! ### Packages behind each other -/

/-- The package of an entry, and those behind it. -/
lemma knownBehind_append (he : IsEntry (e.map Lexeme.kind)) (hl : l ∈ e.getLast?) :
    KnownBehind front (e ++ ls) ↔
      (Overlooked (front ++ e) → l.HasLetters) ∧ KnownBehind (front ++ e) ls := by
  obtain ⟨us, p, rfl, -, hus, -⟩ := exists_of_isEntry he
  obtain rfl : p = l := by simpa using hl
  rw [List.append_assoc, List.singleton_append]
  constructor
  · intro h
    refine ⟨fun hover => h us p ls rfl (by rwa [List.append_assoc]), ?_⟩
    rintro vs l back rfl hover
    exact h (us ++ p :: vs) l back (by simp) (by simpa using hover)
  · rintro ⟨hfirst, hmore⟩ vs l back hsplit hover
    rcases List.append_eq_append_iff.1 hsplit with ⟨ws, rfl, hws⟩ | ⟨ws, rfl, hws⟩
    · cases ws with
      | nil =>
        obtain ⟨rfl, rfl⟩ := List.cons.inj hws
        exact hfirst (by simpa using hover)
      | cons p' ws =>
        obtain ⟨rfl, rfl⟩ := List.cons.inj hws
        exact hmore ws l back rfl (by simpa using hover)
    · cases ws with
      | nil =>
        obtain ⟨rfl, rfl⟩ := List.cons.inj hws
        exact hfirst (by simpa using hover)
      | cons l' ws =>
        -- no other token of the line is a package
        obtain ⟨rfl, rfl⟩ := List.cons.inj hws
        obtain ⟨p', hp', hkind⟩ := hover.kind
        rw [List.getLast?_concat] at hp'
        obtain rfl := Option.some.inj hp'
        exact absurd hkind (hus l (by simp))

/-- Where packages are read as code does not matter if no segment of any begins with a digit. -/
lemma knownBehind_of_hasLetters (front : List Lexeme)
    (h : ∀ l ∈ ls, l.kind = .packageName → l.HasLetters) : KnownBehind front ls := by
  rintro us l back rfl hover
  obtain ⟨p, hp, hkind⟩ := hover.kind
  rw [List.getLast?_concat] at hp
  obtain rfl := Option.some.inj hp
  exact h l (by simp) hkind

lemma startsBare_append (hne : e ≠ []) : StartsBare (e ++ ls) ↔ StartsBare e := by
  obtain ⟨l, e, rfl⟩ := List.exists_cons_of_ne_nil hne
  exact Iff.rfl

/-! ### What follows a package -/

/-- Behind a package the next line begins, or an annotation or a declaration, or the text ends. -/
def IsNext (ks : List TokenKind) : Prop := ∀ k ∈ ks.head?, k = .mark .openAngle ∨
  ∃ w ∈ [Keyword.scala, .purs, .imports, .type], k = .keyword w

lemma skipBlanks_final (hr : Trivia.Final r) : ∀ c ∈ (skipBlanks r).head?, c = .scalar '/' := by
  have hcomplete {w : Text} (hw : Trivia.Complete w) (r : Text)
      (hr : ∀ c ∈ (skipBlanks r).head?, c = .scalar '/') :
      ∀ c ∈ (skipBlanks (w ++ r)).head?, c = .scalar '/' := by
    by_cases hbare : ∀ c ∈ w, c.isBlank
    · rwa [skipBlanks, List.dropWhile_append_of_pos hbare]
    · obtain ⟨u, hu⟩ := exists_skipBlanks_eq_slash hw hbare r
      rw [hu]
      rintro c ⟨⟩
      rfl
  rcases hr with hr | ⟨t, body, ht, -, rfl⟩
  · have hnil := hcomplete hr [] (by rintro c ⟨⟩)
    rwa [List.append_nil] at hnil
  · exact hcomplete ht _ (by rintro c ⟨⟩; rfl)

/-- What stands behind the blanks behind a package. -/
lemma stopsAt_skipBlanks_next {p : CodePoint → Bool} (hnext : IsNext (ls.map Lexeme.kind))
    (hstand : StandAll ls r) (hr : Trivia.Final r) (hslash : p (.scalar '/') = false)
    (hangle : p (.scalar '<') = false)
    (hword : StartsBare ls → ∀ w ∈ [Keyword.scala, .purs, .imports, .type],
      w.spelling.StopsAt p) : (skipBlanks (ls.flatMap Lexeme.text ++ r)).StopsAt p := by
  cases hstand with
  | nil =>
    intro c hc
    rw [skipBlanks_final hr c hc, hslash]
  | @cons l ls _ h _ =>
    rw [List.flatMap_cons, List.append_assoc]
    refine stopsAt_skipBlanks h hslash fun hbare => ?_
    rcases hnext l.kind rfl with hk | ⟨w, hw, hk⟩
    · rw [spelling_of_mark h hk]
      exact Text.stopsAt_cons hangle _
    · rw [spelling_of_keyword h hk]
      exact hword ⟨l, rfl, hbare, w, hk⟩ w hw

/-- Only a dot begins with a dot. -/
lemma kind_of_dot {v : Word} {t : Text} (h : v.WrittenAs t) (hdot : .scalar '.' ∈ t.head?) :
    v.1 = .mark .dot := by
  have halpha (ht : ∀ c ∈ t.head?, c.isAlphanumeric) : v.1 = .mark .dot :=
    absurd (ht _ hdot) (by decide)
  cases h with
  | keyword w => exact halpha (by cases w <;> decide)
  | mark m =>
    cases m with
    | dot => rfl
    | _ => exact absurd hdot (by decide)
  | lowerName ht | upperName ht =>
    exact halpha fun c hc => ht.isAlphanumeric c (List.mem_of_mem_head? hc)
  | packageName ht =>
    obtain ⟨c, u, rfl, hc⟩ := ht.exists_cons
    refine halpha fun d hd => ?_
    rwa [← Option.some.inj hd]
  | string => exact absurd (Option.some.inj hdot) (by decide)

/-- No package name goes on behind a word in front of another token than a dot. -/
lemma stopsAt_isPackagePoint_of_stands {w : Keyword} (h : l.Stands (ls.flatMap Lexeme.text ++ r))
    (hk : l.kind = .keyword w) (hstand : StandAll ls r) (hr : Trivia.Final r)
    (hdot : ∀ k ∈ (ls.map Lexeme.kind).head?, k ≠ .mark .dot) :
    Text.StopsAt isPackagePoint (ls.flatMap Lexeme.text ++ r) := by
  intro c hc
  have hname : isNamePoint c = false :=
    stopsAt_isNamePoint (stopsAt_isWordPoint_of_stands h (by simp [hk, TokenKind.continuedBy])) c hc
  suffices hne : c ≠ .scalar '.' by simp [isPackagePoint, hname, hne]
  rintro rfl
  cases hstand with
  | nil => exact absurd (hr.head _ hc) (by decide)
  | @cons l' ls _ h' _ =>
    rw [List.flatMap_cons, List.append_assoc, Lexeme.text, List.append_assoc] at hc
    by_cases hgap : l'.gap = []
    · obtain ⟨d, t, ht⟩ := List.exists_cons_of_ne_nil h'.written.ne_nil
      rw [hgap, ht] at hc
      exact hdot l'.kind rfl (kind_of_dot h'.written (by rw [ht]; exact hc))
    · obtain ⟨d, t, ht⟩ := List.exists_cons_of_ne_nil hgap
      have hhead := h'.gap.head d (by rw [ht]; rfl)
      rw [ht] at hc
      rw [Option.some.inj hc] at hhead
      exact absurd hhead (by decide)

/-- A package that is read as code, with all that stands behind it. -/
lemma strayFree_overlooked {P : Prop} (h : l.Stands (ls.flatMap Lexeme.text ++ r))
    (hk : l.kind = .packageName) (hstand : StandAll ls r) (hr : Trivia.Final r)
    (hnext : IsNext (ls.map Lexeme.kind))
    (hdot : ∀ k ∈ (ls.map Lexeme.kind).tail.head?, k ≠ .mark .dot)
    (hloose : ¬ (l.EndsWithImport ∧ StartsBare ls) → ∀ b, Apart b (ls.flatMap Lexeme.text ++ r) →
      (Config.StrayFree ⟨[], b, ls.flatMap Lexeme.text ++ r⟩ ↔ P))
    (htaken : l.EndsWithImport → StartsBare ls → ∀ b, Apart b (ls.tail.flatMap Lexeme.text ++ r) →
      (Config.StrayFree ⟨[], b, ls.tail.flatMap Lexeme.text ++ r⟩ ↔ P))
    (hb : Apart b (l.text ++ (ls.flatMap Lexeme.text ++ r))) :
    Config.StrayFree ⟨[], b, l.text ++ (ls.flatMap Lexeme.text ++ r)⟩ ↔ l.HasLetters ∧ P := by
  by_cases htakes : l.EndsWithImport ∧ StartsBare ls
  · obtain ⟨himport, l', hl', hbare, w, hw⟩ := htakes
    cases hstand with
    | nil => cases hl'
    | @cons l' ls _ h' hstand =>
      obtain rfl := Option.some.inj hl'
      have hstop := stopsAt_isPackagePoint_of_stands h' hw hstand hr (by simpa using hdot)
      rw [List.flatMap_cons, List.append_assoc] at h hb ⊢
      obtain ⟨b', hb', hfree⟩ := exists_strayFree_taking h hk hb himport h' hw hbare hstop
      rw [hfree, ← htaken himport ⟨_, rfl, hbare, w, hw⟩ b' hb']
      rfl
  · have hcolon : (skipBlanks (ls.flatMap Lexeme.text ++ r)).StopsAt (· = .scalar ':') :=
      stopsAt_skipBlanks_next hnext hstand hr (by decide) (by decide) fun _ => by decide
    have hcapital : (skipBlanks (ls.flatMap Lexeme.text ++ r)).StopsAt isCapital :=
      stopsAt_skipBlanks_next hnext hstand hr (by decide) (by decide) fun _ => by decide
    obtain ⟨b', hb', hfree⟩ := exists_strayFree_loose h hk hb
      (fun v hv => absurd (hcolon _ (by rw [hv]; rfl)) (by simp)) hcapital fun himport =>
        stopsAt_skipBlanks_next hnext hstand hr (by decide) (by decide)
          fun hstarts => absurd ⟨himport, hstarts⟩ htakes
    rw [hfree, hloose htakes b' hb']

/-! ### Lines -/

variable {p : Lexeme}

/-- The first word of a line with a comment behind it is passed, up to the package. -/
lemma exists_leads_brokenEntry (he : IsEntry (e.map Lexeme.kind)) (hp : p ∈ e.getLast?)
    (hstand : StandAll e r) (hbroken : ∃ l ∈ e.tail, ¬ l.IsBare)
    (hb : Apart b (e.flatMap Lexeme.text ++ r)) :
    ∃ ps b', Leads ⟨[], b, e.flatMap Lexeme.text ++ r⟩ ps ⟨[], b', p.text ++ r⟩ ∧
      (∀ p ∈ ps, p.style ≠ .stray) ∧ Apart b' (p.text ++ r) := by
  rcases isEntry_cases he with ⟨l₁, l₂, rfl, hk₁, -⟩ | ⟨w, -, l₁, l₂, l₃, rfl, hk₁, hk₂, -⟩
  · obtain rfl := Option.some.inj hp
    obtain _ | ⟨h₁, _ | ⟨h₂, -⟩⟩ := hstand
    simp only [List.flatMap_cons, List.flatMap_nil, List.append_nil, List.append_assoc,
      List.nil_append] at h₁ h₂ hb ⊢
    exact exists_leads_brokenWord h₁ h₂ hk₁ (by simpa using hbroken) hb
  · obtain rfl := Option.some.inj hp
    obtain _ | ⟨h₁, _ | ⟨h₂, _ | ⟨h₃, -⟩⟩⟩ := hstand
    simp only [List.flatMap_cons, List.flatMap_nil, List.append_nil, List.append_assoc,
      List.nil_append] at h₁ h₂ h₃ hb ⊢
    refine exists_leads_brokenHeader h₁ h₂ h₃ hk₁ hk₂ (fun hboth => ?_) hb
    simp [hboth] at hbroken

/-- Where the first word of a line is taken, the machine comes to the package. -/
lemma exists_leads_takenEntry (he : IsEntry (e.map Lexeme.kind)) (hp : p ∈ e.getLast?)
    (hstand : StandAll e r) (hb : Apart b (e.tail.flatMap Lexeme.text ++ r)) :
    ∃ ps b', Leads ⟨[], b, e.tail.flatMap Lexeme.text ++ r⟩ ps ⟨[], b', p.text ++ r⟩ ∧
      (∀ p ∈ ps, p.style ≠ .stray) ∧ Apart b' (p.text ++ r) := by
  rcases isEntry_cases he with ⟨l₁, l₂, rfl, -, -⟩ | ⟨w, -, l₁, l₂, l₃, rfl, -, hk₂, -⟩
  · obtain rfl := Option.some.inj hp
    rw [List.tail_cons, List.flatMap_singleton] at hb ⊢
    exact ⟨[], b, .refl _, by simp, hb⟩
  · obtain rfl := Option.some.inj hp
    obtain _ | ⟨-, _ | ⟨h₂, -⟩⟩ := hstand
    simp only [List.tail_cons, List.flatMap_cons, List.flatMap_nil, List.append_nil,
      List.append_assoc] at h₂ hb ⊢
    exact exists_leads_colon h₂ hk₂ hb

/-! ### Rows of lines -/

/-- What stands behind a package begins a line, an annotation or a declaration. -/
lemma isNext_rows (hes : ∀ e ∈ es, IsEntry e)
    (hhead : ∀ k ∈ ks.head?, k = .mark .openAngle ∨ k = .keyword .type) :
    IsNext (es.flatten ++ ks) := by
  cases es with
  | nil =>
    intro k hk
    exact (hhead k hk).imp id fun hk => ⟨.type, by simp, hk⟩
  | cons e es =>
    rcases hes e (by simp) with rfl | ⟨w, hw, rfl⟩
    · rintro k ⟨⟩
      exact .inr ⟨.imports, by simp, rfl⟩
    · rintro k ⟨⟩
      simp only [List.mem_cons, List.not_mem_nil, or_false] at hw
      exact .inr ⟨w, by simpa using hw.elim .inl fun h => .inr (.inl h), rfl⟩

/-- Behind the first word of it there is no dot. -/
lemma ne_dot_rows (hes : ∀ e ∈ es, IsEntry e) (hrow : BodyRow ks)
    (hhead : ∀ k ∈ ks.head?, k = .mark .openAngle ∨ k = .keyword .type) :
    ∀ k ∈ (es.flatten ++ ks).tail.head?, k ≠ .mark .dot := by
  cases es with
  | nil =>
    cases hrow with
    | nil => rintro k ⟨⟩
    | alone hk =>
      rcases hhead _ rfl with rfl | rfl <;> cases hk
    | declared => rintro k ⟨⟩ ⟨⟩
    | field => exact absurd (hhead _ rfl) (by simp)
    | argument hk =>
      rintro k ⟨⟩ rfl
      cases hk
    | annotated => rintro k ⟨⟩ ⟨⟩
  | cons e es =>
    rcases hes e (by simp) with rfl | ⟨w, -, rfl⟩ <;> rintro k ⟨⟩ ⟨⟩

/-- Nothing in the lines and the row behind them is stray just if every token of every annotation is
known, and no segment of a package that is read as code begins with a digit.  The machine stands in
front of the first lexeme, or behind it if it is taken for a package. -/
lemma strayFree_rows (hes : ∀ e ∈ es, IsEntry e) (hrow : BodyRow ks)
    (hhead : ∀ k ∈ ks.head?, k = .mark .openAngle ∨ k = .keyword .type)
    (hks : ls.map Lexeme.kind = es.flatten ++ ks) (hstand : StandAll ls r) (hr : Trivia.Final r) :
    (¬ (Takes front ∧ StartsBare ls) → ∀ b, Apart b (ls.flatMap Lexeme.text ++ r) →
      (Config.StrayFree ⟨[], b, ls.flatMap Lexeme.text ++ r⟩ ↔
        KnownBehind front ls ∧ AnnotationsKnown ls)) ∧
    (Takes front → StartsBare ls → ∀ b, Apart b (ls.tail.flatMap Lexeme.text ++ r) →
      (Config.StrayFree ⟨[], b, ls.tail.flatMap Lexeme.text ++ r⟩ ↔
        KnownBehind front ls ∧ AnnotationsKnown ls)) := by
  induction es generalizing front ls with
  | nil =>
    obtain rfl : ls.map Lexeme.kind = ks := hks
    have hknown : KnownBehind front ls :=
      knownBehind_of_hasLetters front fun l hl hk =>
        absurd hk (hrow.ne_packageName l.kind (List.mem_map_of_mem hl))
    refine ⟨fun _ b hb => ?_, fun _ hstarts b hb => ?_⟩
    · rw [and_iff_right hknown]
      exact strayFree_bodyStands (bodyStands hrow rfl hstand) hr hb
    · obtain ⟨l, hl, -, w, hw⟩ := hstarts
      cases hstand with
      | nil => cases hl
      | @cons l ls _ _ hstand =>
        obtain rfl := Option.some.inj hl
        rw [and_iff_right hknown, annotationsKnown_cons (by simp [hw])]
        rw [List.map_cons, hw] at hrow
        exact strayFree_bodyStands (bodyStands hrow.of_keyword rfl hstand) hr hb
  | cons e es ih =>
    obtain ⟨he, hmore⟩ := List.forall_mem_cons.1 hes
    rw [List.flatten_cons, List.append_assoc] at hks
    obtain ⟨e, ls, rfl, rfl, hls⟩ := List.map_eq_append_iff.1 hks
    obtain ⟨p, hlast, hp, hne⟩ := exists_package_of_isEntry he
    obtain ⟨hstandEntry, hstandBack⟩ := StandAll.append_iff.1 hstand
    have hknown : KnownBehind front (e ++ ls) ∧ AnnotationsKnown (e ++ ls) ↔
        (Overlooked (front ++ e) → p.HasLetters) ∧
          KnownBehind (front ++ e) ls ∧ AnnotationsKnown ls := by
      rw [annotationsKnown_append fun l hl => he.ne_openAngle l.kind (List.mem_map_of_mem hl),
        knownBehind_append he hlast, and_assoc]
    have ih := @ih (front ++ e) ls hmore hls hstandBack
    have htakes (hover : Overlooked (front ++ e)) : Takes (front ++ e) ↔ p.EndsWithImport := by
      rw [Takes, List.getLast?_append_of_ne_nil _ hne, Option.mem_def.1 hlast]
      simp [hover]
    -- what stands from the package on, if that is read as code
    have hpackage (hover : Overlooked (front ++ e)) (b : Option CodePoint)
        (hb : Apart b (p.text ++ (ls.flatMap Lexeme.text ++ r))) :
        Config.StrayFree ⟨[], b, p.text ++ (ls.flatMap Lexeme.text ++ r)⟩ ↔
          KnownBehind front (e ++ ls) ∧ AnnotationsKnown (e ++ ls) := by
      rw [hknown, imp_iff_right hover]
      refine strayFree_overlooked (hstandEntry.last hlast) hp hstandBack hr
        (hls ▸ isNext_rows hmore hhead) (hls ▸ ne_dot_rows hmore hrow hhead) ?_ ?_ hb
      · exact fun hnot => ih.1 fun h => hnot ⟨(htakes hover).1 h.1, h.2⟩
      · exact fun himport => ih.2 ((htakes hover).2 himport)
    rw [List.flatMap_append, List.tail_append_of_ne_nil hne, List.flatMap_append,
      startsBare_append hne]
    simp only [List.append_assoc]
    refine ⟨fun hnot b hb => ?_, fun htaken hstarts b hb => ?_⟩
    · by_cases hbare : ∀ l ∈ e.tail, l.IsBare
      · -- the package is known
        have hover : ¬ Overlooked (front ++ e) := by
          rw [overlooked_append_iff he]
          rintro (⟨l, hl, hbroken⟩ | htaken)
          · exact hbroken (hbare l hl)
          · exact hnot htaken
        obtain ⟨ps, b', hleads, hps, hb'⟩ :=
          exists_leads_bareEntry .endOfInput he hstandEntry hbare hb
        rw [strayFree_iff_of_leads hleads (hps.ne_stray (ne_fault_of_isEntry he)), hknown,
          ih.1 (fun h => hover h.1.1) b' hb']
        exact (and_iff_right fun h => absurd h hover).symm
      · have hbroken : ∃ l ∈ e.tail, ¬ l.IsBare := by simpa using hbare
        obtain ⟨ps, b', hleads, hps, hb'⟩ :=
          exists_leads_brokenEntry he hlast hstandEntry hbroken hb
        rw [strayFree_iff_of_leads hleads hps]
        exact hpackage ((overlooked_append_iff he).2 (.inl hbroken)) b' hb'
    · obtain ⟨ps, b', hleads, hps, hb'⟩ := exists_leads_takenEntry he hlast hstandEntry hb
      rw [strayFree_iff_of_leads hleads hps]
      exact hpackage ((overlooked_append_iff he).2 (.inr ⟨htaken, hstarts⟩)) b' hb'

/-! ### Texts -/

/-- What is stray in a text that holds a module. -/
lemma strayFree_start {t last : Text} {m : Module} (hm : Module.parse t = .ok m)
    (hcut : t.cut = ⟨ls, .clean last⟩) (hascii : ∀ c ∈ t, c.toNat < 0x80) :
    Config.StrayFree (.start t) ↔ PackagesKnown ls ∧ AnnotationsKnown ls := by
  obtain ⟨ts, -, -, hspelled, hkinds⟩ := Module.exists_tokens_of_parse hm
  rw [hcut] at hkinds
  obtain ⟨rfl, hlayout⟩ := Text.cut_eq_clean_iff.1 hcut
  obtain ⟨es, ks, hrows, hes, hrow, hhead⟩ := hspelled.exists_rows
  have hlsAscii : ∀ l ∈ ls, l.kind ≠ .string → ∀ c ∈ l.spelling, c.toNat < 0x80 :=
    fun l hl _ c hc => hascii c <|
      List.mem_append_left _ (List.mem_flatMap.2 ⟨l, hl, List.mem_append_right _ hc⟩)
  have hstand := (standAll_of_laid hlayout.laid
    (ne_underscore_of_trivia hlayout.last.head) hlsAscii).1
  have hnone : ¬ (Takes [] ∧ StartsBare ls) := by
    rintro ⟨⟨hover, -⟩, -⟩
    obtain ⟨l, hl, -⟩ := hover.kind
    cases hl
  exact (strayFree_rows hes hrow hhead (hkinds ▸ hrows) hstand hlayout.last).1 hnone none
    (.inl (by simp))

end Highlight

open Highlight

namespace Text

variable {s w : Text} {m : Module}

/-- A text in ASCII that holds a module, and keeps its tokens with plain line breaks, is highlighted
with nothing stray just if this holds: no segment begins with a digit in a package that is read as
code, since there is a comment in its line or since the word in front of it is taken for a package;
and an annotation holds no comments, or has one in front of its name and no values. -/
theorem strayFree_highlight_iff (hascii : ∀ c ∈ s, c.toNat < 0x80) (hm : Module.parse s = .ok m)
    (hwords : (prepared s).tokens.map Token.word = s.tokens.map Token.word) :
    (∀ p ∈ s.highlight, p.style ≠ .stray) ↔
      PackagesKnown (prepared s).cut.lexemes ∧ AnnotationsKnown (prepared s).cut.lexemes := by
  obtain ⟨m', hm'⟩ : ∃ m', Module.parse (prepared s) = .ok m' := by
    have hread := Module.readAlike_of_words hwords
    rw [hm] at hread
    cases h : Module.parse (prepared s) with
    | ok m' => exact ⟨m', rfl⟩
    | error e =>
      rw [h] at hread
      exact hread.elim
  rcases hcut : (prepared s).cut with ⟨ls, last | _⟩
  · refine strayFree_start hm' hcut fun c hc => ?_
    rcases mem_of_mem_prepared hc with hc | rfl
    · exact hascii c hc
    · decide
  · exact absurd hm' (Module.parse_ne_ok_of_fault (congrArg Cutting.ending hcut) m')

/-! ### A text with an annotation -/

/-- The lexemes of an annotation, up to its name, behind the lines of two packages. -/
def noteLexemes : List Lexeme := [⟨[], .keyword .scala, "scala", "scala"⟩,
  ⟨[], .mark .colon, ":", ":"⟩, ⟨[], .packageName, "a", "a"⟩, ⟨" ", .keyword .purs, "purs", "purs"⟩,
  ⟨[], .mark .colon, ":", ":"⟩, ⟨[], .packageName, "b", "b"⟩, ⟨"/**/", .mark .openAngle, "<", "<"⟩,
  ⟨[], .lowerName, "x", "x"⟩]

/-- The end of the annotation, behind trivia. -/
def noteEnd (w : Text) : Lexeme := ⟨w, .mark .closeAngle, ">", ">"⟩

/-- A comment in front of the annotation, and trivia in front of its end. -/
def noteSource (w : Text) : Text := "scala:a purs:b/**/<x" ++ (w ++ ">\n")

lemma complete_comment : Trivia.Complete "/**/" := .block .mark .nil

lemma cut_noteSource (hw : Trivia.Complete w) :
    (noteSource w).cut = ⟨noteLexemes ++ [noteEnd w], .clean "\n"⟩ := by
  have hfront : Laid .ordinary noteLexemes [] :=
    .cons .nil (.keyword .scala) (by decide) (by decide) <|
    .cons .nil (.mark .colon) (by decide) (by decide) <|
    .cons .nil (.packageName (by decide)) (by decide) (by decide) <|
    .cons (.blank (by decide) .nil) (.keyword .purs) (by decide) (by decide) <|
    .cons .nil (.mark .colon) (by decide) (by decide) <|
    .cons .nil (.packageName (by decide)) (by decide) (by decide) <|
    .cons complete_comment (.mark .openAngle) (by decide) (by decide) <|
    .cons .nil (.lowerName (by decide)) (by decide) (by decide) .nil
  have hend : Laid .ordinary [noteEnd w] "\n" :=
    .cons hw (.mark .closeAngle) (by simp [noteEnd]) (fun _ _ => rfl) .nil
  have hlaid : Laid .ordinary (noteLexemes ++ [noteEnd w]) "\n" := by
    refine Laid.append_iff.2 ⟨hfront.congr fun k _ => ?_, hend⟩
    rw [List.flatMap_singleton,
      stopsAt_text_append_iff (l := noteEnd w) hw (.mark .closeAngle)]
    rintro - c ⟨⟩
    cases k <;> rfl
  exact cut_eq_clean_iff.2 ⟨by simp [noteSource, noteLexemes, noteEnd, Lexeme.text, ofString],
    hlaid.layout (.inl (.blank (by decide) .nil))⟩

lemma exists_parse_noteSource (hw : Trivia.Complete w) :
    ∃ m, Module.parse (noteSource w) = .ok m := by
  let m : Module := ⟨[], ⟨"a", "b", []⟩, [], [⟨"x", default, []⟩], []⟩
  have hnote : Annotation.WellFormed ⟨"x", default, []⟩ := ⟨by decide, by simp⟩
  have hwell : m.WellFormed := ⟨by decide, by decide, by simp [m], by simpa [m], by simp [m]⟩
  have hwords : (noteSource w).wordsFrom .ordinary = some m.words := by
    rw [wordsFrom, ← cut, cut_noteSource hw]
    rfl
  obtain ⟨read, hread, -⟩ :=
    Module.exists_parse_of_wordsFrom hwell (by simp [m, Module.NestedWithin]) hwords
  exact ⟨read, hread⟩

/-- The packages are known, and the annotation is if there are only blanks in front of its end. -/
lemma known_noteSource (w : Text) : PackagesKnown (noteLexemes ++ [noteEnd w]) ∧
    (AnnotationsKnown (noteLexemes ++ [noteEnd w]) ↔ ∀ c ∈ w, c.isBlank) := by
  constructor
  · have hletters : ∀ l ∈ noteLexemes, l.kind = .packageName → l.HasLetters := by decide
    refine knownBehind_of_hasLetters [] (List.forall_mem_append.2 ⟨hletters, ?_⟩)
    simp [noteEnd]
  · have hnote : IsAnnotation ⟨"/**/", .mark .openAngle, "<", "<"⟩ ⟨[], .lowerName, "x", "x"⟩ []
        (noteEnd w) := ⟨rfl, rfl, by simp, rfl⟩
    show AnnotationsKnown (noteLexemes.take 6 ++ _) ↔ _
    rw [annotationsKnown_append (by decide)]
    refine (annotationsKnown_front hnote (by simp)).trans ?_
    simp [annotationsKnown_nil, KnownInside, Lexeme.IsBare, noteEnd]

/-- The machine knows the comment in front of the annotation. -/
theorem strayFree_highlight_note :
    let _ : Machine := .usual
    (∀ c ∈ noteSource [], c.toNat < 0x80) ∧ (∃ m, Module.parse (noteSource []) = .ok m) ∧
      (prepared (noteSource [])).tokens.map Token.word = (noteSource []).tokens.map Token.word ∧
      ∀ p ∈ (noteSource []).highlight, p.style ≠ .stray := by
  intro _
  have hcut := cut_noteSource .nil
  have hprepared : prepared (noteSource []) = noteSource [] := by decide
  obtain ⟨m, hm⟩ := exists_parse_noteSource .nil
  have hascii : ∀ c ∈ noteSource [], c.toNat < 0x80 := by decide
  have hwords := words_prepared hcut (returnsPaired_of_not_mem (by decide)) (by decide)
  obtain ⟨hpackages, hnotes⟩ := known_noteSource []
  refine ⟨hascii, ⟨m, hm⟩, hwords, (strayFree_highlight_iff hascii hm hwords).2 ?_⟩
  rw [hprepared, hcut]
  exact ⟨hpackages, hnotes.2 (by simp)⟩

/-- It knows no comment behind the name of the annotation, though the text holds a module. -/
theorem stray_highlight_note :
    let _ : Machine := .usual
    (∀ c ∈ noteSource "/**/", c.toNat < 0x80) ∧ (∃ m, Module.parse (noteSource "/**/") = .ok m) ∧
      ∃ p ∈ (noteSource "/**/").highlight, p.style = .stray := by
  intro _
  have hcut := cut_noteSource complete_comment
  have hprepared : prepared (noteSource "/**/") = noteSource "/**/" := by decide
  obtain ⟨m, hm⟩ := exists_parse_noteSource complete_comment
  have hascii : ∀ c ∈ noteSource "/**/", c.toNat < 0x80 := by decide
  refine ⟨hascii, ⟨m, hm⟩, ?_⟩
  by_contra hnone
  have hfree : Config.StrayFree (.start (prepared (noteSource "/**/"))) :=
    fun p hp hstyle => hnone ⟨p, hp, hstyle⟩
  rw [hprepared, strayFree_start hm hcut hascii, (known_noteSource _).2] at hfree
  exact absurd hfree.2 (by decide)

end Text

end Idl
