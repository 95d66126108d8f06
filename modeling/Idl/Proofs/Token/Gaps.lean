/-
# Gaps

Which texts may stand between tokens, told without a reader: blanks, line comments with their
line break, and block comments, which nest.  At the end of a text a line comment may lack its
line break.

* `Trivia.skip_append` – complete trivia in front of a text are skipped, whatever follows.
* `Trivia.complete_or_final_of_skip` – what is skipped is trivia.
-/
import Idl.Token.Trivia
import Mathlib.Tactic.Common

namespace Idl

namespace Trivia

/-- A code point inside a block comment that, with what follows it, neither opens nor closes a
comment. -/
def Inner (c : CodePoint) (t : Text) : Prop :=
  ¬ (c = '/' ∧ t.head? = some (.scalar '*')) ∧ ¬ (c = '*' ∧ t.head? = some (.scalar '/'))

/-- A text that closes one open block comment: the closing mark, behind code points and complete
comments inside. -/
inductive Closes : Text → Prop
  /-- The closing mark. -/
  | mark : Closes [.scalar '*', .scalar '/']
  /-- A code point inside the comment. -/
  | point {c : CodePoint} {t : Text} (hc : Inner c t) (ht : Closes t) : Closes (c :: t)
  /-- A comment inside the comment. -/
  | nested {t u : Text} (ht : Closes t) (hu : Closes u) :
      Closes (.scalar '/' :: .scalar '*' :: (t ++ u))

/-- A text of blanks and of comments that are complete. -/
inductive Complete : Text → Prop
  /-- Nothing at all. -/
  | nil : Complete []
  /-- A blank. -/
  | blank {c : CodePoint} {t : Text} (hc : c.isBlank) (ht : Complete t) : Complete (c :: t)
  /-- A line comment with its line break. -/
  | line {body t : Text} (hbody : .scalar '\n' ∉ body) (ht : Complete t) :
      Complete (.scalar '/' :: .scalar '/' :: (body ++ .scalar '\n' :: t))
  /-- A block comment. -/
  | block {body t : Text} (hbody : Closes body) (ht : Complete t) :
      Complete (.scalar '/' :: .scalar '*' :: (body ++ t))

/-- Trivia up to the end of a text, where a line comment may lack its line break. -/
def Final (w : Text) : Prop :=
  Complete w ∨ ∃ t body : Text, Complete t ∧ .scalar '\n' ∉ body ∧
    w = t ++ .scalar '/' :: .scalar '/' :: body

variable {c : CodePoint} {body r rest s t u v w : Text}

/-! ### Block comments -/

lemma Closes.ne_nil (h : Closes t) : t ≠ [] := by
  cases h <;> simp

/-- Behind a text that closes one comment, the comments around it are still to be closed. -/
lemma Closes.closeBlock_append (h : Closes t) (outer : Nat) (r : Text) :
    closeBlock outer (t ++ r) = match outer with
      | 0 => some (t, r)
      | outer + 1 => (closeBlock outer r).map fun p => (t ++ p.1, p.2) := by
  induction h generalizing outer r with
  | mark => cases outer <;> rfl
  | @point c t hc ht ih =>
    obtain ⟨d, t, rfl⟩ := List.exists_cons_of_ne_nil ht.ne_nil
    obtain ⟨hopen, hclose⟩ := hc
    rw [List.head?_cons, Option.some.injEq] at hopen hclose
    have hstep : closeBlock outer (c :: d :: t ++ r) =
        (closeBlock outer (d :: t ++ r)).map fun p => (c :: p.1, p.2) := by
      rw [closeBlock.eq_def]
      simp only [List.cons_append, if_neg hopen, if_neg hclose]
    rw [hstep, ih]
    cases outer <;> simp [Function.comp_def]
  | @nested t u ht hu iht ihu =>
    have hopen : closeBlock outer (.scalar '/' :: .scalar '*' :: (t ++ u) ++ r) =
        (closeBlock (outer + 1) (t ++ (u ++ r))).map
          fun p => (.scalar '/' :: .scalar '*' :: p.1, p.2) := by
      rw [closeBlock.eq_def]
      simp only [List.cons_append, and_self, if_true, List.append_assoc]
    rw [hopen, iht]
    simp only [ihu]
    cases outer <;> simp [Function.comp_def]

/-- What is cut off behind the end of a block comment closes all comments that are open. -/
lemma closes_of_closeBlock {outer : Nat} (h : closeBlock outer s = some (body, rest)) :
    ∃ ts : List Text, ts.length = outer + 1 ∧ (∀ t ∈ ts, Closes t) ∧ ts.flatten = body := by
  fun_induction closeBlock outer s generalizing body rest with
  | case1 | case2 => cases h
  | case3 outer c d r hcd ih =>
    obtain ⟨rfl, rfl⟩ := hcd
    simp only [Option.map_eq_some_iff, Prod.exists, Prod.mk.injEq] at h
    obtain ⟨b, t, h, rfl, rfl⟩ := h
    obtain ⟨ts, hlength, hts, rfl⟩ := ih h
    rcases ts with _ | ⟨t₁, _ | ⟨t₂, ts⟩⟩
    · simp at hlength
    · simp at hlength
    · -- the first text closes the comment that has just been opened
      have hnested := Closes.nested (hts t₁ (by simp)) (hts t₂ (by simp))
      refine ⟨(.scalar '/' :: .scalar '*' :: (t₁ ++ t₂)) :: ts, by simpa using hlength, ?_,
        by simp⟩
      exact List.forall_mem_cons.2 ⟨hnested, fun t ht => hts t (by simp [ht])⟩
  | case4 c d r _ hcd =>
    obtain ⟨rfl, rfl⟩ := hcd
    cases h
    exact ⟨[_], rfl, by simpa using Closes.mark, rfl⟩
  | case5 c d r _ hcd outer ih =>
    obtain ⟨rfl, rfl⟩ := hcd
    simp only [Option.map_eq_some_iff, Prod.exists, Prod.mk.injEq] at h
    obtain ⟨b, t, h, rfl, rfl⟩ := h
    obtain ⟨ts, hlength, hts, rfl⟩ := ih h
    exact ⟨_ :: ts, by simp [hlength], List.forall_mem_cons.2 ⟨Closes.mark, hts⟩, rfl⟩
  | case6 outer c d r hopen hclose ih =>
    simp only [Option.map_eq_some_iff, Prod.exists, Prod.mk.injEq] at h
    obtain ⟨b, t, h, rfl, rfl⟩ := h
    obtain ⟨ts, hlength, hts, rfl⟩ := ih h
    rcases ts with _ | ⟨t₁, ts⟩
    · simp at hlength
    · obtain ⟨e, t₁, rfl⟩ := List.exists_cons_of_ne_nil (hts t₁ (by simp)).ne_nil
      obtain rfl : d = e := by
        simpa using congrArg List.head? (closeBlock_eq_append h)
      have hinner : Inner c (d :: t₁) := ⟨by simpa using hopen, by simpa using hclose⟩
      refine ⟨(c :: d :: t₁) :: ts, hlength, ?_, by simp⟩
      exact List.forall_mem_cons.2
        ⟨.point hinner (hts _ (by simp)), fun t ht => hts t (by simp [ht])⟩

/-- A block comment ends where its opening mark is closed. -/
lemma closeBlock_eq_some_iff :
    closeBlock 0 s = some (body, rest) ↔ s = body ++ rest ∧ Closes body := by
  constructor
  · intro h
    obtain ⟨ts, hlength, hts, rfl⟩ := closes_of_closeBlock h
    obtain ⟨t, rfl⟩ := List.length_eq_one_iff.1 hlength
    exact ⟨closeBlock_eq_append h, by simpa using hts⟩
  · rintro ⟨rfl, h⟩
    exact h.closeBlock_append 0 rest

/-! ### Skipping -/

lemma prepend_prepend (u v : Text) (k : Skip) : (k.prepend v).prepend u = k.prepend (u ++ v) := by
  cases k <;> simp [Skip.prepend]

lemma prepend_nil (k : Skip) : k.prepend [] = k := by
  cases k <;> rfl

lemma skip_of_none (h : first s = .none) : skip s = .clear [] s := by
  rw [skip]
  split <;> rename_i h' <;> rw [h] at h' <;> cases h'

lemma skip_of_piece (h : first s = .piece w rest) : skip s = (skip rest).prepend w := by
  rw [skip]
  split <;> rename_i h' <;> rw [h] at h' <;> cases h'
  rfl

lemma first_blank (hc : c.isBlank) : first (c :: r) = .piece [c] r := by
  rw [first.eq_def]
  simp only [hc, if_true]

lemma not_isBlank_slash : CodePoint.isBlank (.scalar '/') = false := by decide

/-- A line comment reaches up to the next line break. -/
lemma first_line (hbody : .scalar '\n' ∉ body) (hr : ∀ d ∈ r.head?, d = .scalar '\n') :
    first (.scalar '/' :: .scalar '/' :: (body ++ r)) =
      .piece (.scalar '/' :: .scalar '/' :: body) r := by
  have hall : ∀ d ∈ body, (d != CodePoint.scalar '\n') = true := by
    intro d hd
    have hne : d ≠ CodePoint.scalar '\n' := fun h => hbody (h ▸ hd)
    simpa using hne
  have hstop : r.takeWhile (· != CodePoint.scalar '\n') = [] ∧
      r.dropWhile (· != CodePoint.scalar '\n') = r := by
    cases r with
    | nil => exact ⟨rfl, rfl⟩
    | cons d r =>
      obtain rfl := hr d rfl
      simp
  rw [first.eq_def]
  simp only [not_isBlank_slash, Bool.false_eq_true, if_false, if_true,
    List.takeWhile_append_of_pos hall, List.dropWhile_append_of_pos hall, hstop, List.append_nil]

lemma first_block (hbody : Closes body) (r : Text) :
    first (.scalar '/' :: .scalar '*' :: (body ++ r)) =
      .piece (.scalar '/' :: .scalar '*' :: body) r := by
  have hne : ¬ CodePoint.scalar '*' = .scalar '/' := by decide
  have hclose : closeBlock 0 (body ++ r) = some (body, r) :=
    closeBlock_eq_some_iff.2 ⟨rfl, hbody⟩
  rw [first.eq_def]
  simp only [not_isBlank_slash, Bool.false_eq_true, if_false, if_true, hne, hclose]

/-- Complete trivia in front of a text are skipped, whatever follows. -/
lemma skip_append (hw : Complete w) (r : Text) : skip (w ++ r) = (skip r).prepend w := by
  induction hw with
  | nil => exact (prepend_nil _).symm
  | blank hc _ ih =>
    rw [List.cons_append, skip_of_piece (first_blank hc), ih, prepend_prepend]
    rfl
  | @line body t hbody _ ih =>
    have hbreak : CodePoint.isBlank (.scalar '\n') = true := by decide
    have hline := first_line hbody (r := .scalar '\n' :: (t ++ r)) (by simp)
    simp only [List.cons_append, List.append_assoc]
    rw [skip_of_piece hline, skip_of_piece (first_blank hbreak), ih, prepend_prepend,
      prepend_prepend]
    simp
  | @block body t hbody _ ih =>
    simp only [List.cons_append, List.append_assoc]
    rw [skip_of_piece (first_block hbody _), ih, prepend_prepend]
    simp

lemma skip_nil : skip [] = .clear [] [] := skip_of_none rfl

/-- Trivia up to the end of a text are skipped. -/
lemma skip_final (hw : Final w) : skip w = .clear w [] := by
  rcases hw with hw | ⟨t, body, ht, hbody, rfl⟩
  · simpa [skip_nil, Skip.prepend] using skip_append hw []
  · have hline := first_line hbody (r := []) (by simp)
    rw [List.append_nil] at hline
    rw [skip_append ht, skip_of_piece hline, skip_nil]
    simp [Skip.prepend]

/-! ### What is skipped -/

lemma Complete.head (hw : Complete w) : ∀ c ∈ w.head?, c.isBlank ∨ c = .scalar '/' := by
  intro c hc
  cases hw with
  | nil => cases hc
  | blank hblank _ =>
    obtain rfl := Option.some.inj hc
    exact .inl hblank
  | line | block =>
    obtain rfl := Option.some.inj hc
    exact .inr rfl

lemma Final.head (hw : Final w) : ∀ c ∈ w.head?, c.isBlank ∨ c = .scalar '/' := by
  rcases hw with hw | ⟨t, body, ht, -, rfl⟩
  · exact hw.head
  · intro c hc
    cases t with
    | nil =>
      obtain rfl := Option.some.inj hc
      exact .inr rfl
    | cons d t => exact ht.head c hc

lemma Complete.append (hv : Complete v) (hw : Complete w) : Complete (v ++ w) := by
  induction hv with
  | nil => exact hw
  | blank hc _ ih => exact .blank hc ih
  | line hbody _ ih => simpa using Complete.line hbody ih
  | block hbody _ ih => simpa using Complete.block hbody ih

lemma Complete.append_final (hv : Complete v) (hw : Final w) : Final (v ++ w) := by
  rcases hw with hw | ⟨t, body, ht, hbody, rfl⟩
  · exact .inl (hv.append hw)
  · exact .inr ⟨v ++ t, body, hv.append ht, hbody, by simp⟩

/-- A line comment may stand in front of complete trivia that begin with a line break. -/
lemma complete_line_append (hbody : .scalar '\n' ∉ body) (ht : Complete t)
    (hbreak : t.head? = some (.scalar '\n')) :
    Complete (.scalar '/' :: .scalar '/' :: body ++ t) := by
  cases ht with
  | nil => cases hbreak
  | blank _ ht =>
    obtain rfl := Option.some.inj hbreak
    exact .line hbody ht
  | line | block => exact absurd hbreak (by simp)

/-- The pieces of trivia are blanks, line comments without the line break, and block comments. -/
lemma first_cases (h : first s = .piece w rest) :
    (∃ c, c.isBlank ∧ w = [c]) ∨
    (∃ body, .scalar '\n' ∉ body ∧ w = .scalar '/' :: .scalar '/' :: body ∧
      ∀ d ∈ rest.head?, d = .scalar '\n') ∨
    ∃ body, Closes body ∧ w = .scalar '/' :: .scalar '*' :: body := by
  unfold first at h
  split at h
  · cases h
  split at h
  · next hc => cases h; exact .inl ⟨_, hc, rfl⟩
  split at h
  · next hc =>
    subst hc
    split at h
    · cases h
    split at h
    · next r hd =>
      subst hd
      cases h
      refine .inr (.inl ⟨_, fun hmem => ?_, rfl, fun d hd => ?_⟩)
      · simpa using (List.all_eq_true.1 List.all_takeWhile) _ hmem
      · have hstop := List.head?_dropWhile_not (· != CodePoint.scalar '\n') r
        rw [Option.mem_def.1 hd] at hstop
        simpa using hstop
    split at h
    · next hd =>
      subst hd
      split at h
      · next hb => cases h; exact .inr (.inr ⟨_, (closeBlock_eq_some_iff.1 hb).2, rfl⟩)
      · cases h
    · cases h
  · cases h

/-- What is skipped is complete, unless it reaches up to the end of the text. -/
lemma complete_or_final_of_skip (h : skip s = .clear w rest) :
    Complete w ∨ rest = [] ∧ Final w := by
  fun_induction skip s generalizing w rest with
  | case1 s _ => cases h; exact .inl .nil
  | case2 s _ => cases h
  | case3 s v r hfirst ih =>
    obtain ⟨u, rfl, hr⟩ : ∃ u, w = v ++ u ∧ skip r = .clear u rest := by
      cases hr : skip r with
      | clear u rest' => rw [hr] at h; cases h; exact ⟨u, rfl, rfl⟩
      | unclosed => rw [hr] at h; cases h
    have hu := ih hr
    rcases first_cases hfirst with ⟨c, hc, rfl⟩ | ⟨body, hbody, rfl, hbreak⟩ | ⟨body, hbody, rfl⟩
    · have hv : Complete [c] := .blank hc .nil
      exact hu.imp hv.append (And.imp_right hv.append_final)
    · cases r with
      | nil =>
        rw [skip_nil] at hr
        cases hr
        exact .inr ⟨rfl, .inr ⟨[], body, .nil, hbody, by simp⟩⟩
      | cons d r =>
        -- the line break behind the comment is the first of the blanks that are skipped next
        obtain rfl := hbreak d rfl
        have hhead : u.head? = some (.scalar '\n') := by
          rw [skip_of_piece (first_blank (by decide))] at hr
          cases hskip : skip r <;> rw [hskip] at hr <;> cases hr
          rfl
        rcases hu with hu | ⟨hrest, hu | ⟨t, body', ht, hbody', rfl⟩⟩
        · exact .inl (complete_line_append hbody hu hhead)
        · exact .inl (complete_line_append hbody hu hhead)
        · refine .inr ⟨hrest, .inr ⟨_, body', complete_line_append hbody ht ?_, hbody', by simp⟩⟩
          rcases t with _ | ⟨d, t⟩
          · exact absurd hhead (by simp)
          · simpa using hhead
    · have hv : Complete (.scalar '/' :: .scalar '*' :: body) := by
        simpa using Complete.block hbody .nil
      exact hu.imp hv.append (And.imp_right hv.append_final)

end Trivia

end Idl
