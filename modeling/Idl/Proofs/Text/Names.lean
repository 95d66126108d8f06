/-
# Names

Which texts are names of types, names of fields, and dotted names.  A dotted name is cut at its
dots; that cutting undoes joining is shown in `pieces_join` and `join_pieces`.
-/
import Idl.Proofs.Text.Classes
import Idl.Token

namespace Idl

namespace Text

/-- A name whose first letter is of a class: letters and numerals behind that letter, and not a
reserved word. -/
def IsName (start : CodePoint → Bool) : Text → Prop
  | [] => False
  | c :: r => c.isLetter ∧ start c ∧ (∀ x ∈ r, x.isAlphanumeric) ∧ Keyword.ofText? (c :: r) = none

/-- A name for a field, an annotation or a parameter. -/
def IsLowerName : Text → Prop := IsName CodePoint.isLowercase

/-- A name for a declaration, a variant or a segment of a reference. -/
def IsUpperName : Text → Prop := IsName CodePoint.isUppercase

/-- A segment of a package name. -/
def IsSegment (t : Text) : Prop := t ≠ [] ∧ ∀ c ∈ t, c.isAlphanumeric

/-- A text whose pieces between the dots are all of a sort. -/
def Dotted (P : Text → Prop) (t : Text) : Prop := ∀ s ∈ pieces '.' t, P s

/-- A package name. -/
def IsPackageName : Text → Prop := Dotted IsSegment

instance (start : CodePoint → Bool) : DecidablePred (IsName start)
  | [] => inferInstanceAs (Decidable False)
  | c :: r => inferInstanceAs (Decidable (c.isLetter ∧ start c ∧ (∀ x ∈ r, x.isAlphanumeric) ∧
      Keyword.ofText? (c :: r) = none))

instance : DecidablePred IsLowerName := inferInstanceAs (DecidablePred (IsName _))

instance : DecidablePred IsUpperName := inferInstanceAs (DecidablePred (IsName _))

instance : DecidablePred IsSegment := fun t =>
  inferInstanceAs (Decidable (t ≠ [] ∧ ∀ c ∈ t, c.isAlphanumeric))

instance (P : Text → Prop) [DecidablePred P] : DecidablePred (Dotted P) := fun t =>
  inferInstanceAs (Decidable (∀ s ∈ pieces '.' t, P s))

instance : DecidablePred IsPackageName := inferInstanceAs (DecidablePred (Dotted _))

/-! ### Pieces -/

variable {sep c : CodePoint} {t s : Text} {ss : List Text} {P : Text → Prop}

lemma pieces_ne_nil (sep : CodePoint) (t : Text) : pieces sep t ≠ [] := by
  cases t with
  | nil => simp [pieces]
  | cons c r =>
    rw [pieces]
    split
    · simp
    · split <;> simp

lemma pieces_cons_sep (sep : CodePoint) (r : Text) :
    pieces sep (sep :: r) = [] :: pieces sep r := by
  rw [pieces, if_pos rfl]

lemma pieces_cons_of_ne {r w : Text} {ws : List Text} (hc : c ≠ sep)
    (h : pieces sep r = w :: ws) : pieces sep (c :: r) = (c :: w) :: ws := by
  rw [pieces, if_neg hc, h]

lemma join_cons (sep t : Text) (ts : List Text) :
    join sep (t :: ts) = t ++ ts.flatMap (sep ++ ·) := by
  induction ts generalizing t with
  | nil => simp [join]
  | cons u us ih => rw [join, ih, List.flatMap_cons, List.append_assoc] <;> simp

lemma join_cons_ne_nil (h : t ≠ []) (sep : Text) (ts : List Text) : join sep (t :: ts) ≠ [] := by
  rw [join_cons]
  exact List.append_ne_nil_of_left_ne_nil h _

lemma join_append (sep t : Text) (ts : List Text) {us : List Text} (hus : us ≠ []) :
    join sep (t :: ts ++ us) = join sep (t :: ts) ++ sep ++ join sep us := by
  obtain ⟨u, us, rfl⟩ := List.exists_cons_of_ne_nil hus
  rw [List.cons_append, join_cons, join_cons, join_cons, List.flatMap_append, List.flatMap_cons]
  simp only [List.append_assoc]

/-- Joining undoes cutting. -/
lemma join_pieces (sep : CodePoint) (t : Text) : join [sep] (pieces sep t) = t := by
  induction t with
  | nil => rfl
  | cons c r ih =>
    obtain ⟨w, ws, h⟩ := List.exists_cons_of_ne_nil (pieces_ne_nil sep r)
    by_cases hc : c = sep
    · subst hc
      rw [pieces_cons_sep, h, join_cons, List.flatMap_cons, List.nil_append, List.append_assoc,
        ← join_cons, ← h, ih]
      rfl
    · rw [pieces_cons_of_ne hc h, join_cons, List.cons_append, ← join_cons, ← h, ih]

/-- Cutting undoes joining, if the separator stands in none of the parts. -/
lemma pieces_join (hne : ss ≠ []) (hsep : ∀ s ∈ ss, sep ∉ s) : pieces sep (join [sep] ss) = ss := by
  have hfront : ∀ {u v : Text} {ws : List Text}, sep ∉ u → pieces sep v = [] :: ws →
      pieces sep (u ++ v) = u :: ws := by
    intro u v ws hu hv
    induction u with
    | nil => exact hv
    | cons c u ih =>
      have hc : c ≠ sep := fun h => hu (h ▸ List.mem_cons_self)
      exact pieces_cons_of_ne hc (ih fun h => hu (List.mem_cons_of_mem c h))
  obtain ⟨s, ss, rfl⟩ := List.exists_cons_of_ne_nil hne
  induction ss generalizing s with
  | nil =>
    have hlast : pieces sep [] = [[]] := rfl
    have hone := hfront (hsep s (by simp)) hlast
    rwa [List.append_nil] at hone
  | cons u us ih =>
    have hrest := ih u (by simp) fun x hx => hsep x (List.mem_cons_of_mem s hx)
    rw [join_cons, List.flatMap_cons, List.append_assoc, ← join_cons]
    refine hfront (hsep s (by simp)) ?_
    rw [List.singleton_append, pieces_cons_sep, hrest]

/-- The code points of a piece are those of the text, without the separator. -/
lemma mem_of_mem_pieces (hs : s ∈ pieces sep t) (hc : c ∈ s) : c ∈ t ∧ c ≠ sep := by
  induction t generalizing s with
  | nil =>
    obtain rfl : s = [] := by simpa [pieces] using hs
    cases hc
  | cons d r ih =>
    obtain ⟨w, ws, h⟩ := List.exists_cons_of_ne_nil (pieces_ne_nil sep r)
    by_cases hd : d = sep
    · subst hd
      rw [pieces_cons_sep, List.mem_cons] at hs
      rcases hs with rfl | hs
      · cases hc
      · exact ⟨List.mem_cons_of_mem d (ih hs hc).1, (ih hs hc).2⟩
    · rw [pieces_cons_of_ne hd h, List.mem_cons] at hs
      rw [h] at ih
      rcases hs with rfl | hs
      · rcases List.mem_cons.1 hc with rfl | hc
        · exact ⟨List.mem_cons_self, hd⟩
        · obtain ⟨hr, hne⟩ := ih (by simp) hc
          exact ⟨List.mem_cons_of_mem d hr, hne⟩
      · obtain ⟨hr, hne⟩ := ih (List.mem_cons_of_mem w hs) hc
        exact ⟨List.mem_cons_of_mem d hr, hne⟩

lemma mem_of_mem_join (hc : c ∈ join [sep] ss) : c = sep ∨ ∃ s ∈ ss, c ∈ s := by
  cases ss with
  | nil => cases hc
  | cons s ss =>
    rw [join_cons, List.mem_append, List.mem_flatMap] at hc
    rcases hc with hc | ⟨u, hu, hc⟩
    · exact .inr ⟨s, by simp, hc⟩
    · rcases List.mem_cons.1 hc with rfl | hc
      · exact .inl rfl
      · exact .inr ⟨u, List.mem_cons_of_mem s hu, hc⟩

/-! ### Names -/

lemma IsName.isAlphanumeric {start : CodePoint → Bool} (h : t.IsName start) :
    ∀ c ∈ t, c.isAlphanumeric := by
  cases t with
  | nil => cases h
  | cons d r =>
    obtain ⟨hletter, -, hrest, -⟩ := h
    intro c hc
    rcases List.mem_cons.1 hc with rfl | hc
    · exact CodePoint.isAlphanumeric_of_isLetter hletter
    · exact hrest c hc

lemma dot_not_mem (h : ∀ c ∈ t, c.isAlphanumeric) : (('.' : Char) : CodePoint) ∉ t := by
  intro hdot
  exact absurd (h _ hdot) (by decide)

/-- The parts that make up a dotted name are its pieces. -/
lemma dotted_join (hne : ss ≠ []) (hP : ∀ s ∈ ss, P s)
    (hdot : ∀ s, P s → ∀ c ∈ s, c.isAlphanumeric) :
    (join "." ss).Dotted P := by
  have h : pieces '.' (join "." ss) = ss :=
    pieces_join hne fun s hs => dot_not_mem (hdot s (hP s hs))
  rwa [Dotted, h]

end Text

end Idl
