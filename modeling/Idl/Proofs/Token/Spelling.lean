/-
# Texts that spell words

A text spells words if it holds them wherever it stands in front of something that does not
continue its last name.  Such texts are put together with `Text.Spells.behind`,
`Text.Spells.separated` and `Text.spells_join`; names, reserved words, literals and the lines of
the header are what they are made of.
-/
import Idl.Proofs.Token.Words
import Mathlib.Data.List.Forall2

namespace Idl

/-- The word of a code point that is a punctuation mark. -/
def CodePoint.markWord? (c : CodePoint) : Option Word := (Mark.ofCodePoint? c).map Mark.word

/-- Whether a code point is a blank or a punctuation mark. -/
def CodePoint.isSign (c : CodePoint) : Bool := c.isBlank || (Mark.ofCodePoint? c).isSome

namespace Text

/-- The text consists of blanks and punctuation marks, which have these words. -/
def Signs (u : Text) (vs : List Word) : Prop :=
  (∀ c ∈ u, c.isSign) ∧ u.filterMap CodePoint.markWord? = vs

instance (u : Text) (vs : List Word) : Decidable (Signs u vs) :=
  inferInstanceAs (Decidable ((∀ c ∈ u, c.isSign) ∧ u.filterMap CodePoint.markWord? = vs))

/-- The text holds the words, wherever it stands in an ordinary context and no code point of a
class follows. -/
def Spells (p : CodePoint → Bool) (t : Text) (ws : List Word) : Prop :=
  ∀ r : Text, r.StopsAt p →
    wordsFrom .ordinary (t ++ r) = (wordsFrom .ordinary r).map (ws ++ ·)

/-- The text consists of blanks and punctuation marks, and continues no name. -/
structure Separator (p : CodePoint → Bool) (u : Text) (vs : List Word) : Prop where
  signs : Signs u vs
  stops : StopsAt p u
  nonempty : u ≠ []

instance (p : CodePoint → Bool) (u : Text) (vs : List Word) : Decidable (Separator p u vs) :=
  decidable_of_iff (Signs u vs ∧ StopsAt p u ∧ u ≠ [])
    ⟨fun ⟨h₁, h₂, h₃⟩ => ⟨h₁, h₂, h₃⟩, fun ⟨h₁, h₂, h₃⟩ => ⟨h₁, h₂, h₃⟩⟩

variable {p : CodePoint → Bool} {c : CodePoint} {r s t u : Text} {ts : List Text}
  {us vs ws : List Word} {wss : List (List Word)}

/-! ### What follows -/

lemma stopsAt_cons (h : p c = false) (t : Text) : StopsAt p (c :: t) := by
  intro d hd
  obtain rfl : c = d := by simpa using hd
  exact h

lemma StopsAt.append (hs : s.StopsAt p) (ht : t.StopsAt p) : (s ++ t).StopsAt p := by
  cases s with
  | nil => exact ht
  | cons c s => exact hs

lemma Separator.stopsAt (hu : Separator p u vs) (t : Text) : (u ++ t).StopsAt p := by
  obtain ⟨-, hstops, hne⟩ := hu
  cases u with
  | nil => exact absurd rfl hne
  | cons c u => exact hstops

lemma StopsAt.isAlphanumeric (h : s.StopsAt CodePoint.isPackagePoint) :
    s.StopsAt CodePoint.isAlphanumeric := by
  intro c hc
  have hpoint := h c hc
  simp only [CodePoint.isPackagePoint, Bool.or_eq_false_iff] at hpoint
  exact hpoint.1

lemma stopsAt_flatten (h : ∀ t ∈ ts, StopsAt p t) : StopsAt p ts.flatten := by
  induction ts with
  | nil => intro c hc; cases hc
  | cons t ts ih =>
    rw [List.flatten_cons]
    exact (h t List.mem_cons_self).append (ih fun u hu => h u (List.mem_cons_of_mem t hu))

/-! ### Putting texts together -/

lemma spells_nil : Spells p [] [] := by
  intro r _
  simp

lemma Spells.isPackagePoint (h : Spells CodePoint.isAlphanumeric t ws) :
    Spells CodePoint.isPackagePoint t ws :=
  fun r hr => h r hr.isAlphanumeric

/-- A text may be followed by one that does not continue it. -/
lemma Spells.append (hs : Spells p s vs) (ht : Spells p t ws) (hstop : t.StopsAt p) :
    Spells p (s ++ t) (vs ++ ws) := by
  intro r hr
  rw [List.append_assoc, hs (t ++ r) (hstop.append hr), ht r hr, Option.map_map]
  congr 1
  funext xs
  rw [Function.comp_apply, List.append_assoc]

/-- Blanks and punctuation marks may stand in front of any text. -/
lemma Spells.behind (ht : Spells p t ws) (hu : Signs u vs) :
    Spells p (u ++ t) (vs ++ ws) := by
  obtain ⟨hu, rfl⟩ := hu
  induction u with
  | nil => exact ht
  | cons c u ih =>
    have ih := ih fun x hx => hu x (List.mem_cons_of_mem c hx)
    intro r hr
    rcases hmark : Mark.ofCodePoint? c with _ | m
    · have hblank : c.isBlank := by simpa [CodePoint.isSign, hmark] using hu c List.mem_cons_self
      rw [List.cons_append, List.cons_append, wordsFrom_blank hblank, ih r hr,
        List.filterMap_cons_none (by rw [CodePoint.markWord?, hmark]; rfl)]
    · obtain rfl : c = .scalar m.symbol := by
        simpa using List.find?_some hmark
      have hnext : Context.next .ordinary (.mark m) = .ordinary := by cases m <;> rfl
      rw [List.cons_append, List.cons_append, wordsFrom_mark (by simp), hnext, ih r hr,
        List.filterMap_cons_some (by rw [CodePoint.markWord?, hmark]; rfl), Option.map_map]
      rfl

lemma Signs.spells (ht : Signs t vs) : Spells p t vs := by
  have h := spells_nil.behind (p := p) ht
  rwa [List.append_nil, List.append_nil] at h

/-- Two texts with a separator between them. -/
lemma Spells.separated (hs : Spells p s us) (hu : Separator p u vs) (ht : Spells p t ws) :
    Spells p (s ++ (u ++ t)) (us ++ (vs ++ ws)) :=
  hs.append (ht.behind hu.signs) (hu.stopsAt t)

/-- A text with a separator behind it. -/
lemma Spells.closed (hs : Spells p s ws) (hu : Separator p u vs) : Spells p (s ++ u) (ws ++ vs) :=
  hs.append hu.signs.spells hu.stops

/-- Texts in a row, none of which continues the one before it. -/
lemma spells_flatten (h : List.Forall₂ (Spells p) ts wss) (hstop : ∀ t ∈ ts, StopsAt p t) :
    Spells p ts.flatten wss.flatten := by
  induction h with
  | nil => exact spells_nil
  | @cons t ws ts wss ht _ ih =>
    have hstop' := fun x hx => hstop x (List.mem_cons_of_mem t hx)
    exact ht.append (ih hstop') (stopsAt_flatten hstop')

/-- Texts with a separator between each two. -/
lemma spells_join (ht : Spells p t ws) (h : List.Forall₂ (Spells p) ts wss)
    (hu : Separator p u vs) : Spells p (join u (t :: ts)) (ws ++ wss.flatMap (vs ++ ·)) := by
  have hbehind : List.Forall₂ (Spells p) (ts.map (u ++ ·)) (wss.map (vs ++ ·)) := by
    rw [List.forall₂_map_left_iff, List.forall₂_map_right_iff]
    exact h.imp fun _ _ hx => hx.behind hu.signs
  have hstop : ∀ x ∈ ts.map (u ++ ·), StopsAt p x := by
    simp only [List.mem_map]
    rintro _ ⟨x, -, rfl⟩
    exact hu.stopsAt x
  rw [join_cons, List.flatMap_def, List.flatMap_def]
  exact ht.append (spells_flatten hbehind hstop) (stopsAt_flatten hstop)

section

variable {α : Type} {f : α → Text} {g : α → List Word}

lemma forall₂_spells {as : List α} (h : ∀ a ∈ as, Spells p (f a) (g a)) :
    List.Forall₂ (Spells p) (as.map f) (as.map g) := by
  rw [List.forall₂_map_left_iff, List.forall₂_map_right_iff, List.forall₂_same]
  exact h

/-- The same, for the texts of the parts of something. -/
lemma spells_join_map {a : α} {as : List α} (h : ∀ b ∈ a :: as, Spells p (f b) (g b))
    (hu : Separator p u vs) :
    Spells p (join u ((a :: as).map f)) (g a ++ as.flatMap fun b => vs ++ g b) := by
  have has := forall₂_spells fun b hb => h b (List.mem_cons_of_mem a hb)
  have hjoin := spells_join (h a List.mem_cons_self) has hu
  rwa [List.flatMap_map] at hjoin

end

/-! ### Names and literals -/

lemma IsName.word {start : CodePoint → Bool} (h : t.IsName start) :
    ∃ c, start c ∧ t.word = (if c.isUppercase then .upperName else .lowerName, t) := by
  cases t with
  | nil => cases h
  | cons c t =>
    obtain ⟨-, hc, -, hword⟩ := h
    refine ⟨c, hc, ?_⟩
    simp only [Text.word, List.head?_cons, Option.elim_some, Lexeme.wordKind, hword]

lemma IsLowerName.word (h : t.IsLowerName) : t.word = (.lowerName, t) := by
  obtain ⟨c, hc, hword⟩ := IsName.word h
  rw [hword, CodePoint.not_isUppercase_of_isLowercase hc, if_neg Bool.false_ne_true]

lemma IsUpperName.word (h : t.IsUpperName) : t.word = (.upperName, t) := by
  obtain ⟨c, hc, hword⟩ := IsName.word h
  rw [hword, if_pos hc]

lemma spells_name {start : CodePoint → Bool} (h : t.IsName start)
    (hstart : ∀ c, start c → c.isLowercase ∨ c.isUppercase) :
    Spells CodePoint.isAlphanumeric t [t.word] := by
  cases t with
  | nil => cases h
  | cons c t =>
    obtain ⟨hletter, hc, ht, hword⟩ := h
    have hnext : Context.next .ordinary (Lexeme.wordKind c (c :: t)) = .ordinary := by
      simp only [Lexeme.wordKind, hword]
      split <;> rfl
    intro r hr
    rw [wordsFrom_letters (by simp) hletter (hstart c hc) ht hr, hnext]
    rfl

lemma spells_lowerName (h : t.IsLowerName) :
    Spells CodePoint.isAlphanumeric t [(.lowerName, t)] := by
  rw [← h.word]
  exact spells_name h fun _ hc => .inl hc

lemma spells_upperName (h : t.IsUpperName) : Spells CodePoint.isAlphanumeric t [t.word] :=
  spells_name h fun _ hc => .inr hc

lemma spells_keyword {w : Keyword} (hw : Context.next .ordinary (.keyword w) = .ordinary) :
    Spells CodePoint.isAlphanumeric w.spelling [w.word] := by
  intro r hr
  rw [wordsFrom_keyword (by simp) w hr, hw]
  rfl

lemma spells_literal (value : Text) : Spells p (Literal.write value) [(.string, value)] := by
  intro r _
  rw [wordsFrom_literal (by simp)]
  rfl

/-- A header word, a colon and a package name. -/
lemma spells_export {w : Keyword} (hw : Context.next .ordinary (.keyword w) = .afterHeaderWord)
    (ht : t.IsPackageName) :
    Spells CodePoint.isPackagePoint (w.spelling ++ ": " ++ t)
      [w.word, Mark.colon.word, (.packageName, t)] := by
  have hblank : CodePoint.isBlank (.scalar ' ') = true := by decide
  intro r hr
  have hstop : StopsAt CodePoint.isAlphanumeric
      (.scalar Mark.colon.symbol :: .scalar ' ' :: (t ++ r)) := stopsAt_cons (by decide) _
  have hsplit : w.spelling ++ ": " ++ t ++ r =
      w.spelling ++ .scalar Mark.colon.symbol :: .scalar ' ' :: (t ++ r) := by
    simp [ofString, Mark.symbol]
  rw [hsplit, wordsFrom_keyword (by simp) w hstop, hw, wordsFrom_mark (by simp),
    Context.next, if_pos rfl, wordsFrom_blank hblank, wordsFrom_package ht hr]
  simp only [Option.map_map]
  rfl

/-- The reserved word for imports and a package name. -/
lemma spells_import (ht : t.IsPackageName) :
    Spells CodePoint.isPackagePoint ("import " ++ t) [Keyword.imports.word, (.packageName, t)] := by
  have hblank : CodePoint.isBlank (.scalar ' ') = true := by decide
  intro r hr
  have hstop : StopsAt CodePoint.isAlphanumeric (.scalar ' ' :: (t ++ r)) :=
    stopsAt_cons (by decide) _
  have hsplit : "import " ++ t ++ r = Keyword.imports.spelling ++ .scalar ' ' :: (t ++ r) := by
    simp [ofString, Keyword.spelling]
  rw [hsplit, wordsFrom_keyword (by simp) .imports hstop, Context.next, wordsFrom_blank hblank,
    wordsFrom_package ht hr, Option.map_map]
  rfl

end Text

end Idl
