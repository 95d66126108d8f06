/-
# Searching a folder for endings

An ending without slashes and without the signs of patterns selects what is below a folder and has
a name with that ending (`PathPattern.mem_select`).  What is found for several endings is listed
once and in the order of the paths (`Disk.exists_endingIn`).
-/
import Idl.Project.Sources
import Idl.Proofs.Files.Located
import Idl.Proofs.Text.Quoted

namespace Idl

/-- An ending that stands for nothing but itself in a pattern. -/
def Text.IsPlainEnding (e : Text) : Prop :=
  ∀ c ∈ e, c ≠ .scalar '/' ∧ c ≠ .scalar '*' ∧ c ≠ .scalar '?' ∧ c ≠ .scalar '['

variable {e name s t u : Text}

/-! ### Patterns for names -/

namespace NamePattern

/-- The pattern for all that ends in a text. -/
def ending (e : Text) : NamePattern := .anyRun :: e.map Glyph.exactly

lemma ofText_eq_map (he : e.IsPlainEnding) : ofText e = e.map Glyph.exactly := by
  induction e with
  | nil => rw [ofText, List.map_nil]
  | cons c e ih =>
    obtain ⟨⟨-, hstar, hmark, hbracket⟩, hrest⟩ := List.forall_mem_cons.1 he
    rw [ofText, if_neg hstar, if_neg hmark, if_neg hbracket, ih hrest, List.map_cons]

lemma holds_map_exactly : holds (e.map Glyph.exactly) s ↔ s = e := by
  induction e generalizing s with
  | nil =>
    cases s <;> simp [holds]
  | cons c e ih =>
    cases s with
    | nil => simp [holds, Glyph.exactly]
    | cons d s =>
      have hsame : Glyph.inRanges [(c, c)] d = true ↔ d = c := by
        simp only [Glyph.inRanges, List.any_cons, List.any_nil, Bool.or_false, Bool.and_eq_true,
          decide_eq_true_eq]
        constructor
        · intro h
          exact CodePoint.toNat_injective (by omega)
        · rintro rfl
          omega
      rw [List.map_cons, Glyph.exactly, holds, Bool.and_eq_true, ih, List.cons.injEq, bne_iff_ne,
        ne_eq, Bool.not_eq_false, hsame]

lemma holds_anyRun (p : NamePattern) : holds (.anyRun :: p) s ↔ ∃ u, u <:+ s ∧ holds p u := by
  induction s with
  | nil =>
    rw [holds]
    constructor
    · exact fun h => ⟨[], List.suffix_refl _, h⟩
    · rintro ⟨u, hu, h⟩
      rwa [List.suffix_nil.1 hu] at h
  | cons c s ih =>
    rw [holds, Bool.or_eq_true, ih]
    constructor
    · rintro (h | ⟨u, hu, h⟩)
      · exact ⟨c :: s, List.suffix_refl _, h⟩
      · exact ⟨u, hu.trans (List.suffix_cons c s), h⟩
    · rintro ⟨u, hu, h⟩
      rcases List.suffix_cons_iff.1 hu with rfl | hu
      · exact .inl h
      · exact .inr ⟨u, hu, h⟩

lemma holds_ending : holds (ending e) name ↔ e <:+ name := by
  rw [ending, holds_anyRun]
  constructor
  · rintro ⟨u, hu, h⟩
    rwa [← holds_map_exactly.1 h]
  · exact fun h => ⟨e, h, holds_map_exactly.2 rfl⟩

end NamePattern

/-! ### Patterns for paths -/

namespace PathPattern

/-- The pattern for all at any depth that ends in a text. -/
def ending (e : Text) : PathPattern := ⟨[.anyDepth, .matching (NamePattern.ending e)], false⟩

lemma hasDoubleStar_eq_false (he : e.IsPlainEnding) (c : CodePoint) :
    Text.hasDoubleStar (c :: e) = false := by
  induction e generalizing c with
  | nil => rfl
  | cons d e ih =>
    obtain ⟨⟨-, hstar, -⟩, hrest⟩ := List.forall_mem_cons.1 he
    simp [Text.hasDoubleStar, hstar, ih hrest d]

/-- An ending behind a star is one name. -/
lemma names_star (he : e.IsPlainEnding) :
    (FilePath.ofText (.scalar '*' :: e)).names = [.scalar '*' :: e] := by
  have hslash : ∀ s ∈ [.scalar '*' :: e], CodePoint.scalar '/' ∉ s := by
    intro s hs hmem
    rw [List.mem_singleton.1 hs] at hmem
    rcases List.mem_cons.1 hmem with h | h
    · exact absurd h (by decide)
    · exact (he _ h).1 rfl
  have hpieces : Text.pieces '/' (.scalar '*' :: e) = [.scalar '*' :: e] :=
    Text.pieces_join (List.cons_ne_nil _ _) hslash
  rw [FilePath.ofText, hpieces]
  simp [Text.ofString]

/-- An ending behind a star is a pattern for names. -/
lemma ofText?_star (he : e.IsPlainEnding) : PatternStep.ofText? (.scalar '*' :: e) =
    some (.matching (NamePattern.ending e)) := by
  have hwhole : CodePoint.scalar '*' :: e ≠ Text.ofString "**" := by
    intro h
    have htail : e = [.scalar '*'] := (List.cons.inj h).2
    exact (he _ (by rw [htail]; exact List.mem_singleton_self _)).2.1 rfl
  have hdouble := hasDoubleStar_eq_false he (.scalar '*')
  have hpattern : NamePattern.isPattern (.scalar '*' :: e) = true := rfl
  rw [PatternStep.ofText?, if_neg hwhole, if_neg (by simp [hdouble]), if_pos hpattern,
    NamePattern.ofText, if_pos rfl, NamePattern.ofText_eq_map he]
  rfl

lemma endingIn?_eq (he : e.IsPlainEnding) : endingIn? e = some (ending e) := by
  have hnames : (FilePath.ofText ("*" ++ e)).names = [.scalar '*' :: e] := names_star he
  have hlast : ¬ e.getLast? = some (.scalar '/') := by
    intro h
    exact (he _ (List.mem_of_getLast? h)).1 rfl
  simp only [endingIn?, hnames, List.mapM_cons, List.mapM_nil, ofText?_star he, hlast]
  rfl

variable {d : Disk} {folder p : FilePath} {k l : Location}

lemma mem_ways_matching {pattern : NamePattern} {way : List Text} :
    way ∈ ways d false l [.matching pattern] ↔ ∃ name, way = [name] ∧ d.exists? (l ++ [name]) ∧
      pattern.holds name := by
  simp only [ways, List.isEmpty_nil, Bool.not_false, Bool.and_self, if_true, List.mem_flatMap,
    List.mem_filter, Disk.mem_namesIn, Bool.and_eq_true, List.map_singleton, List.append_nil,
    List.mem_singleton]
  constructor
  · rintro ⟨name, ⟨hexists, hholds, -⟩, rfl⟩
    exact ⟨name, rfl, hexists, hholds⟩
  · rintro ⟨name, rfl, hexists, hholds⟩
    exact ⟨name, ⟨hexists, hholds, hexists⟩, rfl⟩

/-- At any depth below a folder there may be a name of the pattern. -/
lemma mem_ways {pattern : NamePattern} {way : List Text} :
    way ∈ ways d false l [.anyDepth, .matching pattern] ↔ ∃ front name,
      way = front ++ [name] ∧ d.exists? (l ++ (front ++ [name])) ∧ pattern.holds name := by
  rw [ways]
  simp only [List.mem_flatMap, List.mem_map, Disk.mem_foldersBelow, mem_ways_matching]
  constructor
  · rintro ⟨front, -, -, ⟨name, rfl, hexists, hholds⟩, rfl⟩
    rw [List.append_assoc] at hexists
    exact ⟨front, name, rfl, hexists, hholds⟩
  · rintro ⟨front, name, rfl, hexists, hholds⟩
    rw [← List.append_assoc] at hexists
    exact ⟨front, Disk.isFolder_of_exists?_append hexists (List.cons_ne_nil name []), [name],
      ⟨name, rfl, hexists, hholds⟩, rfl⟩

/-- An ending selects all below a folder that has a name with that ending. -/
lemma mem_select (hfolder : d.locate folder = .ok k) (hk : d.isFolder k) :
    p ∈ select d folder (ending e) ↔ ∃ way name, p = folder.below (way ++ [name]) ∧
      d.exists? (k ++ (way ++ [name])) ∧ e <:+ name := by
  simp only [select, hfolder, if_pos hk, ending, List.mem_map, mem_ways, NamePattern.holds_ending]
  constructor
  · rintro ⟨-, ⟨way, name, rfl, hexists, hending⟩, rfl⟩
    exact ⟨way, name, rfl, hexists, hending⟩
  · rintro ⟨way, name, rfl, hexists, hending⟩
    exact ⟨_, ⟨way, name, rfl, hexists, hending⟩, rfl⟩

end PathPattern

/-! ### The order of paths -/

namespace Text

lemma le_cons_iff {c d : CodePoint} :
    le (c :: s) (d :: t) ↔ c.toNat < d.toNat ∨ c = d ∧ le s t := by
  simp only [le, Bool.or_eq_true, decide_eq_true_eq, Bool.and_eq_true]

lemma le_antisymm (h : s.le t) (h' : t.le s) : s = t := by
  induction s generalizing t with
  | nil =>
    cases t with
    | nil => rfl
    | cons d t => cases h'
  | cons c s ih =>
    cases t with
    | nil => cases h
    | cons d t =>
      rw [le_cons_iff] at h h'
      rcases h with h | ⟨rfl, h⟩
      · rcases h' with h' | ⟨rfl, -⟩ <;> omega
      · rcases h' with h' | ⟨-, h'⟩
        · omega
        · rw [ih h h']

lemma le_trans (h : s.le t) (h' : t.le u) : s.le u := by
  induction s generalizing t u with
  | nil => rfl
  | cons c s ih =>
    rcases t with _ | ⟨d, t⟩
    · cases h
    rcases u with _ | ⟨e, u⟩
    · cases h'
    rw [le_cons_iff] at h h' ⊢
    rcases h with h | ⟨rfl, h⟩
    · rcases h' with h' | ⟨rfl, -⟩
      · exact .inl (h.trans h')
      · exact .inl h
    · exact h'.imp id fun h' => ⟨h'.1, ih h h'.2⟩

lemma le_total (s t : Text) : s.le t ∨ t.le s := by
  induction s generalizing t with
  | nil => exact .inl rfl
  | cons c s ih =>
    rcases t with _ | ⟨d, t⟩
    · exact .inr rfl
    rw [le_cons_iff, le_cons_iff]
    rcases Nat.lt_trichotomy c.toNat d.toNat with h | h | h
    · exact .inl (.inl h)
    · have heq := CodePoint.toNat_injective h
      exact (ih t).imp (fun h => .inr ⟨heq, h⟩) (fun h => .inr ⟨heq.symm, h⟩)
    · exact .inr (.inl h)

end Text

namespace FilePath

variable {a b : Text} {as bs : List Text}

lemma namesLe_cons_iff :
    namesLe (a :: as) (b :: bs) ↔ a = b ∧ namesLe as bs ∨ a ≠ b ∧ a.le b := by
  rw [namesLe]
  split <;> simp [*]

lemma namesLe_trans (as bs cs : List Text) :
    namesLe as bs → namesLe bs cs → namesLe as cs := by
  intro h h'
  induction as generalizing bs cs with
  | nil => rfl
  | cons a as ih =>
    rcases bs with _ | ⟨b, bs⟩
    · cases h
    rcases cs with _ | ⟨c, cs⟩
    · cases h'
    rw [namesLe_cons_iff] at h h' ⊢
    rcases h with ⟨rfl, h⟩ | ⟨hne, h⟩
    · exact h'.imp (fun h' => ⟨h'.1, ih bs cs h h'.2⟩) id
    · rcases h' with ⟨rfl, -⟩ | ⟨hne', h'⟩
      · exact .inr ⟨hne, h⟩
      · -- names that enclose a third one are different
        refine .inr ⟨fun heq => hne ?_, Text.le_trans h h'⟩
        exact Text.le_antisymm h (heq ▸ h')

lemma namesLe_total (as bs : List Text) : namesLe as bs || namesLe bs as := by
  rw [Bool.or_eq_true]
  induction as generalizing bs with
  | nil => exact .inl rfl
  | cons a as ih =>
    rcases bs with _ | ⟨b, bs⟩
    · exact .inr rfl
    rw [namesLe_cons_iff, namesLe_cons_iff]
    by_cases heq : a = b
    · exact (ih bs).imp (fun h => .inl ⟨heq, h⟩) (fun h => .inl ⟨heq.symm, h⟩)
    · exact (Text.le_total a b).imp (fun h => .inr ⟨heq, h⟩) (fun h => .inr ⟨Ne.symm heq, h⟩)

end FilePath

/-! ### Everything with one of some endings -/

lemma nodup_eraseDups {α : Type} [BEq α] [LawfulBEq α] (as : List α) : as.eraseDups.Nodup := by
  induction h : as.length using Nat.strong_induction_on generalizing as with
  | _ n ih =>
    cases as with
    | nil => exact List.nodup_nil
    | cons a as =>
      have hlength := List.length_filter_le (fun b => !b == a) as
      rw [List.length_cons] at h
      rw [List.eraseDups_cons, List.nodup_cons, List.mem_eraseDups, List.mem_filter]
      exact ⟨by simp, ih _ (by omega) _ rfl⟩

namespace Disk

variable {d : Disk} {endings : List Text} {folder : FilePath} {k : Location}

/-- All that is below a folder and has a name with one of the endings is listed once, in the order
of the paths. -/
lemma exists_endingIn (hendings : ∀ e ∈ endings, e.IsPlainEnding)
    (hfolder : d.locate folder = .ok k) (hk : d.isFolder k) :
    ∃ files, d.endingIn endings folder = .ok files ∧ files.Nodup ∧
      files.Pairwise (fun p q => FilePath.namesLe p.names q.names) ∧
      ∀ p, p ∈ files ↔ ∃ way name, p = folder.below (way ++ [name]) ∧
        d.exists? (k ++ (way ++ [name])) ∧ ∃ e ∈ endings, e <:+ name := by
  have hpatterns : endings.mapM endingPattern = .ok (endings.map PathPattern.ending) := by
    induction endings with
    | nil => rfl
    | cons e endings ih =>
      obtain ⟨he, hrest⟩ := List.forall_mem_cons.1 hendings
      rw [List.mapM_cons, ih hrest, endingPattern, PathPattern.endingIn?_eq he]
      rfl
  refine ⟨_, by rw [endingIn, hpatterns]; rfl, ?_, ?_, ?_⟩
  · exact (List.mergeSort_perm _ _).nodup_iff.2 (nodup_eraseDups _)
  · exact List.pairwise_mergeSort (fun p q r => FilePath.namesLe_trans p.names q.names r.names)
      (fun p q => FilePath.namesLe_total p.names q.names) _
  · intro p
    rw [List.mem_mergeSort, List.mem_eraseDups, List.mem_flatMap]
    constructor
    · rintro ⟨pattern, hpattern, hp⟩
      obtain ⟨e, he, rfl⟩ := List.mem_map.1 hpattern
      obtain ⟨way, name, rfl, hexists, hending⟩ := (PathPattern.mem_select hfolder hk).1 hp
      exact ⟨way, name, rfl, hexists, e, he, hending⟩
    · rintro ⟨way, name, rfl, hexists, e, he, hending⟩
      exact ⟨_, List.mem_map_of_mem he,
        (PathPattern.mem_select hfolder hk).2 ⟨way, name, rfl, hexists, hending⟩⟩

end Disk

end Idl
