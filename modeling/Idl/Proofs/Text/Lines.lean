/-
# Lines and line breaks

A text falls into lines at breaks of many kinds, while places in a text are counted by `\n` alone.
The two ways of counting agree where all breaks are plain, and nowhere else
(`Text.length_lines`).  In front of the first break of a text stands its first line
(`Text.exists_lines_append`), and lines that end with `\n` are those of a text of its own
(`Text.lines_append`).
-/
import Idl.Text.Lines
import Mathlib.Data.List.DropRight

namespace Idl

/-- Whether a code point ends no line. -/
def CodePoint.keepsLine (c : CodePoint) : Bool := !c.isLineBreak

lemma CodePoint.keepsLine_iff {c : CodePoint} : c.keepsLine ↔ c.isLineBreak = false := by
  simp [keepsLine]

namespace Text

/-- Every line break in the text is a `\n`, or a `\r` with a `\n` behind it. -/
def HasPlainBreaks (t : Text) : Prop :=
  ∀ x c y, t = x ++ c :: y → c.isLineBreak →
    c = .scalar '\n' ∨ c = .scalar '\r' ∧ y.head? = some (.scalar '\n')

variable {c d : CodePoint} {r s t w : Text} {ls : List Text}

/-! ### Plain breaks -/

lemma hasPlainBreaks_nil : HasPlainBreaks [] := fun _ _ _ h => by simp at h

/-- The front of a text has plain breaks if the text has, unless it ends within one. -/
lemma HasPlainBreaks.of_append (h : HasPlainBreaks (s ++ r))
    (hlast : ∀ c ∈ s.getLast?, c.isLineBreak = false) : HasPlainBreaks s := by
  rintro x c y rfl hc
  have hy : y ≠ [] := by
    rintro rfl
    rw [hlast c List.getLast?_concat] at hc
    cases hc
  rcases h x c (y ++ r) (by simp) hc with hplain | ⟨hreturn, hhead⟩
  · exact .inl hplain
  · rw [List.head?_append_of_ne_nil _ hy] at hhead
    exact .inr ⟨hreturn, hhead⟩

lemma hasPlainBreaks_cons_iff : HasPlainBreaks (c :: r) ↔
    (c.isLineBreak → c = .scalar '\n' ∨ c = .scalar '\r' ∧ r.head? = some (.scalar '\n')) ∧
      HasPlainBreaks r := by
  constructor
  · exact fun h => ⟨h [] c r rfl, fun x d y hr => h (c :: x) d y (by rw [hr]; rfl)⟩
  · rintro ⟨hc, h⟩ x d y hxy hd
    rcases x with _ | ⟨e, x⟩
    · obtain ⟨rfl, rfl⟩ := List.cons.inj hxy
      exact hc hd
    · exact h x d y (List.cons.inj hxy).2 hd

lemma isLineBreak_newline : CodePoint.isLineBreak (.scalar '\n') = true := by decide

/-! ### Joining lines -/

lemma lines_ne_nil (h : t ≠ []) : lines t ≠ [] := by
  fun_induction lines t with
  | case1 => exact absurd rfl h
  | case6 c d r =>
    cases lines (d :: r) <;> simp [ontoFirst]
  | _ => simp

lemma ontoFirst_append (w : Text) {ls : List Text} (hls : ls ≠ []) (ls' : List Text) :
    ontoFirst w (ls ++ ls') = ontoFirst w ls ++ ls' := by
  obtain ⟨l, ls, rfl⟩ := List.exists_cons_of_ne_nil hls
  rfl

lemma length_ontoFirst (w : Text) {ls : List Text} (hls : ls ≠ []) :
    (ontoFirst w ls).length = ls.length := by
  obtain ⟨l, ls, rfl⟩ := List.exists_cons_of_ne_nil hls
  rfl

/-- A code point that ends no line stands in the first line. -/
lemma lines_cons (hc : c.isLineBreak = false) (r : Text) :
    lines (c :: r) = ontoFirst [c] (lines r) := by
  cases r with
  | nil => simp [lines, hc, ontoFirst]
  | cons d r =>
    have hreturn : ¬ (c = .scalar '\r' ∧ d = .scalar '\n') := by
      rintro ⟨rfl, -⟩
      cases hc
    rw [lines, if_neg hreturn, if_neg (by simp [hc])]

/-- A break ends a line, unless it is the first half of a pair. -/
lemma lines_cons_of_isLineBreak (hc : c.isLineBreak)
    (hpair : c = .scalar '\r' → r.head? ≠ some (.scalar '\n')) :
    lines (c :: r) = [] :: lines r := by
  cases r with
  | nil => simp [lines, hc]
  | cons d r =>
    have hreturn : ¬ (c = .scalar '\r' ∧ d = .scalar '\n') := fun h => hpair h.1 (by rw [h.2]; rfl)
    rw [lines, if_neg hreturn, if_pos hc]

/-- A text that a break ends falls into lines, whatever stands behind the break. -/
lemma lines_append_of_isLineBreak (b : Text) (hc : c.isLineBreak)
    (hpair : c = .scalar '\r' → r.head? ≠ some (.scalar '\n')) :
    lines (b ++ c :: r) = lines (b ++ [c]) ++ lines r := by
  have hbreak := lines_cons_of_isLineBreak hc hpair
  have hlast : lines [c] = [[]] := lines_cons_of_isLineBreak hc (by simp)
  fun_induction lines b with
  | case1 => rw [List.nil_append, List.nil_append, hbreak, hlast]; rfl
  | case2 d hd =>
    simp only [List.cons_append, List.nil_append]
    by_cases hreturn : d = .scalar '\r' ∧ c = .scalar '\n'
    · obtain ⟨rfl, rfl⟩ := hreturn
      rfl
    · have hsingle (r : Text) : d = .scalar '\r' → List.head? (c :: r) ≠ some (.scalar '\n') :=
        fun hd hc => hreturn ⟨hd, Option.some.inj hc⟩
      rw [lines_cons_of_isLineBreak hd (hsingle _), hbreak,
        lines_cons_of_isLineBreak hd (hsingle _), hlast]
      rfl
  | case3 d hd =>
    have hd : d.isLineBreak = false := by simpa using hd
    simp only [List.cons_append, List.nil_append]
    rw [lines_cons hd, lines_cons hd, hbreak, hlast]
    rfl
  | case4 d e b h ih =>
    obtain ⟨rfl, rfl⟩ := h
    have hreturn (r : Text) : lines (.scalar '\r' :: .scalar '\n' :: r) = [] :: lines r := rfl
    simp only [List.cons_append, hreturn, ih]
  | case5 d e b h hd ih =>
    have hsingle (r : Text) : d = .scalar '\r' → List.head? (e :: r) ≠ some (.scalar '\n') :=
      fun hreturn he => h ⟨hreturn, Option.some.inj he⟩
    simp only [List.cons_append] at ih ⊢
    rw [lines_cons_of_isLineBreak hd (hsingle _), lines_cons_of_isLineBreak hd (hsingle _), ih,
      List.cons_append]
  | case6 d e b h hd ih =>
    have hd : d.isLineBreak = false := by simpa using hd
    simp only [List.cons_append] at ih ⊢
    rw [lines_cons hd, lines_cons hd, ih, ontoFirst_append _ (lines_ne_nil (by simp))]

/-! ### The line at a place -/

/-- The first line reaches up to the first break. -/
lemma exists_lines_eq_cons (h : t ≠ []) :
    ∃ ls, lines t = t.takeWhile CodePoint.keepsLine :: ls := by
  induction t with
  | nil => exact absurd rfl h
  | cons c r ih =>
    by_cases hc : c.keepsLine
    · rw [lines_cons (CodePoint.keepsLine_iff.1 hc), List.takeWhile_cons_of_pos hc]
      by_cases hnil : r = []
      · rw [hnil]
        exact ⟨[], rfl⟩
      · obtain ⟨ls, hls⟩ := ih hnil
        exact ⟨ls, by rw [hls]; rfl⟩
    · rw [List.takeWhile_cons_of_neg hc]
      have hc : c.isLineBreak := by simpa [CodePoint.keepsLine] using hc
      cases r with
      | nil => exact ⟨[], by simp [lines, hc]⟩
      | cons d r =>
        rw [lines, if_pos hc]
        split <;> exact ⟨_, rfl⟩

/-- A text without breaks is one line. -/
lemma lines_of_forall (hne : t ≠ []) (h : ∀ c ∈ t, c.keepsLine) : lines t = [t] := by
  induction t with
  | nil => exact absurd rfl hne
  | cons c r ih =>
    obtain ⟨hc, hr⟩ := List.forall_mem_cons.1 h
    rw [lines_cons (CodePoint.keepsLine_iff.1 hc)]
    by_cases hnil : r = []
    · rw [hnil]
      rfl
    · rw [ih hnil hr]
      rfl

/-- A line without breaks is ended by the `\n` behind it. -/
lemma lines_append_newline (hw : ∀ c ∈ w, c.keepsLine) (r : Text) :
    lines (w ++ .scalar '\n' :: r) = w :: lines r := by
  induction w with
  | nil => exact lines_cons_of_isLineBreak isLineBreak_newline (by simp)
  | cons c w ih =>
    obtain ⟨hc, hw⟩ := List.forall_mem_cons.1 hw
    rw [List.cons_append, lines_cons (CodePoint.keepsLine_iff.1 hc), ih hw]
    rfl

/-- No line holds a break. -/
lemma keepsLine_of_mem_lines (hw : w ∈ lines t) : ∀ c ∈ w, c.keepsLine := by
  fun_induction lines t generalizing w with
  | case1 => exact absurd hw List.not_mem_nil
  | case2 c hc =>
    rw [List.mem_singleton.1 hw]
    exact fun _ h => absurd h List.not_mem_nil
  | case3 c hc =>
    rw [List.mem_singleton.1 hw]
    simpa [CodePoint.keepsLine] using hc
  | case4 c d r h ih | case5 c d r h hc ih =>
    rcases List.mem_cons.1 hw with rfl | hw
    · exact fun _ h => absurd h List.not_mem_nil
    · exact ih hw
  | case6 c d r h hc ih =>
    obtain ⟨l, ls, hls⟩ := List.exists_cons_of_ne_nil (lines_ne_nil (List.cons_ne_nil d r))
    rw [hls] at ih hw
    rcases List.mem_cons.1 hw with rfl | hw
    · exact List.forall_mem_cons.2
        ⟨by simpa [CodePoint.keepsLine] using hc, ih List.mem_cons_self⟩
    · exact ih (List.mem_cons_of_mem l hw)

/-- The number, counted from 0, of the line in which a text goes on behind this part of it. -/
def lineBehind (b : Text) : Nat := (lines (b.rdropWhile CodePoint.keepsLine)).length

/-- How far that line reaches in this part of the text. -/
def offsetBehind (b : Text) : Nat := (b.rtakeWhile CodePoint.keepsLine).length

lemma rtakeWhile_append_of_forall {p : CodePoint → Bool} (hw : ∀ c ∈ w, p c) (b : Text) :
    (b ++ w).rtakeWhile p = b.rtakeWhile p ++ w := by
  rw [List.rtakeWhile, List.reverse_append,
    List.takeWhile_append_of_pos fun c hc => hw c (List.mem_reverse.1 hc), List.reverse_append,
    List.reverse_reverse, ← List.rtakeWhile]

lemma offsetBehind_append (hw : ∀ c ∈ w, c.keepsLine) (b : Text) :
    (b ++ w).offsetBehind = b.offsetBehind + w.length := by
  rw [offsetBehind, rtakeWhile_append_of_forall hw, List.length_append, ← offsetBehind]

/-- A line begins behind the last break in front of a piece without breaks. -/
lemma lines_append (hne : w ≠ []) (hw : ∀ c ∈ w, c.keepsLine) (b r : Text) :
    lines (b ++ w ++ r) = lines (b.rdropWhile CodePoint.keepsLine) ++
      lines (b.rtakeWhile CodePoint.keepsLine ++ w ++ r) := by
  have hsplit : b ++ w ++ r = b.rdropWhile CodePoint.keepsLine ++
      (b.rtakeWhile CodePoint.keepsLine ++ w ++ r) := by
    simp only [← List.append_assoc, List.rdropWhile_append_rtakeWhile]
  rw [hsplit]
  by_cases hfront : b.rdropWhile CodePoint.keepsLine = []
  · rw [hfront]
    rfl
  -- the text in front ends with a break, and none stands right behind it
  have hlast : ((b.rdropWhile CodePoint.keepsLine).getLast hfront).isLineBreak := by
    simpa [CodePoint.keepsLine] using List.rdropWhile_last_not CodePoint.keepsLine b hfront
  rw [← List.dropLast_append_getLast hfront, List.append_assoc, List.singleton_append]
  refine lines_append_of_isLineBreak _ hlast fun _ hhead => ?_
  rw [List.head?_append_of_ne_nil _ (by simp [hne])] at hhead
  rcases List.mem_append.1 (List.mem_of_head? hhead) with hmem | hmem
  · cases List.mem_rtakeWhile_imp hmem
  · cases hw _ hmem

/-- A piece without breaks stands in the line that begins behind the last break in front of it and
ends at the first one behind it. -/
lemma lineAt_lineBehind (hne : w ≠ []) (hw : ∀ c ∈ w, c.keepsLine) (b r : Text) :
    (b ++ w ++ r).lineAt (b.lineBehind + 1) = some (b.rtakeWhile CodePoint.keepsLine ++ w ++
      r.takeWhile CodePoint.keepsLine) := by
  have hclear : ∀ c ∈ b.rtakeWhile CodePoint.keepsLine ++ w, c.keepsLine :=
    List.forall_mem_append.2 ⟨fun c => List.mem_rtakeWhile_imp, hw⟩
  obtain ⟨ls, hls⟩ := exists_lines_eq_cons
    (t := b.rtakeWhile CodePoint.keepsLine ++ w ++ r) (by simp [hne])
  have hindex : ((b.lineBehind : Int) + 1).toNat - 1 = b.lineBehind := by omega
  rw [lineAt, numbered, if_pos (by omega), hindex, lines_append hne hw, hls, lineBehind,
    List.getElem?_append_right le_rfl, Nat.sub_self, List.getElem?_cons_zero,
    List.takeWhile_append_of_pos hclear]

/-- Up to a piece without breaks there are the lines in front of it and its own. -/
lemma length_lines_append (hne : w ≠ []) (hw : ∀ c ∈ w, c.keepsLine) (b : Text) :
    (lines (b ++ w)).length = b.lineBehind + 1 := by
  have hclear : ∀ c ∈ b.rtakeWhile CodePoint.keepsLine ++ w, c.keepsLine :=
    List.forall_mem_append.2 ⟨fun c => List.mem_rtakeWhile_imp, hw⟩
  have hlines := lines_append hne hw b []
  rw [List.append_nil, List.append_nil, lines_of_forall (by simp [hne]) hclear] at hlines
  rw [hlines, List.length_append, lineBehind, List.length_singleton]

/-! ### The number of lines -/

/-- Every `\n` of a text that does not end with a break begins a line, and so does any break that
is not plain. -/
lemma length_lines (hne : t ≠ []) (hlast : ∀ c ∈ t.getLast?, c.isLineBreak = false) :
    t.count (.scalar '\n') + 1 ≤ t.lines.length ∧
      (t.lines.length = t.count (.scalar '\n') + 1 ↔ t.HasPlainBreaks) := by
  fun_induction lines t with
  | case1 => exact absurd rfl hne
  | case2 c hc =>
    rw [hlast c rfl] at hc
    cases hc
  | case3 c hc =>
    have hcount : [c].count (.scalar '\n') = 0 := by
      rw [List.count_eq_zero, List.mem_singleton]
      rintro rfl
      exact hc isLineBreak_newline
    rw [hcount]
    exact ⟨le_rfl, iff_of_true rfl
      (hasPlainBreaks_cons_iff.2 ⟨fun h => absurd h hc, hasPlainBreaks_nil⟩)⟩
  | case4 c d r h ih =>
    obtain ⟨rfl, rfl⟩ := h
    have hr : r ≠ [] := by
      rintro rfl
      cases hlast _ rfl
    obtain ⟨e, r, rfl⟩ := List.exists_cons_of_ne_nil hr
    obtain ⟨hle, hiff⟩ := ih hr fun c hc => hlast c (by simpa using hc)
    have hcount (r : Text) : List.count (.scalar '\n') (.scalar '\r' :: .scalar '\n' :: r) =
        r.count (.scalar '\n') + 1 := by
      rw [List.count_cons_of_ne (by decide), List.count_cons_self]
    rw [hcount, List.length_cons, hasPlainBreaks_cons_iff, hasPlainBreaks_cons_iff]
    simp only [List.head?_cons, or_true, and_true, implies_true, true_and, true_or]
    exact ⟨by omega, by rw [← hiff]; omega⟩
  | case5 c d r h hc ih =>
    obtain ⟨hle, hiff⟩ := ih (by simp) fun c hc => hlast c (by simpa using hc)
    rw [List.length_cons, hasPlainBreaks_cons_iff]
    by_cases hnewline : c = .scalar '\n'
    · subst hnewline
      rw [List.count_cons_self, ← hiff]
      simp only [true_or, implies_true, true_and]
      omega
    · -- the break is not plain, and begins a line that is not counted
      have hplain : ¬ (c.isLineBreak → c = .scalar '\n' ∨
          c = .scalar '\r' ∧ (d :: r).head? = some (.scalar '\n')) := by
        rw [List.head?_cons, Option.some.injEq]
        exact fun himp => (himp hc).elim hnewline h
      rw [List.count_cons_of_ne hnewline]
      exact ⟨by omega, iff_of_false (by omega) fun hall => hplain hall.1⟩
  | case6 c d r h hc ih =>
    obtain ⟨hle, hiff⟩ := ih (by simp) fun c hc => hlast c (by simpa using hc)
    have hnewline : c ≠ .scalar '\n' := by
      rintro rfl
      exact hc isLineBreak_newline
    rw [length_ontoFirst _ (lines_ne_nil (by simp)), List.count_cons_of_ne hnewline,
      hasPlainBreaks_cons_iff, ← hiff]
    exact ⟨hle, by simp [hc]⟩

end Text

end Idl
