/-
# Words in a text

The word that is looked up at a place is told by the text on both sides.  Around a piece of letters
and numerals that does not go on, it is the piece with all letters, numerals and dots right in
front of it, but for the dots that begin the word (`Text.wordAt_of_append`).  So it is the piece
itself if none of these, or only one dot, stands there (`Text.wordAt_of_endsOff`,
`Text.wordAt_of_dot`), and there is a dot inside if that dot stands behind a letter or a numeral
(`Text.dot_mem_wordAt`).
-/
import Idl.Document
import Idl.Proofs.Token.Excerpt
import Idl.Proofs.Token.Neighbours

namespace Idl

lemma CodePoint.keepsLine_of_isAlphanumeric {c : CodePoint} (h : c.isAlphanumeric) : c.keepsLine :=
  keepsLine_iff.2 (not_isLineBreak_of_isAlphanumeric h)

namespace Text

variable {after before pre post t u w : Text} {c : CodePoint} {i : ℕ} {p q : CodePoint → Bool}

/-! ### One line -/

lemma keepsLine_of_isDottedPoint (h : isDottedPoint c) : c.keepsLine := by
  rcases Bool.or_eq_true_iff.1 h with h | h
  · exact CodePoint.keepsLine_of_isAlphanumeric h
  · rw [of_decide_eq_true h]
    decide

lemma EndsOff.rtakeWhile (h : t.EndsOff p) : t.rtakeWhile p = [] := by
  rw [List.rtakeWhile_eq_nil_iff]
  intro hne
  simp [h _ (List.getLast?_eq_some_getLast hne)]

/-- What a piece is cut off from does not begin where the piece does not. -/
lemma StopsAt.of_prefix (h : t.StopsAt p) (hu : u <+: t) : u.StopsAt p := by
  obtain ⟨v, rfl⟩ := hu
  cases u with
  | nil => simp [StopsAt]
  | cons d u => exact h

/-- Points of a class that are all kept by another one are already found in what that one keeps. -/
lemma rtakeWhile_rtakeWhile (h : ∀ c, p c → q c) (t : Text) :
    (t.rtakeWhile q).rtakeWhile p = t.rtakeWhile p := by
  have hboth : (fun c => decide (p c = true ∧ q c = true)) = p := by
    funext c
    by_cases hc : p c
    · simp [hc, h c hc]
    · simp [hc]
  rw [List.rtakeWhile, List.rtakeWhile, List.reverse_reverse, List.takeWhile_takeWhile, hboth,
    List.rtakeWhile]

/-- Around a piece of letters and numerals that does not go on, the word is the piece with the
dotted stretch in front of it, but for the first dots. -/
lemma wordInLine_of_append (hne : w ≠ []) (hw : ∀ c ∈ w, c.isAlphanumeric)
    (hpost : post.StopsAt CodePoint.isAlphanumeric) (hi : i ≤ w.length) :
    wordInLine (pre ++ w ++ post) (pre.length + i) =
      (pre.rtakeWhile isDottedPoint ++ w).dropWhile (· = .scalar '.') := by
  have htake : (pre ++ w ++ post).take (pre.length + i) = pre ++ w.take i := by
    rw [List.append_assoc, List.take_length_add_append, List.take_append_of_le_length hi]
  have hdrop : (pre ++ w ++ post).drop (pre.length + i) = w.drop i ++ post := by
    rw [List.append_assoc, List.drop_length_add_append, List.drop_append_of_le_length hi]
  have hback : endWhile isDottedPoint (pre ++ w.take i) =
      pre.rtakeWhile isDottedPoint ++ w.take i :=
    rtakeWhile_append_of_forall
      (fun c hc => by simp [isDottedPoint, hw c (List.mem_of_mem_take hc)]) pre
  have hon : (w.drop i ++ post).takeWhile CodePoint.isAlphanumeric = w.drop i := by
    rw [List.takeWhile_append_of_pos fun c hc => hw c (List.mem_of_mem_drop hc), hpost.takeWhile,
      List.append_nil]
  -- on one side of the place stands a point of the piece
  have htouches : ((w.drop i ++ post).head?.map CodePoint.isAlphanumeric).getD false = true ∨
      ((pre ++ w.take i).getLast?.map CodePoint.isAlphanumeric).getD false = true := by
    by_cases hlt : i < w.length
    · left
      rw [List.drop_eq_getElem_cons hlt]
      exact hw _ (List.getElem_mem hlt)
    · right
      rw [List.take_of_length_le (by omega), List.getLast?_append_of_ne_nil _ hne,
        List.getLast?_eq_some_getLast hne]
      exact hw _ (List.getLast_mem hne)
  have hlength : pre.length + i ≤ (pre ++ w ++ post).length := by
    simp only [List.length_append]
    omega
  simp only [wordInLine, htake, hdrop]
  rw [if_pos, hback, hon, List.append_assoc, List.take_append_drop]
  rw [Bool.and_eq_true, Bool.or_eq_true, decide_eq_true_eq]
  exact ⟨hlength, htouches⟩

/-! ### The whole text -/

/-- Around a piece of letters and numerals that does not go on, the word is the piece with the
dotted stretch in front of it, but for the first dots. -/
lemma wordAt_of_append (hne : w ≠ []) (hw : ∀ c ∈ w, c.isAlphanumeric)
    (hafter : after.StopsAt CodePoint.isAlphanumeric) (hi : i ≤ w.length) (before : Text) :
    (before ++ w ++ after).wordAt before.lineBehind (before.offsetBehind + i) =
      (before.rtakeWhile isDottedPoint ++ w).dropWhile (· = .scalar '.') := by
  have hkeeps : ∀ c ∈ w, c.keepsLine := fun c hc => CodePoint.keepsLine_of_isAlphanumeric (hw c hc)
  rw [wordAt, lineAt_lineBehind hne hkeeps]
  simp only [offsetBehind]
  rw [wordInLine_of_append hne hw (hafter.of_prefix (List.takeWhile_prefix _)) hi,
    rtakeWhile_rtakeWhile fun c => keepsLine_of_isDottedPoint]

lemma stopsAt_dot_of_isAlphanumeric (hw : ∀ c ∈ w, c.isAlphanumeric) :
    w.StopsAt (· = .scalar '.') := by
  intro c hc
  have hne : c ≠ .scalar '.' := fun h => dot_not_mem hw (h ▸ List.mem_of_mem_head? hc)
  simpa using hne

/-- Where no dotted stretch stands in front of the piece, the word is the piece. -/
lemma wordAt_of_endsOff (hne : w ≠ []) (hw : ∀ c ∈ w, c.isAlphanumeric)
    (hafter : after.StopsAt CodePoint.isAlphanumeric) (hi : i ≤ w.length)
    (hbefore : before.EndsOff isDottedPoint) :
    (before ++ w ++ after).wordAt before.lineBehind (before.offsetBehind + i) = w := by
  rw [wordAt_of_append hne hw hafter hi, hbefore.rtakeWhile, List.nil_append,
    (stopsAt_dot_of_isAlphanumeric hw).dropWhile]

lemma isDottedPoint_dot : isDottedPoint (.scalar '.') = true := by decide

/-- A dot alone in front of the piece is not part of the word. -/
lemma wordAt_of_dot (hne : w ≠ []) (hw : ∀ c ∈ w, c.isAlphanumeric)
    (hafter : after.StopsAt CodePoint.isAlphanumeric) (hi : i ≤ w.length)
    (hbefore : before.EndsOff isDottedPoint) :
    wordAt (before ++ [.scalar '.'] ++ w ++ after) (lineBehind (before ++ [.scalar '.']))
      (offsetBehind (before ++ [.scalar '.']) + i) = w := by
  rw [wordAt_of_append hne hw hafter hi, List.rtakeWhile_concat_pos _ _ _ isDottedPoint_dot,
    hbefore.rtakeWhile, List.nil_append, List.singleton_append,
    List.dropWhile_cons_of_pos (by decide), (stopsAt_dot_of_isAlphanumeric hw).dropWhile]

/-- What stands behind a point that is not dropped is kept. -/
lemma suffix_dropWhile (t : Text) (hc : p c = false) (r : Text) :
    r <:+ (t ++ c :: r).dropWhile p := by
  induction t with
  | nil =>
    rw [List.nil_append, List.dropWhile_cons_of_neg (by simp [hc])]
    exact List.suffix_cons c r
  | cons d t ih =>
    rw [List.cons_append, List.dropWhile_cons]
    split
    · exact ih
    · exact (List.suffix_cons c r).trans (List.suffix_append (d :: t) (c :: r))

/-- A dot behind a letter or a numeral, and in front of the piece, stands in the word. -/
lemma dot_mem_wordAt (hne : w ≠ []) (hw : ∀ c ∈ w, c.isAlphanumeric)
    (hafter : after.StopsAt CodePoint.isAlphanumeric) (hi : i ≤ w.length) (hc : c.isAlphanumeric)
    (before : Text) :
    .scalar '.' ∈ wordAt (before ++ [c, .scalar '.'] ++ w ++ after)
      (lineBehind (before ++ [c, .scalar '.']))
      (offsetBehind (before ++ [c, .scalar '.']) + i) := by
  have hdotted : ∀ d ∈ [c, .scalar '.'], isDottedPoint d := by
    simp [isDottedPoint, hc]
  have hdot : (fun d : CodePoint => decide (d = .scalar '.')) c = false := by
    have hne : c ≠ .scalar '.' := by
      rintro rfl
      revert hc
      decide
    simpa using hne
  rw [wordAt_of_append hne hw hafter hi, rtakeWhile_append_of_forall hdotted, List.append_assoc]
  exact (suffix_dropWhile _ hdot _).subset (by simp)

end Text

end Idl
