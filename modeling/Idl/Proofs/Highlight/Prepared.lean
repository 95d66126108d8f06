/-
# The tokens of the text that is highlighted

Before it is highlighted, a text gets plain line breaks, and exactly one of them at its end.  A
carriage return that stands alone may end up as a line break in a line comment or in a literal;
where all of them are parts of pairs, the tokens stay as they are (`Text.words_prepared`).
-/
import Idl.Proofs.Canonical.Comments
import Idl.Proofs.Highlight.Steps
import Idl.Proofs.Token.Partition

namespace Idl

variable {_ : Machine}

namespace Text

/-- Every carriage return is the first part of a pair `\r\n`. -/
def ReturnsPaired (s : Text) : Prop := ∀ front back : Text,
  s = front ++ .scalar '\r' :: back → .scalar '\n' ∈ back.head?

/-- The text without carriage returns. -/
def withoutReturns (s : Text) : Text := s.filter (· ≠ .scalar '\r')

variable {c : CodePoint} {r s t u v w : Text}

lemma withoutReturns_append (s t : Text) :
    (s ++ t).withoutReturns = s.withoutReturns ++ t.withoutReturns :=
  List.filter_append s t

lemma withoutReturns_cons (hc : c ≠ .scalar '\r') (s : Text) :
    withoutReturns (c :: s) = c :: s.withoutReturns := List.filter_cons_of_pos (by simp [hc])

lemma withoutReturns_return (s : Text) :
    withoutReturns (.scalar '\r' :: s) = s.withoutReturns := List.filter_cons_of_neg (by simp)

lemma withoutReturns_of_not_mem (h : .scalar '\r' ∉ s) : s.withoutReturns = s :=
  List.filter_eq_self.2 fun c hc => by
    rw [decide_eq_true_eq]
    rintro rfl
    exact h hc

lemma ReturnsPaired.right (h : ReturnsPaired (u ++ v)) : ReturnsPaired v :=
  fun front back hv => h (u ++ front) back (by rw [hv, List.append_assoc])

lemma ReturnsPaired.head (h : ReturnsPaired (.scalar '\r' :: s)) : .scalar '\n' ∈ s.head? :=
  h [] s rfl

lemma returnsPaired_of_not_mem (h : .scalar '\r' ∉ s) : s.ReturnsPaired := by
  rintro front back rfl
  simp at h

/-- Plain line breaks are put in by leaving out carriage returns. -/
lemma withPlainBreaks_of_paired (h : s.ReturnsPaired) : s.withPlainBreaks = s.withoutReturns := by
  fun_induction withPlainBreaks s with
  | case1 => rfl
  | case2 => exact absurd h.head (by simp)
  | case3 c hc => exact (withoutReturns_cons hc []).symm
  | case4 c d r hpair ih =>
    obtain ⟨rfl, rfl⟩ := hpair
    rw [withoutReturns_return, withoutReturns_cons (by decide)]
    exact congrArg _ (ih (ReturnsPaired.right (u := [.scalar '\r', .scalar '\n']) h))
  | case5 d r hd => exact absurd h.head (by simpa using hd)
  | case6 c d r _ hc ih => rw [withoutReturns_cons hc, ih (ReturnsPaired.right (u := [c]) h)]

lemma mem_of_mem_withPlainBreaks (h : c ∈ s.withPlainBreaks) : c ∈ s ∨ c = .scalar '\n' := by
  have hcons {d : CodePoint} {r r' : Text} (hc : c ∈ d :: r')
      (ih : c ∈ r' → c ∈ r ∨ c = .scalar '\n') : c = d ∨ c ∈ r ∨ c = .scalar '\n' :=
    (List.mem_cons.1 hc).imp id ih
  fun_induction withPlainBreaks s with
  | case1 => cases h
  | case2 => exact .inr (by simpa using h)
  | case3 => exact .inl h
  | case4 d e r _ ih =>
    rcases hcons h ih with rfl | hr | rfl
    · exact .inr rfl
    · exact .inl (by simp [hr])
    · exact .inr rfl
  | case5 e r _ ih =>
    rcases hcons h ih with rfl | hr | rfl
    · exact .inr rfl
    · exact .inl (List.mem_cons_of_mem _ hr)
    · exact .inr rfl
  | case6 d e r _ _ ih =>
    rcases hcons h ih with rfl | hr | rfl
    · exact .inl (by simp)
    · exact .inl (List.mem_cons_of_mem _ hr)
    · exact .inr rfl

/-- What begins a text without carriage returns. -/
lemma head_withoutReturns (h : s.ReturnsPaired) (hc : c ∈ s.withoutReturns.head?) :
    c ∈ s.head? ∨ c = .scalar '\n' := by
  cases s with
  | nil => cases hc
  | cons d s =>
    by_cases hd : d = .scalar '\r'
    · subst hd
      obtain ⟨s, rfl⟩ := List.head?_eq_some_iff.1 h.head
      rw [withoutReturns_return, withoutReturns_cons (by decide)] at hc
      exact .inr (Option.some.inj hc).symm
    · rw [withoutReturns_cons hd] at hc
      exact .inl hc

end Text

open Text

/-- The lexeme with its gap without carriage returns. -/
def Lexeme.withoutReturns (l : Lexeme) : Lexeme := { l with gap := l.gap.withoutReturns }

variable {back body last r s t w : Text} {ctx : Context} {k : TokenKind} {l : Lexeme}
  {ls : List Lexeme} {value : Text}

/-! ### Gaps without carriage returns -/

namespace Trivia

/-- The end of a block comment, in a text whose carriage returns are paired. -/
lemma Closes.withoutReturns (h : Closes t) (hpaired : (t ++ r).ReturnsPaired) :
    Closes t.withoutReturns := by
  induction h generalizing r with
  | mark => exact .mark
  | @point c t hc ht ih =>
    have hmore : (t ++ r).ReturnsPaired := .right (u := [c]) hpaired
    have hclosed := ih hmore
    by_cases hreturn : c = .scalar '\r'
    · rwa [hreturn, withoutReturns_return]
    · rw [withoutReturns_cons hreturn]
      refine .point ?_ hclosed
      -- behind the code point there is the same one as before, or a line break
      have hhead : ∀ d ∈ t.withoutReturns.head?, d ∈ t.head? ∨ d = .scalar '\n' := by
        intro d hd
        have hd' : d ∈ (t ++ r).withoutReturns.head? := by
          rwa [withoutReturns_append, List.head?_append_of_ne_nil _ hclosed.ne_nil]
        have hfront : (t ++ r).head? = t.head? := List.head?_append_of_ne_nil _ ht.ne_nil
        rw [← hfront]
        exact head_withoutReturns hmore hd'
      obtain ⟨hopen, hclose⟩ := hc
      refine ⟨fun h => hopen ⟨h.1, ?_⟩, fun h => hclose ⟨h.1, ?_⟩⟩
      · exact (hhead _ h.2).resolve_right (by decide)
      · exact (hhead _ h.2).resolve_right (by decide)
  | @nested t u ht hu iht ihu =>
    have hmore : (t ++ (u ++ r)).ReturnsPaired :=
      .right (u := [.scalar '/', .scalar '*']) (by simpa using hpaired)
    rw [withoutReturns_cons (by decide), withoutReturns_cons (by decide), withoutReturns_append]
    exact .nested (iht hmore) (ihu hmore.right)

lemma Complete.withoutReturns (h : Complete w) (hpaired : (w ++ r).ReturnsPaired) :
    Complete w.withoutReturns := by
  induction h with
  | nil => exact .nil
  | @blank c t hc ht ih =>
    have hmore := ih (.right (u := [c]) hpaired)
    by_cases hreturn : c = .scalar '\r'
    · rwa [hreturn, withoutReturns_return]
    · rw [withoutReturns_cons hreturn]
      exact .blank hc hmore
  | @line body t hbody ht ih =>
    have hmore := ih (.right (u := .scalar '/' :: .scalar '/' :: (body ++ [.scalar '\n']))
      (by simpa using hpaired))
    rw [withoutReturns_cons (by decide), withoutReturns_cons (by decide), withoutReturns_append,
      withoutReturns_cons (by decide)]
    exact .line (fun hmem => hbody (List.mem_of_mem_filter hmem)) hmore
  | @block body t hbody ht ih =>
    have hmore : (body ++ (t ++ r)).ReturnsPaired :=
      .right (u := [.scalar '/', .scalar '*']) (by simpa using hpaired)
    rw [withoutReturns_cons (by decide), withoutReturns_cons (by decide), withoutReturns_append]
    exact .block (hbody.withoutReturns hmore) (ih hmore.right)

lemma Final.withoutReturns (h : Final w) (hpaired : w.ReturnsPaired) : Final w.withoutReturns := by
  rcases h with h | ⟨t, body, ht, hbody, rfl⟩
  · exact .inl (h.withoutReturns (r := []) (by rwa [List.append_nil]))
  · refine .inr ⟨t.withoutReturns, body.withoutReturns, ht.withoutReturns hpaired,
      fun hmem => hbody (List.mem_of_mem_filter hmem), ?_⟩
    rw [withoutReturns_append, withoutReturns_cons (by decide), withoutReturns_cons (by decide)]

/-! ### Line breaks at the end of trivia -/

lemma complete_of_isBlank (h : ∀ c ∈ w, c.isBlank) : Complete w := by
  induction w with
  | nil => exact .nil
  | cons c w ih =>
    obtain ⟨hc, hw⟩ := List.forall_mem_cons.1 h
    exact .blank hc (ih hw)

lemma Closes.getLast? (h : Closes t) : t.getLast? = some (.scalar '/') := by
  induction h with
  | mark => rfl
  | point _ ht ih => rw [List.getLast?_cons, ih]; rfl
  | @nested t u _ hu _ ih =>
    rw [List.getLast?_cons, List.getLast?_cons, List.getLast?_append_of_ne_nil _ hu.ne_nil, ih]
    rfl

/-- The last line break of trivia may be left out. -/
lemma final_of_complete_break (h : Complete t) (hw : t = w ++ [.scalar '\n']) : Final w := by
  induction h generalizing w with
  | nil => simp at hw
  | @blank c t hc ht ih =>
    cases w with
    | nil => exact .inl .nil
    | cons d w =>
      obtain ⟨rfl, rfl⟩ := List.cons.inj hw
      exact Complete.append_final (.blank hc .nil) (ih rfl)
  | @line body t hbody ht ih =>
    rcases t.eq_nil_or_concat' with rfl | ⟨t, c, rfl⟩
    · have hline : w = .scalar '/' :: .scalar '/' :: body := by
        rw [← List.append_left_inj [.scalar '\n'], ← hw]
        simp
      exact .inr ⟨[], body, .nil, hbody, hline⟩
    · have hsplit : .scalar '/' :: .scalar '/' :: (body ++ .scalar '\n' :: t) ++ [c] =
          w ++ [.scalar '\n'] := by rw [← hw]; simp
      obtain ⟨rfl, hc⟩ := List.append_inj' hsplit rfl
      have hline : Complete (.scalar '/' :: .scalar '/' :: (body ++ [.scalar '\n'])) :=
        .line hbody .nil
      simpa using hline.append_final (ih (by rw [hc]))
  | @block body t hbody ht ih =>
    rcases t.eq_nil_or_concat' with rfl | ⟨t, c, rfl⟩
    · have hlast := congrArg List.getLast? hw
      rw [List.append_nil, List.getLast?_cons, List.getLast?_cons, hbody.getLast?,
        List.getLast?_concat] at hlast
      exact absurd hlast (by decide)
    · have hsplit : .scalar '/' :: .scalar '*' :: (body ++ t) ++ [c] =
          w ++ [.scalar '\n'] := by rw [← hw]; simp
      obtain ⟨rfl, hc⟩ := List.append_inj' hsplit rfl
      have hblock : Complete (.scalar '/' :: .scalar '*' :: (body ++ [])) := .block hbody .nil
      simpa using hblock.append_final (ih (by rw [hc]))

lemma Final.of_break (h : Final (w ++ [.scalar '\n'])) : Final w := by
  rcases h with h | ⟨t, body, -, hbody, hsplit⟩
  · exact final_of_complete_break h rfl
  · -- no line comment that is open ends with a line break
    have hlast := congrArg List.getLast? hsplit
    rcases body.eq_nil_or_concat' with rfl | ⟨body, c, rfl⟩
    · simp at hlast
    · rw [← List.cons_append, ← List.cons_append, ← List.append_assoc, List.getLast?_concat,
        List.getLast?_concat] at hlast
      rw [← Option.some.inj hlast] at hbody
      simp at hbody

/-- At the end of trivia the line breaks may be changed for a single one. -/
lemma Final.append_break (h : Final (w ++ back)) (hback : ∀ c ∈ back, c = .scalar '\n') :
    Final (w ++ "\n") := by
  induction back using List.reverseRecOn with
  | nil =>
    rw [List.append_nil] at h
    rcases h with h | ⟨t, body, ht, hbody, rfl⟩
    · exact .inl (h.append (.blank (by decide) .nil))
    · rw [List.append_assoc]
      exact .inl (ht.append (.line hbody .nil))
  | append_singleton back c ih =>
    obtain rfl := hback c (by simp)
    rw [← List.append_assoc] at h
    exact ih h.of_break fun c hc => hback c (by simp [hc])

end Trivia

/-! ### Lexemes without carriage returns -/

lemma Word.WrittenAs.last_ne_return (h : Word.WrittenAs (k, value) t) :
    ∀ c ∈ t.getLast?, c ≠ .scalar '\r' := by
  cases h with
  | keyword w => cases w <;> decide
  | mark m => cases m <;> decide
  | lowerName ht | upperName ht =>
    rintro c hc rfl
    exact absurd (ht.isAlphanumeric _ (List.mem_of_mem_getLast? hc)) (by decide)
  | packageName ht =>
    rintro c hc rfl
    exact absurd (ht.isPackagePoint _ (List.mem_of_mem_getLast? hc)) (by decide)
  | string =>
    rw [← List.cons_append, List.getLast?_concat]
    rintro c ⟨⟩
    decide

/-- A spelling holds no carriage return that is paired, since it holds no line break. -/
lemma Word.WrittenAs.withoutReturns (h : Word.WrittenAs (k, value) t)
    (hpaired : (t ++ r).ReturnsPaired) : t.withoutReturns = t := by
  refine withoutReturns_of_not_mem fun hmem => ?_
  obtain ⟨front, back, rfl⟩ := List.append_of_mem hmem
  rcases back with _ | ⟨c, back⟩
  · exact h.last_ne_return (.scalar '\r') (by simp) rfl
  · obtain rfl : c = .scalar '\n' := Option.some.inj (hpaired front (c :: back ++ r) (by simp))
    exact h.break_not_mem (by simp)

lemma Laid.withoutReturns (h : Laid ctx ls r)
    (hpaired : ReturnsPaired (ls.flatMap Lexeme.text ++ r)) :
    Laid ctx (ls.map Lexeme.withoutReturns) r.withoutReturns ∧
      (ls.map Lexeme.withoutReturns).flatMap Lexeme.text =
        Text.withoutReturns (ls.flatMap Lexeme.text) := by
  induction h with
  | nil => exact ⟨.nil, rfl⟩
  | @cons ctx l ls r hgap hword hctx hstop _ ih =>
    rw [List.flatMap_cons, List.append_assoc, Lexeme.text, List.append_assoc] at hpaired
    have hspelling := hword.withoutReturns hpaired.right
    obtain ⟨hlaid, htext⟩ := ih hpaired.right.right
    refine ⟨.cons (hgap.withoutReturns hpaired) hword hctx (fun c hc => ?_) hlaid, ?_⟩
    · rw [htext, ← withoutReturns_append] at hc
      rcases head_withoutReturns hpaired.right.right hc with hc | rfl
      · exact hstop c hc
      · exact l.kind.continuedBy_eq_false (.inl (by decide))
    · rw [List.map_cons, List.flatMap_cons, List.flatMap_cons, htext, withoutReturns_append,
        Lexeme.text, Lexeme.text, withoutReturns_append, hspelling]
      rfl

/-- A text without faults is cut at the same places without carriage returns. -/
lemma Text.cut_withoutReturns (hcut : s.cut = ⟨ls, .clean last⟩) (hpaired : s.ReturnsPaired) :
    s.withoutReturns.cut = ⟨ls.map Lexeme.withoutReturns, .clean last.withoutReturns⟩ := by
  obtain ⟨rfl, hlayout⟩ := cut_eq_clean_iff.1 hcut
  obtain ⟨hlaid, htext⟩ := hlayout.laid.withoutReturns hpaired
  rw [withoutReturns_append, ← htext]
  exact cut_eq_clean_iff.2 ⟨rfl, hlaid.layout (hlayout.last.withoutReturns hpaired.right)⟩

/-! ### Line breaks at the ends of a text -/

/-- No token ends with a line break. -/
lemma ne_break_of_written (h : ∀ l ∈ ls, l.word.WrittenAs l.spelling) :
    ∀ c ∈ (ls.flatMap Lexeme.text).getLast?, c ≠ .scalar '\n' := by
  rcases ls.eq_nil_or_concat' with rfl | ⟨ls, l, rfl⟩
  · simp
  · have hword := h l (by simp)
    rw [List.flatMap_append, List.flatMap_singleton, Lexeme.text, ← List.append_assoc,
      List.getLast?_append_of_ne_nil _ hword.ne_nil]
    rintro c hc rfl
    exact hword.break_not_mem (List.mem_of_mem_getLast? hc)

/-- Line breaks behind a text that ends with none belong to what stands behind the tokens. -/
lemma exists_append_of_breaks (h : ∀ l ∈ ls, l.word.WrittenAs l.spelling)
    (hback : ∀ c ∈ back, c = .scalar '\n')
    (hsplit : t ++ back = ls.flatMap Lexeme.text ++ last) :
    ∃ w, t = ls.flatMap Lexeme.text ++ w ∧ last = w ++ back := by
  rcases List.append_eq_append_iff.1 hsplit with ⟨u, hls, hu⟩ | ⟨w, ht, hlast⟩
  · rcases u.eq_nil_or_concat' with rfl | ⟨u, c, rfl⟩
    · exact ⟨[], by rw [hls]; simp, by simpa using hu.symm⟩
    · -- the breaks would reach into the last token
      have hc : c = .scalar '\n' := hback c (by simp [hu])
      exact absurd hc (ne_break_of_written h c (by rw [hls, ← List.append_assoc]; simp))
  · exact ⟨w, ht, hlast⟩

/-- The line breaks at the end of a text without faults may be changed for a single one. -/
lemma Text.exists_cut_append_break (hcut : (t ++ back).cut = ⟨ls, .clean last⟩)
    (hback : ∀ c ∈ back, c = .scalar '\n') : ∃ last', (t ++ "\n").cut = ⟨ls, .clean last'⟩ := by
  obtain ⟨htext, hlayout⟩ := cut_eq_clean_iff.1 hcut
  obtain ⟨w, rfl, rfl⟩ := exists_append_of_breaks hlayout.written hback htext
  have hlast : Trivia.Final (w ++ "\n") := hlayout.last.append_break hback
  refine ⟨w ++ "\n", cut_eq_clean_iff.2 ⟨List.append_assoc _ _ _, ?_⟩⟩
  exact { hlayout with last := hlast }

/-- Only line breaks are put into a text before it is highlighted. -/
lemma Highlight.mem_of_mem_prepared {c : CodePoint} (h : c ∈ prepared s) :
    c ∈ s ∨ c = .scalar '\n' := by
  have hmark (hc : c ∈ withoutMark s) : c ∈ s := by
    cases s with
    | nil => cases hc
    | cons d s =>
      rw [withoutMark] at hc
      split at hc
      · exact List.mem_cons_of_mem d hc
      · exact hc
  rcases List.mem_append.1 h with hc | hc
  · obtain ⟨front, back, hsplit, -⟩ := exists_trimBreaks (withoutMark s).withPlainBreaks
    exact (mem_of_mem_withPlainBreaks (by rw [hsplit]; simp [hc])).imp hmark id
  · exact .inr (List.mem_singleton.1 hc)

/-- A text without faults keeps its words when line breaks are cut off its ends. -/
lemma Text.words_trimBreaks (hcut : s.cut = ⟨ls, .clean last⟩) :
    Cutting.words (Text.cut (Highlight.trimBreaks s ++ "\n")) = s.cut.words := by
  obtain ⟨front, back, hsplit, hends, -⟩ := Highlight.exists_trimBreaks s
  obtain ⟨hfront, hback⟩ := List.forall_mem_append.1 hends
  generalize Highlight.trimBreaks s = body at hsplit ⊢
  have hprepend : s.cut = (Text.cut (body ++ back)).prepend front := by
    rw [hsplit, List.append_assoc]
    refine cutFrom_append_complete (Trivia.complete_of_isBlank fun c hc => ?_) _
    rw [hfront c hc]
    decide
  rw [hprepend] at hcut ⊢
  rw [Cutting.words_prepend]
  obtain ⟨ls', last', hclean⟩ : ∃ ls' last', Text.cut (body ++ back) = ⟨ls', .clean last'⟩ := by
    rcases h : Text.cut (body ++ back) with ⟨_ | ⟨l, ls'⟩, last' | _⟩
    · exact ⟨_, _, rfl⟩
    · rw [h] at hcut; cases hcut
    · exact ⟨_, _, rfl⟩
    · rw [h] at hcut; cases hcut
  obtain ⟨last'', hbreak⟩ := exists_cut_append_break hclean hback
  rw [hclean, hbreak]
  rfl

/-- A text without faults keeps the words of its tokens when it is prepared for highlighting, if its
carriage returns are paired and no byte order mark stands in front. -/
theorem Text.words_prepared (hcut : s.cut = ⟨ls, .clean last⟩) (hpaired : s.ReturnsPaired)
    (hmark : ∀ c ∈ s.head?, c.toNat ≠ 0xFEFF) :
    (Highlight.prepared s).tokens.map Token.word = s.tokens.map Token.word := by
  have hplain : (Highlight.withoutMark s).withPlainBreaks = s.withoutReturns := by
    cases s with
    | nil => rfl
    | cons c s =>
      rw [Highlight.withoutMark, if_neg (hmark c rfl)]
      exact withPlainBreaks_of_paired hpaired
  have hclean := cut_withoutReturns hcut hpaired
  rw [words_tokens, words_tokens, Highlight.prepared, hplain, words_trimBreaks hclean, hclean, hcut,
    Cutting.words, Cutting.words, List.map_map]
  rfl

end Idl
