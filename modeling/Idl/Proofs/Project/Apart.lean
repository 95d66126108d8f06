/-
# No module is a configuration

A module begins with the word `scala` and a colon.  In a configuration such a line would have to
go on with an equals sign, and what may stand in front of the word in a module, other than layout,
begins no line of a configuration either.  So a file that holds a module is no settings file
(`Toml.parse_eq_error_of_module`).
-/
import Idl.Proofs.Canonical.Comments
import Idl.Toml.Document

namespace Idl

variable {_ : Machine} {c x y : CodePoint} {gap r s t : Text} {m : Module}

/-! ### The front of a module -/

lemma Word.WrittenAs.eq_spelling {w : Keyword} (h : Word.WrittenAs (.keyword w, t) s) :
    s = w.spelling := by
  cases h
  rfl

/-- A text that holds a module begins with the word `scala` and a colon, with trivia in front of
each. -/
lemma Module.exists_front_of_parse (h : parse s = .ok m) :
    ∃ gap gap' r : Text, Trivia.Complete gap ∧ Trivia.Complete gap' ∧
      s = gap ++ (("scala" : Text) ++ (gap' ++ .scalar ':' :: r)) := by
  obtain ⟨us, stop, -, hm, hkinds⟩ := exists_tokens_of_parse h
  have hlaid : Laid .ordinary s.cut.lexemes s.cut.ending.text := (Text.laid_cutFrom .ordinary s).1
  have htext : s.cut.lexemes.flatMap Lexeme.text ++ s.cut.ending.text = s := Cutting.text_cut s
  obtain ⟨⟨hscala, hcolon, -⟩, -, -, -, -⟩ := hm
  simp only [List.cons_append, List.map_cons, hscala, hcolon] at hkinds
  generalize s.cut.lexemes = ls at hkinds hlaid htext
  -- the first two lexemes are the word and the colon
  rcases ls with _ | ⟨⟨gap, kind, value, spelling⟩, _ | ⟨⟨gap', kind', value', spelling'⟩, ls⟩⟩
  · cases hkinds
  · cases hkinds
  · obtain ⟨rfl, rfl, -⟩ : TokenKind.keyword .scala = kind ∧ TokenKind.mark .colon = kind' ∧ _ := by
      simpa using hkinds
    obtain _ | ⟨hgap, hword, -, -, _ | ⟨hgap', hword', -, -, -⟩⟩ := hlaid
    obtain rfl := hword.eq_spelling
    obtain rfl := hword'.of_mark.2
    refine ⟨gap, gap', ls.flatMap Lexeme.text ++ s.cut.ending.text, hgap, hgap',
      htext.symm.trans ?_⟩
    simp only [List.flatMap_cons, Lexeme.text, List.append_assoc, List.singleton_append]
    rfl

/-- Every break as it is read, but for the pairs that are joined already. -/
def CodePoint.plainBreak (c : CodePoint) : CodePoint := if c = '\r' then '\n' else c

lemma CodePoint.eq_of_plainBreak (h : c.plainBreak = x) (hx : x ≠ '\n') : c = x := by
  unfold plainBreak at h
  split at h
  · exact absurd h.symm hx
  · exact h

lemma Text.eq_of_map_plainBreak (h : s.map CodePoint.plainBreak = t)
    (ht : CodePoint.scalar '\n' ∉ t) : s = t := by
  subst h
  induction s with
  | nil => rfl
  | cons c s ih =>
    rw [List.map_cons, List.mem_cons, not_or] at ht
    exact congrArg₂ List.cons (CodePoint.eq_of_plainBreak rfl (Ne.symm ht.1)) (ih ht.2)

lemma CodePoint.isBlank_of_plainBreak (h : c.plainBreak.isBlank) : c.isBlank := by
  unfold plainBreak at h
  split at h
  · next hc => rw [hc]; decide
  · exact h

/-- In a configuration only the pairs are joined. -/
lemma Toml.Document.map_withJoinedBreaks (t : Text) :
    (withJoinedBreaks t).map CodePoint.plainBreak = t.withPlainBreaks := by
  fun_induction withJoinedBreaks t with
  | case1 => rfl
  | case2 c =>
    rw [Text.withPlainBreaks, List.map_singleton, CodePoint.plainBreak]
    split <;> rfl
  | case3 c d r h ih =>
    rw [Text.withPlainBreaks, if_pos h, List.map_cons, ih]
    rfl
  | case4 c d r h ih =>
    rw [Text.withPlainBreaks, if_neg h, List.map_cons, ih, CodePoint.plainBreak]
    split <;> rfl

/-- Blanks are control characters, the space, or no ASCII characters. -/
lemma CodePoint.toNat_of_isBlank (h : c.isBlank) : c.toNat ≤ 0x20 ∨ 0x80 ≤ c.toNat := by
  by_contra hn
  obtain ⟨hlow, hhigh⟩ : 0x20 < c.toNat ∧ c.toNat < 0x80 := by omega
  rw [isBlank, blankBands, Band.holds, if_neg (by simp only; omega), Band.holds,
    if_neg (by simp only; omega), Band.holds, if_pos (by simp only; omega)] at h
  simp only [Bool.and_eq_true, decide_eq_true_eq] at h
  omega

namespace Toml

/-- A code point that may stand around the first word of a module, and that no key holds. -/
def Foreign (c : CodePoint) : Prop := c.isBlank ∨ c = '/' ∨ c = ':'

/-- Names without marks are in ASCII. -/
lemma Key.toNat_of_isBare (h : Key.isBare c) : 0x20 < c.toNat ∧ c.toNat < 0x80 := by
  simp only [isBare, CodePoint.isDigit, CodePoint.isBetween, Bool.or_eq_true, Bool.and_eq_true,
    decide_eq_true_eq] at h
  rcases h with (((h | h) | h) | rfl) | rfl
  · simp only [Char.reduceToNat] at h
    omega
  · simp only [Char.reduceToNat] at h
    omega
  · simp only [Char.reduceToNat] at h
    omega
  · decide
  · decide

lemma Foreign.not_isBare (h : Foreign c) : Key.isBare c = false := by
  rcases h with h | rfl | rfl
  · by_contra hbare
    have hblank := CodePoint.toNat_of_isBlank h
    have hascii := Key.toNat_of_isBare (by simpa using hbare)
    omega
  · decide
  · decide

lemma Foreign.ne (h : Foreign c) : c ≠ '=' ∧ c ≠ '.' ∧ c ≠ '[' ∧ c ≠ '#' ∧ c ≠ '"' ∧ c ≠ '\'' := by
  refine ⟨?_, ?_, ?_, ?_, ?_, ?_⟩ <;> rintro rfl <;> revert h <;> unfold Foreign <;> decide

lemma foreign_of_head {gap : Text} (hgap : Trivia.Complete (x :: gap)) (h : c.plainBreak = x) :
    Foreign c := by
  rcases hgap.head x rfl with hx | rfl
  · exact .inl (CodePoint.isBlank_of_plainBreak (h ▸ hx))
  · exact .inr (.inl (CodePoint.eq_of_plainBreak h (by decide)))

/-- Behind layout in front of a code point that is none there is that code point, unless something
foreign comes before. -/
lemma exists_dropWhile {p : CodePoint → Bool} (hp : ∀ c, p c → c.isBlank)
    (hgap : Trivia.Complete gap) (hy : p y = false) (hbreak : y ≠ '\n')
    (hs : s.map CodePoint.plainBreak = gap ++ y :: r) :
    ∃ c rest, s.dropWhile p = c :: rest ∧ p c = false ∧
      (Foreign c ∨ (c :: rest).map CodePoint.plainBreak = y :: r) := by
  induction s generalizing gap with
  | nil => simp at hs
  | cons c s ih =>
    have hslash (hc : c.plainBreak = '/') : c = '/' := CodePoint.eq_of_plainBreak hc (by decide)
    by_cases hc : p c = true
    · rw [List.dropWhile_cons_of_pos hc]
      have hblank := hp c hc
      cases hgap with
      | nil =>
        -- the code point behind the trivia would be layout
        obtain ⟨hcy, -⟩ := List.cons.inj hs
        rw [CodePoint.eq_of_plainBreak hcy hbreak, hy] at hc
        cases hc
      | blank _ hgap => exact ih hgap (List.cons.inj hs).2
      | line | block =>
        rw [hslash (List.cons.inj hs).1] at hblank
        exact absurd hblank (by decide)
    · have hc : p c = false := by simpa using hc
      rw [List.dropWhile_cons_of_neg (by simp [hc])]
      refine ⟨c, s, rfl, hc, ?_⟩
      cases gap with
      | nil => exact .inr hs
      | cons g gap => exact .inl (foreign_of_head hgap (List.cons.inj hs).1)

/-! ### Lines -/

lemma isBlank_of_isSpacing (h : isSpacing c) : c.isBlank := by
  unfold isSpacing at h
  rcases Bool.or_eq_true_iff.1 h with h | h <;> rw [of_decide_eq_true h] <;> decide

lemma isBlank_of_isLayout (h : isLayout c) : c.isBlank := by
  rcases Bool.or_eq_true_iff.1 h with h | h
  · exact isBlank_of_isSpacing h
  · rw [of_decide_eq_true h]
    decide

lemma isLayout_of_isSpacing (h : isSpacing c) : isLayout c := by rw [isLayout, h]; rfl

lemma dropWhile_isLayout (s : Text) :
    (skipSpacing s).dropWhile isLayout = s.dropWhile isLayout := by
  unfold skipSpacing
  induction s with
  | nil => rfl
  | cons c s ih =>
    by_cases hc : isSpacing c
    · rw [List.dropWhile_cons_of_pos hc, ih, List.dropWhile_cons_of_pos (isLayout_of_isSpacing hc)]
    · rw [List.dropWhile_cons_of_neg hc]

/-- An entry needs a key and an equals sign. -/
lemma readEntry_of_key {levels : Nat}
    (h : ∀ key rest, Key.read? (skipSpacing s) = some (key, rest) →
      ∀ c ∈ rest.head?, c ≠ '=') : readEntry levels s = .error .malformed := by
  rw [readEntry]
  rcases hkey : Key.read? (skipSpacing s) with _ | ⟨key, _ | ⟨c, rest⟩⟩
  · rfl
  · rfl
  · have hc : ¬ (c = '=' ∧ (skipSpacing rest).length < s.length) := fun hc =>
      h key (c :: rest) hkey c rfl hc.1
    simp only [required, bind, Except.bind, dif_neg hc]
    rfl

lemma Key.read?_of_foreign (h : Foreign c) (r : Text) : Key.read? (c :: r) = none := by
  obtain ⟨-, -, -, -, hquote, happ⟩ := h.ne
  have hname : readName? (c :: r) = none := by
    rw [readName?, List.takeWhile_cons_of_neg (by simp [h.not_isBare]), if_pos rfl,
      Quoted.readLine?, if_neg hquote, if_neg happ]
  rw [read?, hname]

/-- A key that ends in front of something foreign has one name. -/
lemma Key.read?_of_isBare {w : Text} (hw : ∀ c ∈ w, isBare c) (hne : w ≠ [])
    (hs : ∀ c ∈ s.head?, Foreign c) (hx : skipSpacing s = x :: r) (hforeign : Foreign x) :
    Key.read? (w ++ s) = some ([w], x :: r) := by
  obtain ⟨c, s, rfl⟩ : ∃ c s', s = c :: s' := by
    cases s with
    | nil => cases hx
    | cons c s => exact ⟨c, s, rfl⟩
  have hbare : ¬ isBare c := by simp [(hs c rfl).not_isBare]
  have hname : readName? (w ++ c :: s) = some (w, c :: s) := by
    rw [readName?, List.takeWhile_append_of_pos hw, List.dropWhile_append_of_pos hw,
      List.takeWhile_cons_of_neg hbare, List.dropWhile_cons_of_neg hbare, List.append_nil,
      if_neg hne]
  rw [read?, hname]
  simp only [hx, if_neg hforeign.ne.2.1]

/-- A line that is read begins with a key. -/
lemma Document.readLine_cons (d : Document) (hnewline : c ≠ '\n') (hcomment : c ≠ '#')
    (hheader : c ≠ '[') (h : readEntry Machine.tables (c :: r) = .error .malformed) :
    d.readLine (c :: r) = .error .malformed := by
  rw [readLine, if_neg (by simp [hnewline, hcomment]), if_neg hheader, h]
  rfl

/-- What is foreign begins no line. -/
lemma Document.readLine_of_foreign (d : Document) (h : Foreign c) (hc : isLayout c = false)
    (r : Text) : d.readLine (c :: r) = .error .malformed := by
  have hnewline : c ≠ '\n' := by
    rintro rfl
    exact absurd hc (by decide)
  have hspacing : ¬ isSpacing c := fun hspacing => by
    rw [isLayout_of_isSpacing hspacing] at hc
    cases hc
  obtain ⟨-, -, hheader, hcomment, -, -⟩ := h.ne
  refine d.readLine_cons hnewline hcomment hheader (readEntry_of_key ?_)
  rw [skipSpacing, List.dropWhile_cons_of_neg hspacing, Key.read?_of_foreign h]
  simp

/-- Lines with layout only are passed over, and the first line that cannot be read is fatal. -/
lemma Document.readLines_of_error {d : Document} {f : Fault} (hne : s.dropWhile isLayout ≠ [])
    (h : d.readLine (s.dropWhile isLayout) = .error f) : d.readLines s = .error f := by
  induction hlength : s.length using Nat.strong_induction_on generalizing s with
  | _ n ih =>
    subst hlength
    have hs : s ≠ [] := by
      rintro rfl
      exact hne rfl
    rw [← dropWhile_isLayout] at hne h
    rw [readLines, if_neg (by simpa using hs)]
    rcases hskip : skipSpacing s with _ | ⟨c, r⟩
    · rw [hskip] at hne
      exact absurd rfl hne
    · rw [hskip] at hne h
      have hlength : (c :: r).length ≤ s.length := by
        rw [← hskip]
        exact (List.dropWhile_sublist _).length_le
      by_cases hc : c = '\n'
      · subst hc
        rw [List.dropWhile_cons_of_pos (by decide)] at hne h
        have hrest := ih r.length hlength hne h rfl
        have hline : d.readLine (.scalar '\n' :: r) = .ok (d, .scalar '\n' :: r) := by
          rw [readLine, if_pos (.inl rfl)]
        simp only [hline, bind, Except.bind, required, endLine?, if_true]
        rw [dif_pos (show r.length < s.length from hlength), hrest]
      · -- the line does not begin with layout
        have hspacing : isSpacing c = false := by
          have hhead := List.head?_dropWhile_not isSpacing s
          rw [show s.dropWhile isSpacing = c :: r from hskip] at hhead
          exact hhead
        have hlayout : ¬ isLayout c := by simp [isLayout, hspacing, hc]
        rw [List.dropWhile_cons_of_neg hlayout] at h
        simp only [h, bind, Except.bind]

/-- The word `scala` with a colon behind it begins no line. -/
lemma Document.readLine_of_header (d : Document) (hgap : Trivia.Complete gap)
    (hs : s.map CodePoint.plainBreak = ("scala" : Text) ++ (gap ++ .scalar ':' :: r)) :
    d.readLine s = .error .malformed := by
  obtain ⟨word, s', rfl, hword, hs'⟩ := List.map_eq_append_iff.1 hs
  obtain rfl := Text.eq_of_map_plainBreak hword (by decide)
  -- the key ends behind the word
  obtain ⟨x, rest, hdrop, -, hx⟩ := exists_dropWhile (p := isSpacing)
    (fun _ => isBlank_of_isSpacing) hgap (by decide) (by decide) hs'
  have hforeign : Foreign x := by
    rcases hx with hx | hx
    · exact hx
    · exact .inr (.inr (CodePoint.eq_of_plainBreak (List.cons.inj hx).1 (by decide)))
  have hhead : ∀ c ∈ s'.head?, Foreign c := by
    rintro c hc
    obtain ⟨s'', rfl⟩ := List.head?_eq_some_iff.1 hc
    cases gap with
    | nil => exact .inr (.inr (CodePoint.eq_of_plainBreak (List.cons.inj hs').1 (by decide)))
    | cons g gap => exact foreign_of_head hgap (List.cons.inj hs').1
  have hkey : Key.read? (("scala" : Text) ++ s') = some ([("scala" : Text)], x :: rest) :=
    Key.read?_of_isBare (by decide) (by decide) hhead hdrop hforeign
  refine d.readLine_cons (by decide) (by decide) (by decide) (readEntry_of_key ?_)
  rintro key rest' hread c hc
  have hskip : skipSpacing (("scala" : Text) ++ s') = ("scala" : Text) ++ s' :=
    List.dropWhile_cons_of_neg (by decide)
  obtain ⟨-, rfl⟩ : [("scala" : Text)] = key ∧ x :: rest = rest' := by
    simpa [hkey] using (congrArg Key.read? hskip).symm.trans hread
  obtain rfl : x = c := by simpa using hc
  exact hforeign.ne.1

/-- A text that holds a module, with its breaks as they are read from a file, is no
configuration. -/
lemma parse_eq_error_of_module (h : Module.parse t.withPlainBreaks = .ok m) :
    parse t = .error .malformed := by
  obtain ⟨gap, gap', r, hgap, hgap', htext⟩ := Module.exists_front_of_parse h
  rw [← Document.map_withJoinedBreaks] at htext
  obtain ⟨c, rest, hdrop, hlayout, hc⟩ := exists_dropWhile (p := isLayout)
    (fun _ => isBlank_of_isLayout) hgap (by decide) (by decide) htext
  have hline : Document.empty.readLine (c :: rest) = .error .malformed := by
    rcases hc with hc | hc
    · exact Document.readLine_of_foreign _ hc hlayout rest
    · exact Document.readLine_of_header _ hgap' hc
  rw [parse, Document.readLines_of_error (by simp [hdrop]) (by rw [hdrop]; exact hline)]
  rfl

end Toml

end Idl
