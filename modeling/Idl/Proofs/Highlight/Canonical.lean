/-
# Highlighting a canonical text

A canonical text has nothing but blanks between its tokens, so the machine shows them one after the
other.  Without the blanks, and with the parts of each literal joined, its pieces are the tokens of
the text in order, each in the style of its kind (`Module.highlight_render`).
-/
import Idl.Proofs.Canonical.Blanks
import Idl.Proofs.Canonical.Points
import Idl.Proofs.Canonical.ReadBack
import Idl.Proofs.Highlight.Prepared
import Idl.Proofs.Highlight.Rows

namespace Idl

variable {_ : Machine}

namespace Highlight

/-- The pieces, with all parts of a literal joined to one. -/
def joinLiterals : List Piece → List Piece
  | [] => []
  | p :: ps =>
    if p.isLiteral then
      ⟨.string, textOf (p :: ps.takeWhile Piece.isLiteral)⟩ ::
        joinLiterals (ps.dropWhile Piece.isLiteral)
    else p :: joinLiterals ps
termination_by ps => ps.length
decreasing_by
  · exact Nat.lt_succ_of_le (List.dropWhile_sublist _).length_le
  · simp

/-- The pieces that are no blanks, with all parts of a literal joined to one. -/
def tokenPieces (ps : List Piece) : List Piece := (joinLiterals ps).filter (·.style ≠ .text)

/-- One piece for each lexeme, behind a token of a kind. -/
def styled : TokenKind → List Lexeme → List Piece
  | _, [] => []
  | k, l :: ls => ⟨styleAfter k l.kind, l.spelling⟩ :: styled l.kind ls

variable {j k : TokenKind} {l : Lexeme} {ls : List Lexeme} {p : Piece} {ps qs ts : List Piece}
  {s t w : Text}

/-! ### Pieces and tokens -/

lemma joinLiterals_append (hps : ∀ p ∈ ps, p.isLiteral = false) (qs : List Piece) :
    joinLiterals (ps ++ qs) = ps ++ joinLiterals qs := by
  induction ps with
  | nil => rfl
  | cons p ps ih =>
    obtain ⟨hp, hps⟩ := List.forall_mem_cons.1 hps
    rw [List.cons_append, joinLiterals, if_neg (by simp [hp]), ih hps, List.cons_append]

/-- The parts of a literal are joined. -/
lemma joinLiterals_literal (hps : ∀ p ∈ ps, p.isLiteral) (hne : ps ≠ [])
    (hqs : ∀ q ∈ qs.head?, q.isLiteral = false) :
    joinLiterals (ps ++ qs) = ⟨.string, textOf ps⟩ :: joinLiterals qs := by
  obtain ⟨p, ps, rfl⟩ := List.exists_cons_of_ne_nil hne
  obtain ⟨hp, hps⟩ := List.forall_mem_cons.1 hps
  have htake : qs.takeWhile Piece.isLiteral = [] ∧ qs.dropWhile Piece.isLiteral = qs := by
    cases qs with
    | nil => exact ⟨rfl, rfl⟩
    | cons q qs => simp [hqs q rfl]
  rw [List.cons_append, joinLiterals, if_pos hp, List.takeWhile_append_of_pos hps,
    List.dropWhile_append_of_pos hps, htake.1, htake.2, List.append_nil]

lemma isLiteral_of_text (h : p.style = .text) : p.isLiteral = false := by
  simp [Piece.isLiteral, h]

lemma tokenPieces_append (hps : ∀ p ∈ ps, p.style = .text) (qs : List Piece) :
    tokenPieces (ps ++ qs) = tokenPieces qs := by
  rw [tokenPieces, joinLiterals_append fun p hp => isLiteral_of_text (hps p hp), List.filter_append,
    List.filter_eq_nil_iff.2 fun p hp => by simp [hps p hp]]
  rfl

/-- Only literals are highlighted as such, and nothing is highlighted as text between tokens. -/
lemma styleAfter_ne (j : TokenKind) (h : k ≠ .string) :
    styleAfter j k ≠ .string ∧ styleAfter j k ≠ .escape ∧ styleAfter j k ≠ .text := by
  cases k with
  | keyword w => cases w <;> simp [styleAfter, keywordStyle]
  | mark m => cases m <;> simp [styleAfter, markStyle]
  | string => exact absurd rfl h
  | lowerName =>
    rw [styleAfter]
    split <;> decide
  | _ => simp [styleAfter]

/-- Behind a literal another piece begins that is no part of one. -/
lemma ShowAll.head_isLiteral (h : ShowAll .string ls ps) (hbare : ∀ l ∈ ls, l.IsBare)
    (hts : ∀ p ∈ ts, p.style = .text) : ∀ p ∈ (ps ++ ts).head?, p.isLiteral = false := by
  cases h with
  | nil => exact fun p hp => isLiteral_of_text (hts p (List.mem_of_mem_head? hp))
  | @cons _ l ls _ more hl hk =>
    obtain ⟨gs, qs, rfl, hgs, -, hqs, -⟩ := hl
    have htext := hgs.bare (hbare l (by simp))
    rw [hqs (hk rfl)]
    cases gs with
    | nil =>
      intro p hp
      obtain rfl := Option.some.inj hp
      obtain ⟨hstring, hescape, -⟩ := styleAfter_ne .string (hk rfl)
      simp [Piece.isLiteral, hstring, hescape]
    | cons g gs =>
      intro p hp
      obtain rfl := Option.some.inj hp
      exact isLiteral_of_text (htext _ (by simp))

/-- Pieces that show bare lexemes are one for each lexeme. -/
lemma tokenPieces_of_showAll (h : ShowAll j ls ps) (hbare : ∀ l ∈ ls, l.IsBare)
    (hne : ∀ l ∈ ls, l.spelling ≠ []) (hts : ∀ p ∈ ts, p.style = .text) :
    tokenPieces (ps ++ ts) = styled j ls := by
  induction h with
  | nil =>
    have htokens := tokenPieces_append hts []
    rw [List.append_nil] at htokens
    exact htokens.trans (by simp [tokenPieces, joinLiterals, styled])
  | @cons j l ls _ more hl hk hmore ih =>
    obtain ⟨hbl, hbare⟩ := List.forall_mem_cons.1 hbare
    obtain ⟨hnl, hne⟩ := List.forall_mem_cons.1 hne
    obtain ⟨gs, qs, rfl, hgs, htext, hqs, hliteral⟩ := hl
    rw [List.append_assoc, List.append_assoc, tokenPieces_append (hgs.bare hbl), styled,
      ← ih hbare hne]
    by_cases hstring : l.kind = .string
    · rw [hstring] at hmore
      have hqsNe : qs ≠ [] := by
        rintro rfl
        exact hnl htext.symm
      rw [tokenPieces, joinLiterals_literal (hliteral hstring) hqsNe
        (hmore.head_isLiteral hbare hts), htext, hstring]
      rfl
    · obtain ⟨hstringStyle, hescape, htextStyle⟩ := styleAfter_ne j hstring
      rw [hqs hstring, tokenPieces, joinLiterals_append (by simp [Piece.isLiteral, *])]
      simp [tokenPieces, htextStyle]

end Highlight

open Highlight

variable {form : Formatter} {last : Text} {m : Module}

/-- A word is written as it is read, unless it is a literal. -/
lemma Word.WrittenAs.eq_value {v : Word} (h : v.WrittenAs t) (hv : v.1 ≠ .string) : t = v.2 := by
  cases h with
  | string => exact absurd rfl hv
  | _ => rfl

namespace Module

/-- The canonical text of a module is cut into lexemes with the words of the module. -/
lemma exists_cut_render (h : m.WellFormed) (form : Formatter) : ∃ ls last,
    (m.render form).cut = ⟨ls, .clean last⟩ ∧ ls.map Lexeme.word = m.words := by
  have hspells := spells_render h form [] (by decide)
  rw [List.append_nil, Text.wordsFrom_nil, Option.map_some, List.append_nil,
    Text.wordsFrom, ← Text.cut] at hspells
  rcases hcut : (m.render form).cut with ⟨ls, last | _⟩
  · rw [hcut] at hspells
    exact ⟨ls, last, rfl, Option.some.inj hspells⟩
  · rw [hcut] at hspells
    cases hspells

/-- The kinds of the words of a module are a row. -/
lemma exists_rows_words (h : m.WellFormed) :
    ∃ (es : List (List TokenKind)) (ks : List TokenKind), m.words.map Prod.fst = es.flatten ++ ks ∧
      (∀ e ∈ es, TokenKind.IsEntry e) ∧ TokenKind.BodyRow ks := by
  have hts : (m.words.map fun w => (⟨w.1, w.2, default⟩ : Token)).map Token.word = m.words := by
    rw [List.map_map]
    exact List.map_id _
  obtain ⟨_, hm, -⟩ := Module.given h _ hts
  obtain ⟨es, ks, hkinds, hes, hrow, -⟩ := hm.exists_rows
  rw [List.map_map] at hkinds
  exact ⟨es, ks, hkinds, hes, hrow⟩

/-- Only breaks at the end are cut off a canonical text before it is highlighted. -/
lemma exists_prepared_render (h : m.WellFormed)
    (hcut : (m.render form).cut = ⟨ls, .clean last⟩) : ∃ last',
      prepared (m.render form) = ls.flatMap Lexeme.text ++ last' ∧ ∀ c ∈ last', c.isBlank := by
  obtain ⟨htext, hlayout⟩ := Text.cut_eq_clean_iff.1 hcut
  obtain ⟨-, hlast⟩ := isBlank_of_cut_render h hcut
  obtain ⟨u, hu⟩ : ∃ u, m.render form = .scalar 's' :: u := by
    rw [render, sections, List.cons_append, List.cons_append, Text.join_cons, renderHeader]
    exact ⟨_, rfl⟩
  have hmark : withoutMark (m.render form) = m.render form := by
    rw [hu]
    rfl
  obtain ⟨front, back, hsplit, hends, -⟩ := exists_trimBreaks (m.render form)
  obtain ⟨hfront, hback⟩ := List.forall_mem_append.1 hends
  have hnone : front = [] := by
    cases front with
    | nil => rfl
    | cons c front =>
      rw [hu] at hsplit
      obtain rfl : .scalar 's' = c := (List.cons.inj hsplit).1
      exact absurd (hfront (.scalar 's') (by simp)) (by decide)
  rw [hnone, List.nil_append] at hsplit
  obtain ⟨w, htrim, rfl⟩ :=
    exists_append_of_breaks hlayout.written hback (hsplit.symm.trans htext)
  refine ⟨w ++ "\n", ?_, ?_⟩
  · rw [prepared, hmark, withPlainBreaks_render h, htrim, List.append_assoc]
  · exact List.forall_mem_append.2 ⟨fun c hc => hlast c (by simp [hc]), by decide⟩

/-- The pieces of a canonical text, at every indentation that can be written, are its tokens, if
only the values of parameters are not in ASCII: without blanks, and with the parts of each literal
joined, they are the spellings of the tokens in order, in the styles of their kinds.  Nothing is
stray, and the machine comes back to its first state. -/
theorem highlight_render (h : m.WellFormed)
    (hascii : ∀ w ∈ m.words, w.1 ≠ .string → ∀ c ∈ w.2, c.toNat < 0x80) {n : Int}
    (hn : Text.IsWidth n) :
    ∃ form ls last, Formatter.ofIndent n = .ok form ∧
      Partition (m.render form) ls last ∧ ls.map Lexeme.word = m.words ∧
      tokenPieces (m.render form).highlight = styled .endOfInput ls ∧
      (∀ p ∈ (m.render form).highlight, p.style ≠ .stray) ∧
      ∃ b, Leads (.start (prepared (m.render form))) (m.render form).highlight ⟨[], b, []⟩ := by
  obtain ⟨form, hform⟩ := Formatter.exists_ofIndent hn
  obtain ⟨ls, last, hcut, hwords⟩ := exists_cut_render h form
  obtain ⟨-, hlayout⟩ := Text.cut_eq_clean_iff.1 hcut
  obtain ⟨hbare, -⟩ := isBlank_of_cut_render h hcut
  obtain ⟨last', hprepared, hlast'⟩ := exists_prepared_render h hcut
  obtain ⟨es, ks, hkinds, hes, hrow⟩ := exists_rows_words h
  have hlsKinds : ls.map Lexeme.kind = es.flatten ++ ks := by
    rw [← hkinds, ← hwords, List.map_map]
    rfl
  have hlsAscii : ∀ l ∈ ls, l.kind ≠ .string → ∀ c ∈ l.spelling, c.toNat < 0x80 := by
    intro l hl hk c hc
    rw [(hlayout.written l hl).eq_value hk] at hc
    exact hascii l.word (hwords ▸ List.mem_map_of_mem hl) hk c hc
  have hlaid : Laid .ordinary ls last' :=
    Layout.laid { hlayout with last := .inl (Trivia.complete_of_isBlank hlast') }
  have hunderscore : ∀ c ∈ last'.head?, c ≠ .scalar '_' :=
    ne_underscore_of_trivia fun c hc => .inl (hlast' c (List.mem_of_mem_head? hc))
  obtain ⟨ps, b, hleads, hshow⟩ := exists_leads_rows (b := none) (j := .endOfInput) hes hrow
    hlsKinds (standAll_of_laid hlaid hunderscore hlsAscii).1 hbare (by simp) (.inl (by simp))
  have hend : Text.StopsAt CodePoint.isBlank [] := by simp [Text.StopsAt]
  have hblanks := leads_blanks (S := []) (b := b) (.inl rfl) hlast' hend
  rw [List.append_nil] at hblanks
  have hall : Leads (.start (prepared (m.render form))) (ps ++ blankPiece last')
      ⟨[], last'.getLast?.or b, []⟩ := by
    rw [hprepared]
    exact hleads.trans hblanks
  have hrun : (m.render form).highlight = ps ++ blankPiece last' := by
    have hend : Config.run ⟨[], last'.getLast?.or b, []⟩ = [] := run_nil rfl
    have hstart := run_eq_of_leads hall
    rwa [hend, List.append_nil] at hstart
  have hshowLast := showGap_blankPiece last'
  refine ⟨form, ls, last, hform, partition_of_cut hcut, hwords, ?_⟩
  rw [hrun]
  refine ⟨?_, ?_, _, hall⟩
  · exact tokenPieces_of_showAll hshow hbare (fun l hl => (hlayout.written l hl).ne_nil)
      (hshowLast.bare hlast')
  · exact List.forall_mem_append.2 ⟨hshow.ne_stray hlaid.kind_ne, hshowLast.ne_stray⟩

/-- A module with a value that has a surrogate, a quotation mark and the beginning of a comment. -/
def ofAwkwardValue : Module :=
  let value : Text := [.surrogate 0, .scalar '"', .scalar '/', .scalar '/']
  let note : Annotation := ⟨"doc", ⟨3, 1⟩, [⟨"text", ⟨3, 6⟩, some value⟩]⟩
  ⟨"m", ⟨"a.b", "C", "m"⟩, ["d"], [],
    [⟨"T", .record [⟨"x", .array (.primitive .date), [note]⟩], []⟩]⟩

lemma wellFormed_ofAwkwardValue : ofAwkwardValue.WellFormed := by
  refine ⟨by decide, by decide, by decide, by simp [ofAwkwardValue], fun d hd => ?_⟩
  obtain rfl := List.mem_singleton.1 hd
  refine ⟨by decide, fun f hf => ?_, by simp⟩
  obtain rfl := List.mem_singleton.1 hf
  refine ⟨by decide, trivial, fun a ha => ?_⟩
  obtain rfl := List.mem_singleton.1 ha
  refine ⟨by decide, fun p hp => ?_⟩
  obtain rfl := List.mem_singleton.1 hp
  show Text.IsLowerName _
  decide

/-- The value is one piece, and the field is told from the name of its annotation. -/
theorem highlight_render_awkward_value :
    let _ : Machine := .usual
    ∃ form ls last, Formatter.ofIndent 4 = .ok form ∧
      Partition (ofAwkwardValue.render form) ls last ∧
      ls.map Lexeme.word = ofAwkwardValue.words ∧
      tokenPieces (ofAwkwardValue.render form).highlight = styled .endOfInput ls ∧
      (∀ p ∈ (ofAwkwardValue.render form).highlight, p.style ≠ .stray) ∧
      ∃ b, Leads (.start (prepared (ofAwkwardValue.render form)))
        (ofAwkwardValue.render form).highlight ⟨[], b, []⟩ := by
  intro _
  exact highlight_render wellFormed_ofAwkwardValue (by decide) (by decide)

/-- There is no canonical text to highlight where no word of 64 bits tells the indentation. -/
theorem highlight_render_wide :
    let _ : Machine := .usual
    ofAwkwardValue.WellFormed ∧
      (∀ w ∈ ofAwkwardValue.words, w.1 ≠ .string → ∀ c ∈ w.2, c.toNat < 0x80) ∧
      ¬ ∃ form ls last, Formatter.ofIndent 0x8000000000000000 = .ok form ∧
        Partition (ofAwkwardValue.render form) ls last ∧
        tokenPieces (ofAwkwardValue.render form).highlight = styled .endOfInput ls := by
  intro _
  refine ⟨wellFormed_ofAwkwardValue, by decide, ?_⟩
  rintro ⟨form, ls, last, hform, -⟩
  exact Formatter.ofIndent_ne_ok (by decide) ⟨form, hform⟩

end Module

end Idl
