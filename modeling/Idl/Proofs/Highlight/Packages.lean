/-
# Packages that are read as code

A package is known behind its line's first word, with nothing but blanks around the colon.  Where
there is a comment the machine does not know it, and reads its segments one by one as code.  Then a
segment that begins with a digit is stray, and a last segment `import` takes the next word for a
package, if there are only blanks in front of it; so the package behind that word is read as code,
too (`Highlight.strayFree_rows`).
-/
import Idl.Proofs.Highlight.Annotations

namespace Idl

open TokenKind

/-- No segment of the package begins with a digit. -/
def Lexeme.HasLetters (l : Lexeme) : Prop :=
  ∀ t ∈ Text.pieces '.' l.spelling, ∀ c ∈ t.head?, c.isDigit = false

instance (l : Lexeme) : Decidable l.HasLetters :=
  inferInstanceAs (Decidable (∀ t ∈ Text.pieces '.' l.spelling, ∀ c ∈ t.head?, c.isDigit = false))

/-- The last segment of the package is a word behind which another package is looked for. -/
def Lexeme.EndsWithImport (l : Lexeme) : Prop :=
  Keyword.imports.spelling ∈ (Text.pieces '.' l.spelling).getLast?

namespace Highlight

variable {b : Option CodePoint} {c : CodePoint} {l l' : Lexeme} {r s t u : Text} {ts : List Text}

/-! ### Segments -/

/-- No rule knows a digit. -/
lemma leads_digit (hc : c.isDigit) (r : Text) :
    Leads ⟨[], b, c :: r⟩ [⟨.stray, [c]⟩] ⟨[], some c, r⟩ := by
  have hopens : ∀ n < 0x3A, 0x30 ≤ n → ∀ R ∈ rootRules, R.opens (CodePoint.ofNat n) = false := by
    decide
  have hlow : 0x30 ≤ c.toNat ∧ c.toNat ≤ 0x39 := by
    simpa [CodePoint.isDigit, CodePoint.isBetween] using hc
  have hrules := hopens c.toNat (by omega) hlow.1
  rw [CodePoint.ofNat_toNat] at hrules
  have hbreak : c ≠ .scalar '\n' := by
    rintro rfl
    exact absurd hc (by decide)
  exact leads_stray (S := []) (recognise_eq_none_of_opens hrules b r) hbreak

lemma isSmall_or_isCapital (h : isNamePoint c) (hdigit : c.isDigit = false) :
    isSmall c ∨ isCapital c := by
  simpa [isNamePoint, hdigit] using h

/-- A segment in front of another one is passed. -/
lemma exists_leads_segment (ht : ∀ c ∈ t, isNamePoint c) (hne : t ≠ [])
    (hdigit : ∀ c ∈ t.head?, c.isDigit = false) (hb : ∀ d ∈ b, isWordPoint d = false) (r : Text) :
    ∃ ps b', Leads ⟨[], b, t ++ .scalar '.' :: r⟩ ps ⟨[], b', r⟩ ∧ (∀ p ∈ ps, p.style ≠ .stray) ∧
      ∀ d ∈ b', isWordPoint d = false := by
  obtain ⟨c, t, rfl⟩ := List.exists_cons_of_ne_nil hne
  obtain ⟨hc, ht⟩ := List.forall_mem_cons.1 ht
  have hdot (p : CodePoint → Bool) (hp : p (.scalar '.') = false) :
      Text.StopsAt p (.scalar '.' :: r) := Text.stopsAt_cons hp r
  have hcolon (u : Text) : skipBlanks (.scalar '.' :: r) ≠ .scalar ':' :: u := by
    have hskip : skipBlanks (.scalar '.' :: r) = .scalar '.' :: r := rfl
    simp [hskip]
  obtain ⟨style, hstyle, b₁, hword⟩ := leads_loose (b := b)
    (isSmall_or_isCapital hc (hdigit c rfl)) ht
    (cutParts_header_eq_none fun u hu => absurd hu (hcolon u))
    (fun _ => cutParts_eq_none rfl (hdot _ (by decide)))
    (fun _ => cutParts_eq_none rfl (hdot _ (by decide))) (hdot _ (by decide)) hb
  obtain ⟨b₂, hmark⟩ := leads_mark (b := b₁) (m := .dot) (r := r) (by decide) (by decide)
  refine ⟨_, b₂, hword.trans hmark, by simpa [markStyle] using hstyle, ?_⟩
  obtain rfl : b₂ = some (.scalar '.') := before_of_leads hmark
  rintro d ⟨⟩
  decide

lemma join_cons_cons_append (t s : Text) (ts : List Text) (r : Text) :
    Text.join "." (t :: s :: ts) ++ r = t ++ .scalar '.' :: (Text.join "." (s :: ts) ++ r) := by
  rw [Text.join, List.append_assoc, List.append_assoc]
  · rfl
  · simp

/-- The segments of a package in front of its last one are passed. -/
lemma exists_leads_segments (hts : ∀ s ∈ t :: ts, s ≠ [] ∧ ∀ c ∈ s, isNamePoint c)
    (hdigit : ∀ s ∈ t :: ts, ∀ c ∈ s.head?, c.isDigit = false)
    (hb : ∀ d ∈ b, isWordPoint d = false) (r : Text) :
    ∃ u ∈ (t :: ts).getLast?, ∃ ps b',
      Leads ⟨[], b, Text.join "." (t :: ts) ++ r⟩ ps ⟨[], b', u ++ r⟩ ∧
        (∀ p ∈ ps, p.style ≠ .stray) ∧ ∀ d ∈ b', isWordPoint d = false := by
  induction ts generalizing t b with
  | nil => exact ⟨t, rfl, [], b, .refl _, by simp, hb⟩
  | cons s ts ih =>
    obtain ⟨⟨hne, ht⟩, hts⟩ := List.forall_mem_cons.1 hts
    obtain ⟨hdigitFirst, hdigit⟩ := List.forall_mem_cons.1 hdigit
    obtain ⟨ps, b₁, hleads, hps, hb₁⟩ :=
      exists_leads_segment ht hne hdigitFirst hb (Text.join "." (s :: ts) ++ r)
    obtain ⟨u, hu, qs, b', hmore, hqs, hb'⟩ := ih hts hdigit hb₁
    refine ⟨u, by rwa [List.getLast?_cons_cons], ps ++ qs, b', ?_,
      List.forall_mem_append.2 ⟨hps, hqs⟩, hb'⟩
    rw [join_cons_cons_append]
    exact hleads.trans hmore

/-- The first digit that a segment begins with is stray. -/
lemma exists_leads_digit (hts : ∀ s ∈ t :: ts, s ≠ [] ∧ ∀ c ∈ s, isNamePoint c)
    (hdigit : ¬ ∀ s ∈ t :: ts, ∀ c ∈ s.head?, c.isDigit = false)
    (hb : ∀ d ∈ b, isWordPoint d = false) (r : Text) :
    ∃ ps k, Leads ⟨[], b, Text.join "." (t :: ts) ++ r⟩ ps k ∧ ∃ p ∈ ps, p.style = .stray := by
  induction ts generalizing t b with
  | nil =>
    obtain ⟨hne, -⟩ := hts t (by simp)
    obtain ⟨c, t, rfl⟩ := List.exists_cons_of_ne_nil hne
    have hc : c.isDigit := by simpa using hdigit
    exact ⟨_, _, leads_digit hc _, ⟨.stray, [c]⟩, by simp, rfl⟩
  | cons s ts ih =>
    obtain ⟨⟨hne, ht⟩, hts⟩ := List.forall_mem_cons.1 hts
    rw [join_cons_cons_append]
    by_cases hfirst : ∀ c ∈ t.head?, c.isDigit = false
    · obtain ⟨ps, b₁, hleads, -, hb₁⟩ :=
        exists_leads_segment ht hne hfirst hb (Text.join "." (s :: ts) ++ r)
      have hrest : ¬ ∀ u ∈ s :: ts, ∀ c ∈ u.head?, c.isDigit = false :=
        fun hall => hdigit (List.forall_mem_cons.2 ⟨hfirst, hall⟩)
      obtain ⟨qs, k, hstray, q, hq, hstyle⟩ := ih hts hrest hb₁
      exact ⟨ps ++ qs, k, hleads.trans hstray, q, List.mem_append_right _ hq, hstyle⟩
    · obtain ⟨c, t, rfl⟩ := List.exists_cons_of_ne_nil hne
      have hc : c.isDigit := by simpa using hfirst
      exact ⟨_, _, leads_digit hc _, ⟨.stray, [c]⟩, by simp, rfl⟩

/-! ### Packages -/

/-- The segments of a package. -/
lemma exists_segments (h : l.Stands r) (hk : l.kind = .packageName) : ∃ t ts,
    Text.pieces '.' l.spelling = t :: ts ∧ l.spelling = Text.join "." (t :: ts) ∧
      ∀ s ∈ t :: ts, s ≠ [] ∧ ∀ c ∈ s, isNamePoint c := by
  obtain ⟨hname, hpoints, -⟩ := spelling_of_packageName h hk
  obtain ⟨t, ts, hts⟩ := List.exists_cons_of_ne_nil (Text.pieces_ne_nil (.scalar '.') l.spelling)
  refine ⟨t, ts, hts, ?_, fun s hs => ?_⟩
  · rw [← hts]
    exact (Text.join_pieces (.scalar '.') l.spelling).symm
  · rw [← hts] at hs
    refine ⟨(hname s hs).1, fun c hc => ?_⟩
    obtain ⟨hmem, hdot⟩ := Text.mem_of_mem_pieces hs hc
    simpa [isPackagePoint, hdot] using hpoints c hmem

/-- The gap in front of a package is passed. -/
lemma exists_leads_packageGap (h : l.Stands r) (hk : l.kind = .packageName)
    (hb : Apart b (l.text ++ r)) :
    ∃ gs b', Leads ⟨[], b, l.text ++ r⟩ gs ⟨[], b', l.spelling ++ r⟩ ∧
      (∀ p ∈ gs, p.style ≠ .stray) ∧ ∀ d ∈ b', isWordPoint d = false := by
  obtain ⟨gs, b', hgap, hgs, hb'⟩ := exists_leads_front h hb
  obtain ⟨hname, -, -⟩ := spelling_of_packageName h hk
  obtain ⟨c, u, hspelling, hc⟩ := hname.exists_cons
  rw [hspelling] at hb'
  exact ⟨gs, b', hgap, hgs.ne_stray, hb'.before (by simp [isWordPoint, hc])⟩

/-- Read as code, a package is passed up to its last segment. -/
lemma exists_leads_package (h : l.Stands r) (hk : l.kind = .packageName) (hletters : l.HasLetters)
    (hb : Apart b (l.text ++ r)) :
    ∃ u ∈ (Text.pieces '.' l.spelling).getLast?, (∃ c t, u = c :: t ∧ (isSmall c ∨ isCapital c) ∧
      ∀ x ∈ t, isNamePoint x) ∧ ∃ ps b', Leads ⟨[], b, l.text ++ r⟩ ps ⟨[], b', u ++ r⟩ ∧
        (∀ p ∈ ps, p.style ≠ .stray) ∧ ∀ d ∈ b', isWordPoint d = false := by
  obtain ⟨t, ts, hpieces, hjoin, hts⟩ := exists_segments h hk
  obtain ⟨gs, b₁, hgap, hgs, hb₁⟩ := exists_leads_packageGap h hk hb
  have hdigit : ∀ s ∈ t :: ts, ∀ c ∈ s.head?, c.isDigit = false := hpieces ▸ hletters
  obtain ⟨u, hu, ps, b', hleads, hps, hb'⟩ := exists_leads_segments hts hdigit hb₁ r
  rw [← hjoin] at hleads
  have hmem : u ∈ t :: ts := List.mem_of_mem_getLast? hu
  obtain ⟨hne, hpoints⟩ := hts u hmem
  obtain ⟨c, v, rfl⟩ := List.exists_cons_of_ne_nil hne
  obtain ⟨hc, hv⟩ := List.forall_mem_cons.1 hpoints
  exact ⟨c :: v, hpieces ▸ hu, ⟨c, v, rfl, isSmall_or_isCapital hc (hdigit _ hmem c rfl), hv⟩,
    gs ++ ps, b', hgap.trans hleads, List.forall_mem_append.2 ⟨hgs, hps⟩, hb'⟩

/-- Read as code, a package with a segment that begins with a digit has something stray. -/
lemma not_strayFree_package (h : l.Stands r) (hk : l.kind = .packageName)
    (hletters : ¬ l.HasLetters) (hb : Apart b (l.text ++ r)) :
    ¬ Config.StrayFree ⟨[], b, l.text ++ r⟩ := by
  obtain ⟨t, ts, hpieces, hjoin, hts⟩ := exists_segments h hk
  obtain ⟨gs, b₁, hgap, hgs, hb₁⟩ := exists_leads_packageGap h hk hb
  rw [Lexeme.HasLetters, hpieces] at hletters
  obtain ⟨ps, k, hstray, hps⟩ := exists_leads_digit hts hletters hb₁ r
  rw [← hjoin] at hstray
  rw [strayFree_iff_of_leads hgap hgs]
  exact not_strayFree_of_leads hstray hps

/-- A package that is read as code, in front of what its last segment does not take. -/
lemma exists_strayFree_loose (h : l.Stands r) (hk : l.kind = .packageName)
    (hb : Apart b (l.text ++ r)) (hcolon : ∀ v, skipBlanks r ≠ .scalar ':' :: v)
    (hcapital : (skipBlanks r).StopsAt isCapital)
    (himport : l.EndsWithImport → (skipBlanks r).StopsAt isPackagePoint) : ∃ b', Apart b' r ∧
      (Config.StrayFree ⟨[], b, l.text ++ r⟩ ↔ l.HasLetters ∧ Config.StrayFree ⟨[], b', r⟩) := by
  by_cases hletters : l.HasLetters
  · obtain ⟨_, hu, ⟨c, t, rfl, hc, ht⟩, ps, b₁, hleads, hps, hb₁⟩ :=
      exists_leads_package h hk hletters hb
    have hr := stopsAt_isWordPoint_of_stands h fun c hc => by
      simp [hk, TokenKind.continuedBy, CodePoint.isPackagePoint, hc]
    obtain ⟨style, hstyle, b', hword⟩ := leads_loose hc ht
      (cutParts_header_eq_none fun v hv => absurd hv (hcolon v))
      (fun heq => cutParts_import_eq_none (himport (by rwa [Lexeme.EndsWithImport, ← heq])))
      (fun _ => cutParts_type_eq_none hcapital) hr hb₁
    refine ⟨b', .inr hr, ?_⟩
    rw [and_iff_right hletters, strayFree_iff_of_leads hleads hps,
      strayFree_iff_of_leads hword (by simpa using hstyle)]
  · exact ⟨_, apart_of_stands h,
      iff_of_false (not_strayFree_package h hk hletters hb) fun hboth => hletters hboth.1⟩

/-- A package that is read as code, with a last segment that takes the next word. -/
lemma exists_strayFree_taking (h : l.Stands (l'.text ++ r)) (hk : l.kind = .packageName)
    (hb : Apart b (l.text ++ (l'.text ++ r))) (himport : l.EndsWithImport) (h' : l'.Stands r)
    {w : Keyword} (hk' : l'.kind = .keyword w) (hbare : l'.IsBare)
    (hr : r.StopsAt isPackagePoint) : ∃ b', Apart b' r ∧
      (Config.StrayFree ⟨[], b, l.text ++ (l'.text ++ r)⟩ ↔
        l.HasLetters ∧ Config.StrayFree ⟨[], b', r⟩) := by
  by_cases hletters : l.HasLetters
  · obtain ⟨u, hu, -, ps, b₁, hleads, hps, hb₁⟩ := exists_leads_package h hk hletters hb
    obtain rfl : u = Keyword.imports.spelling := Option.mem_unique hu himport
    have hspelling := spelling_of_keyword h' hk'
    have hpoints : ∀ c ∈ l'.spelling, isPackagePoint c := by
      rw [hspelling]
      cases w <;> decide
    have hgap : l'.gap ≠ [] := by
      obtain ⟨c, v, hcons⟩ := List.exists_cons_of_ne_nil h'.written.ne_nil
      have hc := isPackagePoint_of_isPackagePoint (hpoints c (by simp [hcons]))
      exact gap_ne_nil (c := c) h (by rw [hk]; exact hc) (by rw [hcons]; rfl)
    obtain ⟨b', himports⟩ := leads_import (b := b₁) hbare hgap hpoints h'.written.ne_nil hr hb₁
    rw [← List.append_assoc l'.gap, ← Lexeme.text] at himports
    have htaken : ∀ p ∈ (⟨.namespaceKeyword, Keyword.imports.spelling⟩ ::
        (blankPiece l'.gap ++ [⟨.packageName, l'.spelling⟩]) : List Piece), p.style ≠ .stray := by
      simp only [List.forall_mem_cons, List.forall_mem_append]
      exact ⟨by simp, (showGap_blankPiece l'.gap).ne_stray, by simp, by simp⟩
    refine ⟨b', ?_, ?_⟩
    · exact apart_of_leads (u := Keyword.imports.spelling ++ l'.gap) h' (by
        simpa [Lexeme.text] using himports)
    · rw [and_iff_right hletters, strayFree_iff_of_leads hleads hps,
        strayFree_iff_of_leads himports htaken]
  · exact ⟨_, apart_of_stands h',
      iff_of_false (not_strayFree_package h hk hletters hb) fun hboth => hletters hboth.1⟩

/-! ### Lines with comments -/

variable {l₁ l₂ l₃ : Lexeme} {w : Keyword}

/-- The first word of a line is passed by itself in front of a comment. -/
lemma exists_leads_firstWord (h : l.Stands r) (hk : l.kind = .keyword w)
    (hheader : cutParts behindHeaderWord r = none)
    (hpackage : (skipBlanks r).StopsAt isPackagePoint) (hb : Apart b (l.text ++ r)) : ∃ ps b',
      Leads ⟨[], b, l.text ++ r⟩ ps ⟨[], b', r⟩ ∧ (∀ p ∈ ps, p.style ≠ .stray) ∧ Apart b' r := by
  obtain ⟨gs, b₁, hgap, hgs, hbefore⟩ := exists_leads_wordFront h hk hb
  have hr := stopsAt_isWordPoint_of_stands h (by simp [hk, TokenKind.continuedBy])
  have hcapital : (skipBlanks r).StopsAt isCapital := by
    intro c hc
    by_contra hcap
    have hpoint := hpackage c hc
    simp [isPackagePoint, isNamePoint_of_isCapital (by simpa using hcap)] at hpoint
  obtain ⟨c, t, hword, hletter, ht⟩ : ∃ c t, l.spelling = c :: t ∧ (isSmall c ∨ isCapital c) ∧
      ∀ x ∈ t, isNamePoint x := by
    rw [spelling_of_keyword h hk]
    cases w <;> exact ⟨_, _, rfl, by decide⟩
  obtain ⟨style, hstyle, b', hleads⟩ := leads_loose hletter ht hheader
    (fun _ => cutParts_import_eq_none hpackage) (fun _ => cutParts_type_eq_none hcapital) hr hbefore
  rw [← hword] at hleads
  exact ⟨_, b', hgap.trans hleads, List.forall_mem_append.2 ⟨hgs.ne_stray, by simpa using hstyle⟩,
    .inr hr⟩

/-- A colon is passed. -/
lemma exists_leads_colon (h : l.Stands r) (hk : l.kind = .mark .colon)
    (hb : Apart b (l.text ++ r)) :
    ∃ ps b', Leads ⟨[], b, l.text ++ r⟩ ps ⟨[], b', r⟩ ∧ (∀ p ∈ ps, p.style ≠ .stray) ∧
      Apart b' r := by
  obtain ⟨ps, b', hleads, hps⟩ := exists_leads_alone .endOfInput h (by rw [hk]; rfl) hb
  rw [hk] at hps
  exact ⟨ps, b', hleads, hps.ne_stray (by decide), apart_of_leads h hleads⟩

/-- The first word of a line is passed by itself if there is a comment directly behind it. -/
lemma exists_leads_brokenWord (h₁ : l₁.Stands (l₂.text ++ r)) (h₂ : l₂.Stands r)
    (hk₁ : l₁.kind = .keyword w) (hbroken : ¬ l₂.IsBare)
    (hb : Apart b (l₁.text ++ (l₂.text ++ r))) :
    ∃ ps b', Leads ⟨[], b, l₁.text ++ (l₂.text ++ r)⟩ ps ⟨[], b', l₂.text ++ r⟩ ∧
      (∀ p ∈ ps, p.style ≠ .stray) ∧ Apart b' (l₂.text ++ r) := by
  have hstop {p : CodePoint → Bool} (hslash : p (.scalar '/') = false) :
      (skipBlanks (l₂.text ++ r)).StopsAt p :=
    stopsAt_skipBlanks h₂ hslash fun h => absurd h hbroken
  refine exists_leads_firstWord h₁ hk₁ (cutParts_header_eq_none fun u hu => ?_)
    (hstop (by decide)) hb
  have hcolon := hstop (p := (· = .scalar ':')) (by decide) (.scalar ':') (by rw [hu]; rfl)
  simp at hcolon

/-- The machine comes to the package of a line of the header with a comment around the colon. -/
lemma exists_leads_brokenHeader (h₁ : l₁.Stands (l₂.text ++ (l₃.text ++ r)))
    (h₂ : l₂.Stands (l₃.text ++ r)) (h₃ : l₃.Stands r) (hk₁ : l₁.kind = .keyword w)
    (hk₂ : l₂.kind = .mark .colon) (hbroken : ¬ (l₂.IsBare ∧ l₃.IsBare))
    (hb : Apart b (l₁.text ++ (l₂.text ++ (l₃.text ++ r)))) :
    ∃ ps b', Leads ⟨[], b, l₁.text ++ (l₂.text ++ (l₃.text ++ r))⟩ ps ⟨[], b', l₃.text ++ r⟩ ∧
      (∀ p ∈ ps, p.style ≠ .stray) ∧ Apart b' (l₃.text ++ r) := by
  obtain ⟨ps, b₁, hword, hps, hb₁⟩ : ∃ ps b₁,
      Leads ⟨[], b, l₁.text ++ (l₂.text ++ (l₃.text ++ r))⟩ ps
        ⟨[], b₁, l₂.text ++ (l₃.text ++ r)⟩ ∧
      (∀ p ∈ ps, p.style ≠ .stray) ∧ Apart b₁ (l₂.text ++ (l₃.text ++ r)) := by
    by_cases hbare₂ : l₂.IsBare
    · -- the colon is found, and the comment is behind it
      have hspelling := spelling_of_mark h₂ hk₂
      have hskip := skipBlanks_append hbare₂ (stopsAt_isBlank_of_stands h₂)
      rw [← List.append_assoc, ← Lexeme.text, hspelling] at hskip
      refine exists_leads_firstWord h₁ hk₁ (cutParts_header_eq_none fun u hu => ?_) ?_ hb
      · rw [hu] at hskip
        obtain rfl : u = l₃.text ++ r := (List.cons.inj hskip).2
        exact stopsAt_skipBlanks h₃ (by decide) fun h => absurd ⟨hbare₂, h⟩ hbroken
      · rw [hskip]
        exact Text.stopsAt_cons (by decide) _
    · exact exists_leads_brokenWord h₁ h₂ hk₁ hbare₂ hb
  obtain ⟨qs, b', hcolon, hqs, hb'⟩ := exists_leads_colon h₂ hk₂ hb₁
  exact ⟨ps ++ qs, b', hword.trans hcolon, List.forall_mem_append.2 ⟨hps, hqs⟩, hb'⟩

end Highlight

end Idl
