/-
# Layout

How a row of words may be written: each word by one of its spellings, with trivia in front of
it, so that no spelling runs on into the next one.  Cutting a text finds the lexemes in exactly
such a row (`Cutting.step_eq_lexeme_iff`, `Text.cutFrom_append`), and a text that is laid out by
these rules has the words it was made of (`Text.tokens_of_layout`).
-/
import Idl.Proofs.Token.Escapes
import Idl.Proofs.Token.Gaps
import Idl.Proofs.Token.Sorts
import Idl.Proofs.Token.Spelling
import Mathlib.Data.List.Chain

namespace Idl

/-- Which code points would make a token of a kind longer. -/
def TokenKind.continuedBy : TokenKind → CodePoint → Bool
  | .keyword _ | .lowerName | .upperName => CodePoint.isAlphanumeric
  | .packageName => CodePoint.isPackagePoint
  | _ => fun _ => false

/-- A text by which a word may be written. -/
inductive Word.WrittenAs : Word → Text → Prop
  /-- A reserved word, by its letters. -/
  | keyword (w : Keyword) : WrittenAs (.keyword w, w.spelling) w.spelling
  /-- A punctuation mark, by its character. -/
  | mark (m : Mark) : WrittenAs (.mark m, [.scalar m.symbol]) [.scalar m.symbol]
  /-- A name in lower case, by its letters. -/
  | lowerName {t : Text} (ht : t.IsLowerName) : WrittenAs (.lowerName, t) t
  /-- A name in upper case, by its letters. -/
  | upperName {t : Text} (ht : t.IsUpperName) : WrittenAs (.upperName, t) t
  /-- A package name, by its letters and dots. -/
  | packageName {t : Text} (ht : t.IsPackageName) : WrittenAs (.packageName, t) t
  /-- A literal, by any body that denotes its value. -/
  | string {body value : Text} (h : Literal.Denotes body value) :
      WrittenAs (.string, value) (.scalar '"' :: (body ++ [.scalar '"']))

/-- Behind tokens of these kinds a package name has to stand: behind `import`, and behind the
colon of `scala:` and of `purs:`. -/
def CallsForPackage (ks : List TokenKind) : Prop :=
  (∃ front, ks = front ++ [.keyword .imports]) ∨
    ∃ front, ∃ w ∈ [Keyword.scala, Keyword.purs], ks = front ++ [.keyword w, .mark .colon]

/-- Lexemes that may be written in a row, with trivia behind the last one. -/
structure Layout (ls : List Lexeme) (last : Text) : Prop where
  /-- There is nothing but trivia in front of each token. -/
  gap : ∀ l ∈ ls, Trivia.Complete l.gap
  /-- There is nothing but trivia behind the last token. -/
  last : Trivia.Final last
  /-- Each word is written by one of its spellings. -/
  written : ∀ l ∈ ls, l.word.WrittenAs l.spelling
  /-- Package names stand where they are called for, and nothing else stands there. -/
  package : ∀ ls₁ l ls₂, ls = ls₁ ++ l :: ls₂ →
    (l.kind = .packageName ↔ CallsForPackage (ls₁.map Lexeme.kind))
  /-- A token without trivia in front of it does not continue the token before it. -/
  apart : ls.IsChain fun l l' => l'.gap = [] → l'.spelling.StopsAt l.kind.continuedBy

variable {ctx : Context} {c : CodePoint} {k : TokenKind} {ks : List TokenKind} {l : Lexeme}
  {ls : List Lexeme} {last r rest s spelling value w : Text}

/-! ### What follows a token -/

lemma TokenKind.continuedBy_eq_false (k : TokenKind) (hc : c.isBlank ∨ c = .scalar '/') :
    k.continuedBy c = false := by
  have halpha : c.isAlphanumeric = false := by
    rcases hc with hc | rfl
    · by_contra h
      rw [CodePoint.not_isBlank_of_isAlphanumeric (by simpa using h)] at hc
      cases hc
    · decide
  have hdot : c ≠ .scalar '.' := by
    rintro rfl
    revert hc
    decide
  cases k <;> simp [continuedBy, CodePoint.isPackagePoint, halpha, hdot]

lemma stopsAt_of_head (k : TokenKind) (h : ∀ c ∈ w.head?, c.isBlank ∨ c = .scalar '/') :
    w.StopsAt k.continuedBy :=
  fun c hc => k.continuedBy_eq_false (h c hc)

lemma stopsAt_dropWhile (p : CodePoint → Bool) (s : Text) : Text.StopsAt p (s.dropWhile p) := by
  intro c hc
  have h := List.head?_dropWhile_not p s
  rw [Option.mem_def.1 hc] at h
  simpa using h

/-! ### One token -/

lemma continuedBy_wordKind (c : CodePoint) (t : Text) :
    (Lexeme.wordKind c t).continuedBy = CodePoint.isAlphanumeric := by
  unfold Lexeme.wordKind
  repeat' split
  all_goals rfl

/-- The value of a mark and its spelling are its character. -/
lemma Word.WrittenAs.of_mark {m : Mark} (h : Word.WrittenAs (.mark m, value) spelling) :
    value = [.scalar m.symbol] ∧ spelling = [.scalar m.symbol] := by
  cases h
  exact ⟨rfl, rfl⟩

lemma Word.WrittenAs.ne_nil (h : Word.WrittenAs (k, value) spelling) : spelling ≠ [] := by
  cases h with
  | keyword w => cases w <;> simp [Keyword.spelling, Text.ofString]
  | mark m => simp
  | lowerName ht | upperName ht =>
    rintro rfl
    exact ht
  | packageName ht =>
    rintro rfl
    obtain ⟨_, _, h, -⟩ := ht.exists_cons
    cases h
  | string => simp

/-- What is read as a token is a spelling of it, and is not continued. -/
lemma writtenAs_of_read (h : Lexeme.read ctx c r = .token k value spelling rest) :
    Word.WrittenAs (k, value) spelling ∧ (k = .packageName ↔ ctx = .package) ∧
      rest.StopsAt k.continuedBy := by
  have hsound := Lexeme.sound_of_read h
  unfold Lexeme.read at h
  split at h
  · next hctx =>
    unfold Lexeme.readPackage at h
    simp only at h
    split at h
    · cases h
    split at h <;> cases h
    exact ⟨.packageName hsound, by simp [hctx], stopsAt_dropWhile _ _⟩
  next hctx =>
  split at h
  · next hquote =>
    subst hquote
    unfold Lexeme.readString at h
    split at h <;> cases h
    next hbody =>
    obtain ⟨-, body, rfl, hdenotes⟩ := Literal.readBody_eq_closed_iff.1 hbody
    exact ⟨.string hdenotes, by simp [hctx], fun _ _ => rfl⟩
  split at h
  · unfold Lexeme.readWord at h
    split at h <;> cases h
    have hstop := stopsAt_dropWhile CodePoint.isAlphanumeric r
    rw [continuedBy_wordKind]
    unfold Lexeme.wordKind at hsound ⊢
    split
    · next w hw =>
      -- the reserved word that is found is the one with these letters
      have hspelling := List.find?_some hw
      rw [decide_eq_true_eq] at hspelling
      rw [← hspelling]
      exact ⟨.keyword w, by simp [hctx], hstop⟩
    · next hw =>
      simp only [hw] at hsound
      split at hsound <;> rename_i hupper
      · rw [if_pos hupper]
        exact ⟨.upperName hsound, by simp [hctx], hstop⟩
      · rw [if_neg hupper]
        exact ⟨.lowerName hsound, by simp [hctx], hstop⟩
  · split at h <;> cases h
    next m hm =>
    obtain rfl : c = .scalar m.symbol := by simpa using List.find?_some hm
    exact ⟨.mark m, by simp [hctx], fun _ _ => rfl⟩

lemma exists_read_letters {start : CodePoint → Bool} (hctx : ctx ≠ .package)
    (ht : spelling.IsName start) (hstart : ∀ c, start c → c.isLowercase ∨ c.isUppercase)
    (hr : rest.StopsAt CodePoint.isAlphanumeric) :
    ∃ c t, spelling = c :: t ∧ Trivia.first (c :: t ++ rest) = .none ∧
      Lexeme.read ctx c (t ++ rest) =
        .token spelling.word.1 spelling spelling rest := by
  cases spelling with
  | nil => exact absurd ht not_false
  | cons c t =>
    obtain ⟨hletter, hc, ht, -⟩ := ht
    exact ⟨c, t, rfl, Text.read_letters hctx hletter (hstart c hc) ht hr⟩

/-- A spelling that is not continued is read as its token. -/
lemma Word.WrittenAs.exists_read (h : Word.WrittenAs (k, value) spelling)
    (hctx : k = .packageName ↔ ctx = .package) (hr : rest.StopsAt k.continuedBy) :
    ∃ c t, spelling = c :: t ∧ Trivia.first (c :: t ++ rest) = .none ∧
      Lexeme.read ctx c (t ++ rest) = .token k value spelling rest := by
  cases h with
  | keyword w =>
    have hctx : ctx ≠ .package := by simpa using hctx
    obtain ⟨c, t, hw, hletter, hcased, ht, hkind⟩ := Text.Keyword.exists_cons w
    obtain ⟨hfirst, hread⟩ := Text.read_letters hctx hletter hcased ht hr
    exact ⟨c, t, hw, hfirst, by rw [hread, hkind, hw]⟩
  | mark m =>
    have hctx : ctx ≠ .package := by simpa using hctx
    obtain ⟨hfirst, hread⟩ := Text.read_mark hctx m rest
    exact ⟨_, [], rfl, hfirst, hread⟩
  | lowerName ht =>
    have hctx : ctx ≠ .package := by simpa using hctx
    have hread := exists_read_letters hctx ht (fun _ hc => .inl hc) hr
    rwa [ht.word] at hread
  | upperName ht =>
    have hctx : ctx ≠ .package := by simpa using hctx
    have hread := exists_read_letters hctx ht (fun _ hc => .inr hc) hr
    rwa [ht.word] at hread
  | packageName ht =>
    obtain rfl : ctx = .package := hctx.1 rfl
    obtain ⟨c, t, rfl, -⟩ := ht.exists_cons
    exact ⟨c, t, rfl, Text.read_package ht hr⟩
  | @string body _ hbody =>
    have hctx : ctx ≠ .package := by simpa using hctx
    refine ⟨.scalar '"', body ++ [.scalar '"'], rfl, ?_, ?_⟩
    · exact Text.first_eq_none (by decide) (by decide)
    · have hbody := hbody.readBody_append rest
      rw [List.append_assoc, List.singleton_append, Lexeme.read, if_neg hctx, if_pos rfl,
        Lexeme.readString, hbody]

/-! ### One step -/

/-- A lexeme is cut off a text if it stands in front and is not continued. -/
lemma Cutting.step_eq_lexeme_iff : step ctx s = .lexeme l rest ↔
    s = l.text ++ rest ∧ Trivia.Complete l.gap ∧ l.word.WrittenAs l.spelling ∧
      (l.kind = .packageName ↔ ctx = .package) ∧ rest.StopsAt l.kind.continuedBy := by
  constructor
  · intro h
    refine ⟨(step_eq_lexeme h).1, ?_⟩
    unfold step at h
    split at h
    · cases h
    · cases h
    next hskip =>
    split at h <;> cases h
    next hread =>
    have hgap := (Trivia.complete_or_final_of_skip hskip).resolve_right fun h => nomatch h.1
    exact ⟨hgap, writtenAs_of_read hread⟩
  · rintro ⟨rfl, hgap, hword, hctx, hrest⟩
    obtain ⟨c, t, hspelling, hfirst, hread⟩ := hword.exists_read hctx hrest
    have hskip : Trivia.skip (l.text ++ rest) = .clear l.gap (c :: (t ++ rest)) := by
      rw [Lexeme.text, List.append_assoc, Trivia.skip_append hgap, hspelling,
        Trivia.skip_of_none hfirst]
      simp [Trivia.Skip.prepend]
    simp only [step, hskip, hread]

lemma Cutting.step_eq_clean_iff :
    step ctx s = .done (.clean last) ↔ s = last ∧ Trivia.Final last := by
  constructor
  · intro h
    refine ⟨step_eq_done h, ?_⟩
    unfold step at h
    split at h
    · cases h
    · next hskip =>
      cases h
      exact (Trivia.complete_or_final_of_skip hskip).elim .inl And.right
    · split at h <;> cases h
  · rintro ⟨rfl, hlast⟩
    simp only [step, Trivia.skip_final hlast]

/-! ### All lexemes of a text -/

/-- The lexemes stand in front of a text, from a context on, and are cut off it one by one. -/
inductive Laid : Context → List Lexeme → Text → Prop
  /-- No lexeme at all. -/
  | nil {ctx : Context} {r : Text} : Laid ctx [] r
  /-- A lexeme in front of others. -/
  | cons {ctx : Context} {l : Lexeme} {ls : List Lexeme} {r : Text}
      (hgap : Trivia.Complete l.gap) (hword : l.word.WrittenAs l.spelling)
      (hctx : l.kind = .packageName ↔ ctx = .package)
      (hstop : Text.StopsAt l.kind.continuedBy (ls.flatMap Lexeme.text ++ r))
      (h : Laid (ctx.next l.kind) ls r) : Laid ctx (l :: ls) r

/-- The context behind tokens of some kinds. -/
def Context.behind (ctx : Context) (ks : List TokenKind) : Context := ks.foldl Context.next ctx

namespace Text

/-- Lexemes in front of a text are found, and then those of that text. -/
lemma cutFrom_append (h : Laid ctx ls r) : cutFrom ctx (ls.flatMap Lexeme.text ++ r) =
    ⟨ls ++ (r.cutFrom (ctx.behind (ls.map Lexeme.kind))).lexemes,
      (r.cutFrom (ctx.behind (ls.map Lexeme.kind))).ending⟩ := by
  induction h with
  | nil => rfl
  | @cons ctx l ls r hgap hword hctx hstop _ ih =>
    have hstep : Cutting.step ctx (l.text ++ (ls.flatMap Lexeme.text ++ r)) =
        .lexeme l (ls.flatMap Lexeme.text ++ r) :=
      Cutting.step_eq_lexeme_iff.2 ⟨rfl, hgap, hword, hctx, hstop⟩
    rw [List.flatMap_cons, List.append_assoc, cutFrom_of_lexeme hstep, ih]
    rfl

/-- The lexemes that are found stand in front of the ending. -/
lemma laid_cutFrom (ctx : Context) (s : Text) :
    Laid ctx (s.cutFrom ctx).lexemes (s.cutFrom ctx).ending.text ∧
      Cutting.step (ctx.behind ((s.cutFrom ctx).lexemes.map Lexeme.kind))
        (s.cutFrom ctx).ending.text = .done (s.cutFrom ctx).ending := by
  fun_induction cutFrom ctx s with
  | case1 ctx s e h => exact ⟨.nil, by rw [← Cutting.step_eq_done h]; exact h⟩
  | case2 ctx s l rest h k ih =>
    obtain ⟨-, hgap, hword, hctx, hstop⟩ := Cutting.step_eq_lexeme_iff.1 h
    have htext : k.lexemes.flatMap Lexeme.text ++ k.ending.text = rest :=
      Cutting.text_cutFrom (ctx.next l.kind) rest
    exact ⟨.cons hgap hword hctx (by rwa [htext]) ih.1, ih.2⟩

end Text

/-! ### Where package names stand -/

lemma Context.next_eq_afterHeaderWord_iff : ctx.next k = .afterHeaderWord ↔
    ∃ w ∈ [Keyword.scala, Keyword.purs], k = .keyword w := by
  unfold next
  split <;> simp_all
  split <;> simp

lemma Context.next_eq_package_iff : ctx.next k = .package ↔
    k = .keyword .imports ∨ k = .mark .colon ∧ ctx = .afterHeaderWord := by
  unfold next
  split <;> simp_all

lemma Context.behind_append (ctx : Context) (ks ks' : List TokenKind) :
    ctx.behind (ks ++ ks') = (ctx.behind ks).behind ks' :=
  List.foldl_append

lemma behind_eq_afterHeaderWord_iff : Context.ordinary.behind ks = .afterHeaderWord ↔
    ∃ front, ∃ w ∈ [Keyword.scala, Keyword.purs], ks = front ++ [.keyword w] := by
  rcases List.eq_nil_or_concat ks with rfl | ⟨front, k, rfl⟩
  · simp [Context.behind]
  · have hnext : Context.ordinary.behind (front ++ [k]) = (Context.ordinary.behind front).next k :=
      Context.behind_append _ _ _
    rw [List.concat_eq_append, hnext, Context.next_eq_afterHeaderWord_iff]
    constructor
    · rintro ⟨w, hw, rfl⟩
      exact ⟨front, w, hw, rfl⟩
    · rintro ⟨front', w, hw, h⟩
      exact ⟨w, hw, List.singleton_inj.1 (List.append_inj' h rfl).2⟩

/-- The context keeps track of the tokens behind which a package name has to stand. -/
lemma behind_eq_package_iff : Context.ordinary.behind ks = .package ↔ CallsForPackage ks := by
  rcases List.eq_nil_or_concat ks with rfl | ⟨front, k, rfl⟩
  · simp [Context.behind, CallsForPackage]
  · have hnext : Context.ordinary.behind (front ++ [k]) = (Context.ordinary.behind front).next k :=
      Context.behind_append _ _ _
    rw [List.concat_eq_append, hnext, Context.next_eq_package_iff, behind_eq_afterHeaderWord_iff,
      CallsForPackage]
    refine or_congr (by simp) ?_
    constructor
    · rintro ⟨rfl, front, w, hw, rfl⟩
      exact ⟨front, w, hw, by simp⟩
    · rintro ⟨front', w, hw, h⟩
      have hsplit : front ++ [k] = (front' ++ [.keyword w]) ++ [.mark .colon] := by simpa using h
      obtain ⟨hfront, hk⟩ := List.append_inj' hsplit rfl
      exact ⟨List.singleton_inj.1 hk, front', w, hw, hfront⟩

/-! ### Layouts -/

lemma Laid.append_iff {ls₁ ls₂ : List Lexeme} : Laid ctx (ls₁ ++ ls₂) r ↔
    Laid ctx ls₁ (ls₂.flatMap Lexeme.text ++ r) ∧
      Laid (ctx.behind (ls₁.map Lexeme.kind)) ls₂ r := by
  induction ls₁ generalizing ctx with
  | nil => exact ⟨fun h => ⟨.nil, h⟩, And.right⟩
  | cons l ls₁ ih =>
    have htext : (ls₁ ++ ls₂).flatMap Lexeme.text ++ r =
        ls₁.flatMap Lexeme.text ++ (ls₂.flatMap Lexeme.text ++ r) := by simp
    constructor
    · rintro (_ | ⟨hgap, hword, hctx, hstop, h⟩)
      obtain ⟨h₁, h₂⟩ := ih.1 h
      exact ⟨.cons hgap hword hctx (htext ▸ hstop) h₁, h₂⟩
    · rintro ⟨_ | ⟨hgap, hword, hctx, hstop, h₁⟩, h₂⟩
      exact .cons hgap hword hctx (htext ▸ hstop) (ih.2 ⟨h₁, h₂⟩)

lemma stopsAt_append_iff {p : CodePoint → Bool} (hs : s ≠ []) (r : Text) :
    (s ++ r).StopsAt p ↔ s.StopsAt p := by
  obtain ⟨c, s, rfl⟩ := List.exists_cons_of_ne_nil hs
  exact Iff.rfl

/-- What stands between two tokens, and the second token if nothing does, ends the first. -/
lemma stopsAt_text_append_iff (hgap : Trivia.Complete l.gap) (hword : l.word.WrittenAs l.spelling)
    (k : TokenKind) (r : Text) :
    Text.StopsAt k.continuedBy (l.text ++ r) ↔
      (l.gap = [] → l.spelling.StopsAt k.continuedBy) := by
  by_cases h : l.gap = []
  · rw [Lexeme.text, h, List.nil_append, stopsAt_append_iff hword.ne_nil]
    simp
  · rw [Lexeme.text, List.append_assoc, stopsAt_append_iff h]
    exact iff_of_true (stopsAt_of_head k hgap.head) fun h' => absurd h' h

lemma Laid.isChain (h : Laid ctx ls r) :
    ls.IsChain fun l l' => l'.gap = [] → l'.spelling.StopsAt l.kind.continuedBy := by
  induction h with
  | nil => exact .nil
  | @cons ctx l ls r _ _ _ hstop h ih =>
    cases h with
    | nil => exact .singleton l
    | @cons _ l' ls _ hgap hword =>
      rw [List.flatMap_cons, List.append_assoc, stopsAt_text_append_iff hgap hword] at hstop
      exact .cons_cons hstop ih

/-- Lexemes that are found in a text are laid out by the rules. -/
lemma Laid.layout (h : Laid .ordinary ls last) (hlast : Trivia.Final last) : Layout ls last := by
  have hsplit : ∀ ls₁ l ls₂, ls = ls₁ ++ l :: ls₂ →
      Trivia.Complete l.gap ∧ l.word.WrittenAs l.spelling ∧
        (l.kind = .packageName ↔ CallsForPackage (ls₁.map Lexeme.kind)) := by
    rintro ls₁ l ls₂ rfl
    obtain ⟨-, _ | ⟨hgap, hword, hctx, -, -⟩⟩ := Laid.append_iff.1 h
    exact ⟨hgap, hword, hctx.trans behind_eq_package_iff⟩
  refine ⟨fun l hl => ?_, hlast, fun l hl => ?_, fun ls₁ l ls₂ h => (hsplit ls₁ l ls₂ h).2.2,
    h.isChain⟩
  · obtain ⟨ls₁, ls₂, hls⟩ := List.append_of_mem hl
    exact (hsplit ls₁ l ls₂ hls).1
  · obtain ⟨ls₁, ls₂, hls⟩ := List.append_of_mem hl
    exact (hsplit ls₁ l ls₂ hls).2.1

/-- Lexemes that are laid out by the rules are found one by one. -/
lemma Layout.laid (h : Layout ls last) : Laid .ordinary ls last := by
  -- the lexemes behind a front part are laid in the context behind that part
  suffices hbehind : ∀ ls₂ ls₁, ls = ls₁ ++ ls₂ →
      Laid (Context.ordinary.behind (ls₁.map Lexeme.kind)) ls₂ last from hbehind ls [] rfl
  intro ls₂
  induction ls₂ with
  | nil => exact fun _ _ => .nil
  | cons l ls₂ ih =>
    intro ls₁ hls
    have hl : l ∈ ls := by simp [hls]
    have hbehind := ih (ls₁ ++ [l]) (by simpa using hls)
    rw [List.map_append, Context.behind_append] at hbehind
    refine .cons (h.gap l hl) (h.written l hl) ?_ ?_ hbehind
    · exact (h.package ls₁ l ls₂ hls).trans behind_eq_package_iff.symm
    · cases ls₂ with
      | nil => exact stopsAt_of_head l.kind h.last.head
      | cons l' ls₂ =>
        have hl' : l' ∈ ls := by simp [hls]
        have hchain := h.apart
        rw [hls] at hchain
        obtain ⟨hpair, -⟩ := List.isChain_cons_cons.1 hchain.right_of_append
        rw [List.flatMap_cons, List.append_assoc,
          stopsAt_text_append_iff (h.gap l' hl') (h.written l' hl')]
        exact hpair

/-- A text is cut into lexemes and trivia at its end exactly by the rules. -/
lemma Text.cut_eq_clean_iff : s.cut = ⟨ls, .clean last⟩ ↔
    s = ls.flatMap Lexeme.text ++ last ∧ Layout ls last := by
  constructor
  · intro h
    have htext := Cutting.text_cut s
    obtain ⟨hlaid, hdone⟩ := laid_cutFrom .ordinary s
    rw [← cut, h] at hlaid hdone
    rw [h] at htext
    exact ⟨htext.symm, hlaid.layout (Cutting.step_eq_clean_iff.1 hdone).2⟩
  · rintro ⟨rfl, h⟩
    have hdone : Cutting.step (Context.ordinary.behind (ls.map Lexeme.kind)) last =
        .done (.clean last) := Cutting.step_eq_clean_iff.2 ⟨rfl, h.last⟩
    rw [cut, cutFrom_append h.laid, cutFrom_of_done hdone, List.append_nil]

/-- A text that is laid out by the rules has exactly the words that it was made of. -/
theorem Text.tokens_of_layout (h : Layout ls last) :
    (Text.tokens (ls.flatMap Lexeme.text ++ last)).map Token.word =
      ls.map Lexeme.word ++ [(.endOfInput, [])] := by
  have hcut := Text.cut_eq_clean_iff.2 ⟨rfl, h⟩
  rw [words_tokens, hcut]
  rfl

/-- A package name between comments, and behind it a literal with an escape. -/
theorem Text.tokens_of_layout_import :
    let ls : List Lexeme := [⟨"// a\n", .keyword .imports, "import", "import"⟩,
      ⟨"/* b */", .packageName, "wrap.x", "wrap.x"⟩, ⟨[], .string, "A", "\"\\x41\""⟩]
    Layout ls " // c" ∧
      (Text.tokens (ls.flatMap Lexeme.text ++ " // c")).map Token.word =
        ([(.keyword .imports, "import"), (.packageName, "wrap.x"), (.string, "A"),
          (.endOfInput, [])] : List Word) := by
  intro ls
  have hline : Trivia.Complete "// a\n" := by
    have hbody : .scalar '\n' ∉ (" a" : Text) := by decide
    exact .line hbody .nil
  have hblock : Trivia.Complete "/* b */" := by
    have hcloses : Trivia.closeBlock 0 " b */" = some ((" b */" : Text), []) := by decide
    exact .block (Trivia.closeBlock_eq_some_iff.1 hcloses).2 .nil
  have hlast : Trivia.Final " // c" :=
    .inr ⟨" ", " c", .blank (by decide) .nil, by decide, rfl⟩
  have hvalue : Text.hexValue? [.scalar '4', .scalar '1'] = some 0x41 := by decide
  have hliteral : Literal.Denotes "\\x41" "A" := .byte hvalue .nil
  have hlaid : Laid .ordinary ls " // c" :=
    .cons hline (.keyword .imports) (by decide) (by decide) <|
      .cons hblock (.packageName (by decide)) (by decide) (by decide) <|
        .cons .nil (.string hliteral) (by decide) (by decide) .nil
  have hlayout := hlaid.layout hlast
  exact ⟨hlayout, Text.tokens_of_layout hlayout⟩

end Idl
