/-
# What rules recognise

The first rule that recognises something is applied, so a rule is only found by passing over all
rules in front of it.  Most of them are passed over for the first code point of the text
(`Highlight.recognise_filter`), the rules for reserved words because a name goes on behind the
word (`Highlight.recognise_eq_none_of_not_mem`).  What a single pattern cuts off is a run of code
points up to where the run ends.
-/
import Idl.Highlight
import Idl.Proofs.Token.Layout

namespace Idl

namespace Highlight

/-- Whether a text that a pattern finds may begin with a code point. -/
def Pattern.opens (c : CodePoint) : Pattern → Bool
  | .word words => words.any fun w => w.head?.all (· = c)
  | .one holds | .some holds => holds c
  | .many _ => true

/-- Whether a text that a rule recognises may begin with a code point, as far as its first pattern
tells. -/
def Rule.opens (c : CodePoint) (R : Rule) : Bool :=
  match R.parts with
  | ⟨_, p :: _⟩ :: _ => p.opens c
  | _ => true

/-- A rule that begins with one of several words, none of which is the beginning of another, and
which recognises none of these words where a name goes on behind it. -/
structure Rule.Reserves (R : Rule) (style : Style) (words : List Text) (more : List Part) :
    Prop where
  /-- The words are what the rule begins with. -/
  parts : R.parts = ⟨style, [.word words]⟩ :: more
  /-- The words consist of what names consist of. -/
  points : ∀ w ∈ words, ∀ c ∈ w, isNamePoint c
  /-- No word is the beginning of another one. -/
  apart : ∀ w ∈ words, ∀ w' ∈ words, w <+: w' → w = w'
  /-- Behind the word nothing is recognised that begins like the rest of a name. -/
  ends : ∀ c s, isNamePoint c → ∀ ps r, cutParts more (c :: s) = some (ps, r) → R.follow r = false

variable {b : Option CodePoint} {c : CodePoint} {change : Change} {holds : CodePoint → Bool}
  {p : Pattern} {pieces : List Piece} {r rest s w : Text} {R : Rule} {rules : List Rule}
  {style : Style}

/-! ### Passing over rules -/

lemma recognise_cons (R : Rule) (rules : List Rule) (b : Option CodePoint) (s : Text) :
    recognise (R :: rules) b s =
      ((R.recognise b s).map fun p => (p.1, p.2, R.change)).or (recognise rules b s) := by
  unfold recognise
  rw [List.findSome?_cons]
  cases R.recognise b s <;> rfl

lemma recognise_of_none (h : R.recognise b s = none) :
    recognise (R :: rules) b s = recognise rules b s := by
  rw [recognise_cons, h]
  rfl

lemma recognise_of_some (h : R.recognise b s = some (pieces, rest)) :
    recognise (R :: rules) b s = some (pieces, rest, R.change) := by
  rw [recognise_cons, h]
  rfl

lemma recognise_append (rules rules' : List Rule) (b : Option CodePoint) (s : Text) :
    recognise (rules ++ rules') b s = (recognise rules b s).or (recognise rules' b s) :=
  List.findSome?_append

lemma recognise_eq_none_iff :
    recognise rules b s = none ↔ ∀ R ∈ rules, R.recognise b s = none := by
  simp [recognise, List.findSome?_eq_none_iff]

/-- A pattern does not find what cannot begin so. -/
lemma Pattern.cut_eq_none (h : p.opens c = false) (s : Text) : p.cut (c :: s) = none := by
  cases p with
  | word words =>
    have hnone : words.find? (·.isPrefixOf (c :: s)) = none := by
      rw [List.find?_eq_none]
      intro w hw hprefix
      have hw := List.any_eq_false.1 h w hw
      cases w with
      | nil => simp at hw
      | cons d w => simp_all [List.isPrefixOf]
    rw [cut, hnone]
    rfl
  | one holds => rw [cut, if_neg (by simpa [opens] using h)]
  | many holds => simp [opens] at h
  | some holds =>
    have hc : ¬ holds c = true := by simpa [opens] using h
    rw [cut, List.takeWhile_cons_of_neg hc, if_pos rfl]

/-- A rule does not recognise what cannot begin so. -/
lemma Rule.recognise_eq_none (h : R.opens c = false) (b : Option CodePoint) (s : Text) :
    R.recognise b (c :: s) = none := by
  have hparts : cutParts R.parts (c :: s) = none := by
    unfold opens at h
    split at h
    · next style p ps more hR =>
      rw [hR, cutParts, cutAll, Pattern.cut_eq_none h]
      rfl
    · cases h
  unfold recognise
  rw [hparts]
  split <;> rfl

/-- Rules that recognise nothing are passed over. -/
lemma recognise_filter_of_none {q : Rule → Bool}
    (h : ∀ R ∈ rules, q R = false → R.recognise b s = none) :
    recognise rules b s = recognise (rules.filter q) b s := by
  induction rules with
  | nil => rfl
  | cons R rules ih =>
    obtain ⟨hR, hrules⟩ := List.forall_mem_cons.1 h
    by_cases hq : q R
    · rw [List.filter_cons_of_pos hq, recognise_cons, recognise_cons, ih hrules]
    · rw [List.filter_cons_of_neg hq, ← ih hrules, recognise_of_none (hR (Bool.eq_false_iff.2 hq))]

/-- Only the rules that may begin with the first code point count. -/
lemma recognise_filter (rules : List Rule) (b : Option CodePoint) (c : CodePoint) (s : Text) :
    recognise rules b (c :: s) = recognise (rules.filter (·.opens c)) b (c :: s) :=
  recognise_filter_of_none fun _ _ h => Rule.recognise_eq_none h b s

lemma recognise_eq_none_of_opens (h : ∀ R ∈ rules, R.opens c = false) (b : Option CodePoint)
    (s : Text) : recognise rules b (c :: s) = none :=
  recognise_eq_none_iff.2 fun R hR => Rule.recognise_eq_none (h R hR) b s

/-! ### Runs -/

lemma takeWhile_dropWhile_append (hw : ∀ c ∈ w, holds c) (hr : r.StopsAt holds) :
    (w ++ r).takeWhile holds = w ∧ (w ++ r).dropWhile holds = r := by
  rw [List.takeWhile_append_of_pos hw, List.dropWhile_append_of_pos hw, hr.takeWhile, hr.dropWhile,
    List.append_nil]
  exact ⟨rfl, rfl⟩

lemma Pattern.cut_many (hw : ∀ c ∈ w, holds c) (hr : r.StopsAt holds) :
    (Pattern.many holds).cut (w ++ r) = Option.some (w, r) := by
  obtain ⟨htake, hdrop⟩ := takeWhile_dropWhile_append hw hr
  rw [cut, htake, hdrop]

lemma Pattern.cut_some (hw : ∀ c ∈ w, holds c) (hne : w ≠ []) (hr : r.StopsAt holds) :
    (Pattern.some holds).cut (w ++ r) = Option.some (w, r) := by
  obtain ⟨htake, hdrop⟩ := takeWhile_dropWhile_append hw hr
  rw [cut, htake, hdrop, if_neg hne]

/-- A rule that looks for a run of code points recognises the whole run. -/
lemma recognise_run (style : Style) (change : Change) (hw : ∀ c ∈ w, holds c) (hne : w ≠ [])
    (hr : r.StopsAt holds) :
    (plain [⟨style, [.some holds]⟩] change).recognise b (w ++ r) = some ([⟨style, w⟩], r) := by
  have hcut : cutParts [⟨style, [.some holds]⟩] (w ++ r) = some ([⟨style, w⟩], r) := by
    simp only [cutParts, cutAll, Pattern.cut_some hw hne hr, Option.bind_eq_bind, Option.bind_some,
      Option.pure_def, List.append_nil, if_neg hne]
  simp [Rule.recognise, plain, hcut]

/-- A rule that looks for one code point out of several recognises it. -/
lemma recognise_sign {cs : List Char} (hc : anyOf cs c) (r : Text) :
    (sign style cs change).recognise b (c :: r) = some ([⟨style, [c]⟩], r) := by
  have hcut : cutParts [⟨style, [.one (anyOf cs)]⟩] (c :: r) = some ([⟨style, [c]⟩], r) := by
    simp [cutParts, cutAll, Pattern.cut, hc]
  simp [Rule.recognise, sign, plain, hcut]

/-! ### Classes of code points -/

lemma toNat_lt_of_isNamePoint (h : isNamePoint c) : c.toNat < 0x80 := by
  simp only [isNamePoint, isSmall, isCapital, CodePoint.isDigit, CodePoint.isBetween,
    Bool.or_eq_true, Bool.and_eq_true, decide_eq_true_eq] at h
  have hends : 'z'.toNat < 0x80 ∧ 'Z'.toNat < 0x80 ∧ '9'.toNat < 0x80 := by decide
  omega

/-- Among the ASCII characters, names are made of letters and numerals. -/
lemma isNamePoint_eq_isAlphanumeric (h : c.toNat < 0x80) : isNamePoint c = c.isAlphanumeric := by
  have hall : ∀ n < 0x80, ((('a'.toNat ≤ n && n ≤ 'z'.toNat) || ('A'.toNat ≤ n && n ≤ 'Z'.toNat)) ||
      ('0'.toNat ≤ n && n ≤ '9'.toNat)) =
        (Band.holds letterBands n || Band.holds numeralBands n) := by decide +kernel
  exact hall c.toNat h

lemma isSmall_of_isLowercase (h : c.toNat < 0x80) (hletter : c.isLetter) (hlower : c.isLowercase) :
    isSmall c := by
  have hall : ∀ n < 0x80, Band.holds letterBands n → Band.holds lowercaseBands n →
      ('a'.toNat ≤ n && n ≤ 'z'.toNat) = true := by decide +kernel
  exact hall c.toNat h hletter hlower

lemma isCapital_of_isUppercase (h : c.toNat < 0x80) (hletter : c.isLetter)
    (hupper : c.isUppercase) : isCapital c := by
  have hall : ∀ n < 0x80, Band.holds letterBands n → Band.holds uppercaseBands n →
      ('A'.toNat ≤ n && n ≤ 'Z'.toNat) = true := by decide +kernel
  exact hall c.toNat h hletter hupper

lemma isAlphanumeric_of_isNamePoint (h : isNamePoint c) : c.isAlphanumeric := by
  rwa [← isNamePoint_eq_isAlphanumeric (toNat_lt_of_isNamePoint h)]

lemma isWordPoint_of_isNamePoint (h : isNamePoint c) : isWordPoint c := by
  simp [isWordPoint, isAlphanumeric_of_isNamePoint h]

/-! ### Words -/

variable {more : List Part} {words : List Text}

lemma cut_word_eq_some (h : (Pattern.word words).cut s = some (w, rest)) :
    w ∈ words ∧ s = w ++ rest := by
  have htext := Pattern.cut_eq_some h
  simp only [Pattern.cut, Option.map_eq_some_iff, Prod.mk.injEq] at h
  obtain ⟨w', hw', rfl, -⟩ := h
  have hprefix : w' <+: s := by simpa using List.find?_some hw'
  rw [← List.prefix_iff_eq_take.1 hprefix] at htext ⊢
  exact ⟨List.mem_of_find?_eq_some hw', htext⟩

/-- A text made of what names consist of ends with the name. -/
lemma prefix_of_prefix_append {w' : Text} (hw' : ∀ c ∈ w', isNamePoint c)
    (hr : r.StopsAt isNamePoint) (h : w' <+: w ++ r) : w' <+: w := by
  obtain ⟨t, h⟩ := h
  rcases List.append_eq_append_iff.1 h with ⟨u, rfl, rfl⟩ | ⟨u, rfl, rfl⟩
  · exact List.prefix_append _ _
  · cases u with
    | nil => simp
    | cons c u =>
      have hc := hr c rfl
      rw [hw' c (by simp)] at hc
      cases hc

/-- A rule that looks for one word recognises nothing else. -/
lemma recognise_eq_none_of_not_prefix (h : ¬ w <+: s) (b : Option CodePoint) :
    (plain [⟨style, [.word [w]]⟩] change).recognise b s = none := by
  have hprefix : w.isPrefixOf s = false := by
    rwa [Bool.eq_false_iff, ne_eq, List.isPrefixOf_iff_prefix]
  have hcut : cutParts [⟨style, [.word [w]]⟩] s = none := by
    simp [cutParts, cutAll, Pattern.cut, hprefix]
  simp [Rule.recognise, plain, hcut]

namespace Rule.Reserves

/-- A reserved word is found if it is not continued. -/
lemma cut_word (hR : R.Reserves style words more) (hw : w ∈ words) (hr : r.StopsAt isNamePoint) :
    (Pattern.word words).cut (w ++ r) = some (w, r) := by
  rcases hcut : (Pattern.word words).cut (w ++ r) with _ | ⟨w', rest⟩
  · simp only [Pattern.cut, Option.map_eq_none_iff, List.find?_eq_none] at hcut
    exact absurd (List.isPrefixOf_iff_prefix.2 (List.prefix_append w r)) (hcut w hw)
  · obtain ⟨hw', htext⟩ := cut_word_eq_some hcut
    have hprefix : w' <+: w :=
      prefix_of_prefix_append (hR.points w' hw') hr ⟨rest, htext.symm⟩
    obtain rfl := hR.apart w' hw' w hw hprefix
    rw [List.append_cancel_left htext]

/-- What the rule makes of a word that is not continued. -/
lemma cutParts_word (hR : R.Reserves style words more) (hw : w ∈ words) (hne : w ≠ [])
    (hr : r.StopsAt isNamePoint) :
    cutParts R.parts (w ++ r) = (cutParts more r).map fun p => (⟨style, w⟩ :: p.1, p.2) := by
  rw [hR.parts, cutParts, cutAll, hR.cut_word hw hr]
  simp only [cutAll, Option.bind_eq_bind, Option.bind_some, Option.pure_def, List.append_nil,
    if_neg hne]
  cases cutParts more r <;> rfl

lemma recognise_word (hR : R.Reserves style words more) (hw : w ∈ words) (hne : w ≠ [])
    (hr : r.StopsAt isNamePoint) (hb : ∀ c ∈ b, isWordPoint c = false)
    (hmore : cutParts more r = some (pieces, rest)) (hfollow : R.follow rest) :
    R.recognise b (w ++ r) = some (⟨style, w⟩ :: pieces, rest) := by
  have hstart : ((b.map isWordPoint).getD false) = false := by
    cases b with
    | none => rfl
    | some c => exact hb c rfl
  rw [recognise, hstart, Bool.and_false, if_neg Bool.false_ne_true, hR.cutParts_word hw hne hr,
    hmore]
  simp [hfollow]

lemma recognise_eq_none_of_more (hR : R.Reserves style words more) (hw : w ∈ words) (hne : w ≠ [])
    (hr : r.StopsAt isNamePoint) (hmore : cutParts more r = none) :
    R.recognise b (w ++ r) = none := by
  rw [recognise, hR.cutParts_word hw hne hr, hmore]
  split <;> rfl

/-- A name that is no reserved word is not taken for one. -/
lemma recognise_eq_none_of_not_mem (hR : R.Reserves style words more)
    (hpoints : ∀ c ∈ w, isNamePoint c) (hw : w ∉ words) (hr : r.StopsAt isNamePoint) :
    R.recognise b (w ++ r) = none := by
  rcases hcut : cutParts R.parts (w ++ r) with _ | ⟨pieces, rest⟩
  · rw [recognise, hcut]
    split <;> rfl
  · have hfollow : R.follow rest = false := by
      rw [hR.parts] at hcut
      simp only [cutParts, cutAll, Option.bind_eq_bind, Option.bind_eq_some_iff, Option.pure_def,
        Option.some.injEq, Prod.mk.injEq, Prod.exists] at hcut
      obtain ⟨_, _, ⟨w', u, hword, _, _, ⟨rfl, rfl⟩, -, rfl⟩, ps, _, hmore, -, rfl⟩ := hcut
      obtain ⟨hw', htext⟩ := cut_word_eq_some hword
      obtain ⟨v, rfl⟩ : w' <+: w :=
        prefix_of_prefix_append (hR.points w' hw') hr ⟨u, htext.symm⟩
      rw [List.append_assoc] at htext
      rw [← List.append_cancel_left htext] at hmore
      -- the name goes on behind the reserved word
      cases v with
      | nil => simp [hw'] at hw
      | cons c v => exact hR.ends c (v ++ r) (hpoints c (by simp)) ps _ hmore
    rw [recognise, hcut]
    simp [hfollow]

end Rule.Reserves

end Highlight

end Idl
