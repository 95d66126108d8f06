/-
# Words when highlighting

In its first state the machine passes a word as a whole.  A name is told by its first letter, and a
field name by the colon behind it (`Highlight.recognise_root_name`).  Of a reserved word only the
rules for that word count (`Highlight.recognise_root_keyword`); three of them go on behind the word:
behind `scala` and `purs` over a colon to a package, behind `import` to a package, and behind `type`
to the name of a type.
-/
import Idl.Proofs.Highlight.Gaps

namespace Idl

namespace Highlight

/-- What stands behind `scala` and `purs`. -/
def behindHeaderWord : List Part := [blanks, ⟨.punctuation, [.word [":"]]⟩, blanks, package]

/-- What stands behind `import`. -/
def behindImport : List Part := [someBlanks, package]

/-- What stands behind `type`. -/
def behindType : List Part := [someBlanks, capitalName .className]

/-- The text without the blanks in front. -/
def skipBlanks (s : Text) : Text := s.dropWhile CodePoint.isBlank

/-- The rule for the header. -/
def headerRule : Rule :=
  fromWordStart (⟨.namespaceKeyword, [.word ["scala", "purs"]]⟩ :: behindHeaderWord)

/-- The rule for imports. -/
def importRule : Rule := fromWordStart (⟨.namespaceKeyword, [.word ["import"]]⟩ :: behindImport)

/-- The rule for the beginning of a declaration. -/
def typeRule : Rule := fromWordStart (⟨.declarationKeyword, [.word ["type"]]⟩ :: behindType)

/-- The rule for the words of declarations. -/
def declarationRule : Rule := wholeWord .declarationKeyword ["type", "wrap"]

/-- The rule for the words of types. -/
def typeWordRule : Rule :=
  wholeWord .typeKeyword ["Boolean", "Int", "Decimal", "String", "Array", "Maybe"]

/-- The rules for reserved words. -/
def reservedRules : List Rule := [headerRule, importRule, typeRule, declarationRule, typeWordRule]

/-- The rules for opening angles. -/
def openingRules : List Rule :=
  [plain [⟨.punctuation, [.word ["<"]]⟩, blanks, smallName .annotationName] (.push .parameters),
   sign .punctuation ['<'] .stay]

/-- The rules for names. -/
def nameRules : List Rule :=
  [⟨false, [smallName .attributeName], colonFollows, .stay⟩,
   plain [capitalName .className] .stay,
   plain [smallName .plainName] .stay]

/-- The rules for a reserved word, the first of which that recognises something is applied. -/
def rulesOf : Keyword → List Rule
  | .scala | .purs => [headerRule]
  | .imports => [importRule]
  | .type => [typeRule, declarationRule]
  | .wrap => [declarationRule]
  | .boolean | .int | .decimal | .string | .array | .maybe => [typeWordRule]

/-- How a reserved word is highlighted. -/
def keywordStyle : Keyword → Style
  | .scala | .purs | .imports => .namespaceKeyword
  | .type | .wrap => .declarationKeyword
  | .boolean | .int | .decimal | .string | .array | .maybe => .typeKeyword

/-- How a name with a first letter is highlighted in front of a text. -/
def nameStyle (c : CodePoint) (r : Text) : Style :=
  if isCapital c then .className else if colonFollows r then .attributeName else .plainName

variable {b : Option CodePoint} {c d : CodePoint} {more : List Part} {ps : List Piece}
  {r rest s t u w : Text} {R : Rule} {style : Style} {words : List Text}

/-! ### Names -/

lemma ne_of_isNamePoint (h : isNamePoint c) (hd : isNamePoint d = false) : c ≠ d := by
  rintro rfl
  rw [hd] at h
  cases h

lemma isNamePoint_of_isSmall (h : isSmall c) : isNamePoint c := by
  simp [isNamePoint, h]

lemma isNamePoint_of_isCapital (h : isCapital c) : isNamePoint c := by
  simp [isNamePoint, h]

lemma isCapital_eq_false_of_isSmall (h : isSmall c) : isCapital c = false := by
  simp only [isSmall, isCapital, CodePoint.isBetween, Bool.and_eq_true, decide_eq_true_eq] at h ⊢
  have hends : 'Z'.toNat < 'a'.toNat := by decide
  simp only [Bool.and_eq_false_iff, decide_eq_false_iff_not]
  omega

/-- A name is cut off up to its end. -/
lemma cutParts_name {start : CodePoint → Bool} (hc : start c) (ht : ∀ x ∈ t, isNamePoint x)
    (hr : r.StopsAt isNamePoint) :
    cutParts [⟨style, [.one start, .many isNamePoint]⟩] (c :: (t ++ r)) =
      some ([⟨style, c :: t⟩], r) := by
  have hone : (Pattern.one start).cut (c :: (t ++ r)) = some ([c], t ++ r) := by
    rw [Pattern.cut, if_pos hc]
  simp [cutParts, cutAll, hone, Pattern.cut_many ht hr]

/-- The rules of the first state, by what they are for. -/
lemma rootRules_eq : ∃ front back, rootRules = front ++ (reservedRules ++ (openingRules ++
    (nameRules ++ back))) ∧ ∀ c, isNamePoint c → ∀ R ∈ front, R.opens c = false := by
  refine ⟨rootRules.take 3, rootRules.drop 13, rfl, fun c hc => ?_⟩
  have hblank := CodePoint.not_isBlank_of_isAlphanumeric (isAlphanumeric_of_isNamePoint hc)
  have hslash : c ≠ .scalar '/' := ne_of_isNamePoint hc (by decide)
  simp [rootRules, plain, someBlanks, Rule.opens, Pattern.opens, Text.ofString, hblank, hslash.symm]

/-- The rules behind those for reserved words recognise every name. -/
lemma recognise_name (hc : isSmall c ∨ isCapital c) (ht : ∀ x ∈ t, isNamePoint x)
    (hr : r.StopsAt isNamePoint) (back : List Rule) :
    recognise (openingRules ++ (nameRules ++ back)) b (c :: t ++ r) =
      some ([⟨nameStyle c r, c :: t⟩], r, .stay) := by
  have hpoint : isNamePoint c := hc.elim isNamePoint_of_isSmall isNamePoint_of_isCapital
  have hangle : c ≠ .scalar '<' := ne_of_isNamePoint hpoint (by decide)
  have hopening : ∀ R ∈ openingRules, R.opens c = false := by
    simp [openingRules, plain, sign, anyOf, Rule.opens, Pattern.opens, Text.ofString, hangle,
      hangle.symm]
  rw [recognise_append, List.cons_append, recognise_eq_none_of_opens hopening, Option.none_or]
  rcases hc with hc | hc
  · have hcapital := isCapital_eq_false_of_isSmall hc
    by_cases hcolon : colonFollows r
    · have hrule : (Rule.mk false [smallName .attributeName] colonFollows .stay).recognise b
          (c :: t ++ r) = some ([⟨.attributeName, c :: t⟩], r) := by
        simp [Rule.recognise, smallName, cutParts_name hc ht hr, hcolon]
      rw [nameStyle, if_neg (by simp [hcapital]), if_pos hcolon]
      exact recognise_of_some hrule
    · have hattribute : (Rule.mk false [smallName .attributeName] colonFollows .stay).recognise b
          (c :: t ++ r) = none := by
        simp [Rule.recognise, smallName, cutParts_name hc ht hr, hcolon]
      have hclass : (plain [capitalName .className] .stay).recognise b (c :: (t ++ r)) = none :=
        Rule.recognise_eq_none (by exact hcapital) b _
      have hrule : (plain [smallName .plainName] .stay).recognise b (c :: t ++ r) =
          some ([⟨.plainName, c :: t⟩], r) := by
        simp [Rule.recognise, plain, smallName, cutParts_name hc ht hr]
      rw [nameStyle, if_neg (by simp [hcapital]), if_neg hcolon]
      exact (recognise_of_none hattribute).trans
        ((recognise_of_none hclass).trans (recognise_of_some hrule))
  · have hsmall : isSmall c = false := by
      by_contra h
      rw [isCapital_eq_false_of_isSmall (by simpa using h)] at hc
      cases hc
    have hattribute : (Rule.mk false [smallName .attributeName] colonFollows .stay).recognise b
        (c :: (t ++ r)) = none :=
      Rule.recognise_eq_none (by exact hsmall) b _
    have hrule : (plain [capitalName .className] .stay).recognise b (c :: t ++ r) =
        some ([⟨.className, c :: t⟩], r) := by
      simp [Rule.recognise, plain, capitalName, cutParts_name hc ht hr]
    rw [nameStyle, if_pos hc]
    exact (recognise_of_none hattribute).trans (recognise_of_some hrule)

/-- A word that begins with a letter is recognised by a rule for reserved words or as a name. -/
lemma recognise_root_word (hc : isSmall c ∨ isCapital c) (ht : ∀ x ∈ t, isNamePoint x)
    (hr : r.StopsAt isNamePoint) : recognise rootRules b (c :: t ++ r) =
      (recognise reservedRules b (c :: t ++ r)).or
        (some ([⟨nameStyle c r, c :: t⟩], r, .stay)) := by
  have hpoint : isNamePoint c := hc.elim isNamePoint_of_isSmall isNamePoint_of_isCapital
  obtain ⟨front, back, hrules, hfront⟩ := rootRules_eq
  rw [hrules, recognise_append, List.cons_append, recognise_eq_none_of_opens (hfront c hpoint),
    Option.none_or, recognise_append, ← List.cons_append, recognise_name hc ht hr]

/-! ### Reserved words -/

/-- A part finds nothing where its first pattern does not. -/
lemma cutParts_eq_none {p : Pattern} {ps : List Pattern} (hnil : p.cut [] = none)
    (hs : s.StopsAt (Pattern.opens · p)) : cutParts (⟨style, p :: ps⟩ :: more) s = none := by
  have hcut : p.cut s = none := by
    cases s with
    | nil => exact hnil
    | cons c s => exact Pattern.cut_eq_none (hs c rfl) s
  rw [cutParts, cutAll, hcut]
  rfl

/-- What a part for blanks leaves to the parts behind it. -/
lemma cutParts_blanks (hw : ∀ c ∈ w, c.isBlank) (hr : r.StopsAt CodePoint.isBlank) :
    cutParts (blanks :: more) (w ++ r) =
      (cutParts more r).map fun p => (blankPiece w ++ p.1, p.2) := by
  simp only [cutParts, blanks, cutAll, Pattern.cut_many hw hr, Option.bind_eq_bind,
    Option.bind_some, Option.pure_def, List.append_nil, blankPiece]
  cases cutParts more r with
  | none => rfl
  | some p => split <;> rfl

lemma cutParts_someBlanks (hw : ∀ c ∈ w, c.isBlank) (hne : w ≠ [])
    (hr : r.StopsAt CodePoint.isBlank) :
    cutParts (someBlanks :: more) (w ++ r) =
      (cutParts more r).map fun p => (blankPiece w ++ p.1, p.2) := by
  simp only [cutParts, someBlanks, cutAll, Pattern.cut_some hw hne hr, Option.bind_eq_bind,
    Option.bind_some, Option.pure_def, List.append_nil, blankPiece, if_neg hne]
  cases cutParts more r <;> rfl

lemma reserves_header :
    headerRule.Reserves .namespaceKeyword ["scala", "purs"] behindHeaderWord := by
  refine ⟨rfl, by decide, by decide, fun c s hc ps r h => ?_⟩
  have hblank := CodePoint.not_isBlank_of_isAlphanumeric (isAlphanumeric_of_isNamePoint hc)
  have hcolon : c ≠ .scalar ':' := ne_of_isNamePoint hc (by decide)
  have hnone : cutParts behindHeaderWord ([] ++ c :: s) = none := by
    have hopens : (Pattern.word [":"]).opens c = false := by
      simp [Pattern.opens, Text.ofString, hcolon.symm]
    rw [behindHeaderWord, cutParts_blanks (by simp) (Text.stopsAt_cons hblank s),
      cutParts_eq_none rfl (Text.stopsAt_cons hopens s)]
    rfl
  rw [List.nil_append, h] at hnone
  cases hnone

lemma reserves_import : importRule.Reserves .namespaceKeyword ["import"] behindImport := by
  refine ⟨rfl, by decide, by decide, fun c s hc ps r h => ?_⟩
  have hblank := CodePoint.not_isBlank_of_isAlphanumeric (isAlphanumeric_of_isNamePoint hc)
  rw [behindImport, someBlanks, cutParts_eq_none rfl (Text.stopsAt_cons (by exact hblank) s)] at h
  cases h

lemma reserves_type : typeRule.Reserves .declarationKeyword ["type"] behindType := by
  refine ⟨rfl, by decide, by decide, fun c s hc ps r h => ?_⟩
  have hblank := CodePoint.not_isBlank_of_isAlphanumeric (isAlphanumeric_of_isNamePoint hc)
  rw [behindType, someBlanks, cutParts_eq_none rfl (Text.stopsAt_cons (by exact hblank) s)] at h
  cases h

lemma reserves_wholeWord (hpoints : ∀ w ∈ words, ∀ c ∈ w, isNamePoint c)
    (hapart : ∀ w ∈ words, ∀ w' ∈ words, w <+: w' → w = w') :
    (wholeWord style words).Reserves style words [] := by
  refine ⟨rfl, hpoints, hapart, fun c s hc ps r h => ?_⟩
  cases h
  simp [wholeWord, startsWord, isWordPoint_of_isNamePoint hc]

/-- Whether a rule for reserved words is one for this word. -/
def Rule.takes (w : Text) (R : Rule) : Bool :=
  match R.parts with
  | ⟨_, [.word words]⟩ :: _ => words.contains w
  | _ => true

lemma exists_reserves (hR : R ∈ reservedRules) : ∃ style words more,
    R.Reserves style words more ∧ ∀ w ∈ words, ∃ k : Keyword, w = k.spelling := by
  have hwords (words : List Text) (ks : List Keyword) (h : words = ks.map Keyword.spelling) :
      ∀ w ∈ words, ∃ k : Keyword, w = k.spelling := by
    rw [h]
    simp only [List.mem_map]
    rintro _ ⟨k, -, rfl⟩
    exact ⟨k, rfl⟩
  simp only [reservedRules, List.mem_cons, List.not_mem_nil, or_false] at hR
  rcases hR with rfl | rfl | rfl | rfl | rfl
  · exact ⟨_, _, _, reserves_header, hwords _ [.scala, .purs] rfl⟩
  · exact ⟨_, _, _, reserves_import, hwords _ [.imports] rfl⟩
  · exact ⟨_, _, _, reserves_type, hwords _ [.type] rfl⟩
  · exact ⟨_, _, _, reserves_wholeWord (by decide) (by decide), hwords _ [.type, .wrap] rfl⟩
  · exact ⟨_, _, _, reserves_wholeWord (by decide) (by decide),
      hwords _ [.boolean, .int, .decimal, .string, .array, .maybe] rfl⟩

/-- The rules for other words are passed over. -/
lemma recognise_reserved (hw : ∀ c ∈ w, isNamePoint c) (hr : r.StopsAt isNamePoint) :
    recognise reservedRules b (w ++ r) =
      recognise (reservedRules.filter (·.takes w)) b (w ++ r) := by
  refine recognise_filter_of_none fun R hR htakes => ?_
  obtain ⟨style, words, more, hreserves, -⟩ := exists_reserves hR
  refine hreserves.recognise_eq_none_of_not_mem hw ?_ hr
  simpa [Rule.takes, hreserves.parts] using htakes

lemma recognise_keyword (k : Keyword) (hr : r.StopsAt isNamePoint) :
    recognise reservedRules b (k.spelling ++ r) = recognise (rulesOf k) b (k.spelling ++ r) := by
  have hpoints : ∀ c ∈ k.spelling, isNamePoint c := by cases k <;> decide
  have hrules : reservedRules.filter (·.takes k.spelling) = rulesOf k := by cases k <;> rfl
  rw [recognise_reserved hpoints hr, hrules]

/-- No name is taken for a reserved word. -/
lemma recognise_not_reserved (hw : ∀ c ∈ w, isNamePoint c) (hne : ∀ k : Keyword, w ≠ k.spelling)
    (hr : r.StopsAt isNamePoint) : recognise reservedRules b (w ++ r) = none := by
  refine recognise_eq_none_iff.2 fun R hR => ?_
  obtain ⟨style, words, more, hreserves, hwords⟩ := exists_reserves hR
  refine hreserves.recognise_eq_none_of_not_mem hw (fun hmem => ?_) hr
  obtain ⟨k, hk⟩ := hwords w hmem
  exact hne k hk

/-! ### What stands behind reserved words -/

lemma exists_blanks (r : Text) : ∃ w, r = w ++ skipBlanks r ∧ (∀ c ∈ w, c.isBlank) ∧
    (skipBlanks r).StopsAt CodePoint.isBlank :=
  ⟨_, List.takeWhile_append_dropWhile.symm, fun c => (List.all_eq_true.1 List.all_takeWhile) c,
    stopsAt_dropWhile _ r⟩

/-- A part for one character. -/
lemma cutParts_char (c : CodePoint) (r : Text) :
    cutParts (⟨style, [.word [[c]]]⟩ :: more) (c :: r) =
      (cutParts more r).map fun p => (⟨style, [c]⟩ :: p.1, p.2) := by
  have hcut : (Pattern.word [[c]]).cut (c :: r) = some ([c], r) := by
    simp [Pattern.cut]
  simp only [cutParts, cutAll, hcut, Option.bind_eq_bind, Option.bind_some, Option.pure_def,
    List.append_nil]
  cases cutParts more r <;> rfl

lemma cutParts_colon (r : Text) : cutParts (⟨.punctuation, [.word [":"]]⟩ :: more)
    (.scalar ':' :: r) =
      (cutParts more r).map fun p => (⟨.punctuation, [.scalar ':']⟩ :: p.1, p.2) :=
  cutParts_char (.scalar ':') r

lemma cutParts_package (hw : ∀ c ∈ w, isPackagePoint c) (hne : w ≠ [])
    (hr : r.StopsAt isPackagePoint) :
    cutParts [package] (w ++ r) = some ([⟨.packageName, w⟩], r) := by
  simp [cutParts, package, cutAll, Pattern.cut_some hw hne hr, hne]

/-- Behind the word of the header there is no package without a colon, and none without a package
point behind the colon, blanks aside. -/
lemma cutParts_header_eq_none (h : ∀ u, skipBlanks r = .scalar ':' :: u →
    (skipBlanks u).StopsAt isPackagePoint) : cutParts behindHeaderWord r = none := by
  obtain ⟨w, hr, hw, hstop⟩ := exists_blanks r
  rw [hr, behindHeaderWord, cutParts_blanks hw hstop]
  by_cases hcolon : ∃ u, skipBlanks r = .scalar ':' :: u
  · obtain ⟨u, hu⟩ := hcolon
    obtain ⟨v, hv, hvBlank, hvStop⟩ := exists_blanks u
    have hpackage : cutParts [package] (skipBlanks u) = none := cutParts_eq_none rfl (h u hu)
    rw [hu, cutParts_colon, hv, cutParts_blanks hvBlank hvStop, hpackage]
    rfl
  · have hnone : (skipBlanks r).StopsAt (Pattern.opens · (.word [":"])) := by
      intro c hc
      have hne : c ≠ .scalar ':' := by
        rintro rfl
        exact hcolon ⟨_, List.head?_eq_some_iff.1 hc |>.choose_spec⟩
      simp [Pattern.opens, Text.ofString, hne.symm]
    rw [cutParts_eq_none rfl hnone]
    rfl

lemma cutParts_someBlanks_eq_none {p : Pattern} {ps : List Pattern} (hnil : p.cut [] = none)
    (h : (skipBlanks r).StopsAt (Pattern.opens · p)) :
    cutParts (someBlanks :: ⟨style, p :: ps⟩ :: more) r = none := by
  obtain ⟨w, hr, hw, hstop⟩ := exists_blanks r
  by_cases hne : w = []
  · rw [hne, List.nil_append] at hr
    rw [← hr] at hstop
    exact cutParts_eq_none rfl hstop
  · rw [hr, cutParts_someBlanks hw hne hstop, cutParts_eq_none hnil h]
    rfl

/-- Behind `import` there is no package without a package point, blanks aside. -/
lemma cutParts_import_eq_none (h : (skipBlanks r).StopsAt isPackagePoint) :
    cutParts behindImport r = none :=
  cutParts_someBlanks_eq_none rfl h

/-- Behind `type` there is no type without a capital letter, blanks aside. -/
lemma cutParts_type_eq_none (h : (skipBlanks r).StopsAt isCapital) : cutParts behindType r = none :=
  cutParts_someBlanks_eq_none rfl h

/-! ### What the machine passes -/

lemma stopsAt_isNamePoint (h : r.StopsAt isWordPoint) : r.StopsAt isNamePoint := by
  intro c hc
  by_contra hpoint
  have hword := isWordPoint_of_isNamePoint (by simpa using hpoint)
  rw [h c hc] at hword
  cases hword

/-- A name that is no reserved word is passed as a whole. -/
lemma leads_name (hc : isSmall c ∨ isCapital c) (ht : ∀ x ∈ t, isNamePoint x)
    (hne : ∀ k : Keyword, c :: t ≠ k.spelling) (hr : r.StopsAt isNamePoint) : ∃ b',
      Leads ⟨[], b, c :: t ++ r⟩ [⟨nameStyle c r, c :: t⟩] ⟨[], b', r⟩ := by
  have hpoint : isNamePoint c := hc.elim isNamePoint_of_isSmall isNamePoint_of_isCapital
  have hrule : recognise rootRules b (c :: t ++ r) =
      some ([⟨nameStyle c r, c :: t⟩], r, .stay) := by
    rw [recognise_root_word hc ht hr,
      recognise_not_reserved (List.forall_mem_cons.2 ⟨hpoint, ht⟩) hne hr]
    rfl
  exact ⟨_, leads_of_recognise (S := []) hrule⟩

/-- A reserved word is recognised by a rule for it or as a name. -/
lemma recognise_root_keyword (k : Keyword) (hr : r.StopsAt isNamePoint) : ∃ style ≠ .stray,
    recognise rootRules b (k.spelling ++ r) = (recognise (rulesOf k) b (k.spelling ++ r)).or
      (some ([⟨style, k.spelling⟩], r, .stay)) := by
  obtain ⟨c, t, hk, hc, ht⟩ : ∃ c t, k.spelling = c :: t ∧ (isSmall c ∨ isCapital c) ∧
      ∀ x ∈ t, isNamePoint x := by
    cases k <;> exact ⟨_, _, rfl, by decide⟩
  have hstyle : nameStyle c r ≠ .stray := by
    unfold nameStyle
    split
    · decide
    · split <;> decide
  refine ⟨_, hstyle, ?_⟩
  rw [← recognise_keyword k hr, hk]
  exact recognise_root_word hc ht hr

/-- A reserved word that the rules for it recognise. -/
lemma leads_keyword {k : Keyword} (hr : r.StopsAt isNamePoint)
    (h : recognise (rulesOf k) b (k.spelling ++ r) = some (ps, rest, .stay)) :
    ∃ b', Leads ⟨[], b, k.spelling ++ r⟩ ps ⟨[], b', rest⟩ := by
  obtain ⟨style, -, hroot⟩ := recognise_root_keyword (b := b) k hr
  rw [h] at hroot
  exact ⟨_, leads_of_recognise (S := []) hroot⟩

lemma recognise_wholeWord (hR : (wholeWord style words).Reserves style words []) (hw : w ∈ words)
    (hne : w ≠ []) (hr : r.StopsAt isWordPoint) (hb : ∀ c ∈ b, isWordPoint c = false) :
    (wholeWord style words).recognise b (w ++ r) = some ([⟨style, w⟩], r) := by
  have hfollow : (wholeWord style words).follow r := by
    cases r with
    | nil => rfl
    | cons c r => simp [wholeWord, startsWord, hr c rfl]
  exact hR.recognise_word hw hne (stopsAt_isNamePoint hr) hb rfl hfollow

/-- A word of types and declarations that stands alone. -/
lemma leads_wholeWord {k : Keyword} (hk : k ∉ [.scala, .purs, .imports])
    (htype : k = .type → cutParts behindType r = none) (hr : r.StopsAt isWordPoint)
    (hb : ∀ c ∈ b, isWordPoint c = false) :
    ∃ b', Leads ⟨[], b, k.spelling ++ r⟩ [⟨keywordStyle k, k.spelling⟩] ⟨[], b', r⟩ := by
  have hdeclaration : declarationRule.Reserves .declarationKeyword ["type", "wrap"] [] :=
    reserves_wholeWord (by decide) (by decide)
  have htypeWord : typeWordRule.Reserves .typeKeyword
      ["Boolean", "Int", "Decimal", "String", "Array", "Maybe"] [] :=
    reserves_wholeWord (by decide) (by decide)
  refine leads_keyword (stopsAt_isNamePoint hr) ?_
  cases k with
  | scala | purs | imports => simp at hk
  | type =>
    have hnone : typeRule.recognise b (Keyword.type.spelling ++ r) = none :=
      reserves_type.recognise_eq_none_of_more (by simp [Keyword.spelling]) (by decide)
        (stopsAt_isNamePoint hr) (htype rfl)
    have hsome := recognise_wholeWord hdeclaration (w := Keyword.type.spelling) (by decide)
      (by decide) hr hb
    exact (recognise_of_none hnone).trans (recognise_of_some hsome)
  | wrap => exact recognise_of_some (recognise_wholeWord hdeclaration (by decide) (by decide) hr hb)
  | boolean | int | decimal | string | array | maybe =>
    exact recognise_of_some (recognise_wholeWord htypeWord (by decide) (by decide) hr hb)

/-- A word that begins with a letter is passed by itself, unless one of the rules that go on behind
it applies. -/
lemma leads_loose (hc : isSmall c ∨ isCapital c) (ht : ∀ x ∈ t, isNamePoint x)
    (hheader : cutParts behindHeaderWord r = none)
    (himport : c :: t = Keyword.imports.spelling → cutParts behindImport r = none)
    (htype : c :: t = Keyword.type.spelling → cutParts behindType r = none)
    (hr : r.StopsAt isWordPoint) (hb : ∀ c ∈ b, isWordPoint c = false) :
    ∃ style ≠ .stray, ∃ b', Leads ⟨[], b, c :: t ++ r⟩ [⟨style, c :: t⟩] ⟨[], b', r⟩ := by
  have hname := stopsAt_isNamePoint hr
  by_cases hkeyword : ∃ k : Keyword, c :: t = k.spelling
  · obtain ⟨k, hk⟩ := hkeyword
    rw [hk] at himport htype ⊢
    by_cases hmore : k ∈ [.scala, .purs, .imports]
    · have hnone : recognise (rulesOf k) b (k.spelling ++ r) = none := by
        simp only [List.mem_cons, List.not_mem_nil, or_false] at hmore
        rcases hmore with rfl | rfl | rfl
        · exact recognise_of_none (reserves_header.recognise_eq_none_of_more (by decide) (by decide)
            hname hheader)
        · exact recognise_of_none (reserves_header.recognise_eq_none_of_more (by decide) (by decide)
            hname hheader)
        · exact recognise_of_none (reserves_import.recognise_eq_none_of_more (by decide) (by decide)
            hname (himport rfl))
      obtain ⟨style, hstyle, hroot⟩ := recognise_root_keyword (b := b) k hname
      rw [hnone] at hroot
      exact ⟨style, hstyle, _, leads_of_recognise (S := []) hroot⟩
    · refine ⟨keywordStyle k, by cases k <;> decide, ?_⟩
      exact leads_wholeWord hmore (fun h => htype (by rw [h])) hr hb
  · obtain ⟨b', hleads⟩ := leads_name (b := b) hc ht (fun k hk => hkeyword ⟨k, hk⟩) hname
    refine ⟨_, ?_, b', hleads⟩
    unfold nameStyle
    split
    · decide
    · split <;> decide

/-! ### Several words at once -/

lemma stopsAt_append_of_blanks {p : CodePoint → Bool}
    (hp : ∀ c : CodePoint, c.isBlank → p c = false) (hw : ∀ c ∈ w, c.isBlank)
    (hr : r.StopsAt p) : (w ++ r).StopsAt p := by
  cases w with
  | nil => exact hr
  | cons c w => exact Text.stopsAt_cons (hp c (hw c (by simp))) _

lemma isNamePoint_eq_false_of_isBlank (h : c.isBlank) : isNamePoint c = false := by
  by_contra hc
  rw [CodePoint.not_isBlank_of_isAlphanumeric
    (isAlphanumeric_of_isNamePoint (by simpa using hc))] at h
  cases h

lemma stopsAt_isBlank_of_forall {p : CodePoint → Bool} (hp : ∀ c, p c → c.isBlank = false)
    (hw : ∀ c ∈ w, p c) (hne : w ≠ []) : (w ++ r).StopsAt CodePoint.isBlank := by
  obtain ⟨c, w, rfl⟩ := List.exists_cons_of_ne_nil hne
  exact Text.stopsAt_cons (hp c (hw c (by simp))) _

lemma isBlank_eq_false_of_isPackagePoint (h : isPackagePoint c) : c.isBlank = false := by
  by_contra hc
  have hpoint := isNamePoint_eq_false_of_isBlank (by simpa using hc)
  simp only [isPackagePoint, hpoint, Bool.false_or, decide_eq_true_eq] at h
  subst h
  exact hc (by decide)

/-- A line of the header, with nothing but blanks around the colon. -/
lemma leads_header {k : Keyword} (hk : k = .scala ∨ k = .purs) {v w p : Text}
    (hv : ∀ c ∈ v, c.isBlank) (hw : ∀ c ∈ w, c.isBlank) (hp : ∀ c ∈ p, isPackagePoint c)
    (hne : p ≠ []) (hr : r.StopsAt isPackagePoint) (hb : ∀ c ∈ b, isWordPoint c = false) : ∃ b',
      Leads ⟨[], b, k.spelling ++ (v ++ .scalar ':' :: (w ++ (p ++ r)))⟩
        (⟨.namespaceKeyword, k.spelling⟩ :: (blankPiece v ++ ⟨.punctuation, [.scalar ':']⟩ ::
          (blankPiece w ++ [⟨.packageName, p⟩]))) ⟨[], b', r⟩ := by
  have hpackage := stopsAt_isBlank_of_forall (r := r) (fun _ => isBlank_eq_false_of_isPackagePoint)
    hp hne
  have hmore : cutParts behindHeaderWord (v ++ .scalar ':' :: (w ++ (p ++ r))) =
      some (blankPiece v ++ ⟨.punctuation, [.scalar ':']⟩ ::
        (blankPiece w ++ [⟨.packageName, p⟩]), r) := by
    rw [behindHeaderWord, cutParts_blanks hv (Text.stopsAt_cons (by decide) _), cutParts_colon,
      cutParts_blanks hw hpackage, cutParts_package hp hne hr]
    rfl
  have hname : (v ++ .scalar ':' :: (w ++ (p ++ r))).StopsAt isNamePoint :=
    stopsAt_append_of_blanks (fun _ => isNamePoint_eq_false_of_isBlank) hv
      (Text.stopsAt_cons (by decide) _)
  have hrule : headerRule.recognise b (k.spelling ++ (v ++ .scalar ':' :: (w ++ (p ++ r)))) =
      some (⟨.namespaceKeyword, k.spelling⟩ :: (blankPiece v ++ ⟨.punctuation, [.scalar ':']⟩ ::
        (blankPiece w ++ [⟨.packageName, p⟩])), r) := by
    refine reserves_header.recognise_word ?_ ?_ hname hb hmore rfl
    · rcases hk with rfl | rfl <;> decide
    · rcases hk with rfl | rfl <;> decide
  refine leads_keyword hname ?_
  rcases hk with rfl | rfl <;> exact recognise_of_some hrule

/-- An import, with nothing but blanks behind the word. -/
lemma leads_import {w p : Text} (hw : ∀ c ∈ w, c.isBlank) (hwne : w ≠ [])
    (hp : ∀ c ∈ p, isPackagePoint c) (hne : p ≠ []) (hr : r.StopsAt isPackagePoint)
    (hb : ∀ c ∈ b, isWordPoint c = false) : ∃ b',
      Leads ⟨[], b, Keyword.imports.spelling ++ (w ++ (p ++ r))⟩
        (⟨.namespaceKeyword, Keyword.imports.spelling⟩ :: (blankPiece w ++ [⟨.packageName, p⟩]))
        ⟨[], b', r⟩ := by
  have hpackage := stopsAt_isBlank_of_forall (r := r) (fun _ => isBlank_eq_false_of_isPackagePoint)
    hp hne
  have hmore : cutParts behindImport (w ++ (p ++ r)) =
      some (blankPiece w ++ [⟨.packageName, p⟩], r) := by
    rw [behindImport, cutParts_someBlanks hw hwne hpackage, cutParts_package hp hne hr]
    rfl
  have hname : (w ++ (p ++ r)).StopsAt isNamePoint := by
    obtain ⟨c, w, rfl⟩ := List.exists_cons_of_ne_nil hwne
    exact Text.stopsAt_cons (isNamePoint_eq_false_of_isBlank (hw c (by simp))) _
  refine leads_keyword hname (recognise_of_some ?_)
  exact reserves_import.recognise_word (by decide) (by decide) hname hb hmore rfl

/-- The beginning of a declaration, with nothing but blanks behind the word. -/
lemma leads_type {w : Text} (hw : ∀ c ∈ w, c.isBlank) (hwne : w ≠ []) (hc : isCapital c)
    (ht : ∀ x ∈ t, isNamePoint x) (hr : r.StopsAt isNamePoint)
    (hb : ∀ c ∈ b, isWordPoint c = false) : ∃ b',
      Leads ⟨[], b, Keyword.type.spelling ++ (w ++ (c :: t ++ r))⟩
        (⟨.declarationKeyword, Keyword.type.spelling⟩ :: (blankPiece w ++ [⟨.className, c :: t⟩]))
        ⟨[], b', r⟩ := by
  have hblank := CodePoint.not_isBlank_of_isAlphanumeric
    (isAlphanumeric_of_isNamePoint (isNamePoint_of_isCapital hc))
  have hstop : Text.StopsAt CodePoint.isBlank (c :: t ++ r) := Text.stopsAt_cons hblank _
  have hmore : cutParts behindType (w ++ (c :: t ++ r)) =
      some (blankPiece w ++ [⟨.className, c :: t⟩], r) := by
    rw [behindType, cutParts_someBlanks hw hwne hstop, List.cons_append, capitalName,
      cutParts_name hc ht hr]
    rfl
  have hname : (w ++ (c :: t ++ r)).StopsAt isNamePoint := by
    obtain ⟨d, w, rfl⟩ := List.exists_cons_of_ne_nil hwne
    exact Text.stopsAt_cons (isNamePoint_eq_false_of_isBlank (hw d (by simp))) _
  refine leads_keyword hname (recognise_of_some ?_)
  exact reserves_type.recognise_word (by decide) (by decide) hname hb hmore rfl

/-! ### Marks -/

/-- How a punctuation mark is highlighted. -/
def markStyle : Mark → Style
  | .pipe | .assign => .operator
  | _ => .punctuation

/-- A mark other than an opening angle is passed by itself; the sign of equality is not known. -/
lemma leads_mark {m : Mark} (hangle : m ≠ .openAngle) (hassign : m ≠ .assign) : ∃ b',
    Leads ⟨[], b, .scalar m.symbol :: r⟩ [⟨markStyle m, [.scalar m.symbol]⟩] ⟨[], b', r⟩ := by
  obtain ⟨cs, hcs, hrules⟩ : ∃ cs, anyOf cs (.scalar m.symbol) ∧
      rootRules.filter (·.opens (.scalar m.symbol)) = [sign (markStyle m) cs .stay] := by
    cases m with
    | openAngle => exact absurd rfl hangle
    | assign => exact absurd rfl hassign
    | _ => exact ⟨_, rfl, rfl⟩
  have hrule : recognise rootRules b (.scalar m.symbol :: r) =
      some ([⟨markStyle m, [.scalar m.symbol]⟩], r, .stay) := by
    rw [recognise_filter, hrules]
    exact recognise_of_some (recognise_sign hcs r)
  exact ⟨_, leads_of_recognise (S := []) hrule⟩

lemma recognise_openAngle (r : Text) : recognise rootRules b (.scalar '<' :: r) =
    recognise openingRules b (.scalar '<' :: r) :=
  recognise_filter rootRules b (.scalar '<') r

/-- An opening angle is passed by itself if no name for an annotation is behind it, blanks aside. -/
lemma leads_openAngle (hr : (skipBlanks r).StopsAt isSmall) : ∃ b',
    Leads ⟨[], b, .scalar '<' :: r⟩ [⟨.punctuation, [.scalar '<']⟩] ⟨[], b', r⟩ := by
  have hcut : cutParts [⟨.punctuation, [.word ["<"]]⟩, blanks, smallName .annotationName]
      (.scalar '<' :: r) = none := by
    obtain ⟨w, hsplit, hw, hstop⟩ := exists_blanks r
    have hname : cutParts [smallName .annotationName] (skipBlanks r) = none :=
      cutParts_eq_none rfl hr
    refine (cutParts_char (.scalar '<') r).trans ?_
    rw [hsplit, cutParts_blanks hw hstop, hname]
    rfl
  have hrule : recognise rootRules b (.scalar '<' :: r) =
      some ([⟨.punctuation, [.scalar '<']⟩], r, .stay) := by
    have hnone : (plain [⟨.punctuation, [.word ["<"]]⟩, blanks, smallName .annotationName]
        (.push .parameters)).recognise b (.scalar '<' :: r) = none := by
      simp [Rule.recognise, plain, hcut]
    rw [recognise_openAngle]
    exact (recognise_of_none hnone).trans (recognise_of_some (recognise_sign rfl r))
  exact ⟨_, leads_of_recognise (S := []) hrule⟩

/-- The beginning of an annotation, with nothing but blanks in front of its name. -/
lemma leads_opening {w : Text} (hw : ∀ c ∈ w, c.isBlank) (hc : isSmall c)
    (ht : ∀ x ∈ t, isNamePoint x) (hr : r.StopsAt isNamePoint) : ∃ b',
      Leads ⟨[], b, .scalar '<' :: (w ++ (c :: t ++ r))⟩
        (⟨.punctuation, [.scalar '<']⟩ :: (blankPiece w ++ [⟨.annotationName, c :: t⟩]))
        ⟨[.parameters], b', r⟩ := by
  have hblank := CodePoint.not_isBlank_of_isAlphanumeric
    (isAlphanumeric_of_isNamePoint (isNamePoint_of_isSmall hc))
  have hstop : Text.StopsAt CodePoint.isBlank (c :: t ++ r) := Text.stopsAt_cons hblank _
  have hcut : cutParts [⟨.punctuation, [.word ["<"]]⟩, blanks, smallName .annotationName]
      (.scalar '<' :: (w ++ (c :: t ++ r))) =
        some (⟨.punctuation, [.scalar '<']⟩ :: (blankPiece w ++ [⟨.annotationName, c :: t⟩]),
          r) := by
    refine (cutParts_char (.scalar '<') _).trans ?_
    rw [cutParts_blanks hw hstop, List.cons_append, smallName, cutParts_name hc ht hr]
    rfl
  have hrule : (plain [⟨.punctuation, [.word ["<"]]⟩, blanks, smallName .annotationName]
      (.push .parameters)).recognise b (.scalar '<' :: (w ++ (c :: t ++ r))) =
        some (⟨.punctuation, [.scalar '<']⟩ :: (blankPiece w ++ [⟨.annotationName, c :: t⟩]),
          r) := by
    simp only [Rule.recognise, plain, hcut]
    simp
  have hroot := (recognise_openAngle (b := b) (w ++ (c :: t ++ r))).trans (recognise_of_some hrule)
  exact ⟨_, leads_of_recognise (S := []) hroot⟩

end Highlight

end Idl
