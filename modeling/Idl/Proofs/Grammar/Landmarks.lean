/-
# Positions of a tree

A tree keeps positions of its text: of every reference, every annotation and every parameter.  Each
of them is that of a token, and in the order of the source they are some of the tokens of the
module (`Module.ContentSpelledBy.landmarks_sublist`).  So the positions increase, and at each of
them stands what the tree says: the first segment of the reference, the opening angle, or the name
of the parameter (`Module.landmarks_of_parse`).
-/
import Idl.Proofs.Canonical.Comments
import Idl.Proofs.Token.Neighbours

namespace Idl

variable {_ : Machine}

open Phrase

/-- What stands at a position that a tree keeps. -/
structure Landmark where
  /-- The kind of the token there. -/
  kind : TokenKind
  /-- Where it begins. -/
  position : Position
  /-- How it is written. -/
  text : Text
deriving DecidableEq

/-- What stands where the token begins. -/
def Token.landmark (t : Token) : Landmark := ⟨t.kind, t.span.first, t.value⟩

/-! ### The positions of a tree in the order of the source -/

/-- The first segment of a reference. -/
def firstSegment (qualifier : Option Text) (name : Text) : Text :=
  (qualifier.getD name).takeWhile (· ≠ .scalar '.')

/-- The position of a parameter, at its name. -/
def Param.landmarks (p : Param) : List Landmark := [⟨.lowerName, p.position, p.name⟩]

/-- The position of an annotation, at its opening angle, and those of its parameters. -/
def Annotation.landmarks (a : Annotation) : List Landmark :=
  ⟨.mark .openAngle, a.position, "<"⟩ :: a.params.flatMap Param.landmarks

/-- The position of a reference, at its first segment. -/
def TypeExpr.landmarks : TypeExpr → List Landmark
  | .primitive _ => []
  | .reference position qualifier name => [⟨.upperName, position, firstSegment qualifier name⟩]
  | .array t | .maybe t => t.landmarks

/-- The positions of a field: those of its type, and behind them those of its annotations. -/
def Field.landmarks (f : Field) : List Landmark :=
  f.type.landmarks ++ f.annotations.flatMap Annotation.landmarks

/-- The positions of a body, type by type or field by field. -/
def Body.landmarks : Body → List Landmark
  | .alias t | .wrap t => t.landmarks
  | .record fields => fields.flatMap Field.landmarks
  | .sum _ => []

/-- The positions of a declaration: those of its body, and behind them those of its annotations. -/
def Declaration.landmarks (d : Declaration) : List Landmark :=
  d.body.landmarks ++ d.annotations.flatMap Annotation.landmarks

/-- The positions of a module: those of its annotations, and behind them those of its
declarations. -/
def Module.landmarks (m : Module) : List Landmark :=
  m.annotations.flatMap Annotation.landmarks ++ m.declarations.flatMap Declaration.landmarks

/-- The token is written by some piece of text. -/
def Token.IsWritten (t : Token) : Prop := ∃ piece, t.word.WrittenAs piece

/-- The kinds of tokens whose positions a tree keeps. -/
def TokenKind.IsKept (k : TokenKind) : Prop := k.isName ∨ k = .mark .openAngle

variable {α β : Type} {G : Phrase α} {k : TokenKind} {m : Module} {q : Option Text} {s : Text}
  {t : Token} {ts : List Token} {first name spelling value : Text} {more segments : List Text}

/-! ### Kinds -/

lemma TokenKind.isKept_openAngle : IsKept (.mark .openAngle) := .inr rfl

lemma Param.isKept_of_mem (p : Param) : ∀ l ∈ p.landmarks, l.kind.IsKept := by
  intro l hl
  obtain rfl := List.mem_singleton.1 hl
  exact .inl rfl

lemma Annotation.isKept_of_mem (a : Annotation) : ∀ l ∈ a.landmarks, l.kind.IsKept := by
  refine List.forall_mem_cons.2 ⟨TokenKind.isKept_openAngle, fun l hl => ?_⟩
  obtain ⟨p, -, hl⟩ := List.mem_flatMap.1 hl
  exact p.isKept_of_mem l hl

lemma isKept_of_mem_annotations {as : List Annotation} :
    ∀ l ∈ as.flatMap Annotation.landmarks, l.kind.IsKept := by
  intro l hl
  obtain ⟨a, -, hl⟩ := List.mem_flatMap.1 hl
  exact a.isKept_of_mem l hl

lemma TypeExpr.isKept_of_mem (t : TypeExpr) : ∀ l ∈ t.landmarks, l.kind.IsKept := by
  induction t with
  | primitive => simp [landmarks]
  | reference =>
    intro l hl
    obtain rfl := List.mem_singleton.1 hl
    exact .inl rfl
  | array _ ih | maybe _ ih => exact ih

lemma Body.isKept_of_mem (b : Body) : ∀ l ∈ b.landmarks, l.kind.IsKept := by
  rcases b with t | t | fields | variants
  · exact t.isKept_of_mem
  · exact t.isKept_of_mem
  · intro l hl
    obtain ⟨f, -, hl⟩ := List.mem_flatMap.1 hl
    exact (List.mem_append.1 hl).elim (f.type.isKept_of_mem l) (isKept_of_mem_annotations l)
  · simp [landmarks]

lemma Module.isKept_of_mem (m : Module) : ∀ l ∈ m.landmarks, l.kind.IsKept := by
  intro l hl
  rcases List.mem_append.1 hl with hl | hl
  · exact isKept_of_mem_annotations l hl
  · obtain ⟨d, -, hl⟩ := List.mem_flatMap.1 hl
    exact (List.mem_append.1 hl).elim (d.body.isKept_of_mem l) (isKept_of_mem_annotations l)

/-! ### Tokens of trees -/

lemma takeWhile_dot (h : ∀ c ∈ value, c.isAlphanumeric) (ts : List Text) :
    (Text.join "." (value :: ts)).takeWhile (· ≠ .scalar '.') = value := by
  have hall : ∀ c ∈ value, decide (c ≠ CodePoint.scalar '.') = true := by
    intro c hc
    have hne : c ≠ .scalar '.' := by
      rintro rfl
      exact Text.dot_not_mem h hc
    simpa using hne
  have hrest : (ts.flatMap (Text.ofString "." ++ ·)).takeWhile (· ≠ .scalar '.') = [] := by
    cases ts with
    | nil => rfl
    | cons => rfl
  rw [Text.join_cons, List.takeWhile_append_of_pos hall, hrest, List.append_nil]

/-- The first segment of a reference is the value of its first token. -/
lemma firstSegment_eq (h : first :: more = segments ++ [name])
    (halpha : ∀ c ∈ first, c.isAlphanumeric) (hfirst : first ≠ [])
    (hq : q.getD [] = Text.join "." segments) (hne : q ≠ some []) :
    firstSegment q name = first := by
  cases segments with
  | nil =>
    obtain ⟨rfl, -⟩ := List.cons.inj h
    obtain rfl : q = none := by
      cases q with
      | none => rfl
      | some x => exact absurd (congrArg some hq) hne
    exact takeWhile_dot halpha []
  | cons first' segments =>
    obtain ⟨rfl, -⟩ := List.cons.inj h
    cases q with
    | none =>
      -- a segment without text is no name
      exact absurd hq.symm (Text.join_cons_ne_nil hfirst "." segments)
    | some x =>
      obtain rfl : x = Text.join "." (first :: segments) := hq
      exact takeWhile_dot halpha segments

/-- What is collected from the parts of a repetition is among what is collected from its tokens, if
this is so for each part. -/
lemma Phrase.Many.flatMap_sublist {as : List α} {f : α → List β} {g : Token → β} (h : Many G as ts)
    (hG : ∀ a us, G a us → us ⊆ ts → (f a).Sublist (us.map g)) :
    (as.flatMap f).Sublist (ts.map g) := by
  induction h with
  | nil => exact .slnil
  | @cons a as us vs ha _ ih =>
    rw [List.flatMap_cons, List.map_append]
    exact (hG a us ha (List.subset_append_left us vs)).append
      (ih fun b ws hb hws => hG b ws hb (List.subset_append_of_subset_right us hws))

lemma Param.SpelledBy.landmarks_sublist {p : Param} (h : p.SpelledBy ts) :
    p.landmarks.Sublist (ts.map Token.landmark) := by
  rcases h with hname | ⟨hname, -, -⟩
  · simp [Param.landmarks, Token.landmark, hname]
  · simp [Param.landmarks, Token.landmark, hname]

lemma Annotation.SpelledBy.landmarks_sublist {a : Annotation} (h : a.SpelledBy ts)
    (hts : ∀ t ∈ ts, t.IsWritten) : a.landmarks.Sublist (ts.map Token.landmark) := by
  obtain @⟨opening, name, closing, params, ts, hopening, -, hparams, -⟩ := h
  obtain ⟨piece, hpiece⟩ := hts opening (by simp)
  rw [Token.word, hopening] at hpiece
  have hmark : opening.landmark = ⟨.mark .openAngle, opening.span.first, "<"⟩ := by
    rw [Token.landmark, hopening, hpiece.of_mark.1]
    rfl
  have hsub := hparams.flatMap_sublist (f := Param.landmarks) (g := Token.landmark)
    fun _ _ h _ => h.landmarks_sublist
  rw [landmarks, ← hmark]
  simp only [List.cons_append, List.map_cons, List.map_append]
  exact ((hsub.trans (List.sublist_append_left _ _)).cons _).cons_cons _

lemma Phrase.Many.annotations_sublist {as : List Annotation} (h : Many Annotation.SpelledBy as ts)
    (hts : ∀ t ∈ ts, t.IsWritten) :
    (as.flatMap Annotation.landmarks).Sublist (ts.map Token.landmark) :=
  h.flatMap_sublist fun _ _ ha hus => ha.landmarks_sublist fun t ht => hts t (hus ht)

lemma TypeExpr.SpelledBy.landmarks_sublist {type : TypeExpr} (h : type.SpelledBy ts)
    (hts : ∀ t ∈ ts, t.IsWritten) : type.landmarks.Sublist (ts.map Token.landmark) := by
  induction h with
  | primitive => exact List.nil_sublist _
  | @reference first more segments q name ts hfirst hmore hname hq hne =>
    obtain ⟨piece, hpiece⟩ := hts first (by simp)
    obtain ⟨rfl, halpha⟩ := hpiece.of_isName (by rw [hfirst]; rfl)
    have hmark : first.landmark = ⟨.upperName, first.span.first, firstSegment q name⟩ := by
      rw [firstSegment_eq hname halpha hpiece.ne_nil hq hne, Token.landmark, hfirst]
    rw [landmarks, ← hmark, List.map_cons]
    exact (List.nil_sublist _).cons_cons _
  | @array head opening closing inner ts _ _ _ _ ih
  | @maybe head opening closing inner ts _ _ _ _ ih =>
    have hsub := ih fun t ht => hts t (by simp [ht])
    rw [landmarks]
    simp only [List.cons_append, List.map_cons, List.map_append]
    exact ((hsub.trans (List.sublist_append_left _ _)).cons _).cons _

lemma Field.SpelledBy.landmarks_sublist {f : Field} (h : f.SpelledBy ts)
    (hts : ∀ t ∈ ts, t.IsWritten) : f.landmarks.Sublist (ts.map Token.landmark) := by
  obtain @⟨name, colon, type, notes, ts, us, -, -, htype, hnotes⟩ := h
  have htypeSub := htype.landmarks_sublist fun t ht => hts t (by simp [ht])
  have hnotesSub := hnotes.annotations_sublist fun t ht => hts t (by simp [ht])
  simp only [landmarks, List.cons_append, List.map_cons, List.map_append]
  exact ((htypeSub.append hnotesSub).cons _).cons _

lemma Body.SpelledBy.landmarks_sublist {b : Body} (h : b.SpelledBy ts)
    (hts : ∀ t ∈ ts, t.IsWritten) : b.landmarks.Sublist (ts.map Token.landmark) := by
  rcases h with htype | ⟨-, htype⟩ | ⟨-, -⟩ | ⟨-, hfield, hfields, -⟩ | ⟨-, -, -, -⟩
  · exact htype.landmarks_sublist hts
  · exact (htype.landmarks_sublist fun t ht => hts t (by simp [ht])).cons _
  · exact List.nil_sublist _
  · have hfirst := hfield.landmarks_sublist fun t ht => hts t (by simp [ht])
    have hmore := hfields.flatMap_sublist (f := Field.landmarks) (g := Token.landmark) ?_
    · simp only [landmarks, List.flatMap_cons, List.cons_append, List.map_cons, List.map_append]
      exact ((hfirst.append hmore).trans (List.sublist_append_left _ _)).cons _
    · rintro f _ ⟨comma, us, rfl, -, hf⟩ hus
      have hsub := hf.landmarks_sublist fun t ht =>
        hts t (by simp [hus (List.mem_cons_of_mem _ ht)])
      exact hsub.cons _
  · exact List.nil_sublist _

lemma Declaration.SpelledBy.landmarks_sublist {d : Declaration} (h : d.SpelledBy ts)
    (hts : ∀ t ∈ ts, t.IsWritten) : d.landmarks.Sublist (ts.map Token.landmark) := by
  obtain @⟨head, name, colon, body, notes, ts, us, -, -, -, hbody, hnotes⟩ := h
  have hbodySub := hbody.landmarks_sublist fun t ht => hts t (by simp [ht])
  have hnotesSub := hnotes.annotations_sublist fun t ht => hts t (by simp [ht])
  simp only [landmarks, List.cons_append, List.map_cons, List.map_append]
  exact (((hbodySub.append hnotesSub).cons _).cons _).cons _

/-- The positions that a module keeps are those of some of its tokens, in their order. -/
lemma Module.ContentSpelledBy.landmarks_sublist (h : m.ContentSpelledBy ts)
    (hts : ∀ t ∈ ts, t.IsWritten) : m.landmarks.Sublist (ts.map Token.landmark) := by
  obtain ⟨-, -, -, hnotes, hdeclarations⟩ := h
  simp only [List.forall_mem_append] at hts
  obtain ⟨⟨-, hnotesWritten⟩, hdeclarationsWritten⟩ := hts
  have hnotesSub := hnotes.annotations_sublist hnotesWritten
  have hdeclarationsSub := hdeclarations.flatMap_sublist (f := Declaration.landmarks)
    (g := Token.landmark) fun _ _ hd hus =>
      hd.landmarks_sublist fun t ht => hdeclarationsWritten t (hus ht)
  simp only [landmarks, List.map_append]
  exact (hnotesSub.trans (List.sublist_append_right _ _)).append hdeclarationsSub

/-! ### Modules that were read -/

/-- A module that is read is spelled by all tokens but the last one, and each of them is
written. -/
lemma Module.exists_isWritten_of_parse (h : parse s = .ok m) :
    ∃ us stop, s.tokens = us ++ [stop] ∧ m.ContentSpelledBy us ∧ ∀ t ∈ us, t.IsWritten := by
  obtain ⟨us, stop, hs, hm, hkinds⟩ := exists_tokens_of_parse h
  refine ⟨us, stop, hs, hm, fun t ht => ?_⟩
  have hkind : t.kind ∈ s.cut.lexemes.map Lexeme.kind := hkinds ▸ List.mem_map_of_mem ht
  obtain ⟨l, hl, hkind⟩ := List.mem_map.1 hkind
  obtain ⟨hfault, hend⟩ := (Text.laid_cutFrom .ordinary s).1.kind_ne l hl
  rw [hkind] at hfault hend
  have hmem : t ∈ s.tokens := by simp [hs, ht]
  obtain ⟨before, piece, after, -, -, hpiece⟩ := Text.exists_standsAt hmem hend
  rw [if_neg hfault] at hpiece
  exact ⟨piece, hpiece⟩

/-- In the order of the source the positions that a module keeps increase, and at each of them
stands what the tree says: a whole name, or the opening angle of an annotation. -/
theorem Module.landmarks_of_parse (h : parse s = .ok m) :
    (m.landmarks.map Landmark.position).Pairwise Position.Before ∧
    ∀ l ∈ m.landmarks, l.text ≠ [] ∧ ∃ before after,
      s = before ++ l.text ++ after ∧ before.place = l.position ∧
        (l.kind.isName → before.EndsOff CodePoint.isAlphanumeric ∧
          after.StopsAt CodePoint.isAlphanumeric) := by
  obtain ⟨us, stop, hs, hm, hwritten⟩ := exists_isWritten_of_parse h
  have hsub := hm.landmarks_sublist hwritten
  refine ⟨?_, fun l hl => ?_⟩
  · have hpositions := hsub.map Landmark.position
    rw [List.map_map] at hpositions
    exact (List.pairwise_map.2 (Text.pairwise_first hs).2).sublist hpositions
  · obtain ⟨t, ht, rfl⟩ := List.mem_map.1 (hsub.subset hl)
    have hmem : t ∈ s.tokens := by simp [hs, ht]
    rcases m.isKept_of_mem _ hl with hname | hmark
    · obtain ⟨before, after, hs, hstands, hends, hstops⟩ := Text.exists_name hmem hname
      exact ⟨hstands.ne_nil, before, after, hs, hstands.first.symm, fun _ => ⟨hends, hstops⟩⟩
    · have hkind : t.kind = .mark .openAngle := hmark
      obtain ⟨before, piece, after, hs, hstands, hpiece⟩ :=
        Text.exists_standsAt hmem (by simp [hkind])
      rw [if_neg (by simp [hkind]), Token.word, hkind] at hpiece
      obtain rfl : piece = t.value := hpiece.of_mark.2.trans hpiece.of_mark.1.symm
      refine ⟨hstands.ne_nil, before, after, hs, hstands.first.symm, fun hname => ?_⟩
      rw [hmark] at hname
      cases hname

/-! ### A module on one line -/

/-- A module on one line.  It has an annotation with a parameter, a reference whose dot stands apart
from both segments, and a reference without a dot. -/
def Module.oneLine : Text := "scala:a purs:b<x y>type B:Int type C:A . B type D:B"

/-- The lexemes of the module on one line. -/
def Module.oneLineLexemes : List Lexeme :=
  [⟨[], .keyword .scala, "scala", "scala"⟩, ⟨[], .mark .colon, ":", ":"⟩,
    ⟨[], .packageName, "a", "a"⟩, ⟨" ", .keyword .purs, "purs", "purs"⟩,
    ⟨[], .mark .colon, ":", ":"⟩, ⟨[], .packageName, "b", "b"⟩, ⟨[], .mark .openAngle, "<", "<"⟩,
    ⟨[], .lowerName, "x", "x"⟩, ⟨" ", .lowerName, "y", "y"⟩, ⟨[], .mark .closeAngle, ">", ">"⟩,
    ⟨[], .keyword .type, "type", "type"⟩, ⟨" ", .upperName, "B", "B"⟩,
    ⟨[], .mark .colon, ":", ":"⟩, ⟨[], .keyword .int, "Int", "Int"⟩,
    ⟨" ", .keyword .type, "type", "type"⟩, ⟨" ", .upperName, "C", "C"⟩,
    ⟨[], .mark .colon, ":", ":"⟩, ⟨[], .upperName, "A", "A"⟩, ⟨" ", .mark .dot, ".", "."⟩,
    ⟨" ", .upperName, "B", "B"⟩, ⟨" ", .keyword .type, "type", "type"⟩,
    ⟨" ", .upperName, "D", "D"⟩, ⟨[], .mark .colon, ":", ":"⟩, ⟨[], .upperName, "B", "B"⟩]

/-- The module that it holds. -/
def Module.ofOneLine : Module where
  name := []
  exports := ⟨"a", "b", []⟩
  imports := []
  annotations := [⟨"x", ⟨1, 15⟩, [⟨"y", ⟨1, 18⟩, none⟩]⟩]
  declarations := [⟨"B", .alias (.primitive .int), []⟩,
    ⟨"C", .alias (.reference ⟨1, 38⟩ (some "A") "B"), []⟩,
    ⟨"D", .alias (.reference ⟨1, 51⟩ none "B"), []⟩]

lemma Module.tokens_oneLine : oneLine.tokens = Cutting.tokens ⟨oneLineLexemes, .clean []⟩ := by
  have hblank : Trivia.Complete " " := .blank (by decide) .nil
  have hlaid : Laid .ordinary oneLineLexemes [] :=
    .cons .nil (.keyword .scala) (by decide) (by decide) <|
    .cons .nil (.mark .colon) (by decide) (by decide) <|
    .cons .nil (.packageName (by decide)) (by decide) (by decide) <|
    .cons hblank (.keyword .purs) (by decide) (by decide) <|
    .cons .nil (.mark .colon) (by decide) (by decide) <|
    .cons .nil (.packageName (by decide)) (by decide) (by decide) <|
    .cons .nil (.mark .openAngle) (by decide) (by decide) <|
    .cons .nil (.lowerName (by decide)) (by decide) (by decide) <|
    .cons hblank (.lowerName (by decide)) (by decide) (by decide) <|
    .cons .nil (.mark .closeAngle) (by decide) (by decide) <|
    .cons .nil (.keyword .type) (by decide) (by decide) <|
    .cons hblank (.upperName (by decide)) (by decide) (by decide) <|
    .cons .nil (.mark .colon) (by decide) (by decide) <|
    .cons .nil (.keyword .int) (by decide) (by decide) <|
    .cons hblank (.keyword .type) (by decide) (by decide) <|
    .cons hblank (.upperName (by decide)) (by decide) (by decide) <|
    .cons .nil (.mark .colon) (by decide) (by decide) <|
    .cons .nil (.upperName (by decide)) (by decide) (by decide) <|
    .cons hblank (.mark .dot) (by decide) (by decide) <|
    .cons hblank (.upperName (by decide)) (by decide) (by decide) <|
    .cons hblank (.keyword .type) (by decide) (by decide) <|
    .cons hblank (.upperName (by decide)) (by decide) (by decide) <|
    .cons .nil (.mark .colon) (by decide) (by decide) <|
    .cons .nil (.upperName (by decide)) (by decide) (by decide) .nil
  exact congrArg Cutting.tokens (Text.cut_eq_clean_iff.2 ⟨rfl, hlaid.layout (.inl .nil)⟩)

lemma Module.parse_oneLine [Machine] : parse oneLine = .ok ofOneLine := by
  let span (i j : Int) : Span := ⟨⟨1, i⟩, ⟨1, j⟩⟩
  have htoken (k : TokenKind) (x : Text) (i j : Int) : (⟨k, x, span i j⟩ : Token).kind = k := rfl
  have hexport (w : Keyword) (x : Text) (i j k l : Int) : Export w x _ :=
    .mk (htoken (.keyword w) w.spelling i j) (htoken (.mark .colon) ":" k k)
      (htoken .packageName x l l)
  have hnote := Annotation.SpelledBy.mk (htoken (.mark .openAngle) "<" 15 15)
    (htoken .lowerName "x" 16 16) (.cons (.plain (htoken .lowerName "y" 18 18)) .nil)
    (htoken (.mark .closeAngle) ">" 19 19)
  have hint := TypeExpr.SpelledBy.primitive (p := .int) (htoken (.keyword .int) "Int" 27 29) rfl
  have htwo (x y : Text) : [x, y] = [x] ++ [y] := rfl
  have hdotted := TypeExpr.SpelledBy.reference (q := some "A") (htoken .upperName "A" 38 38)
    (.cons (G := behind (.mark .dot) (word .upperName))
      ⟨⟨.mark .dot, ".", span 40 40⟩, _, rfl, rfl, ⟨.upperName, "B", span 42 42⟩, rfl, rfl, rfl⟩
      .nil) (htwo "A" "B") rfl (by decide)
  have hone (x : Text) : [x] = [] ++ [x] := rfl
  have hplain := TypeExpr.SpelledBy.reference (q := none) (htoken .upperName "B" 51 51) .nil
    (hone "B") rfl (by decide)
  have hdeclaration {x : Text} {type : TypeExpr} {ts : List Token} (h : type.SpelledBy ts)
      (i j k l : Int) : Declaration.SpelledBy ⟨x, .alias type, []⟩ _ :=
    .mk (htoken (.keyword .type) "type" i j) (htoken .upperName x k k)
      (htoken (.mark .colon) ":" l l) (.alias h) .nil
  have hmodule := ContentSpelledBy.mk (hexport .scala "a" 1 5 6 7) (hexport .purs "b" 9 12 13 14)
    .nil (.cons hnote .nil) (.cons (hdeclaration (x := "B") hint 20 23 25 26)
      (.cons (hdeclaration (x := "C") hdotted 31 34 36 37)
        (.cons (hdeclaration (x := "D") hplain 44 47 49 50) .nil)))
  have htokens := oneLine.toList_stream.trans tokens_oneLine
  refine ofTokens_of_spelledBy
    (htokens.trans (?_ : _ = _ ++ ([⟨.endOfInput, [], span 52 51⟩] : List Token))) rfl hmodule ?_
  · decide
  · simpa [NestedWithin, Body.NestedWithin, Body.types, TypeExpr.nesting, ofOneLine] using
      Nat.succ_le_of_lt Machine.nesting_pos

/-- The annotation, its parameter and the references of the module on one line. -/
theorem Module.landmarks_of_oneLine :
    let _ : Machine := .usual
    parse oneLine = .ok ofOneLine ∧
    ofOneLine.landmarks = [⟨.mark .openAngle, ⟨1, 15⟩, "<"⟩, ⟨.lowerName, ⟨1, 18⟩, "y"⟩,
      ⟨.upperName, ⟨1, 38⟩, "A"⟩, ⟨.upperName, ⟨1, 51⟩, "B"⟩] ∧
    (ofOneLine.landmarks.map Landmark.position).Pairwise Position.Before ∧
    ∀ l ∈ ofOneLine.landmarks, l.text ≠ [] ∧ ∃ before after,
      oneLine = before ++ l.text ++ after ∧ before.place = l.position ∧
        (l.kind.isName → before.EndsOff CodePoint.isAlphanumeric ∧
          after.StopsAt CodePoint.isAlphanumeric) := by
  intro _
  exact ⟨parse_oneLine, by decide, landmarks_of_parse parse_oneLine⟩

end Idl
