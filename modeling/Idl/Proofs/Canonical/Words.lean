/-
# The words of the canonical text

The tokens that the canonical text of a module is to have, node by node, and the proof that it
has them: `Module.spells_render`.  Each node is followed in the order in which it is written; what
stands behind a name always begins with a blank or a punctuation mark, so that no name is
continued.
-/
import Idl.Module.Render
import Idl.Proofs.Canonical.WellFormed
import Idl.Proofs.Token.Spelling

namespace Idl

/-- The names of a reference, the name of the type last. -/
def TypeExpr.segments (qualifier : Option Text) (name : Text) : List Text :=
  qualifier.elim [] (Text.pieces '.') ++ [name]

/-- The words of dotted names. -/
def Text.dottedWords : List Text → List Word
  | [] => []
  | s :: ss => s.word :: ss.flatMap fun t => [Mark.dot.word, t.word]

/-- The words of a type. -/
def TypeExpr.words : TypeExpr → List Word
  | .primitive p => [p.spelling.word]
  | .reference _ q name => Text.dottedWords (segments q name)
  | .array t => [Keyword.array.word, Mark.openAngle.word] ++ (t.words ++ [Mark.closeAngle.word])
  | .maybe t => [Keyword.maybe.word, Mark.openAngle.word] ++ (t.words ++ [Mark.closeAngle.word])

/-- The words of a parameter. -/
def Param.words (p : Param) : List Word :=
  match p.value with
  | none => [(.lowerName, p.name)]
  | some v => [(.lowerName, p.name), Mark.assign.word, (.string, v)]

/-- The words of an annotation. -/
def Annotation.words (a : Annotation) : List Word :=
  [Mark.openAngle.word, (.lowerName, a.name)] ++
    (a.params.flatMap Param.words ++ [Mark.closeAngle.word])

/-- The words of a field. -/
def Field.words (f : Field) : List Word :=
  [(.lowerName, f.name), Mark.colon.word] ++
    (f.type.words ++ f.annotations.flatMap Annotation.words)

/-- The words of a body. -/
def Body.words : Body → List Word
  | .alias t => t.words
  | .wrap t => Keyword.wrap.word :: t.words
  | .record [] => [Mark.openBrace.word, Mark.closeBrace.word]
  | .record (f :: fs) =>
    Mark.openBrace.word :: (f.words ++ ((fs.flatMap fun g => Mark.comma.word :: g.words) ++
      [Mark.closeBrace.word]))
  | .sum [] => [Mark.openBracket.word, Mark.closeBracket.word]
  | .sum (v :: vs) =>
    [Mark.openBracket.word, v.word] ++ ((vs.flatMap fun w => [Mark.pipe.word, w.word]) ++
      [Mark.closeBracket.word])

/-- The words of a declaration. -/
def Declaration.words (d : Declaration) : List Word :=
  [Keyword.type.word, d.name.word, Mark.colon.word] ++
    (d.body.words ++ d.annotations.flatMap Annotation.words)

/-- The words of a line of the header. -/
def Keyword.exportWords (w : Keyword) (package : Text) : List Word :=
  [w.word, Mark.colon.word, (.packageName, package)]

/-- The words of an import. -/
def Text.importWords (package : Text) : List Word :=
  [Keyword.imports.word, (.packageName, package)]

/-- The words of a module. -/
def Module.words (m : Module) : List Word :=
  Keyword.scala.exportWords m.exports.scala ++ Keyword.purs.exportWords m.exports.purs ++
    m.imports.flatMap Text.importWords ++ m.annotations.flatMap Annotation.words ++
    m.declarations.flatMap Declaration.words

open Text

/-! ### Type expressions -/

namespace TypeExpr

lemma referenceText_eq_join (q : Option Text) (name : Text) :
    referenceText q name = Text.join "." (segments q name) := by
  cases q with
  | none => rfl
  | some q =>
    obtain ⟨s, ss, h⟩ := List.exists_cons_of_ne_nil (pieces_ne_nil (.scalar '.') q)
    have hq : q = s ++ ss.flatMap ((ofString ".") ++ ·) := by
      rw [← join_cons, ← h]
      exact (join_pieces (.scalar '.') q).symm
    simp only [segments, Option.elim_some, h, List.cons_append, join_cons, List.flatMap_append,
      ← List.append_assoc]
    rw [← hq, referenceText]
    simp

/-- The names of a well-formed reference are names of types. -/
lemma isUpperName_of_mem_segments {q : Option Text} {name : Text} (hname : name.IsUpperName)
    (hq : ∀ x ∈ q, x.Dotted IsUpperName) : ∀ s ∈ segments q name, s.IsUpperName := by
  intro s hs
  rw [segments, List.mem_append, List.mem_singleton] at hs
  rcases hs with hs | rfl
  · cases q with
    | none => cases hs
    | some q => exact hq q rfl s hs
  · exact hname

lemma spells_dotted {s : Text} {ss : List Text} (h : ∀ t ∈ s :: ss, t.IsUpperName) :
    Spells CodePoint.isAlphanumeric (Text.join "." (s :: ss)) (dottedWords (s :: ss)) := by
  have hdot : Separator CodePoint.isAlphanumeric "." [Mark.dot.word] := by decide
  have hword : ∀ t ∈ s :: ss, Spells CodePoint.isAlphanumeric (id t) [t.word] :=
    fun t ht => spells_upperName (h t ht)
  have hjoin := spells_join_map hword hdot
  rwa [List.map_id] at hjoin

lemma spells_primitive (p : Primitive) :
    Spells CodePoint.isAlphanumeric p.spelling [p.spelling.word] := by
  cases p with
  | boolean => exact spells_keyword (w := .boolean) rfl
  | int => exact spells_keyword (w := .int) rfl
  | decimal => exact spells_keyword (w := .decimal) rfl
  | string => exact spells_keyword (w := .string) rfl
  | date | dateTime | time => exact spells_upperName (show IsUpperName _ by decide)

/-- A reserved word and a type between angles. -/
lemma spells_argument {w : Keyword} {t : Text} {ws : List Word}
    (hw : Context.next .ordinary (.keyword w) = .ordinary)
    (ht : Spells CodePoint.isAlphanumeric t ws) :
    Spells CodePoint.isAlphanumeric (w.spelling ++ ("<" ++ (t ++ ">")))
      ([w.word, Mark.openAngle.word] ++ (ws ++ [Mark.closeAngle.word])) := by
  have hopen : Separator CodePoint.isAlphanumeric "<" [Mark.openAngle.word] := by decide
  have hclose : Separator CodePoint.isAlphanumeric ">" [Mark.closeAngle.word] := by decide
  exact (spells_keyword hw).separated hopen (ht.closed hclose)

lemma spells_render {t : TypeExpr} (h : t.WellFormed) :
    Spells CodePoint.isAlphanumeric t.render t.words := by
  induction t with
  | primitive p => exact spells_primitive p
  | reference position q name =>
    obtain ⟨hname, hq⟩ := h
    have hsegments := isUpperName_of_mem_segments hname hq
    obtain ⟨s, ss, heq⟩ := List.exists_cons_of_ne_nil (l := segments q name) (by simp [segments])
    rw [render, referenceText_eq_join, words, heq]
    exact spells_dotted (heq ▸ hsegments)
  | array t ih =>
    have hsplit : (TypeExpr.array t).render =
        Keyword.array.spelling ++ ("<" ++ (t.render ++ ">")) := by
      simp [render, Keyword.spelling, ofString]
    rw [hsplit]
    exact spells_argument rfl (ih h)
  | maybe t ih =>
    have hsplit : (TypeExpr.maybe t).render =
        Keyword.maybe.spelling ++ ("<" ++ (t.render ++ ">")) := by
      simp [render, Keyword.spelling, ofString]
    rw [hsplit]
    exact spells_argument rfl (ih h)

end TypeExpr

/-! ### Annotations -/

lemma Param.spells_render {p : Param} (h : p.WellFormed) :
    Spells CodePoint.isAlphanumeric p.render p.words := by
  have hname : Spells CodePoint.isAlphanumeric p.name [(.lowerName, p.name)] := spells_lowerName h
  rcases hvalue : p.value with _ | v <;> simp only [render, words, hvalue]
  · exact hname
  · have hassign : Separator CodePoint.isAlphanumeric "=" [Mark.assign.word] := by decide
    rw [List.append_assoc]
    exact hname.separated hassign (spells_literal v)

namespace Annotation

lemma spells_render {a : Annotation} (h : a.WellFormed) :
    Spells CodePoint.isAlphanumeric a.render a.words := by
  have hopen : Signs "<" [Mark.openAngle.word] := by decide
  have hspace : Separator CodePoint.isAlphanumeric " " [] := by decide
  have hclose : Separator CodePoint.isAlphanumeric ">" [Mark.closeAngle.word] := by decide
  have hparams := forall₂_spells fun p hp => Param.spells_render (h.params p hp)
  have hinside := spells_join (spells_lowerName h.name) hparams hspace
  have hall := (hinside.closed hclose).behind hopen
  rw [render, List.append_assoc]
  simpa [words, List.flatMap_map] using hall

/-- Each of the annotations begins with a space, so that nothing is continued. -/
lemma stopsAt_trailing (as : List Annotation) :
    ∀ t ∈ as.map (fun a => ofString " " ++ a.render), StopsAt CodePoint.isAlphanumeric t := by
  have hspace : Separator CodePoint.isAlphanumeric " " [] := by decide
  simp only [List.mem_map]
  rintro _ ⟨a, -, rfl⟩
  exact hspace.stopsAt a.render

lemma spells_append_trailing {t : Text} {ws : List Word} {as : List Annotation}
    (ht : Spells CodePoint.isAlphanumeric t ws) (h : ∀ a ∈ as, a.WellFormed) :
    Spells CodePoint.isAlphanumeric (t ++ renderTrailing as) (ws ++ as.flatMap words) := by
  have hspace : Signs " " [] := by decide
  have has : ∀ a ∈ as, Spells CodePoint.isAlphanumeric (" " ++ a.render) a.words :=
    fun a ha => (spells_render (h a ha)).behind hspace
  have hstop := stopsAt_trailing as
  rw [renderTrailing, List.flatMap_def, List.flatMap_def]
  exact ht.append (spells_flatten (forall₂_spells has) hstop) (stopsAt_flatten hstop)

end Annotation

/-! ### Declarations -/

open Annotation

lemma Field.spells_render {f : Field} (h : f.WellFormed) :
    Spells CodePoint.isAlphanumeric f.render f.words := by
  have hcolon : Separator CodePoint.isAlphanumeric ": " [Mark.colon.word] := by decide
  have htype := spells_append_trailing (TypeExpr.spells_render h.type) h.annotations
  rw [render, List.append_assoc, List.append_assoc]
  exact (spells_lowerName h.name).separated hcolon htype

namespace Body

/-- An indentation has no words. -/
lemma signs_spaces (n : Int) : Signs (spaces n) [] := by
  have hspace : ∀ c ∈ spaces n, c = .scalar ' ' := fun c => List.eq_of_mem_replicate
  constructor
  · intro c hc
    rw [hspace c hc]
    decide
  · rw [List.filterMap_eq_nil_iff]
    intro c hc
    rw [hspace c hc]
    decide

lemma spells_record {f : Field} {fs : List Field} (h : ∀ g ∈ f :: fs, g.WellFormed)
    (form : Formatter) :
    Spells CodePoint.isAlphanumeric ((Body.record (f :: fs)).render form)
      (Body.record (f :: fs)).words := by
  have hopen : Signs "\x7b\n" [Mark.openBrace.word] := by decide
  have hcomma : Separator CodePoint.isAlphanumeric ",\n" [Mark.comma.word] := by decide
  have hclose : Separator CodePoint.isAlphanumeric "\n\x7d" [Mark.closeBrace.word] := by decide
  have hfield : ∀ g ∈ f :: fs,
      Spells CodePoint.isAlphanumeric (spaces form.indent ++ g.render) g.words :=
    fun g hg => (Field.spells_render (h g hg)).behind (signs_spaces form.indent)
  have hall := ((spells_join_map hfield hcomma).closed hclose).behind hopen
  rw [render, List.append_assoc]
  · simpa [words] using hall
  · simp

lemma spells_sum {v : Text} {vs : List Text} (h : ∀ w ∈ v :: vs, w.IsUpperName) (form : Formatter) :
    Spells CodePoint.isAlphanumeric ((Body.sum (v :: vs)).render form)
      (Body.sum (v :: vs)).words := by
  have hopen : Signs "[ " [Mark.openBracket.word] := by decide
  have hpipe : Separator CodePoint.isAlphanumeric " | " [Mark.pipe.word] := by decide
  have hclose : Separator CodePoint.isAlphanumeric " ]" [Mark.closeBracket.word] := by decide
  have hvariant : ∀ w ∈ v :: vs, Spells CodePoint.isAlphanumeric (id w) [w.word] :=
    fun w hw => spells_upperName (h w hw)
  have hall := ((spells_join_map hvariant hpipe).closed hclose).behind hopen
  rw [render, List.append_assoc]
  simpa [words] using hall

lemma spells_render {b : Body} (h : b.WellFormed) (form : Formatter) :
    Spells CodePoint.isAlphanumeric (b.render form) b.words := by
  rcases b with t | t | (_ | ⟨f, fs⟩) | variants
  · exact TypeExpr.spells_render h
  · have hspace : Separator CodePoint.isAlphanumeric " " [] := by decide
    have hsplit : (Body.wrap t).render form = Keyword.wrap.spelling ++ (" " ++ t.render) := by
      simp [render, Keyword.spelling, ofString]
    rw [hsplit]
    exact (spells_keyword rfl).separated hspace (TypeExpr.spells_render h)
  · have hbraces : Signs "\x7b\x7d" [Mark.openBrace.word, Mark.closeBrace.word] := by decide
    exact hbraces.spells
  · exact spells_record h form
  · obtain ⟨hne, h⟩ := h
    obtain ⟨v, vs, rfl⟩ := List.exists_cons_of_ne_nil hne
    exact spells_sum h form

end Body

lemma Declaration.spells_render {d : Declaration} (h : d.WellFormed) (form : Formatter) :
    Spells CodePoint.isAlphanumeric (d.render form) d.words := by
  have hspace : Separator CodePoint.isAlphanumeric " " [] := by decide
  have hcolon : Separator CodePoint.isAlphanumeric " : " [Mark.colon.word] := by decide
  have hname : Spells CodePoint.isAlphanumeric d.name [d.name.word] :=
    spells_upperName h.name
  have hbody := spells_append_trailing (Body.spells_render h.body form) h.annotations
  have hsplit : d.render form = Keyword.type.spelling ++ (" " ++ (d.name ++ (" : " ++
      (d.body.render form ++ renderTrailing d.annotations)))) := by
    simp [render, Keyword.spelling, ofString]
  rw [hsplit]
  exact (spells_keyword rfl).separated hspace (hname.separated hcolon hbody)

/-! ### Modules -/

namespace Module

lemma spells_header {e : Exports} (hscala : e.scala.IsPackageName) (hpurs : e.purs.IsPackageName) :
    Spells CodePoint.isPackagePoint (renderHeader e)
      (Keyword.scala.exportWords e.scala ++ Keyword.purs.exportWords e.purs) := by
  have hbreak : Separator CodePoint.isPackagePoint "\n" [] := by decide
  have hsplit : renderHeader e = Keyword.scala.spelling ++ ": " ++ e.scala ++
      ("\n" ++ (Keyword.purs.spelling ++ ": " ++ e.purs)) := by
    simp [renderHeader, Keyword.spelling, ofString]
  rw [hsplit]
  exact (spells_export rfl hscala).separated hbreak (spells_export rfl hpurs)

/-- Parts with a line of its own for each. -/
lemma spells_lines {α : Type} {as : List α} {f : α → Text} {g : α → List Word}
    (h : ∀ a ∈ as, Spells CodePoint.isPackagePoint (f a) (g a)) :
    Spells CodePoint.isPackagePoint (Text.join "\n" (as.map f)) (as.flatMap g) := by
  have hbreak : Separator CodePoint.isPackagePoint "\n" [] := by decide
  cases as with
  | nil => exact spells_nil
  | cons a as => exact spells_join_map h hbreak

/-- A section that is left out has no words either. -/
lemma spells_section {α : Type} {as : List α} {t : Text} {g : α → List Word}
    (h : Spells CodePoint.isPackagePoint t (as.flatMap g)) :
    List.Forall₂ (Spells CodePoint.isPackagePoint) (if as = [] then [] else [t])
      (if as = [] then [] else [as.flatMap g]) := by
  split
  · exact .nil
  · exact .cons h .nil

lemma flatMap_section {α : Type} (as : List α) (g : α → List Word) :
    (if as = [] then [] else [as.flatMap g]).flatMap (fun ws => ws) = as.flatMap g := by
  split
  · next h => rw [h]; rfl
  · rw [List.flatMap_singleton]

/-- The canonical text of a well-formed module holds the words of the module. -/
lemma spells_render {m : Module} (h : m.WellFormed) (form : Formatter) :
    Spells CodePoint.isPackagePoint (m.render form) m.words := by
  have hbreak : Separator CodePoint.isPackagePoint "\n" [] := by decide
  have hgap : Separator CodePoint.isPackagePoint "\n\n" [] := by decide
  have himports : Spells CodePoint.isPackagePoint
      (Text.join "\n" (m.imports.map fun name => "import " ++ name))
      (m.imports.flatMap Text.importWords) :=
    spells_lines fun i hi => spells_import (h.imports i hi)
  have hnotes : Spells CodePoint.isPackagePoint
      (Text.join "\n" (m.annotations.map Annotation.render))
      (m.annotations.flatMap Annotation.words) :=
    spells_lines fun a ha => Spells.isPackagePoint <| Annotation.spells_render (h.annotations a ha)
  have hdeclarations := forall₂_spells fun d hd =>
    (Declaration.spells_render (h.declarations d hd) form).isPackagePoint
  have hrest := List.rel_append (List.rel_append (spells_section himports)
    (spells_section hnotes)) hdeclarations
  have hall := (spells_join (spells_header h.scala h.purs) hrest hgap).closed hbreak
  have hwords : m.words = Keyword.scala.exportWords m.exports.scala ++
      Keyword.purs.exportWords m.exports.purs ++
      ((if m.imports = [] then [] else [m.imports.flatMap Text.importWords]) ++
        (if m.annotations = [] then [] else [m.annotations.flatMap Annotation.words]) ++
        m.declarations.map Declaration.words).flatMap ([] ++ ·) ++ [] := by
    simp only [words, List.flatMap_append, List.flatMap_map, List.append_nil, List.nil_append,
      flatMap_section, List.append_assoc]
  rw [hwords, render, sections, List.cons_append, List.cons_append]
  exact hall

end Module

end Idl
