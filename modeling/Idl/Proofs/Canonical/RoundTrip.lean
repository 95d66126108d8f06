/-
# Reading undoes writing

The canonical text of a well-formed module is read as that module, up to what is not written
(`Module.parse_render`), at every indentation that can be written; a formatter of another one
there is not (`Module.parse_render_wide`).  Since what is not written does not change the canonical
text either, the round trip of a well-formed module ends where it began (`Module.roundTrip_eq`).
-/
import Idl.Module.Render
import Idl.Proofs.Canonical.ReadBack
import Idl.Proofs.Grammar.Recognition

namespace Idl

variable {_ : Machine}

lemma Text.toList_stream (s : Text) : s.stream.toList = s.tokens := by
  obtain ⟨t, ts, h⟩ := List.exists_cons_of_ne_nil s.tokens_ne_nil
  simp only [stream, h]
  rfl

/-! ### What is not written -/

namespace TypeExpr

lemma nesting_unplaced (t : TypeExpr) : t.unplaced.nesting = t.nesting := by
  induction t with
  | primitive | reference => rfl
  | array t ih | maybe t ih => exact congrArg (· + 1) ih

lemma nesting_asWritten (t : TypeExpr) : t.asWritten.nesting = t.nesting := by
  induction t with
  | primitive p => cases p <;> rfl
  | reference => rfl
  | array t ih | maybe t ih => exact congrArg (· + 1) ih

lemma render_unplaced (t : TypeExpr) : t.unplaced.render = t.render := by
  induction t with
  | primitive | reference => rfl
  | array t ih | maybe t ih => simp only [unplaced, render, ih]

lemma render_asWritten (t : TypeExpr) : t.asWritten.render = t.render := by
  induction t with
  | primitive p => cases p <;> rfl
  | reference => rfl
  | array t ih | maybe t ih => simp only [asWritten, render, ih]

end TypeExpr

namespace Annotation

lemma render_unplaced (a : Annotation) : a.unplaced.render = a.render := by
  have hparams : (a.params.map Param.unplaced).map Param.render = a.params.map Param.render := by
    rw [List.map_map]
    rfl
  simp only [render, unplaced, hparams]

lemma renderTrailing_unplaced (as : List Annotation) :
    renderTrailing (as.map unplaced) = renderTrailing as := by
  simp only [renderTrailing, List.flatMap_map, render_unplaced]

end Annotation

namespace Field

lemma render_unplaced (f : Field) : f.unplaced.render = f.render := by
  simp only [render, unplaced, TypeExpr.render_unplaced, Annotation.renderTrailing_unplaced]

lemma render_asWritten (f : Field) : f.asWritten.render = f.render := by
  simp only [render, asWritten, TypeExpr.render_asWritten]

end Field

namespace Body

lemma types_unplaced (b : Body) : b.unplaced.types = b.types.map TypeExpr.unplaced := by
  cases b <;> simp [unplaced, types, Field.unplaced]

lemma types_asWritten (b : Body) : b.asWritten.types = b.types.map TypeExpr.asWritten := by
  cases b <;> simp [asWritten, types, Field.asWritten]

lemma render_unplaced (form : Formatter) (b : Body) : b.unplaced.render form = b.render form := by
  rcases b with t | t | (_ | ⟨f, fs⟩) | variants
  · exact t.render_unplaced
  · simp only [unplaced, render, t.render_unplaced]
  · rfl
  · simp [unplaced, render, Function.comp_def, Field.render_unplaced]
  · rfl

lemma render_asWritten (form : Formatter) (b : Body) :
    b.asWritten.render form = b.render form := by
  rcases b with t | t | (_ | ⟨f, fs⟩) | variants
  · exact t.render_asWritten
  · simp only [asWritten, render, t.render_asWritten]
  · rfl
  · simp [asWritten, render, Function.comp_def, Field.render_asWritten]
  · rfl

end Body

namespace Module

variable {m read : Module}

lemma nestedWithin_unplaced {limit : Nat} :
    m.unplaced.NestedWithin limit ↔ m.NestedWithin limit := by
  simp [NestedWithin, Body.NestedWithin, unplaced, Declaration.unplaced, Body.types_unplaced,
    TypeExpr.nesting_unplaced]

lemma nestedWithin_asWritten {limit : Nat} :
    m.asWritten.NestedWithin limit ↔ m.NestedWithin limit := by
  simp [NestedWithin, Body.NestedWithin, asWritten, Declaration.asWritten, Body.types_asWritten,
    TypeExpr.nesting_asWritten]

/-- What the canonical text of a module depends on. -/
lemma render_congr {form : Formatter} {a b : Module} (hscala : a.exports.scala = b.exports.scala)
    (hpurs : a.exports.purs = b.exports.purs) (himports : a.imports = b.imports)
    (hnotes : a.annotations.map Annotation.render = b.annotations.map Annotation.render)
    (hdeclarations : a.declarations.map (Declaration.render form) =
      b.declarations.map (Declaration.render form)) : a.render form = b.render form := by
  -- whether there are annotations decides about a section, and their texts tell it
  have hnone : a.annotations = [] ↔ b.annotations = [] := by
    rw [← List.map_eq_nil_iff (f := Annotation.render), hnotes, List.map_eq_nil_iff]
  unfold render sections renderHeader
  rw [hscala, hpurs, hnotes, hdeclarations]
  by_cases h : b.annotations = []
  · rw [if_pos h, if_pos (hnone.2 h)]
    simp only [himports]
  · rw [if_neg h, if_neg fun h' => h (hnone.1 h')]
    simp only [himports]

lemma render_unplaced (form : Formatter) (m : Module) : m.unplaced.render form = m.render form := by
  refine render_congr rfl rfl rfl ?_ ?_
  · rw [unplaced, List.map_map]
    exact List.map_congr_left fun a _ => a.render_unplaced
  · rw [unplaced, List.map_map]
    refine List.map_congr_left fun d _ => ?_
    simp only [Function.comp_apply, Declaration.render, Declaration.unplaced, Body.render_unplaced,
      Annotation.renderTrailing_unplaced]

lemma render_asWritten (form : Formatter) (m : Module) :
    m.asWritten.render form = m.render form := by
  refine render_congr rfl rfl rfl rfl ?_
  rw [asWritten, List.map_map]
  refine List.map_congr_left fun d _ => ?_
  simp only [Function.comp_apply, Declaration.render, Declaration.asWritten, Body.render_asWritten]

/-! ### Round trips -/

/-- A text with the words of a well-formed module is read as the module. -/
lemma exists_parse_of_wordsFrom (h : m.WellFormed) (hnest : m.NestedWithin Machine.nesting)
    {s : Text} (hs : s.wordsFrom .ordinary = some m.words) :
    ∃ read, parse s = .ok read ∧ read.unplaced = m.asWritten.unplaced := by
  obtain ⟨us, stop, htokens, hstop, hus⟩ := Text.tokens_of_wordsFrom hs
  obtain ⟨read, hread, heq⟩ := Module.given h us hus
  -- neither positions nor the words for primitive types change the nesting
  have hnest : read.NestedWithin Machine.nesting := by
    rwa [← nestedWithin_unplaced, heq, nestedWithin_unplaced, nestedWithin_asWritten]
  have hstream : s.stream.toList = us ++ stop :: [] := by
    rw [Text.toList_stream, htokens]
  exact ⟨read, ofTokens_of_spelledBy hstream hstop hread hnest, heq⟩

lemma exists_parse_render (h : m.WellFormed) (hnest : m.NestedWithin Machine.nesting)
    (form : Formatter) :
    ∃ read, parse (m.render form) = .ok read ∧ read.unplaced = m.asWritten.unplaced := by
  refine exists_parse_of_wordsFrom h hnest ?_
  have hspells := spells_render h form [] (by decide)
  rwa [List.append_nil, Text.wordsFrom_nil, Option.map_some, List.append_nil] at hspells

/-- At every indentation that can be written, the canonical text of a well-formed module is read
as the module, up to positions, without its name, and with references for the primitive types that
have no reserved word. -/
theorem parse_render (h : m.WellFormed) (hnest : m.NestedWithin Machine.nesting) {n : Int}
    (hn : Text.IsWidth n) :
    ∃ form, Formatter.ofIndent n = .ok form ∧
      (parse (m.render form)).map unplaced = .ok m.asWritten.unplaced := by
  obtain ⟨form, hform⟩ := Formatter.exists_ofIndent hn
  obtain ⟨read, hread, heq⟩ := exists_parse_render h hnest form
  refine ⟨form, hform, ?_⟩
  rw [hread, ← heq]
  rfl

/-- A value with a surrogate, a quotation mark and a line break survives, and a date comes back as
a reference. -/
theorem parse_render_awkward_value :
    let _ : Machine := .usual
    ∃ form, Formatter.ofIndent (-1) = .ok form ∧
      (parse (Module.render form ⟨"m", ⟨"a.b", "C", "m"⟩, ["d"],
        [⟨"doc", ⟨3, 1⟩, [⟨"text", ⟨3, 6⟩, some [.surrogate 0, .scalar '"', .scalar '\n']⟩]⟩],
        [⟨"T", .record [⟨"x", .array (.primitive .date), []⟩], []⟩]⟩)).map unplaced =
      .ok ⟨[], ⟨"a.b", "C", []⟩, ["d"],
        [⟨"doc", default, [⟨"text", default, some [.surrogate 0, .scalar '"', .scalar '\n']⟩]⟩],
        [⟨"T", .record [⟨"x", .array (.reference default none "Date"), []⟩], []⟩]⟩ := by
  intro _
  refine parse_render ⟨by decide, by decide, by decide, ?_, ?_⟩ ?_ (by decide)
  · intro a ha
    obtain rfl := List.mem_singleton.1 ha
    refine ⟨by decide, fun p hp => ?_⟩
    obtain rfl := List.mem_singleton.1 hp
    show Text.IsLowerName _
    decide
  · intro d hd
    obtain rfl := List.mem_singleton.1 hd
    refine ⟨by decide, fun f hf => ?_, by simp⟩
    obtain rfl := List.mem_singleton.1 hf
    exact ⟨by decide, trivial, by simp⟩
  · decide

/-- The module with nothing but a header. -/
def ofHeader : Module := ⟨[], ⟨"a", "b", []⟩, [], [], []⟩

lemma wellFormed_ofHeader : ofHeader.WellFormed :=
  ⟨by decide, by decide, by simp [ofHeader], by simp [ofHeader], by simp [ofHeader]⟩

/-- No word of 64 bits tells the indentation, so there is no canonical text to read back. -/
theorem parse_render_wide :
    let _ : Machine := .usual
    (ofHeader.WellFormed ∧ ofHeader.NestedWithin Machine.nesting) ∧
      ¬ ∃ form, Formatter.ofIndent 0x8000000000000000 = .ok form ∧
        (parse (ofHeader.render form)).map unplaced = .ok ofHeader.asWritten.unplaced := by
  intro _
  refine ⟨⟨wellFormed_ofHeader, by decide⟩, ?_⟩
  rintro ⟨form, hform, -⟩
  exact Formatter.ofIndent_ne_ok (by decide) ⟨form, hform⟩

/-- What is carried over gives the same text. -/
lemma render_carriedOver (form : Formatter) (h : read.unplaced = m.asWritten.unplaced) :
    (m.carriedOver read).render form = m.render form := by
  have himports : read.imports = m.imports := congrArg (·.imports) h
  have hname : (m.carriedOver read).render form = (read.withImports m.imports).render form := by
    unfold carriedOver
    split <;> rfl
  calc (m.carriedOver read).render form
      = (read.withImports m.imports).render form := hname
    _ = read.render form := by rw [withImports, ← himports]
    _ = m.asWritten.unplaced.render form := by rw [← h, render_unplaced]
    _ = m.render form := by rw [render_unplaced, render_asWritten]

/-- The round trip of a well-formed module ends where it began. -/
lemma roundTrip_eq (h : m.WellFormed) (hnest : m.NestedWithin Machine.nesting)
    (form : Formatter) : m.roundTrip form = .ok ⟨m.render form, m.render form⟩ := by
  obtain ⟨read, hread, heq⟩ := exists_parse_render h hnest form
  rw [roundTrip, hread]
  simp only [Except.map, render_carriedOver form heq]

end Module

end Idl
