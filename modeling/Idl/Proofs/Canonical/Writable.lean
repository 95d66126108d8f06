/-
# Which canonical texts can be written to a file

No UTF-8 file holds a surrogate.  The names, reserved words and marks of a module hold none, and a
literal is written with the surrogates of its value as they stand.  So the canonical text of a
module can be written exactly if no value in its annotations holds a surrogate
(`Module.writeFile_render_of_parse`).  A source that can be read from a file may have such a
value all the same, by an escape (`Module.hasSurrogate_render_escape`).
-/
import Idl.Proofs.Canonical.Parsed
import Idl.Proofs.Canonical.Points
import Idl.Proofs.Token.Spans

namespace Idl

variable {_ : Machine} {c : CodePoint} {form : Formatter} {m : Module} {s : Text}

/-! ### Surrogates -/

/-- The surrogates. -/
def surrogateBands : List Band := [⟨0xD800, 0xDFFF, 1⟩]

lemma CodePoint.not_isSurrogate_of_isAlphanumeric (h : c.isAlphanumeric) :
    c.isSurrogate = false := by
  cases c with
  | scalar c => rfl
  | surrogate n =>
    have hholds : Band.holds surrogateBands (surrogate n).toNat = false := by
      rcases Bool.or_eq_true_iff.1 h with h | h
      · have hletters : Band.apart letterBands surrogateBands = true := by decide +kernel
        exact Band.not_holds_of_apart hletters h
      · have hnumerals : Band.apart numeralBands surrogateBands = true := by decide +kernel
        exact Band.not_holds_of_apart hnumerals h
    simp only [surrogateBands, Band.holds, toNat] at hholds
    rw [if_pos (by omega)] at hholds
    simp [Nat.mod_one] at hholds

lemma onlyInLiterals_isSurrogate : OnlyInLiterals CodePoint.isSurrogate where
  alphanumeric _ h := CodePoint.not_isSurrogate_of_isAlphanumeric h
  plain _ _ := rfl

/-- A literal is written with the surrogates of its value as they stand. -/
lemma Literal.holds_isSurrogate (v : Text) : holds CodePoint.isSurrogate v = v.hasSurrogate := by
  have hpoint (c : CodePoint) : (writePoint c).any CodePoint.isSurrogate = c.isSurrogate := by
    rcases any_writePoint_or onlyInLiterals_isSurrogate c with h | h
    · cases c with
      | scalar c => exact h
      | surrogate n =>
        have hlow : ¬ (CodePoint.surrogate n).toNat < 0x20 := by
          simp only [CodePoint.toNat]
          omega
        have hdelete : (CodePoint.surrogate n).toNat ≠ 0x7F := by
          simp only [CodePoint.toNat]
          omega
        simp [writePoint, hlow, hdelete]
    · simp [h]
  rw [holds_eq onlyInLiterals_isSurrogate, funext hpoint]
  rfl

/-- The canonical text of a well-formed module holds surrogates just where its values do. -/
lemma Module.hasSurrogate_render (h : m.WellFormed) :
    (m.render form).hasSurrogate = m.values.any Text.hasSurrogate := by
  rw [Text.hasSurrogate, any_render onlyInLiterals_isSurrogate h,
    funext Literal.holds_isSurrogate]

lemma Module.hasSurrogate_of_mem_values (h : parse s = .ok m)
    (hrender : (m.render form).hasSurrogate = false) : ∀ v ∈ m.values, v.hasSurrogate = false := by
  rw [hasSurrogate_render (wellFormed_of_parse h)] at hrender
  simpa using hrender

/-! ### Files -/

namespace Module

/-- The canonical text of a module that was read can be written to a file unless one of the values
in its annotations holds a surrogate; the file is left empty then. -/
theorem writeFile_render_of_parse (h : parse s = .ok m) (form : Formatter) :
    ((m.render form).hasSurrogate = true ↔ ∃ v ∈ m.values, v.hasSurrogate = true) ∧
      ∀ file l x, x.disk.locate file = .ok l → Command.writeFile file (m.render form) x =
        if ∃ v ∈ m.values, v.hasSurrogate = true then
          .error .surrogate { x with disk := x.disk.write l [] }
        else .ok () { x with disk := x.disk.write l (m.render form) } := by
  obtain ⟨us, hus, hwords, -⟩ := exists_content_of_parse h
  have hiff : (m.render form).hasSurrogate = true ↔ ∃ v ∈ m.values, v.hasSurrogate = true := by
    rw [hasSurrogate_render (hus.wellFormed hwords), List.any_eq_true]
  refine ⟨hiff, fun file l x hl => ?_⟩
  rw [Command.writeFile_apply hl]
  exact if_congr hiff rfl rfl

/-! ### Sources with an escape -/

/-- A source with one literal, and a body for it. -/
def sourceOfBody (body : Text) : Text := "scala:a purs:b<x y=\"" ++ body ++ "\">"

/-- The module of such a source, by the value of the literal. -/
def ofValue (value : Text) : Module :=
  ⟨[], ⟨"a", "b", []⟩, [], [⟨"x", default, [⟨"y", default, some value⟩]⟩], []⟩

lemma wellFormed_ofValue (value : Text) : (ofValue value).WellFormed := by
  have hscala : Text.IsPackageName "a" := by decide
  have hpurs : Text.IsPackageName "b" := by decide
  have hnote : Text.IsLowerName "x" := by decide
  have hparam : Text.IsLowerName "y" := by decide
  refine ⟨hscala, hpurs, by simp [ofValue], fun a ha => ?_, by simp [ofValue]⟩
  obtain rfl := List.mem_singleton.1 ha
  refine ⟨hnote, fun p hp => ?_⟩
  obtain rfl := List.mem_singleton.1 hp
  exact hparam

/-- A source with a literal is read, whatever value the literal denotes. -/
lemma exists_parse_of_denotes {body value : Text} (h : Literal.Denotes body value) :
    ∃ m, parse (sourceOfBody body) = .ok m ∧
      ∀ form, m.render form = (ofValue value).render form := by
  let front : List Lexeme := [⟨[], .keyword .scala, "scala", "scala"⟩, ⟨[], .mark .colon, ":", ":"⟩,
    ⟨[], .packageName, "a", "a"⟩, ⟨" ", .keyword .purs, "purs", "purs"⟩,
    ⟨[], .mark .colon, ":", ":"⟩, ⟨[], .packageName, "b", "b"⟩, ⟨[], .mark .openAngle, "<", "<"⟩,
    ⟨[], .lowerName, "x", "x"⟩, ⟨" ", .lowerName, "y", "y"⟩, ⟨[], .mark .assign, "=", "="⟩]
  let back : List Lexeme := [⟨[], .string, value, .scalar '"' :: (body ++ [.scalar '"'])⟩,
    ⟨[], .mark .closeAngle, ">", ">"⟩]
  have hblank : Trivia.Complete " " := .blank (by decide) .nil
  have hliteral : Laid .ordinary back [] :=
    .cons .nil (.string h) (by simp) (fun _ _ => rfl) <|
      .cons .nil (.mark .closeAngle) (by simp [Context.next]) (by decide) .nil
  -- of the literal, only the mark that it opens with counts for the tokens in front of it
  have hfront : Laid .ordinary front "\"" :=
    .cons .nil (.keyword .scala) (by decide) (by decide) <|
      .cons .nil (.mark .colon) (by decide) (by decide) <|
        .cons .nil (.packageName (by decide)) (by decide) (by decide) <|
          .cons hblank (.keyword .purs) (by decide) (by decide) <|
            .cons .nil (.mark .colon) (by decide) (by decide) <|
              .cons .nil (.packageName (by decide)) (by decide) (by decide) <|
                .cons .nil (.mark .openAngle) (by decide) (by decide) <|
                  .cons .nil (.lowerName (by decide)) (by decide) (by decide) <|
                    .cons hblank (.lowerName (by decide)) (by decide) (by decide) <|
                      .cons .nil (.mark .assign) (by decide) (by decide) .nil
  have hlaid : Laid .ordinary (front ++ back) [] :=
    Laid.append_iff.2 ⟨hfront.of_head?_eq rfl, hliteral⟩
  have hcut := Text.cut_eq_clean_iff.2 ⟨rfl, hlaid.layout (.inl .nil)⟩
  have htext : (front ++ back).flatMap Lexeme.text ++ [] = sourceOfBody body := by
    simp [front, back, Lexeme.text, sourceOfBody, Text.ofString]
  rw [htext] at hcut
  have hwords : (sourceOfBody body).wordsFrom .ordinary = some (ofValue value).words := by
    rw [Text.wordsFrom, ← Text.cut, hcut]
    rfl
  have hnest : (ofValue value).NestedWithin Machine.nesting := by simp [NestedWithin, ofValue]
  obtain ⟨m, hm, heq⟩ := exists_parse_of_wordsFrom (wellFormed_ofValue value) hnest hwords
  refine ⟨m, hm, fun form => ?_⟩
  rw [← render_unplaced, heq, render_unplaced, render_asWritten]

/-- A literal with the escape of a surrogate. -/
lemma exists_parse_of_surrogate [Machine] :
    ∃ m, parse (sourceOfBody "\\ud800") = .ok m ∧
      ∀ form, (m.render form).hasSurrogate = true := by
  have hdigits : Text.hexValue? [.scalar 'd', .scalar '8', .scalar '0', .scalar '0'] =
      some 0xD800 := by decide
  obtain ⟨m, hm, hrender⟩ := exists_parse_of_denotes (.unit hdigits .nil)
  refine ⟨m, hm, fun form => ?_⟩
  rw [hrender, hasSurrogate_render (wellFormed_ofValue _)]
  decide

/-- An escape can name a surrogate, so that a source without surrogates, which a file can hold, has
a canonical text that no file can hold. -/
theorem hasSurrogate_render_escape :
    let _ : Machine := .usual
    let s := sourceOfBody "\\ud800"
    s.hasSurrogate = false ∧
      ∃ m, parse s = .ok m ∧ ∀ form, (m.render form).hasSurrogate = true := by
  intro _ s
  obtain ⟨m, hm, hrender⟩ := exists_parse_of_surrogate
  exact ⟨by decide, m, hm, hrender⟩

/-- Writing the canonical text of such a source back to its file leaves the file empty. -/
theorem writeFile_render_of_parse_escape :
    let _ : Machine := .usual
    let s := sourceOfBody "\\ud800"
    let x : Session := ⟨⟨[(["a"], s)], [], []⟩, false, [], []⟩
    ∃ m, parse s = .ok m ∧ (∃ v ∈ m.values, v.hasSurrogate = true) ∧
      Command.writeFile (.ofText "a") (m.render .usual) x =
        .error .surrogate { x with disk := ⟨[(["a"], [])], [], []⟩ } := by
  intro _ s x
  obtain ⟨m, hm, hrender⟩ := exists_parse_of_surrogate
  obtain ⟨hiff, hwrite⟩ := writeFile_render_of_parse hm .usual
  have hvalue := hiff.1 (hrender .usual)
  refine ⟨m, hm, hvalue, ?_⟩
  have hlocate : x.disk.locate (.ofText "a") = .ok ["a"] := by rfl
  rw [hwrite _ _ _ hlocate, if_pos hvalue]
  rfl

end Module

end Idl
