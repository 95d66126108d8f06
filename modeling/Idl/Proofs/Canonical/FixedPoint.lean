/-
# The canonical text is settled

What is read from a text has only types that are written as themselves, so its canonical text is
read as the same module up to positions, and has itself as its canonical text
(`Module.exists_reread`).
-/
import Idl.Proofs.Canonical.Parsed

namespace Idl

variable {_ : Machine} {ts : List Token}

lemma TypeExpr.SpelledBy.asWritten_eq {t : TypeExpr} (h : t.SpelledBy ts) : t.asWritten = t := by
  induction h with
  | @primitive t w p hword hspelling =>
    have hp : p.asWritten = .primitive p := by
      revert hspelling
      cases w <;> cases p <;> decide
    exact hp
  | reference => rfl
  | array _ _ _ _ ih | maybe _ _ _ _ ih => rw [asWritten, ih]

lemma Body.asWritten_eq {b : Body} (h : ∀ t ∈ b.types, t.asWritten = t) : b.asWritten = b := by
  rcases b with t | t | fields | variants
  · rw [asWritten, h t (List.mem_singleton_self t)]
  · rw [asWritten, h t (List.mem_singleton_self t)]
  · have hfields : ∀ f ∈ fields, f.asWritten = f := by
      intro f hf
      rw [Field.asWritten, h f.type (List.mem_map_of_mem hf)]
    rw [asWritten, (List.map_congr_left hfields).trans (List.map_id _)]
  · rfl

namespace Module

variable {s : Text} {m : Module}

/-- All types that are read are written as themselves. -/
lemma ContentSpelledBy.asWritten_eq (h : m.ContentSpelledBy ts) : m.asWritten = m := by
  have hall : ∀ d ∈ m.declarations, d.asWritten = d := by
    intro d hd
    refine congrArg (Declaration.mk _ · _) (Body.asWritten_eq fun t ht => ?_)
    obtain ⟨-, us, -, hus, -⟩ := h.standsIn hd t ht
    exact hus.asWritten_eq
  rw [asWritten, (List.map_congr_left hall).trans (List.map_id _)]
  obtain ⟨-, -, -, -, -⟩ := h
  rfl

/-- The canonical text of what was read is read as the same module, up to positions, and has
itself as its canonical text. -/
lemma exists_reread (h : parse s = .ok m) (form : Formatter) :
    ∃ m', parse (m.render form) = .ok m' ∧ m'.unplaced = m.unplaced ∧
      m'.render form = m.render form := by
  obtain ⟨us, hus, hwords, hnest⟩ := exists_content_of_parse h
  obtain ⟨m', hm', heq⟩ := exists_parse_render (hus.wellFormed hwords) hnest form
  rw [hus.asWritten_eq] at heq
  exact ⟨m', hm', heq, by rw [← m'.render_unplaced, heq, m.render_unplaced]⟩

/-- A module with one field, whose canonical text depends on the indentation. -/
def ofOneField : Module :=
  ⟨[], ⟨"a", "b", []⟩, [], [], [⟨"T", .record [⟨"f", .primitive .int, []⟩], []⟩]⟩

lemma exists_parse_ofOneField [Machine] (form : Formatter) :
    ∃ m, parse (ofOneField.render form) = .ok m ∧
      ∀ other, m.render other = ofOneField.render other := by
  have hwell : ofOneField.WellFormed := by
    refine ⟨by decide, by decide, by simp [ofOneField], by simp [ofOneField], fun d hd => ?_⟩
    obtain rfl := List.mem_singleton.1 hd
    refine ⟨by decide, fun f hf => ?_, by simp⟩
    obtain rfl := List.mem_singleton.1 hf
    exact ⟨by decide, trivial, by simp⟩
  have hnest : ofOneField.NestedWithin Machine.nesting := by
    simpa [NestedWithin, Body.NestedWithin, Body.types, TypeExpr.nesting, ofOneField] using
      Nat.succ_le_of_lt Machine.nesting_pos
  obtain ⟨m, hm, heq⟩ := exists_parse_render hwell hnest form
  refine ⟨m, hm, fun other => ?_⟩
  rw [← m.render_unplaced, heq, render_unplaced, render_asWritten]

end Module

end Idl
