/-
# Types among the tokens of a module

Each type of a body is spelled by tokens that stand in a row among those of the module, behind a
reserved word or a mark that is no dot, and so is what is left of it without the arrays and
optional types around it (`Module.ContentSpelledBy.standsIn`).  A reference without a qualifier is
a single token, and one with a qualifier ends with a segment, a dot and the name
(`TypeExpr.SpelledBy.exists_of_qualified`).
-/
import Idl.Proofs.Grammar.Derivation
import Idl.Proofs.Text.Names
import Mathlib.Data.List.Basic

namespace Idl

open Phrase

/-- The type without the arrays and optional types around it. -/
def TypeExpr.innermost : TypeExpr → TypeExpr
  | .array t | .maybe t => t.innermost
  | .primitive p => .primitive p
  | .reference position qualifier name => .reference position qualifier name

/-- The primitive types and the references of a module, wherever they stand. -/
def Module.leaves (m : Module) : List TypeExpr :=
  m.declarations.flatMap fun d => d.body.types.map TypeExpr.innermost

/-- The reserved words and the marks that are no dot. -/
def TokenKind.leads : TokenKind → Bool
  | .keyword _ => true
  | .mark m => m ≠ .dot
  | _ => false

/-- The type is spelled by tokens in a row, directly behind a reserved word or a mark that is no
dot. -/
def TypeExpr.StandsIn (e : TypeExpr) (ts : List Token) : Prop :=
  ∃ a us, a.kind.leads ∧ e.SpelledBy us ∧ a :: us <:+: ts

variable {α : Type} {G : Phrase α} {a : Token} {d : Declaration} {e : TypeExpr} {f : Field}
  {m : Module} {name q : Text} {p : Position} {ts us : List Token}

/-! ### Repetitions -/

/-- Every part of a repetition is spelled by tokens in a row. -/
lemma Phrase.Many.exists_of_mem {x : α} {xs : List α} (h : Many G xs ts) (hx : x ∈ xs) :
    ∃ us, us <:+: ts ∧ G x us := by
  induction h with
  | nil => cases hx
  | @cons y ys us vs hy _ ih =>
    rcases List.mem_cons.1 hx with rfl | hx
    · exact ⟨us, (List.prefix_append us vs).isInfix, hy⟩
    · obtain ⟨ws, hws, hG⟩ := ih hx
      exact ⟨ws, hws.trans (List.suffix_append us vs).isInfix, hG⟩

/-- The last part of a repetition is spelled by the last tokens. -/
lemma Phrase.Many.exists_of_concat {x : α} {xs : List α} (h : Many G (xs ++ [x]) ts) :
    ∃ us vs, ts = us ++ vs ∧ Many G xs us ∧ G x vs := by
  induction xs generalizing ts with
  | nil =>
    cases h with
    | cons hx hmore =>
      cases hmore
      exact ⟨[], _, by simp, .nil, hx⟩
  | cons y ys ih =>
    cases h with
    | @cons _ _ us _ hy hmore =>
      obtain ⟨vs, ws, rfl, hys, hx⟩ := ih hmore
      exact ⟨us ++ vs, ws, (List.append_assoc us vs ws).symm, .cons hy hys, hx⟩

/-! ### Types in a module -/

lemma TypeExpr.StandsIn.mono (h : e.StandsIn us) (hus : us <:+: ts) : e.StandsIn ts := by
  obtain ⟨a, vs, ha, he, hvs⟩ := h
  exact ⟨a, vs, ha, he, hvs.trans hus⟩

lemma TypeExpr.SpelledBy.standsIn (h : e.SpelledBy us) (ha : a.kind.leads) :
    e.StandsIn (a :: us) :=
  ⟨a, us, ha, h, List.infix_rfl⟩

/-- The angle in front of the type inside an array or an optional type is no dot. -/
lemma TypeExpr.SpelledBy.innermost_standsIn (h : e.SpelledBy us) (ha : a.kind.leads) :
    e.innermost.StandsIn (a :: us) := by
  induction h generalizing a with
  | primitive hword hspelling => exact (primitive hword hspelling).standsIn ha
  | reference hfirst hmore hname hq hne => exact (reference hfirst hmore hname hq hne).standsIn ha
  | @array head opening closing inner ts _ hopening _ _ ih
  | @maybe head opening closing inner ts _ hopening _ _ ih =>
    have hinner := ih (a := opening) (by rw [hopening]; rfl)
    exact hinner.mono ⟨[a, head], [closing], by simp⟩

lemma TypeExpr.StandsIn.innermost (h : e.StandsIn ts) : e.innermost.StandsIn ts := by
  obtain ⟨a, us, ha, he, hus⟩ := h
  exact (he.innermost_standsIn ha).mono hus

lemma Field.SpelledBy.standsIn (h : f.SpelledBy ts) : f.type.StandsIn ts := by
  obtain @⟨name, colon, type, notes, ts, us, -, hcolon, htype, -⟩ := h
  exact (htype.standsIn (a := colon) (by rw [hcolon]; rfl)).mono ⟨[name], us, by simp⟩

lemma Body.SpelledBy.standsIn {b : Body} (h : b.SpelledBy ts) (ha : a.kind.leads) :
    ∀ e ∈ b.types, e.StandsIn (a :: ts) := by
  cases h with
  | «alias» htype => simpa [types] using htype.standsIn ha
  | wrap hhead htype =>
    have hstands := (htype.standsIn (by rw [hhead]; rfl)).mono (List.suffix_cons a _).isInfix
    simpa [types] using hstands
  | emptyRecord => simp [types]
  | @record opening closing field fields ts us _ hfield hfields _ =>
    have hfirst : field.type.StandsIn (a :: (opening :: ts ++ us ++ [closing])) :=
      hfield.standsIn.mono ⟨[a, opening], us ++ [closing], by simp⟩
    have hmore : ∀ g ∈ fields, g.type.StandsIn (a :: (opening :: ts ++ us ++ [closing])) := by
      intro g hg
      obtain ⟨_, hvs, comma, vs, rfl, -, hg⟩ := hfields.exists_of_mem hg
      have hstands := (hg.standsIn.mono (List.suffix_cons comma vs).isInfix).mono hvs
      exact hstands.mono ⟨a :: opening :: ts, [closing], by simp⟩
    simp only [types, List.map_cons, List.forall_mem_cons, List.forall_mem_map]
    exact ⟨hfirst, hmore⟩
  | sum => simp [types]

/-- Every type of a declaration stands among the tokens of the module. -/
lemma Module.ContentSpelledBy.standsIn (h : m.ContentSpelledBy ts) (hd : d ∈ m.declarations) :
    ∀ e ∈ d.body.types, e.StandsIn ts := by
  obtain ⟨-, -, -, -, hdeclarations⟩ := h
  obtain ⟨us, hus, hd⟩ := hdeclarations.exists_of_mem hd
  obtain @⟨head, name, colon, body, notes, vs, ws, -, -, hcolon, hbody, -⟩ := hd
  intro e he
  have hstands := hbody.standsIn (a := colon) (by rw [hcolon]; rfl) e he
  exact (hstands.mono ⟨[head, name], ws, by simp⟩).mono
    (hus.trans (List.suffix_append _ _).isInfix)

lemma Module.ContentSpelledBy.standsIn_of_mem_leaves (h : m.ContentSpelledBy ts)
    (he : e ∈ m.leaves) : e.StandsIn ts := by
  obtain ⟨d, hd, he⟩ := List.mem_flatMap.1 he
  obtain ⟨t, ht, rfl⟩ := List.mem_map.1 he
  exact (h.standsIn hd t ht).innermost

/-! ### References -/

/-- A reference without a qualifier is a single token, unless it begins with a segment without
text. -/
lemma TypeExpr.SpelledBy.exists_of_unqualified (h : (TypeExpr.reference p none name).SpelledBy ts)
    (hts : ∀ t ∈ ts, t.kind = .upperName → t.value ≠ []) :
    ∃ t, ts = [t] ∧ t.kind = .upperName ∧ t.span.first = p ∧ t.value = name := by
  cases h with
  | @reference first more segments _ _ ts hfirst hmore hname hq _ =>
    cases segments with
    | nil =>
      obtain ⟨hfirstName, rfl⟩ := List.cons.inj hname
      cases hmore
      exact ⟨first, rfl, hfirst, rfl, hfirstName⟩
    | cons segment segments =>
      obtain ⟨rfl, -⟩ := List.cons.inj hname
      have hvalue := hts first (by simp) hfirst
      exact absurd hq.symm (Text.join_cons_ne_nil hvalue "." segments)

/-- A reference with a qualifier ends with a segment, a dot and the name. -/
lemma TypeExpr.SpelledBy.exists_of_qualified
    (h : (TypeExpr.reference p (some q) name).SpelledBy ts) :
    ∃ us segment dot last, ts = us ++ [segment, dot, last] ∧ segment.kind = .upperName ∧
      dot.kind = .mark .dot ∧ last.kind = .upperName ∧ last.value = name := by
  cases h with
  | @reference first more segments _ _ ts hfirst hmore hname hq hne =>
    rcases List.eq_nil_or_concat' more with rfl | ⟨more, x, rfl⟩
    · -- a single segment leaves none for the qualifier
      have hsegments : [] ++ [first.value] = segments ++ [name] := hname
      obtain ⟨rfl, -⟩ := List.append_inj' hsegments rfl
      exact absurd (congrArg some hq) hne
    · obtain ⟨us, _, rfl, hfront, dot, _, rfl, hdot, last, rfl, hlast, rfl⟩ :=
        hmore.exists_of_concat
      have hsegments : (first.value :: more) ++ [last.value] = segments ++ [name] := hname
      obtain ⟨-, hx⟩ := List.append_inj' hsegments rfl
      have hsegment : ∃ ws segment, first :: us = ws ++ [segment] ∧ segment.kind = .upperName := by
        rcases List.eq_nil_or_concat' more with rfl | ⟨more, y, rfl⟩
        · cases hfront
          exact ⟨[], first, rfl, hfirst⟩
        · obtain ⟨us, _, rfl, -, dot, _, rfl, -, segment, rfl, hsegment, -⟩ :=
            hfront.exists_of_concat
          exact ⟨first :: us ++ [dot], segment, by simp, hsegment⟩
      obtain ⟨ws, segment, hws, hsegment⟩ := hsegment
      refine ⟨ws, segment, dot, last, ?_, hsegment, hdot, hlast, List.singleton_inj.1 hx⟩
      rw [← List.cons_append, hws]
      simp

end Idl
