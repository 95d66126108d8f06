/-
# Highlighting step by step

A run of the highlighting machine is a row of steps (`Highlight.run_eq_of_leads`).  Each of them
passes some text and gives pieces that are exactly this text, whatever stands on the stack; so a
run neither loses nor repeats anything (`Text.highlight_lossless`).
-/
import Idl.Highlight
import Mathlib.Data.List.DropRight
import Mathlib.Tactic.Common

namespace Idl

namespace Highlight

/-- The machine in front of the rest of a text. -/
structure Config where
  /-- The states entered since the root. -/
  stack : Stack
  /-- The code point in front of the rest. -/
  before : Option CodePoint
  /-- The text that is left. -/
  rest : Text

/-- The machine in its first state, in front of a text. -/
def Config.start (s : Text) : Config := ⟨[], none, s⟩

/-- One step: its pieces, and the machine behind it.  At the end of the text there is none. -/
def Config.step? (k : Config) : Option (List Piece × Config) :=
  match k.rest with
  | [] => none
  | c :: r =>
    match recognise k.stack.top.rules k.before (c :: r) with
    | some (pieces, rest, change) =>
      some (pieces, ⟨k.stack.apply change, (textOf pieces).getLast?, rest⟩)
    | none =>
      if c = '\n' then some ([⟨.lineEnd, [c]⟩], ⟨[], some c, r⟩)
      else some ([⟨.stray, [c]⟩], ⟨k.stack, some c, r⟩)

/-- The pieces of the whole run. -/
def Config.run (k : Config) : List Piece := Highlight.run k.stack k.before k.rest

/-- The machine gets from one place to another in any number of steps, and gives these pieces. -/
inductive Leads : Config → List Piece → Config → Prop
  /-- No step at all. -/
  | refl (k : Config) : Leads k [] k
  /-- A step in front of others. -/
  | step {k k' k'' : Config} {ps qs : List Piece} (h : k.step? = some (ps, k'))
      (more : Leads k' qs k'') : Leads k (ps ++ qs) k''

variable {b : Option CodePoint} {change : Change} {k k' k'' : Config} {ps qs : List Piece}
  {r s u : Text} {S : Stack}

/-! ### One step -/

lemma textOf_append (ps qs : List Piece) : textOf (ps ++ qs) = textOf ps ++ textOf qs :=
  List.flatMap_append

lemma textOf_singleton (style : Style) (t : Text) : textOf [⟨style, t⟩] = t := by
  simp [textOf]

/-- The two outcomes of a step: a rule applies, or the front is a code point that none knows. -/
lemma step?_cases (h : k.step? = some (ps, k')) :
    (∃ r change, recognise k.stack.top.rules k.before k.rest = some (ps, r, change) ∧
      k' = ⟨k.stack.apply change, (textOf ps).getLast?, r⟩) ∨
    ∃ c r, k.rest = c :: r ∧ recognise k.stack.top.rules k.before (c :: r) = none ∧
      (c = .scalar '\n' ∧ ps = [⟨.lineEnd, [c]⟩] ∧ k' = ⟨[], some c, r⟩ ∨
        c ≠ .scalar '\n' ∧ ps = [⟨.stray, [c]⟩] ∧ k' = ⟨k.stack, some c, r⟩) := by
  unfold Config.step? at h
  split at h
  · cases h
  next c r hrest =>
  rw [hrest]
  split at h
  · next hrule =>
    cases h
    exact .inl ⟨_, _, hrule, rfl⟩
  next hrule =>
  split at h <;> cases h
  · next hc => exact .inr ⟨c, r, rfl, hrule, .inl ⟨hc, rfl, rfl⟩⟩
  · next hc => exact .inr ⟨c, r, rfl, hrule, .inr ⟨hc, rfl, rfl⟩⟩

/-- A step by a rule. -/
lemma step?_of_recognise (h : recognise k.stack.top.rules k.before k.rest = some (ps, r, change)) :
    k.step? = some (ps, ⟨k.stack.apply change, (textOf ps).getLast?, r⟩) := by
  unfold Config.step?
  split
  · next hrest =>
    rw [hrest] at h
    have hlt := length_lt_of_recognise h
    simp at hlt
  next hrest =>
  rw [hrest] at h
  rw [h]

/-- A step passes exactly the text of its pieces. -/
lemma text_of_step (h : k.step? = some (ps, k')) :
    k.rest = textOf ps ++ k'.rest ∧ ps ≠ [] ∧ ∀ p ∈ ps, p.text ≠ [] := by
  rcases step?_cases h with ⟨r, change, hrule, rfl⟩ |
    ⟨c, r, hrest, -, ⟨-, rfl, rfl⟩ | ⟨-, rfl, rfl⟩⟩
  · exact text_recognise hrule
  · simp [hrest, textOf]
  · simp [hrest, textOf]

lemma textOf_ne_nil_of_step (h : k.step? = some (ps, k')) : textOf ps ≠ [] := by
  obtain ⟨-, hne, hps⟩ := text_of_step h
  obtain ⟨p, ps, rfl⟩ := List.exists_cons_of_ne_nil hne
  intro hnil
  exact hps p (by simp) (List.append_eq_nil_iff.1 hnil).1

/-- The machine knows the last code point that it has passed. -/
lemma before_of_step (h : k.step? = some (ps, k')) : k'.before = (textOf ps).getLast? := by
  rcases step?_cases h with ⟨r, change, -, rfl⟩ |
    ⟨c, r, -, -, ⟨-, rfl, rfl⟩ | ⟨-, rfl, rfl⟩⟩
  · rfl
  · rfl
  · rfl

lemma step?_eq_none_iff : k.step? = none ↔ k.rest = [] := by
  unfold Config.step?
  split
  · next h => simp [h]
  next c r h =>
  rw [h]
  split
  · simp
  · split <;> simp

lemma length_lt_of_step (h : k.step? = some (ps, k')) : k'.rest.length < k.rest.length := by
  have hlength := List.length_pos_iff.2 (textOf_ne_nil_of_step h)
  rw [(text_of_step h).1, List.length_append]
  omega

/-! ### Runs -/

lemma run_of_step (h : k.step? = some (ps, k')) : k.run = ps ++ k'.run := by
  unfold Config.run
  rcases step?_cases h with ⟨r, change, hrule, rfl⟩ |
    ⟨c, r, hrest, hrule, ⟨hc, rfl, rfl⟩ | ⟨hc, rfl, rfl⟩⟩
  · obtain ⟨c, s, hrest⟩ : ∃ c s, k.rest = c :: s := by
      refine List.exists_cons_of_ne_nil fun hnil => ?_
      rw [step?_eq_none_iff.2 hnil] at h
      cases h
    rw [hrest] at hrule ⊢
    rw [Highlight.run]
    split
    · next hrule' => rw [hrule] at hrule'; cases hrule'; rfl
    · next hrule' => rw [hrule] at hrule'; cases hrule'
  · rw [hrest, Highlight.run]
    split
    · next hrule' => rw [hrule] at hrule'; cases hrule'
    · rw [if_pos hc]
      rfl
  · rw [hrest, Highlight.run]
    split
    · next hrule' => rw [hrule] at hrule'; cases hrule'
    · rw [if_neg hc]
      rfl

lemma run_nil (h : k.rest = []) : k.run = [] := by
  rw [Config.run, h, Highlight.run]

lemma Leads.trans (h : Leads k ps k') (h' : Leads k' qs k'') : Leads k (ps ++ qs) k'' := by
  induction h with
  | refl => exact h'
  | step hstep _ ih =>
    rw [List.append_assoc]
    exact .step hstep (ih h')

lemma leads_of_step (h : k.step? = some (ps, k')) : Leads k ps k' := by
  simpa using Leads.step h (.refl k')

/-- A single step by a rule. -/
lemma leads_of_recognise (h : recognise S.top.rules b s = some (ps, r, change)) :
    Leads ⟨S, b, s⟩ ps ⟨S.apply change, (textOf ps).getLast?, r⟩ :=
  leads_of_step (step?_of_recognise (k := ⟨S, b, s⟩) h)

/-- A code point that no rule recognises is stray, unless it is a line break. -/
lemma leads_stray {c : CodePoint} (h : recognise S.top.rules b (c :: r) = none)
    (hc : c ≠ .scalar '\n') : Leads ⟨S, b, c :: r⟩ [⟨.stray, [c]⟩] ⟨S, some c, r⟩ := by
  refine leads_of_step ?_
  simp only [Config.step?, h, if_neg hc]

/-- The pieces of a run begin with those of its first steps. -/
lemma run_eq_of_leads (h : Leads k ps k') : k.run = ps ++ k'.run := by
  induction h with
  | refl => rfl
  | step hstep _ ih => rw [run_of_step hstep, ih, List.append_assoc]

/-- What steps pass is the text of their pieces, none of which is empty. -/
lemma text_of_leads (h : Leads k ps k') :
    k.rest = textOf ps ++ k'.rest ∧ ∀ p ∈ ps, p.text ≠ [] := by
  induction h with
  | refl => simp [textOf]
  | step hstep _ ih =>
    obtain ⟨hrest, -, hne⟩ := text_of_step hstep
    rw [hrest, ih.1, textOf_append, List.append_assoc]
    exact ⟨rfl, List.forall_mem_append.2 ⟨hne, ih.2⟩⟩

/-- The machine knows the last code point that it has passed, if there is one. -/
lemma before_of_leads (h : Leads k ps k') : k'.before = (textOf ps).getLast?.or k.before := by
  induction h with
  | refl => rfl
  | step hstep _ ih =>
    have hne := textOf_ne_nil_of_step hstep
    rw [ih, before_of_step hstep, textOf_append, List.getLast?_append,
      List.getLast?_eq_some_getLast hne]
    cases (textOf _).getLast? <;> rfl

/-- Every run comes to the end of its text. -/
lemma exists_leads_run (k : Config) : ∃ k', Leads k k.run k' ∧ k'.rest = [] := by
  rcases hstep : k.step? with _ | ⟨ps, k'⟩
  · have hrest := step?_eq_none_iff.1 hstep
    exact ⟨k, by rw [run_nil hrest]; exact .refl k, hrest⟩
  · have hlt := length_lt_of_step hstep
    obtain ⟨k'', h, hrest⟩ := exists_leads_run k'
    exact ⟨k'', by rw [run_of_step hstep]; exact .step hstep h, hrest⟩
termination_by k.rest.length

/-! ### The text that is highlighted -/

/-- Cutting the breaks off the ends of a text leaves its middle part. -/
lemma exists_trimBreaks (s : Text) : ∃ front back, s = front ++ trimBreaks s ++ back ∧
    (∀ c ∈ front ++ back, c = .scalar '\n') ∧ (∀ c ∈ (trimBreaks s).head?, c ≠ .scalar '\n') ∧
      ∀ c ∈ (trimBreaks s).getLast?, c ≠ .scalar '\n' := by
  let isBreak : CodePoint → Bool := (· = .scalar '\n')
  have htrim : trimBreaks s = (s.dropWhile isBreak).rdropWhile isBreak := rfl
  have hfront : ∀ c ∈ s.takeWhile isBreak, c = .scalar '\n' :=
    fun c hc => by simpa [isBreak] using (List.all_eq_true.1 List.all_takeWhile) c hc
  have hback : ∀ c ∈ (s.dropWhile isBreak).rtakeWhile isBreak, c = .scalar '\n' :=
    fun c hc => by simpa [isBreak] using List.mem_rtakeWhile_imp hc
  have hsplit : s.dropWhile isBreak =
      trimBreaks s ++ (s.dropWhile isBreak).rtakeWhile isBreak :=
    List.rdropWhile_append_rtakeWhile.symm
  refine ⟨s.takeWhile isBreak, (s.dropWhile isBreak).rtakeWhile isBreak, ?_,
    List.forall_mem_append.2 ⟨hfront, hback⟩, ?_, ?_⟩
  · rw [List.append_assoc, ← hsplit, List.takeWhile_append_dropWhile]
  · intro c hc
    have hhead := List.head?_dropWhile_not isBreak s
    rw [hsplit, List.head?_append_of_ne_nil _ (by rintro h; simp [h] at hc),
      Option.mem_def.1 hc] at hhead
    simpa [isBreak] using hhead
  · intro c hc
    have hne : trimBreaks s ≠ [] := by rintro h; simp [h] at hc
    have hlast := List.rdropWhile_last_not isBreak (s.dropWhile isBreak) (htrim ▸ hne)
    rw [List.getLast?_eq_some_getLast hne] at hc
    obtain rfl := Option.some.inj hc
    simp only [htrim]
    simpa [isBreak] using hlast

end Highlight

open Highlight

/-- The pieces of a text are the text in order, without a byte order mark, with plain line breaks,
and with exactly one break at its end; none of them is empty.  They are given by steps, and every
step passes at least one code point. -/
theorem Text.highlight_lossless (s : Text) :
    (∃ front body back, (withoutMark s).withPlainBreaks = front ++ body ++ back ∧
      (∀ c ∈ front ++ back, c = .scalar '\n') ∧ (∀ c ∈ body.head?, c ≠ .scalar '\n') ∧
      (∀ c ∈ body.getLast?, c ≠ .scalar '\n') ∧ textOf s.highlight = body ++ "\n") ∧
    (∀ p ∈ s.highlight, p.text ≠ []) ∧
    (∃ k, Leads (.start (prepared s)) s.highlight k ∧ k.rest = []) ∧
    ∀ k ps k', Config.step? k = some (ps, k') → k.rest = textOf ps ++ k'.rest ∧ textOf ps ≠ [] := by
  obtain ⟨front, back, hsplit, hends, hhead, hlast⟩ :=
    exists_trimBreaks (withoutMark s).withPlainBreaks
  obtain ⟨k, hleads, hrest⟩ := exists_leads_run (.start (prepared s))
  obtain ⟨htext, hne⟩ := text_of_leads hleads
  rw [hrest, List.append_nil] at htext
  refine ⟨⟨front, _, back, hsplit, hends, hhead, hlast, htext.symm⟩, hne, ⟨k, hleads, hrest⟩,
    fun k ps k' h => ⟨(text_of_step h).1, textOf_ne_nil_of_step h⟩⟩

end Idl
