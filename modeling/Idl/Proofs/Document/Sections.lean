/-
# Sections of a token list

A declaration and the tokens behind it, up to the next declaration or the end of the input, make
up a section.  The sections make up the tokens, but for those in front of the first one and the
end of the input (`Outline.split_spec`), and tokens that are put together from sections fall into
just these (`Outline.sections_flatMap`).
-/
import Idl.Document.Outline
import Mathlib.Data.List.Basic

namespace Idl

namespace Outline

/-- The tokens of a declaration: the word `type`, the name, and what follows them. -/
structure Section where
  /-- The word `type`. -/
  opening : Token
  /-- The name. -/
  name : Token
  /-- The tokens behind the name. -/
  following : List Token
deriving DecidableEq, Inhabited

/-- The tokens in front of the first declaration, and the sections of all declarations.  The
last token, which is the end of the input, belongs to none. -/
def split : List Token → List Token × List Section
  | [] => ([], [])
  | [_] => ([], [])
  | t :: u :: rest =>
    if beginsAt t u then
      let (following, sections) := split rest
      ([], ⟨t, u, following⟩ :: sections)
    else
      let (front, sections) := split (u :: rest)
      (t :: front, sections)

/-- The sections of all declarations. -/
def sections (tokens : List Token) : List Section := (split tokens).2

namespace Section

/-- The last token of a section. -/
def last (s : Section) : Token := s.following.getLast?.getD s.name

/-- The span of a section. -/
def extent (s : Section) : Span := ⟨s.opening.span.first, s.last.span.last⟩

/-- The spans of the names of members among tokens behind another one. -/
def membersAfter : Token → List Token → List Span
  | _, [] => []
  | before, t :: rest =>
    (if isMember before t rest.head? then [t.span] else []) ++ membersAfter t rest

/-- The spans of the names of fields and variants in a section. -/
def members (s : Section) : List Span := membersAfter s.name s.following

/-- The tokens of a section, in order. -/
def tokens (s : Section) : List Token := s.opening :: s.name :: s.following

end Section

variable {front rest tokens : List Token} {s : Section} {ss : List Section} {stop t u : Token}

lemma split_cons_cons (t u : Token) (rest : List Token) : split (t :: u :: rest) =
    if beginsAt t u then ([], ⟨t, u, (split rest).1⟩ :: (split rest).2)
    else (t :: (split (u :: rest)).1, (split (u :: rest)).2) := by
  rw [split]

lemma kind_of_beginsAt (h : beginsAt t u) : t.kind = .keyword .type ∧ u.kind = .upperName := by
  simpa [beginsAt] using h

lemma not_beginsAt_of_kind_ne (h : t.kind ≠ .keyword .type) : beginsAt t u = false := by
  simp [beginsAt, h]

/-- No declaration begins with the name of another one. -/
lemma not_beginsAt_name (h : beginsAt t u) (v : Token) : beginsAt u v = false :=
  not_beginsAt_of_kind_ne (by simp [(kind_of_beginsAt h).2])

/-- The first of several tokens is not the last one. -/
lemma exists_of_cons_cons {us : List Token} (htokens : us ++ [stop] = t :: u :: rest) :
    ∃ vs, us = t :: vs ∧ vs ++ [stop] = u :: rest := by
  rcases us with _ | ⟨t', vs⟩
  · simp at htokens
  · obtain ⟨rfl, hvs⟩ := List.cons.inj htokens
    exact ⟨vs, rfl, hvs⟩

/-- Where a declaration begins, the end of the input stands behind its name. -/
lemma exists_of_beginsAt {us : List Token} (hstop : stop.kind ≠ .upperName) (h : beginsAt t u)
    (htokens : us ++ [stop] = t :: u :: rest) : ∃ vs, us = t :: u :: vs ∧ vs ++ [stop] = rest := by
  obtain ⟨vs, rfl, hvs⟩ := exists_of_cons_cons htokens
  rcases vs with _ | ⟨u', vs⟩
  · obtain rfl : stop = u := (List.cons.inj hvs).1
    exact absurd (kind_of_beginsAt h).2 hstop
  · obtain ⟨rfl, hrest⟩ := List.cons.inj hvs
    exact ⟨vs, rfl, hrest⟩

/-- The sections make up the tokens, with what stands in front of them and the end of the input. -/
lemma split_spec (hstop : stop.kind ≠ .upperName) (us : List Token) :
    us = (split (us ++ [stop])).1 ++ (sections (us ++ [stop])).flatMap Section.tokens := by
  rw [sections]
  generalize htokens : us ++ [stop] = tokens
  fun_induction split tokens generalizing us with
  | case1 => simp at htokens
  | case2 t =>
    obtain ⟨rfl, -⟩ := List.append_inj' (show us ++ [stop] = [] ++ [t] from htokens) rfl
    rfl
  | case3 t u rest h following ss hsplit ih =>
    obtain ⟨us, rfl, htail⟩ := exists_of_beginsAt hstop h htokens
    have hrest := ih us htail
    rw [hsplit] at hrest
    rw [List.flatMap_cons, List.nil_append, Section.tokens]
    exact congrArg (fun vs => t :: u :: vs) hrest
  | case4 t u rest h front ss hsplit ih =>
    obtain ⟨us, rfl, htail⟩ := exists_of_cons_cons htokens
    have hrest := ih us htail
    rw [hsplit] at hrest
    exact congrArg (t :: ·) hrest

/-- Tokens that are no word `type` only continue what stands in front of them. -/
lemma split_append (h : ∀ t ∈ front, t.kind ≠ .keyword .type) (hne : tokens ≠ []) :
    split (front ++ tokens) = (front ++ (split tokens).1, (split tokens).2) := by
  induction front with
  | nil => rfl
  | cons t front ih =>
    obtain ⟨ht, hfront⟩ := List.forall_mem_cons.1 h
    obtain ⟨u, rest, hrest⟩ := List.exists_cons_of_ne_nil (show front ++ tokens ≠ [] by simp [hne])
    rw [List.cons_append, hrest, split_cons_cons, if_neg (by simp [not_beginsAt_of_kind_ne ht]),
      ← hrest, ih hfront]
    rfl

lemma split_flatMap
    (hss : ∀ s ∈ ss, beginsAt s.opening s.name ∧ ∀ t ∈ s.following, t.kind ≠ .keyword .type)
    (stop : Token) : split (ss.flatMap Section.tokens ++ [stop]) = ([], ss) := by
  induction ss with
  | nil => rfl
  | cons s ss ih =>
    obtain ⟨⟨hs, hfollowing⟩, hss⟩ := List.forall_mem_cons.1 hss
    rw [List.flatMap_cons, List.append_assoc, Section.tokens, List.cons_append, List.cons_append,
      split_cons_cons, if_pos hs, split_append hfollowing (by simp), ih hss, List.append_nil]

/-- Tokens that are put together from sections fall into just these. -/
lemma sections_flatMap (hfront : ∀ t ∈ front, t.kind ≠ .keyword .type)
    (hss : ∀ s ∈ ss, beginsAt s.opening s.name ∧ ∀ t ∈ s.following, t.kind ≠ .keyword .type)
    (stop : Token) : sections (front ++ ss.flatMap Section.tokens ++ [stop]) = ss := by
  rw [sections, List.append_assoc, split_append hfront (by simp), split_flatMap hss]

end Outline

end Idl
