/-
# Highlighting rules

A highlighter is a machine with a stack of states.  Each state has an ordered list of rules; a
rule recognises the front of the text that is left, gives a style to each part of it, and may
push a state or pop one.  The first rule that recognises something is applied.

Main statement: the pieces of a recognised front, in order, are that front
(`Highlight.text_recognise`).
-/
import Idl.Text.Classes

namespace Idl

namespace Highlight

/-- The styles of highlighted text. -/
inductive Style where
  | text | lineEnd | stray
  | lineComment | blockComment
  | namespaceKeyword | declarationKeyword | typeKeyword
  | packageName | className | annotationName | attributeName | plainName
  | operator | punctuation
  | string | escape
deriving DecidableEq, Inhabited

/-- The states of the machine. -/
inductive State where
  | root | comment | parameters | string
deriving DecidableEq, Inhabited

/-- A piece of highlighted text. -/
structure Piece where
  /-- Its style. -/
  style : Style
  /-- Its text. -/
  text : Text
deriving DecidableEq, Inhabited

/-- The text of several pieces, in order. -/
def textOf (pieces : List Piece) : Text := pieces.flatMap Piece.text

/-- What a part of a rule looks for. -/
inductive Pattern where
  /-- One of several words. -/
  | word (words : List Text)
  /-- One code point of a class. -/
  | one (holds : CodePoint → Bool)
  /-- All code points of a class up to the first other one; there may be none. -/
  | many (holds : CodePoint → Bool)
  /-- The same, and there is at least one. -/
  | some (holds : CodePoint → Bool)

/-- Cuts the text that a pattern looks for off the front. -/
def Pattern.cut : Pattern → Text → Option (Text × Text)
  | .word words, s =>
    (words.find? (·.isPrefixOf s)).map fun w => (s.take w.length, s.drop w.length)
  | .one holds, c :: r => if holds c then Option.some ([c], r) else none
  | .one _, [] => none
  | .many holds, s => Option.some (s.takeWhile holds, s.dropWhile holds)
  | .some holds, s =>
    if s.takeWhile holds = [] then none
    else Option.some (s.takeWhile holds, s.dropWhile holds)

/-- Cuts what several patterns look for, one behind the other, off the front. -/
def cutAll : List Pattern → Text → Option (Text × Text)
  | [], s => some ([], s)
  | p :: ps, s => do
    let (front, rest) ← p.cut s
    let (more, rest) ← cutAll ps rest
    return (front ++ more, rest)

/-- A part of a rule: patterns that make up a piece of one style. -/
structure Part where
  /-- The style of the piece. -/
  style : Style
  /-- What the piece consists of. -/
  patterns : List Pattern

/-- What a rule does to the stack of states. -/
inductive Change where
  /-- Nothing. -/
  | stay
  /-- A state is entered. -/
  | push (s : State)
  /-- The current state is left. -/
  | pop
deriving DecidableEq, Inhabited

/-- A rule of a state. -/
structure Rule where
  /-- Whether the rule applies only where no word goes on from the text in front. -/
  atWordStart : Bool
  /-- The parts, one behind the other. -/
  parts : List Part
  /-- What has to hold of the text behind the parts. -/
  follow : Text → Bool
  /-- What happens to the stack. -/
  change : Change

/-- Cuts the parts of a rule off the front, as pieces; an empty part gives no piece. -/
def cutParts : List Part → Text → Option (List Piece × Text)
  | [], s => some ([], s)
  | p :: ps, s => do
    let (front, rest) ← cutAll p.patterns s
    let (pieces, rest) ← cutParts ps rest
    return (if front = [] then pieces else ⟨p.style, front⟩ :: pieces, rest)

/-- Whether a code point belongs to a word. -/
def isWordPoint (c : CodePoint) : Bool := c.isAlphanumeric || c = '_'

/-- Whether a text starts with a code point of a word. -/
def startsWord (s : Text) : Bool := (s.head?.map isWordPoint).getD false

/-- The pieces of the front that a rule recognises, and the rest.  The code point in front of
the text decides whether a word goes on.  No rule recognises the empty text. -/
def Rule.recognise (r : Rule) (before : Option CodePoint) (s : Text) :
    Option (List Piece × Text) :=
  if r.atWordStart && (before.map isWordPoint).getD false then none
  else match cutParts r.parts s with
    | none => none
    | some (pieces, rest) =>
      if pieces ≠ [] ∧ r.follow rest then some (pieces, rest) else none

/-- The first of several rules that recognises something, with what it does to the stack. -/
def recognise (rules : List Rule) (before : Option CodePoint) (s : Text) :
    Option (List Piece × Text × Change) :=
  rules.findSome? fun r => (r.recognise before s).map fun (pieces, rest) => (pieces, rest, r.change)

theorem Pattern.cut_eq_some {p : Pattern} {s front rest : Text}
    (h : p.cut s = Option.some (front, rest)) : s = front ++ rest := by
  cases p with
  | word words =>
    simp only [cut, Option.map_eq_some_iff, Prod.mk.injEq] at h
    obtain ⟨w, _, rfl, rfl⟩ := h
    simp
  | one holds =>
    cases s with
    | nil => simp [cut] at h
    | cons c r =>
      simp only [cut, Option.ite_none_right_eq_some, Option.some.injEq, Prod.mk.injEq] at h
      obtain ⟨_, rfl, rfl⟩ := h
      rfl
  | many holds =>
    simp only [cut, Option.some.injEq, Prod.mk.injEq] at h
    obtain ⟨rfl, rfl⟩ := h
    simp
  | some holds =>
    simp only [cut, Option.ite_none_left_eq_some, Option.some.injEq, Prod.mk.injEq] at h
    obtain ⟨_, rfl, rfl⟩ := h
    simp

theorem cutAll_eq_some {ps : List Pattern} {s front rest : Text}
    (h : cutAll ps s = some (front, rest)) : s = front ++ rest := by
  induction ps generalizing s front rest with
  | nil => simp_all [cutAll]
  | cons p ps ih =>
    simp only [cutAll, Option.bind_eq_bind, Option.pure_def, Option.bind_eq_some_iff,
      Option.some.injEq, Prod.mk.injEq, Prod.exists] at h
    obtain ⟨a, t, hp, b, u, hps, rfl, rfl⟩ := h
    rw [Pattern.cut_eq_some hp, ih hps]
    simp

theorem cutParts_eq_some {ps : List Part} {s rest : Text} {pieces : List Piece}
    (h : cutParts ps s = some (pieces, rest)) :
    s = textOf pieces ++ rest ∧ ∀ p ∈ pieces, p.text ≠ [] := by
  induction ps generalizing s pieces rest with
  | nil => simp_all [cutParts, textOf]
  | cons p ps ih =>
    simp only [cutParts, Option.bind_eq_bind, Option.pure_def, Option.bind_eq_some_iff,
      Option.some.injEq, Prod.mk.injEq, Prod.exists] at h
    obtain ⟨a, t, hp, more, u, hps, rfl, rfl⟩ := h
    obtain ⟨ht, hne⟩ := ih hps
    have hs := cutAll_eq_some hp
    split
    · next ha => simp_all
    · next ha =>
      refine ⟨by rw [hs, ht]; simp [textOf], ?_⟩
      simpa [ha] using hne

/-- The pieces of a recognised front are that front, and none of them is empty. -/
theorem text_recognise {rules : List Rule} {before : Option CodePoint} {s rest : Text}
    {pieces : List Piece} {change : Change}
    (h : recognise rules before s = some (pieces, rest, change)) :
    s = textOf pieces ++ rest ∧ pieces ≠ [] ∧ ∀ p ∈ pieces, p.text ≠ [] := by
  obtain ⟨r, _, hr⟩ := List.exists_of_findSome?_eq_some h
  clear h
  simp only [Option.map_eq_some_iff, Prod.mk.injEq, Prod.exists] at hr
  obtain ⟨ps, t, hr, rfl, rfl, _⟩ := hr
  unfold Rule.recognise at hr
  split at hr
  · cases hr
  · split at hr
    · cases hr
    · next hc =>
      split at hr
      · next hne =>
        cases hr
        exact ⟨(cutParts_eq_some hc).1, hne.1, (cutParts_eq_some hc).2⟩
      · cases hr

theorem length_lt_of_recognise {rules : List Rule} {before : Option CodePoint} {s rest : Text}
    {pieces : List Piece} {change : Change}
    (h : recognise rules before s = some (pieces, rest, change)) : rest.length < s.length := by
  obtain ⟨rfl, hne, hp⟩ := text_recognise h
  cases pieces with
  | nil => exact absurd rfl hne
  | cons p ps =>
    have := List.length_pos_iff.2 (hp p (by simp))
    simp only [textOf, List.flatMap_cons, List.length_append]
    omega

end Highlight

end Idl
