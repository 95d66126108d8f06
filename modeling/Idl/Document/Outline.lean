/-
# Outlines

Where declarations and their members stand can be told from the tokens alone, whether or not
they form a module.  A declaration is taken to begin wherever the word `type` stands directly
in front of an upper-case name, and to reach up to the next such place or to the end of the
input.  A name that is declared again keeps the places of its first declaration.
-/
import Idl.Token

namespace Idl

namespace Outline

/-- Whether a declaration begins at two tokens that follow each other. -/
def beginsAt (t u : Token) : Bool := t.kind = .keyword .type && u.kind = .upperName

/-- The entries of a list with the first one of each key, in order. -/
def firstOfEach {α : Type} : List (Text × α) → List (Text × α)
  | [] => []
  | e :: rest => e :: (firstOfEach rest).filter (·.1 ≠ e.1)

/-! ### Names -/

/-- The declared names and the spans of the tokens that give them. -/
def nameSpans (tokens : List Token) : List (Text × Span) :=
  firstOfEach <| (tokens.zip tokens.tail).filterMap fun (t, u) =>
    if beginsAt t u then some (u.value, u.span) else none

/-! ### Declarations -/

/-- Whether a declaration begins at a place in a list. -/
def begins (tokens : List Token) (i : Nat) : Bool :=
  match tokens[i]?, tokens[i + 1]? with
  | some t, some u => beginsAt t u
  | _, _ => false

/-- The places where declarations begin. -/
def starts (tokens : List Token) : List Nat :=
  (List.range (tokens.length - 1)).filter (begins tokens)

/-- The name and the span of the declaration that begins at one place and ends in front of
another. -/
def extentAt? (tokens : List Token) (start next : Nat) : Option (Text × Span) := do
  let first ← tokens[start]?
  let name ← tokens[start + 1]?
  let last ← tokens[next - 1]?
  return (name.value, ⟨first.span.first, last.span.last⟩)

/-- The names and the spans of the declarations that begin at some places.  Each ends in front of
the next one, and the last one in front of the last token, which is the end of the input. -/
def extentsAt (tokens : List Token) : List Nat → List (Text × Span)
  | [] => []
  | start :: later =>
    (extentAt? tokens start (later.headD (tokens.length - 1))).toList ++ extentsAt tokens later

/-- The declared names and the spans of their declarations. -/
def extents (tokens : List Token) : List (Text × Span) :=
  firstOfEach (extentsAt tokens (starts tokens))

/-! ### Members

The members are collected on a single walk, in a list for each declaration.  A declaration that
repeats a name has a list as well, but nobody looks it up. -/

/-- Where the next member is noted. -/
inductive Noting where
  /-- Nowhere, as long as no declaration has begun. -/
  | off
  /-- In the list under a name. -/
  | under (name : Text)
  /-- In a list that is not kept. -/
  | aside
deriving DecidableEq

/-- What a walk along tokens has come to. -/
structure Walk where
  /-- The declared names and the spans of their members so far. -/
  members : List (Text × List Span)
  /-- Where the next member is noted. -/
  noting : Noting

namespace Walk

/-- A declaration begins. -/
def opened (w : Walk) (name : Text) : Walk :=
  if w.members.any (·.1 = name) then { w with noting := .aside }
  else ⟨w.members ++ [(name, [])], .under name⟩

/-- A member is noted. -/
def note (w : Walk) (p : Span) : Walk :=
  match w.noting with
  | .off | .aside => w
  | .under name =>
    { w with members := w.members.map fun e => if e.1 = name then (e.1, e.2 ++ [p]) else e }

end Walk

/-- Whether a token between others is the name of a member: a lower-case name in front of a colon
names a field, an upper-case name behind `[` or `|` a variant. -/
def isMember (before t : Token) (next? : Option Token) : Bool :=
  (t.kind = .lowerName && next?.map (·.kind) = some (.mark .colon)) ||
    (t.kind = .upperName && (before.kind = .mark .openBracket || before.kind = .mark .pipe))

namespace Walk

/-- Passes a token between others. -/
def step (w : Walk) (before? : Option Token) (t : Token) (next? : Option Token) : Walk :=
  match before? with
  | none => w
  | some before =>
    if beginsAt before t then w.opened t.value
    else if w.noting = .off then w
    else if isMember before t next? then w.note t.span
    else w

/-- Passes tokens behind another one. -/
def along (w : Walk) (before? : Option Token) : List Token → Walk
  | [] => w
  | t :: rest => (w.step before? t rest.head?).along (some t) rest

end Walk

/-- The declared names and the spans of the names of their fields or variants. -/
def memberSpans (tokens : List Token) : List (Text × List Span) :=
  (Walk.along ⟨[], .off⟩ none tokens).members

end Outline

/-- What the tokens tell about declarations: for each declared name where it stands, where the
whole declaration stands, and where its members stand. -/
structure Outline where
  /-- The names. -/
  names : List (Text × Span)
  /-- The declarations. -/
  wholes : List (Text × Span)
  /-- The names of fields or variants. -/
  parts : List (Text × List Span)

/-- The outline of a token list. -/
def Outline.ofTokens (tokens : List Token) : Outline :=
  ⟨Outline.nameSpans tokens, Outline.extents tokens, Outline.memberSpans tokens⟩

end Idl
