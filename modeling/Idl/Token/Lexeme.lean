/-
# Lexemes

A lexeme is a token before it is given a place: the trivia in front of it, its kind, its
value, and its spelling.  Cutting a text into lexemes needs no positions, and what may come
next depends only on a small context: a package name stands exactly behind `import` and
behind the colon of `scala:` and `purs:`.

Main statement: the gaps, the spellings and the ending of a text, in order, are the text
(`Cutting.text_cut`).
-/
import Idl.Text.Classes
import Idl.Token
import Idl.Token.Literal
import Idl.Token.Trivia

namespace Idl

/-- What the tokens so far say about the next one. -/
inductive Context where
  /-- Any token but a package name. -/
  | ordinary
  /-- The same, and a colon will call for a package name. -/
  | afterHeaderWord
  /-- A package name. -/
  | package
deriving DecidableEq, Inhabited

/-- The context behind a token of a kind. -/
def Context.next (ctx : Context) (k : TokenKind) : Context :=
  match k with
  | .keyword .imports => .package
  | .keyword .scala | .keyword .purs => .afterHeaderWord
  | .mark .colon => if ctx = .afterHeaderWord then .package else .ordinary
  | _ => .ordinary

/-- A token without its place, and the trivia in front of it. -/
structure Lexeme where
  /-- The trivia in front of the token. -/
  gap : Text
  /-- What the token is. -/
  kind : TokenKind
  /-- The text that the token stands for. -/
  value : Text
  /-- The text by which the source writes the token. -/
  spelling : Text
deriving DecidableEq, Inhabited

/-- The text that a lexeme covers. -/
def Lexeme.text (l : Lexeme) : Text := l.gap ++ l.spelling

/-- Whether a code point can stand in a package name. -/
def CodePoint.isPackagePoint (c : CodePoint) : Bool := c.isAlphanumeric || c = '.'

namespace Lexeme

/-- What reading one token at the front of a text gives. -/
inductive Reading where
  /-- A token and the rest of the text. -/
  | token (kind : TokenKind) (value spelling rest : Text)
  /-- A fault: the text before it, what was read from there on, and the rest. -/
  | fault (fault : Fault) (before read rest : Text)
deriving DecidableEq

/-- The whole text that was looked at. -/
def Reading.text : Reading → Text
  | .token _ _ spelling rest => spelling ++ rest
  | .fault _ before read rest => before ++ read ++ rest

/-- Reads a package name: the longest run of letters, numerals and dots, which has to have a
segment before, between and after its dots. -/
def readPackage (s : Text) : Reading :=
  let name := s.takeWhile CodePoint.isPackagePoint
  let rest := s.dropWhile CodePoint.isPackagePoint
  if name = [] then .fault .noPackageName [] [] s
  else if [] ∈ Text.pieces '.' name then .fault (.emptySegment name) [] name rest
  else .token .packageName name name rest

/-- The kind of a word: a reserved word, or a name by the case of its first letter. -/
def wordKind (first : CodePoint) (word : Text) : TokenKind :=
  match Keyword.ofText? word with
  | some k => .keyword k
  | none => if first.isUppercase then .upperName else .lowerName

/-- Reads a word that starts with the letter `c`: the longest run of letters and numerals. -/
def readWord (c : CodePoint) (r : Text) : Reading :=
  if c.isLowercase || c.isUppercase then
    let word := c :: r.takeWhile CodePoint.isAlphanumeric
    .token (wordKind c word) word word (r.dropWhile CodePoint.isAlphanumeric)
  else .fault (.uncasedName c) [] [] (c :: r)

/-- Reads a string literal, from behind the opening quotation mark `q`. -/
def readString (q : CodePoint) (r : Text) : Reading :=
  match Literal.readBody r with
  | .closed value spelling rest => .token .string value (q :: spelling) rest
  | .unclosed read rest => .fault .openString [] (q :: read) rest
  | .badEscape f before read rest => .fault f (q :: before) read rest

/-- Reads the token at the front of a text that starts with `c`, which is no trivia. -/
def read (ctx : Context) (c : CodePoint) (r : Text) : Reading :=
  if ctx = .package then readPackage (c :: r)
  else if c = '"' then readString c r
  else if c.isLetter then readWord c r
  else match Mark.ofCodePoint? c with
    | some m => .token (.mark m) [c] [c] r
    | none => .fault (.strayCharacter c) [] [] (c :: r)

/-- Reading loses nothing of the text. -/
theorem text_read (ctx : Context) (c : CodePoint) (r : Text) : (read ctx c r).text = c :: r := by
  have body := Literal.text_readBody r
  unfold read
  split
  · unfold readPackage
    simp only
    split
    · rfl
    · split <;> simp [Reading.text, List.takeWhile_append_dropWhile]
  · split
    · unfold readString
      split <;> rename_i h <;> rw [h] at body <;> simp_all [Reading.text, Literal.Body.text]
    · split
      · unfold readWord
        split <;> simp [Reading.text, List.takeWhile_append_dropWhile]
      · split <;> simp [Reading.text]

/-- A token has a spelling. -/
theorem spelling_ne_nil_of_read {ctx : Context} {c : CodePoint} {r : Text} {k : TokenKind}
    {value spelling rest : Text} (h : read ctx c r = .token k value spelling rest) :
    spelling ≠ [] := by
  unfold read at h
  split at h
  · unfold readPackage at h
    simp only at h
    split at h
    · cases h
    · split at h <;> cases h
      assumption
  · split at h
    · unfold readString at h
      split at h <;> cases h
      simp
    · split at h
      · unfold readWord at h
        split at h <;> cases h
        simp
      · split at h <;> cases h
        simp

end Lexeme

/-- How the cutting of a text ends. -/
inductive Ending where
  /-- With trivia up to the end of the text. -/
  | clean (gap : Text)
  /-- At a fault: the text between the last token and the fault, what was read from the fault
  on, and the text that was not looked at. -/
  | fault (fault : Fault) (before read rest : Text)
deriving DecidableEq, Inhabited

/-- The text behind the last lexeme. -/
def Ending.text : Ending → Text
  | .clean gap => gap
  | .fault _ before read rest => before ++ read ++ rest

/-- A text cut into lexemes. -/
structure Cutting where
  /-- The lexemes, in order. -/
  lexemes : List Lexeme
  /-- What comes behind the last lexeme. -/
  ending : Ending
deriving DecidableEq, Inhabited

namespace Cutting

/-- The whole text that was cut. -/
def text (k : Cutting) : Text := k.lexemes.flatMap Lexeme.text ++ k.ending.text

/-- One step of cutting a text. -/
inductive Step where
  /-- A lexeme and the rest of the text. -/
  | lexeme (l : Lexeme) (rest : Text)
  /-- There is no further lexeme. -/
  | done (e : Ending)
deriving DecidableEq

/-- Cuts the first lexeme off a text. -/
def step (ctx : Context) (s : Text) : Step :=
  match Trivia.skip s with
  | .unclosed skipped comment => .done (.fault .openComment skipped comment [])
  | .clear skipped [] => .done (.clean skipped)
  | .clear skipped (c :: r) =>
    match Lexeme.read ctx c r with
    | .token kind value spelling rest => .lexeme ⟨skipped, kind, value, spelling⟩ rest
    | .fault f before read rest => .done (.fault f (skipped ++ before) read rest)

theorem step_eq_lexeme {ctx : Context} {s rest : Text} {l : Lexeme}
    (h : step ctx s = .lexeme l rest) : s = l.text ++ rest ∧ l.spelling ≠ [] := by
  have skip := Trivia.text_skip s
  unfold step at h
  split at h
  · cases h
  · cases h
  · next skipped c r hs =>
    have read := Lexeme.text_read ctx c r
    split at h <;> cases h
    rename_i hr
    refine ⟨?_, Lexeme.spelling_ne_nil_of_read hr⟩
    rw [hr] at read
    rw [hs] at skip
    simp_all [Lexeme.text, Lexeme.Reading.text, Trivia.Skip.text]

theorem step_eq_done {ctx : Context} {s : Text} {e : Ending} (h : step ctx s = .done e) :
    s = e.text := by
  have skip := Trivia.text_skip s
  unfold step at h
  split at h
  · next hs =>
    cases h
    rw [hs] at skip
    simp [← skip, Ending.text, Trivia.Skip.text]
  · next hs =>
    cases h
    rw [hs] at skip
    simp [← skip, Ending.text, Trivia.Skip.text]
  · next skipped c r hs =>
    have read := Lexeme.text_read ctx c r
    split at h <;> cases h
    rename_i hr
    rw [hr] at read
    rw [hs] at skip
    simp_all [Ending.text, Lexeme.Reading.text, Trivia.Skip.text]

theorem length_lt_of_step {ctx : Context} {s rest : Text} {l : Lexeme}
    (h : step ctx s = .lexeme l rest) : rest.length < s.length := by
  obtain ⟨rfl, hl⟩ := step_eq_lexeme h
  have := List.length_pos_iff.2 hl
  simp only [Lexeme.text, List.length_append]
  omega

end Cutting

/-- Cuts a text into lexemes, from a context on. -/
def Text.cutFrom (ctx : Context) (s : Text) : Cutting :=
  match _h : Cutting.step ctx s with
  | .done e => ⟨[], e⟩
  | .lexeme l rest =>
    let k := cutFrom (ctx.next l.kind) rest
    ⟨l :: k.lexemes, k.ending⟩
termination_by s.length
decreasing_by exact Cutting.length_lt_of_step _h

/-- Cuts a text into lexemes. -/
def Text.cut (s : Text) : Cutting := s.cutFrom .ordinary

/-- Cutting loses nothing of the text. -/
theorem Cutting.text_cutFrom (ctx : Context) (s : Text) : (s.cutFrom ctx).text = s := by
  fun_induction Text.cutFrom ctx s with
  | case1 ctx s e h => simp [Cutting.text, step_eq_done h]
  | case2 ctx s l rest h k ih =>
    rw [(step_eq_lexeme h).1]
    simp only [Cutting.text, List.flatMap_cons, List.append_assoc] at ih ⊢
    rw [ih]

/-- Cutting loses nothing of the text. -/
theorem Cutting.text_cut (s : Text) : s.cut.text = s := text_cutFrom .ordinary s

/-! ### The tokens of a text

The token list of a text: its lexemes, each with the span of its spelling, then the fault at
which reading stopped, if there is one, and last the end of the input. -/

/-- The tokens that close a list whose last lexeme ends in front of a position. -/
def Ending.tokens (p : Position) : Ending → List Token
  | .clean gap =>
    let q := p.after gap
    [⟨.endOfInput, [], Span.upTo q q⟩]
  | .fault f before read _ =>
    let q := p.after before
    let stop := q.after read
    [⟨.fault, f.message, Span.point q⟩, ⟨.endOfInput, [], Span.upTo stop stop⟩]

/-- The tokens of lexemes that begin at a position, and of the ending behind them. -/
def Ending.tokensAfter (e : Ending) (p : Position) : List Lexeme → List Token
  | [] => e.tokens p
  | l :: ls =>
    let first := p.after l.gap
    let stop := first.after l.spelling
    ⟨l.kind, l.value, Span.upTo first stop⟩ :: e.tokensAfter stop ls

/-- The tokens of a text that has been cut. -/
def Cutting.tokens (k : Cutting) : List Token := k.ending.tokensAfter Position.start k.lexemes

/-- The tokens of a text. -/
def Text.tokens (s : Text) : List Token := s.cut.tokens

end Idl
