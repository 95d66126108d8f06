/-
# Highlighting

The rules by which module files are highlighted, and the machine that applies them.  The
highlighter knows less than the reader of tokens: it works on any text, and its names are made
of ASCII letters and digits.  What no rule recognises is marked as stray, and a line end that
no rule recognises brings the machine back to its first state.
-/
import Idl.Highlight.Rule
import Idl.Text.Lines

namespace Idl

namespace Highlight

/-! ### Classes of code points -/

/-- `a` to `z`. -/
def isSmall (c : CodePoint) : Bool := c.isBetween 'a' 'z'

/-- `A` to `Z`. -/
def isCapital (c : CodePoint) : Bool := c.isBetween 'A' 'Z'

/-- What names continue with: ASCII letters and digits. -/
def isNamePoint (c : CodePoint) : Bool := isSmall c || isCapital c || c.isDigit

/-- What package names consist of: the same and dots. -/
def isPackagePoint (c : CodePoint) : Bool := isNamePoint c || c = '.'

/-- Everything but one of several characters. -/
def noneOf (cs : List Char) (c : CodePoint) : Bool := cs.all fun d => c ≠ d

/-- One of several characters. -/
def anyOf (cs : List Char) (c : CodePoint) : Bool := cs.any fun d => c = d

/-! ### Building rules -/

/-- Blanks, of which there may be none. -/
def blanks : Part := ⟨.text, [.many CodePoint.isBlank]⟩

/-- At least one blank. -/
def someBlanks : Part := ⟨.text, [.some CodePoint.isBlank]⟩

/-- A name that starts with a small letter. -/
def smallName (style : Style) : Part := ⟨style, [.one isSmall, .many isNamePoint]⟩

/-- A name that starts with a capital letter. -/
def capitalName (style : Style) : Part := ⟨style, [.one isCapital, .many isNamePoint]⟩

/-- A package name. -/
def package : Part := ⟨.packageName, [.some isPackagePoint]⟩

/-- A rule without conditions on the text around it. -/
def plain (parts : List Part) (change : Change) : Rule := ⟨false, parts, fun _ => true, change⟩

/-- A rule that does not begin inside a word. -/
def fromWordStart (parts : List Part) : Rule := ⟨true, parts, fun _ => true, .stay⟩

/-- One of several words that stand alone. -/
def wholeWord (style : Style) (words : List Text) : Rule :=
  ⟨true, [⟨style, [.word words]⟩], fun s => !startsWord s, .stay⟩

/-- One character out of several. -/
def sign (style : Style) (cs : List Char) (change : Change) : Rule :=
  plain [⟨style, [.one (anyOf cs)]⟩] change

/-- Whether a colon follows, blanks aside. -/
def colonFollows (s : Text) : Bool := (s.dropWhile CodePoint.isBlank).head? = some ':'

/-! ### The rules -/

/-- The rules outside comments and annotations. -/
def rootRules : List Rule :=
  [plain [someBlanks] .stay,
   plain [⟨.lineComment, [.word ["//"], .many (noneOf ['\n'])]⟩] .stay,
   plain [⟨.blockComment, [.word ["/*"]]⟩] (.push .comment),
   fromWordStart
     [⟨.namespaceKeyword, [.word ["scala", "purs"]]⟩, blanks, ⟨.punctuation, [.word [":"]]⟩,
      blanks, package],
   fromWordStart [⟨.namespaceKeyword, [.word ["import"]]⟩, someBlanks, package],
   fromWordStart [⟨.declarationKeyword, [.word ["type"]]⟩, someBlanks, capitalName .className],
   wholeWord .declarationKeyword ["type", "wrap"],
   wholeWord .typeKeyword ["Boolean", "Int", "Decimal", "String", "Array", "Maybe"],
   plain [⟨.punctuation, [.word ["<"]]⟩, blanks, smallName .annotationName]
     (.push .parameters),
   sign .punctuation ['<'] .stay,
   ⟨false, [smallName .attributeName], colonFollows, .stay⟩,
   plain [capitalName .className] .stay,
   plain [smallName .plainName] .stay,
   sign .operator ['|'] .stay,
   sign .punctuation ['\x7b', '\x7d', '[', ']', ':', ',', '.', '>'] .stay]

/-- The rules inside a block comment, which nests. -/
def commentRules : List Rule :=
  [plain [⟨.blockComment, [.some (noneOf ['*', '/'])]⟩] .stay,
   plain [⟨.blockComment, [.word ["/*"]]⟩] (.push .comment),
   plain [⟨.blockComment, [.word ["*/"]]⟩] .pop,
   sign .blockComment ['*', '/'] .stay]

/-- The rules inside an annotation, from behind its name on. -/
def parameterRules : List Rule :=
  [plain [someBlanks] .stay,
   sign .punctuation ['>'] .pop,
   plain [smallName .attributeName] .stay,
   sign .operator ['='] .stay,
   sign .string ['"'] (.push .string)]

/-- The rules inside a string literal. -/
def stringRules : List Rule :=
  let hex : Pattern := .one CodePoint.isHexDigit
  [plain [⟨.escape, [.word ["\\x"], hex, hex]⟩] .stay,
   plain [⟨.escape, [.word ["\\u"], hex, hex, hex, hex]⟩] .stay,
   plain [⟨.escape, [.word ["\\"],
     .one (anyOf ['n', 'r', 't', '0', 'a', 'b', 'f', 'v', '\\', '"', '\''])]⟩] .stay,
   plain [⟨.string, [.some (noneOf ['"', '\\', '\n'])]⟩] .stay,
   sign .string ['"'] .pop]

/-- The rules of a state. -/
def State.rules : State → List Rule
  | .root => rootRules
  | .comment => commentRules
  | .parameters => parameterRules
  | .string => stringRules

/-! ### The machine -/

/-- The states entered since the root, the innermost first. -/
abbrev Stack := List State

/-- The current state. -/
def Stack.top (st : Stack) : State := st.head?.getD .root

/-- The stack after a change. -/
def Stack.apply (st : Stack) : Change → Stack
  | .stay => st
  | .push s => s :: st
  | .pop => st.tail

/-- Highlights a text, from a stack and the code point in front of the text on. -/
def run (st : Stack) (before : Option CodePoint) (s : Text) : List Piece :=
  match s with
  | [] => []
  | c :: r =>
    match _h : recognise st.top.rules before (c :: r) with
    | some (pieces, rest, change) =>
      pieces ++ run (st.apply change) ((textOf pieces).getLast?) rest
    | none =>
      if c = '\n' then ⟨.lineEnd, [c]⟩ :: run [] (some c) r
      else ⟨.stray, [c]⟩ :: run st (some c) r
termination_by s.length
decreasing_by
  · exact length_lt_of_recognise _h
  · simp
  · simp

/-- The text without the `\n` at its ends. -/
def trimBreaks (s : Text) : Text :=
  ((s.dropWhile (· = CodePoint.scalar '\n')).reverse.dropWhile (· = CodePoint.scalar '\n')).reverse

/-- The text without one byte order mark in front. -/
def withoutMark : Text → Text
  | [] => []
  | c :: r => if c.toNat = 0xFEFF then r else c :: r

/-- The text that is highlighted: without a byte order mark, with plain line breaks, and with
exactly one break at its end and none at its beginning. -/
def prepared (s : Text) : Text := trimBreaks (withoutMark s).withPlainBreaks ++ "\n"

end Highlight

/-- The highlighted pieces of a text. -/
def Text.highlight (s : Text) : List Highlight.Piece :=
  Highlight.run [] none (Highlight.prepared s)

end Idl
