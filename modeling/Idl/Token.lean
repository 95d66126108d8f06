/-
# Tokens

The tokens of module files: reserved words, punctuation, names, package names and string
literals, and the two that end a token list — a fault, and the end of the input.  Readers go
through them in streams (`TokenStream`).
-/
import Idl.Position
import Idl.Text.Quoted

namespace Idl

/-- The reserved words. -/
inductive Keyword where
  | scala | purs | imports | type | wrap
  | boolean | int | decimal | string
  | array | maybe
deriving DecidableEq, Inhabited

namespace Keyword

/-- How a reserved word is spelled. -/
def spelling : Keyword → Text
  | .scala => "scala"
  | .purs => "purs"
  | .imports => "import"
  | .type => "type"
  | .wrap => "wrap"
  | .boolean => "Boolean"
  | .int => "Int"
  | .decimal => "Decimal"
  | .string => "String"
  | .array => "Array"
  | .maybe => "Maybe"

/-- All reserved words. -/
def all : List Keyword :=
  [.scala, .purs, .imports, .type, .wrap, .boolean, .int, .decimal, .string, .array, .maybe]

/-- The reserved word with a given spelling, if there is one. -/
def ofText? (t : Text) : Option Keyword := all.find? (·.spelling = t)

end Keyword

/-- The punctuation marks. -/
inductive Mark where
  | colon | comma | dot | pipe | assign
  | openAngle | closeAngle | openBrace | closeBrace | openBracket | closeBracket
deriving DecidableEq, Inhabited

namespace Mark

/-- The character of a punctuation mark. -/
def symbol : Mark → Char
  | .colon => ':'
  | .comma => ','
  | .dot => '.'
  | .pipe => '|'
  | .assign => '='
  | .openAngle => '<'
  | .closeAngle => '>'
  | .openBrace => '\x7b'
  | .closeBrace => '\x7d'
  | .openBracket => '['
  | .closeBracket => ']'

/-- All punctuation marks. -/
def all : List Mark :=
  [.colon, .comma, .dot, .pipe, .assign, .openAngle, .closeAngle, .openBrace, .closeBrace,
   .openBracket, .closeBracket]

/-- The punctuation mark that a code point is, if any. -/
def ofCodePoint? (c : CodePoint) : Option Mark := all.find? (fun m => c = m.symbol)

end Mark

/-- The kinds of tokens. -/
inductive TokenKind where
  /-- A reserved word. -/
  | keyword (word : Keyword)
  /-- A punctuation mark. -/
  | mark (mark : Mark)
  /-- A string literal. -/
  | string
  /-- A name that starts with a lower-case letter. -/
  | lowerName
  /-- A name that starts with an upper-case letter. -/
  | upperName
  /-- Dotted segments, where the header or an import expects a package. -/
  | packageName
  /-- The fault at which reading stopped. -/
  | fault
  /-- The end of the input. -/
  | endOfInput
deriving DecidableEq, Inhabited

namespace TokenKind

/-- Whether a kind is a reserved word. -/
def isKeyword : TokenKind → Bool
  | .keyword _ => true
  | _ => false

/-- Whether a kind is one of the two kinds of names. -/
def isName : TokenKind → Bool
  | .lowerName | .upperName => true
  | _ => false

/-- How messages call a kind. -/
def description : TokenKind → Text
  | .keyword w => "'" ++ w.spelling ++ "'"
  | .mark m => ['\'', m.symbol, '\'']
  | .string => "string literal"
  | .lowerName => "lowercase identifier"
  | .upperName => "uppercase identifier"
  | .packageName => "package name"
  | .fault => "error"
  | .endOfInput => "end of input"

end TokenKind

/-- A token: its kind, its value and its place.  The value of a string literal is the text it
stands for, that of a fault is its message; other tokens carry their own text. -/
structure Token where
  /-- What the token is. -/
  kind : TokenKind
  /-- The text that the token stands for. -/
  value : Text
  /-- Where the token stands. -/
  span : Span
deriving DecidableEq, Inhabited

/-- How messages show a token: names, package names and literals with their value. -/
def Token.description (t : Token) : Text :=
  match t.kind with
  | .lowerName | .upperName | .packageName | .string =>
    t.kind.description ++ " " ++ t.value.quoted
  | k => k.description

/-! ### Faults of the spelling

What can be wrong with a text before its tokens are looked at together.  Reading stops at the
first fault, which then stands in the token list as a token of its own. -/

/-- A place where a text cannot be cut into tokens. -/
inductive Fault where
  /-- A code point that starts no token. -/
  | strayCharacter (c : CodePoint)
  /-- A block comment without its end. -/
  | openComment
  /-- Something else where a package name has to stand. -/
  | noPackageName
  /-- A package name with an empty segment. -/
  | emptySegment (name : Text)
  /-- A string literal that its line does not close. -/
  | openString
  /-- A backslash at the end of the input. -/
  | cutEscape
  /-- An escape by number with too few hexadecimal digits after its letter. -/
  | fewDigits (width : Nat) (letter : CodePoint)
  /-- A backslash before a code point that forms no escape with it. -/
  | unknownEscape (c : CodePoint)
  /-- A name that starts with a letter without case. -/
  | uncasedName (first : CodePoint)
deriving DecidableEq, Inhabited

/-- The message for a fault. -/
def Fault.message : Fault → Text
  | .strayCharacter c => "unexpected character " ++ Text.quoted [c]
  | .openComment => "unterminated block comment"
  | .noPackageName => "expected package name"
  | .emptySegment name => "malformed package name " ++ name.quoted
  | .openString => "unterminated string literal"
  | .cutEscape => "unexpected end of escape sequence"
  | .fewDigits width letter =>
    "expected " ++ Text.ofNat width ++ " hex digits after \\" ++ [letter]
  | .unknownEscape c => "unknown escape sequence: \\" ++ [c]
  | .uncasedName first =>
    "identifier must start with a cased letter, got " ++ Text.quoted [first]

/-! ### Token streams

A stream is a token list seen from its current token on.  The last token is never consumed: a
stream that has come to it stays there. -/

/-- A token list that is not empty, from the current token on. -/
structure TokenStream where
  /-- The current token. -/
  current : Token
  /-- The tokens behind it. -/
  ahead : List Token
deriving DecidableEq, Inhabited

namespace TokenStream

/-- The stream of a token list. -/
def ofList : (tokens : List Token) → tokens ≠ [] → TokenStream
  | t :: ts, _ => ⟨t, ts⟩

/-- The tokens of a stream. -/
def toList (s : TokenStream) : List Token := s.current :: s.ahead

/-- The stream behind the current token, or the stream itself at the last one. -/
def next (s : TokenStream) : TokenStream :=
  match s.ahead with
  | [] => s
  | t :: ts => ⟨t, ts⟩

end TokenStream

end Idl
