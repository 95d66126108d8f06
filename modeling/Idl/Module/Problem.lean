/-
# Problems of the grammar

Why a token list is no module.  A problem is kept as its cause; the kind of failure and the
wording of the message are derived from it.
-/
import Idl.Diagnostic
import Idl.Token

namespace Idl

/-- What a name in the grammar is for. -/
inductive NameRole where
  | declaration | variant | field | annotationName | parameter | segment
deriving DecidableEq, Inhabited

/-- How messages call a name of a role. -/
def NameRole.description : NameRole → Text
  | .declaration => "type name"
  | .variant => "variant name"
  | .field => "field name"
  | .annotationName => "annotation name"
  | .parameter => "parameter name"
  | .segment => "uppercase identifier"

/-- What the grammar calls for at a place. -/
inductive Expected where
  /-- A token of a kind. -/
  | token (kind : TokenKind)
  /-- A name. -/
  | name (role : NameRole)
  /-- A type expression. -/
  | type
  /-- The body of a declaration. -/
  | body
  /-- Another field, or the end of the record. -/
  | fieldOrEnd
  /-- Another variant, or the end of the sum. -/
  | variantOrEnd
  /-- Another parameter, or the end of the annotation. -/
  | parameterOrEnd
deriving DecidableEq, Inhabited

/-- How messages call what the grammar calls for. -/
def Expected.description : Expected → Text
  | .token k => k.description
  | .name role => role.description
  | .type => "type"
  | .body => "type, '\x7b', '[' or 'wrap'"
  | .fieldOrEnd => "',' or '\x7d'"
  | .variantOrEnd => "'|' or ']'"
  | .parameterOrEnd => "parameter name or '>'"

/-- Why a token list is no module. -/
inductive Problem where
  /-- The text itself is faulty, for the reason that a message gives. -/
  | fault (message : Text)
  /-- A name stands where a reserved word has to. -/
  | missingWord (word : Keyword) (found : Text)
  /-- A reserved word stands where a name has to. -/
  | reservedWord (word : Text) (role : NameRole)
  /-- Something else stands where the grammar calls for a token. -/
  | unexpected (expected : Expected) (found : Token)
  /-- The arguments of a type are nested past the limit. -/
  | tooDeep
  /-- The module is complete, and there is more behind it. -/
  | trailing (found : Token)
deriving DecidableEq, Inhabited

namespace Problem

/-- The kind of failure that a problem is. -/
def kind : Problem → FailureKind
  | .fault _ | .missingWord _ _ | .reservedWord _ _ => .lexical
  | .unexpected _ _ | .tooDeep => .unexpectedToken
  | .trailing _ => .incomplete

/-- The message for a problem. -/
def message : Problem → Text
  | .fault m => m
  | .missingWord w found =>
    "expected reserved word " ++ (TokenKind.keyword w).description ++ ", got identifier " ++
      found.quoted
  | .reservedWord w role =>
    "reserved word " ++ w.quoted ++ " cannot be used as " ++ role.description
  | .unexpected e found => "expected " ++ e.description ++ ", got " ++ found.description
  | .tooDeep => "type expression nested too deeply"
  | .trailing found =>
    "unexpected " ++ found.description ++ "; expected 'type' or end of input"

end Problem

/-- A problem and the span of the token it was found at. -/
structure SyntaxError where
  /-- What is wrong. -/
  problem : Problem
  /-- Where it is wrong. -/
  span : Span
deriving DecidableEq, Inhabited

/-- What a reader is told about a syntax error. -/
def SyntaxError.failure (e : SyntaxError) : Failure :=
  ⟨e.problem.kind, e.problem.message, e.span⟩

end Idl
