/-
# Failures and diagnostics

A failure is what a reader is told about a file that is no module: what kind of failure it
is, a message, and the place.  There is one per file, the first.

A diagnostic is a message with a severity and a code, places in files that it is about, and
notes.
-/
import Idl.Position

namespace Idl

/-! ### Failures -/

/-- The kinds of failures. -/
inductive FailureKind where
  /-- A text that is no token, or a token of the wrong class. -/
  | lexical
  /-- A token other than the grammar calls for. -/
  | unexpectedToken
  /-- Input behind a complete module. -/
  | incomplete
  /-- A failure of no closer kind. -/
  | general
deriving DecidableEq, Inhabited

/-- The code that diagnostics show. -/
def FailureKind.code : FailureKind → Text
  | .lexical => "E100"
  | .unexpectedToken | .general => "E200"
  | .incomplete => "E201"

/-- A failure to read a module. -/
structure Failure where
  /-- The kind of failure. -/
  kind : FailureKind
  /-- What is wrong. -/
  message : Text
  /-- Where it is wrong. -/
  span : Span
deriving DecidableEq, Inhabited

namespace Failure

/-- The place and the message. -/
def summary (f : Failure) : Text :=
  "line " ++ Text.ofInt f.span.first.line ++ ", column " ++ Text.ofInt f.span.first.column ++
    ": " ++ f.message

/-- One line that names the file as well. -/
def inFile (file : Text) (f : Failure) : Text := "Could not parse " ++ file ++ ": " ++ f.summary

end Failure

/-! ### Diagnostics -/

/-- How serious a diagnostic is. -/
inductive Severity where
  | error | warning | note
deriving DecidableEq, Inhabited

/-- The word for a severity. -/
def Severity.word : Severity → Text
  | .error => "error"
  | .warning => "warning"
  | .note => "note"

/-- A place that a diagnostic is about. -/
structure Label where
  /-- The name of the file. -/
  file : Text
  /-- The place in the file. -/
  span : Span
  /-- What is said about the place; may be empty. -/
  message : Text
deriving DecidableEq, Inhabited

/-- A diagnostic. -/
structure Diagnostic where
  /-- How serious it is. -/
  severity : Severity
  /-- The code of the kind of diagnostic. -/
  code : Text
  /-- The message. -/
  message : Text
  /-- The places that it is about. -/
  labels : List Label
  /-- Further remarks. -/
  notes : List Text
deriving DecidableEq, Inhabited

/-- One line that counts diagnostics and repeats their messages. -/
def Diagnostic.summary (ds : List Diagnostic) : Text :=
  Text.ofNat ds.length ++ " error(s): " ++ Text.join "; " (ds.map (·.message))

/-- The diagnostic for a failure to read a file. -/
def Failure.diagnostic (file : Text) (notes : List Text) (f : Failure) : Diagnostic where
  severity := .error
  code := f.kind.code
  message := f.message
  labels := [⟨file, f.span, []⟩]
  notes := notes

end Idl
