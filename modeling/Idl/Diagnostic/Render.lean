/-
# Rendered diagnostics

A diagnostic is shown as a heading, an excerpt of the source with carets under the place for
each label, and its notes.  Colours are escape sequences around the parts.

The lines of a file are looked up by its name: first among the sources that are at hand, then
on disk.  What was read once is kept, and a file that cannot be read has no lines.
-/
import Idl.Diagnostic
import Idl.Machine
import Idl.Text.Lines

namespace Idl

/-- The colours of a rendering, as the parameters of their escape sequences. -/
inductive Colour where
  | boldRed | boldYellow | boldCyan | boldBlue | bold
deriving DecidableEq, Inhabited

namespace Colour

/-- The sequence that ends all colouring. -/
def reset : Text := "\x1b[0m"

/-- The sequence that begins a colour. -/
def start : Colour → Text
  | .boldRed => "\x1b[1;31m"
  | .boldYellow => "\x1b[1;33m"
  | .boldCyan => "\x1b[1;36m"
  | .boldBlue => "\x1b[1;34m"
  | .bold => "\x1b[1m"

/-- A text in a colour, if colours are wanted. -/
def paint (wanted : Bool) (c : Colour) (t : Text) : Text :=
  if wanted then c.start ++ t ++ reset else t

end Colour

/-- The colour of a severity. -/
def Severity.colour : Severity → Colour
  | .error => .boldRed
  | .warning => .boldYellow
  | .note => .boldCyan

/-- The lines of files by name, the first entry of a name being the valid one. -/
abbrev Sources := List (Text × List Text)

namespace Sources

/-- The sources that are at hand from the start. -/
def ofTexts (texts : List (Text × Text)) : Sources := texts.map fun (name, t) => (name, t.lines)

/-- The lines of a file, and the sources with what was read from disk to find them. -/
def lines (disk : Text → Option Text) (s : Sources) (name : Text) : List Text × Sources :=
  match s.lookup name with
  | some ls => (ls, s)
  | none =>
    let ls := ((disk name).getD []).lines
    (ls, (name, ls) :: s)

end Sources

namespace Diagnostic

/-- A number at the right end of a field of four columns, or more if it is longer. -/
def gutter (n : Int) : Text :=
  let digits := Text.ofInt n
  Text.spaces (4 - digits.length) ++ digits

/-- The gutter of a line that is not of the source. -/
def emptyGutter (colour : Bool) : Text := "  " ++ Colour.boldBlue.paint colour "   |"

/-- The line that tells where a label points to. -/
def arrow (colour : Bool) (l : Label) : Text :=
  "  " ++ Colour.boldBlue.paint colour "-->" ++ " " ++ l.file ++ ":" ++
    Text.ofInt l.span.first.line ++ ":" ++ Text.ofInt l.span.first.column

/-- The line of the source behind its number. -/
def excerpt (colour : Bool) (n : Int) (line : Text) : Text :=
  "  " ++ Colour.boldBlue.paint colour (gutter n ++ " |") ++ " " ++ line

/-- The number of carets under a span, of which there is always one. -/
def caretCount (s : Span) : Int := max 1 (s.last.column - s.first.column + 1)

/-- The line with the carets under a span. -/
def carets (colour : Bool) (tint : Colour) (s : Span) : Text :=
  emptyGutter colour ++ " " ++ Text.spaces (s.first.column - 1) ++
    tint.paint colour (Text.repeated (caretCount s).toNat '^')

/-- Whether the carets under all labels can be drawn. -/
def checkCarets [Machine] (d : Diagnostic) : Except WidthProblem Unit :=
  d.labels.forM fun l => do
    if l.span.first.line = l.span.last.line then
      discard (Text.usableWidth (l.span.first.column - 1))
      discard (Text.usableWidth (caretCount l.span))

/-- The lines of a label, given the line of the source that it points to. -/
def labelLines (colour : Bool) (tint : Colour) (l : Label) (source : Option Text) : List Text :=
  [arrow colour l, emptyGutter colour] ++
  (source.map (excerpt colour l.span.first.line)).toList ++
  (if l.span.first.line = l.span.last.line then [carets colour tint l.span] else []) ++
  (if l.message = [] then []
    else [emptyGutter colour ++ "   " ++ tint.paint colour l.message])

/-- The lines of all labels, and the sources as they are afterwards. -/
def labelsLines (colour : Bool) (disk : Text → Option Text) (tint : Colour) :
    Sources → List Label → List Text × Sources
  | s, [] => ([], s)
  | s, l :: ls =>
    let (source, s) := s.lines disk l.file
    let (rest, s) := labelsLines colour disk tint s ls
    (labelLines colour tint l (Text.numbered source l.span.first.line) ++ rest, s)

/-- The heading of a diagnostic. -/
def heading (colour : Bool) (d : Diagnostic) : Text :=
  d.severity.colour.paint colour (d.severity.word ++ "[" ++ d.code ++ "]") ++
    Colour.bold.paint colour (": " ++ d.message)

/-- The line of a note. -/
def noteLine (colour : Bool) (note : Text) : Text :=
  "  " ++ Colour.boldBlue.paint colour "=" ++ " note: " ++ note

/-- A diagnostic as a text, and the sources as they are afterwards. -/
def render (colour : Bool) (disk : Text → Option Text) (s : Sources) (d : Diagnostic) :
    Text × Sources :=
  let (labels, s) := labelsLines colour disk d.severity.colour s d.labels
  (Text.join "\n" (heading colour d :: labels ++ d.notes.map (noteLine colour)), s)

/-- Diagnostics as texts, in order, what was read for one being at hand for the next. -/
def renderAll (colour : Bool) (disk : Text → Option Text) : Sources → List Diagnostic → List Text
  | _, [] => []
  | s, d :: ds =>
    let (t, s) := d.render colour disk s
    t :: renderAll colour disk s ds

/-- A diagnostic as a text, or why carets under one of its labels cannot be drawn. -/
def draw [Machine] (colour : Bool) (disk : Text → Option Text) (s : Sources) (d : Diagnostic) :
    Except WidthProblem Text :=
  d.checkCarets.map fun _ => (d.render colour disk s).1

/-- Diagnostics as texts, with one cache for all, or why carets of one cannot be drawn. -/
def drawAll [Machine] (colour : Bool) (disk : Text → Option Text) (s : Sources)
    (ds : List Diagnostic) : Except WidthProblem (List Text) :=
  (ds.forM checkCarets).map fun _ => renderAll colour disk s ds

end Diagnostic

end Idl
