/-
# Words of a command line

A command line is a list of words.  A word that starts with a hyphen names options: with two
hyphens one, and with one hyphen one for each letter.  None of the options takes a value.  All
words behind a word of just two hyphens are plain, whatever they start with.
-/
import Idl.Text

namespace Idl

/-- The options of all commands. -/
inductive Flag where
  | verbose | version | help | pretty | check | input
deriving DecidableEq, Inhabited

/-- The commands. -/
inductive Verb where
  | check | format | roundTrip | view
deriving DecidableEq, Inhabited

/-- The spellings of options. -/
abbrev Spellings := List (Text × Flag)

/-- The options in front of a command. -/
def leadingFlags : Spellings :=
  [("-v", .verbose), ("--verbose", .verbose), ("--version", .version), ("--help", .help)]

namespace Verb

/-- The word for a command. -/
def word : Verb → Text
  | .check => "check"
  | .format => "format"
  | .roundTrip => "roundtrip"
  | .view => "view"

/-- All commands. -/
def all : List Verb := [.check, .format, .roundTrip, .view]

/-- The command that a word names. -/
def ofWord? (w : Text) : Option Verb := all.find? fun v => v.word = w

/-- The options of a command. -/
def flags : Verb → Spellings
  | .check => [("--pretty", .pretty), ("--help", .help)]
  | .format => [("--check", .check), ("--stdin", .input), ("--help", .help)]
  | .roundTrip | .view => [("--help", .help)]

end Verb

/-- Words sorted into options and others. -/
structure Words where
  /-- The options, in order. -/
  flags : List Flag
  /-- The other words, in order. -/
  plain : List Text

namespace Words

/-- Whether a word names options. -/
def namesFlags (w : Text) : Bool := w.head? = some (CodePoint.scalar '-') && 1 < w.length

/-- The options that a word names.  An equals sign would give a value, and there is none that
could be given. -/
def flagsOf? (known : Spellings) (w : Text) : Option (List Flag) :=
  if ("--" : Text).isPrefixOf w then (known.lookup w).map ([·])
  else w.tail.mapM fun c : CodePoint => known.lookup [CodePoint.scalar '-', c]

/-- Sorts words.  Where options and other words do not mix, the first other word ends the
options. -/
def sort? (known : Spellings) (mixed : Bool) : List Text → Option Words
  | [] => some ⟨[], []⟩
  | w :: ws =>
    if w = Text.ofString "--" then some ⟨[], ws⟩
    else if namesFlags w then do
      let flags ← flagsOf? known w
      let rest ← sort? known mixed ws
      return ⟨flags ++ rest.flags, rest.plain⟩
    else if mixed then do
      let rest ← sort? known mixed ws
      return ⟨rest.flags, w :: rest.plain⟩
    else some ⟨[], w :: ws⟩

end Words

/-- What a user asks for. -/
inductive Invocation where
  /-- To be told the version. -/
  | version
  /-- To be told how to ask. -/
  | help
  /-- Something that is not understood. -/
  | misuse
  /-- A command, perhaps with a report on its steps, with options and other words. -/
  | command (verbose : Bool) (verb : Verb) (words : Words)

namespace Invocation

/-- The first of the options that ask for information on the program itself. -/
def information? (flags : List Flag) : Option Invocation :=
  flags.findSome? fun
    | .version => some .version
    | .help => some .help
    | _ => none

/-- What the words behind a command ask for. -/
def ofCommand (verbose : Bool) (verb : Verb) (args : List Text) : Invocation :=
  match Words.sort? verb.flags true args with
  | none => .misuse
  | some words => (information? words.flags).getD (.command verbose verb words)

/-- What words ask for.  Words that are not understood may still ask for information, if the
first of them would have been an option further in front. -/
def ofWords (args : List Text) : Invocation :=
  match Words.sort? leadingFlags false args with
  | none => .misuse
  | some words =>
    match information? words.flags with
    | some i => i
    | none =>
      match words.plain with
      | [] => .misuse
      | w :: ws =>
        match Verb.ofWord? w with
        | some verb => ofCommand (words.flags.contains .verbose) verb ws
        | none =>
          (((Words.sort? leadingFlags false (w :: ws)).bind (information? ·.flags)).getD .misuse)

end Invocation

end Idl
