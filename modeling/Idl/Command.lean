/-
# Running commands

A run takes the words of a command line and the standard input, and works on a disk.  It ends
well, with a fault that was told, with words that were not understood, or is cut short.
-/
import Idl.Command.Task
import Idl.Command.Words

namespace Idl

/-- How a run ends. -/
inductive Outcome where
  /-- All went well. -/
  | success
  /-- Something was found to be wrong. -/
  | failure
  /-- The words were not understood, or they name a file that is not there. -/
  | misuse
  /-- The run was cut short. -/
  | crash (c : Crash)
deriving DecidableEq, Inhabited

/-- The number that stands for an outcome. -/
def Outcome.code : Outcome → Nat
  | .success => 0
  | .failure | .crash _ => 1
  | .misuse => 2

/-- A run that has ended. -/
structure Run where
  /-- How it ended. -/
  outcome : Outcome
  /-- The files and folders as they are afterwards. -/
  disk : Disk
  /-- The results. -/
  out : Text
  /-- The complaints and reports. -/
  err : Text

namespace Run

/-- The line that tells the version. -/
def versionLine : Text := "duet, version 0.1.0\n"

/-- The lines that tell how to ask. -/
def usageLines : Text :=
  "usage: duet [-v] check [--pretty] [PATH]\n" ++
  "       duet [-v] format [--check] [--stdin] [PATH]\n" ++
  "       duet [-v] roundtrip [PATH]\n" ++
  "       duet [-v] view FILE\n" ++
  "       duet --version | --help\n"

/-- A run that only gives information. -/
def told (d : Disk) (t : Text) : Run := ⟨.success, d, t, []⟩

/-- A run that was not understood. -/
def misused (d : Disk) : Run := ⟨.misuse, d, [], usageLines⟩

/-- The run of a command. -/
def ofCommand (d : Disk) (verbose : Bool) (act : Command Bool) : Run :=
  match act.run ⟨d, verbose, [], []⟩ with
  | .ok well s => ⟨if well then .success else .failure, s.disk, s.out, s.err⟩
  | .error c s => ⟨.crash c, s.disk, s.out, s.err⟩

/-- What a command does with a path. -/
def task [Machine] (verb : Verb) (flags : List Flag) (path input : Text) : Command Bool :=
  match verb with
  | .check => Command.check (flags.contains .pretty) path
  | .format =>
    if flags.contains .input then Command.formatInput (flags.contains .check) path input
    else Command.format (flags.contains .check) path
  | .roundTrip => Command.roundTrip path
  | .view => Command.view path

/-- The path that a command is about.  All but `view` take the working folder if none is
given. -/
def path? (verb : Verb) (words : Words) : Option Text :=
  match verb with
  | .view => words.plain.head?
  | _ => some (words.plain.head?.getD ".")

/-- Whether a command takes what is at a location for its path. -/
def accepts (d : Disk) (verb : Verb) (l : Location) : Bool :=
  match verb with
  | .view => d.isFile l
  | _ => true

/-- The run of a command with its words.  The path has to lead somewhere, and there is no use
for further words. -/
def ofWords [Machine] (d : Disk) (input : Text) (verbose : Bool) (verb : Verb) (words : Words) :
    Run :=
  match path? verb words with
  | none => misused d
  | some path =>
    match d.find path with
    | .error .zeroByte => ⟨.crash (.obstacle .zeroByte), d, [], []⟩
    | .error _ => misused d
    | .ok l =>
      if accepts d verb l ∧ words.plain.length ≤ 1 then
        ofCommand d verbose (task verb words.flags path input)
      else misused d

/-- The run of a command line on a disk. -/
def ofArguments [Machine] (d : Disk) (input : Text) (args : List Text) : Run :=
  match Invocation.ofWords args with
  | .version => told d versionLine
  | .help => told d usageLines
  | .misuse => misused d
  | .command verbose verb words => ofWords d input verbose verb words

end Run

end Idl
