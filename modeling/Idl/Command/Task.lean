/-
# The commands

Each command looks at the module files that a path names and tells whether all went well:

* `check` reads them and complains of the first failure in each;
* `format` writes them anew in canonical form, or only names those that are not in it;
* `roundTrip` examines whether the canonical form of each reads back as the same module;
* `view` lists the syntax tree of one file.

A file that is no module does not keep a command from the other files.
-/
import Idl.Command.Session
import Idl.Diagnostic.Render
import Idl.Module.Listing
import Idl.Module.Render

namespace Idl

namespace Command

/-- What messages call the standard input. -/
def inputName : Text := "<stdin>"

/-- Complains of a failure to read a file, on one line or with an excerpt of the source. -/
def complainOf (pretty : Bool) (file source : Text) (e : SyntaxError) : Command Unit :=
  if pretty then
    let sources := Sources.ofTexts [(file, source)]
    complain ((e.failure.diagnostic file []).render false (fun _ => none) sources).1
  else complain (e.failure.inFile file)

/-- Reports that a module was read. -/
def reportRead (file : Text) (m : Module) : Command Unit :=
  report "duet.parser" ("parsed " ++ file ++ ": " ++ Text.ofNat m.imports.length ++
    " import(s), " ++ Text.ofNat m.declarations.length ++ " type declaration(s)")

/-- Takes the module that was read in a source, or complains that it is none. -/
def accept (pretty : Bool) (file source : Text) (read : Except SyntaxError Module) :
    Command (Option Module) := do
  match read with
  | .ok m =>
    reportRead file m
    return some m
  | .error e =>
    complainOf pretty file source e
    return none

/-- The module files that a target names and the settings that govern it. -/
def moduleFiles [Machine] (target : Text) : Command (List FilePath × Settings) :=
  ask .project (·.moduleFiles (FilePath.ofText target))

/-- The settings that govern a target. -/
def settingsOf [Machine] (target : Text) : Command Settings := do
  let (settings, _) ←
    ask (fun p => .project (.settings p)) (·.nearestSettings (FilePath.ofText target))
  return settings

/-- The formatter of the indentation that settings give. -/
def formatterOf [Machine] (settings : Settings) : Command Formatter :=
  match Formatter.ofIndent settings.indent.width with
  | .ok form => return form
  | .error p => throw (.indent p)

/-- Tells how many files failed, or if none did, that all went well. -/
def conclude (passed : List Bool) (praise : Text → Text) (blame : Text) : Command Bool := do
  let total := Text.ofNat passed.length
  let failed := passed.count false
  if failed = 0 then
    say (praise total)
    return true
  complain (Text.ofNat failed ++ " of " ++ total ++ " file(s) " ++ blame)
  return false

/-! ### Checking -/

/-- Reads a file as a module. -/
def checkFile [Machine] (settings : Settings) (pretty : Bool) (file : FilePath) :
    Command Bool := do
  let source ← readFile file
  let read := Module.parseFile file.text source settings.namingExtensions
  return (← accept pretty file.text source read).isSome

/-- Reads all files and complains of those that are no modules. -/
def check [Machine] (pretty : Bool) (target : Text) : Command Bool := do
  let (files, settings) ← moduleFiles target
  if files.isEmpty then
    complain "warning: no module files found"
    return true
  let passed ← onEach (checkFile settings pretty) files
  conclude passed (fun total => "checked " ++ total ++ " file(s), no errors") "failed to parse"

/-! ### Formatting -/

/-- What formatting finds about a file. -/
inductive Verdict where
  /-- The file is no module. -/
  | broken
  /-- The file is in canonical form. -/
  | canonical
  /-- The file is a module in another form. -/
  | different
deriving DecidableEq, Inhabited

/-- Writes a file in canonical form, or only names it if it is in another. -/
def formatFile [Machine] (form : Formatter) (checkOnly : Bool) (file : FilePath) :
    Command Verdict := do
  let source ← readFile file
  match ← accept false file.text source (Module.parse source) with
  | none => return .broken
  | some m =>
    let canonical := m.render form
    if canonical = source then return .canonical
    if checkOnly then say ("would reformat " ++ file.text)
    else
      writeFile file canonical
      say ("formatted " ++ file.text)
    return .different

/-- Whether formatting went well.  If nothing is written, a file in another form is a fault. -/
def Verdict.passes (checkOnly : Bool) : Verdict → Bool
  | .broken => false
  | .canonical => true
  | .different => !checkOnly

/-- Writes all files in canonical form, or only names those that are in another. -/
def format [Machine] (checkOnly : Bool) (target : Text) : Command Bool := do
  let (files, settings) ← moduleFiles target
  if files.isEmpty then
    complain "no module files found"
    return true
  let form ← formatterOf settings
  let verdicts ← onEach (formatFile form checkOnly) files
  return verdicts.all (Verdict.passes checkOnly)

/-- Writes the module in the standard input in canonical form, or only tells whether it is in
another. -/
def formatInput [Machine] (checkOnly : Bool) (target input : Text) : Command Bool := do
  let form ← formatterOf (← settingsOf target)
  let source := input.withPlainBreaks
  match ← accept false inputName source (Module.parse source) with
  | none => return false
  | some m =>
    let canonical := m.render form
    if !checkOnly then
      put canonical
      return true
    if canonical = source then return true
    complain ("would reformat " ++ inputName)
    return false

/-! ### Round trips -/

/-- Examines the canonical form of a module that was read from a file. -/
def roundTripModule [Machine] (form : Formatter) (file : Text) (m : Module) :
    Command Bool := do
  match m.roundTrip form with
  | .error e =>
    complain (file ++ ": rendered text does not re-parse: " ++ e.failure.summary)
    return false
  | .ok trip =>
    let rendered := file ++ " (rendered)"
    let name := if m.name = [] then rendered else m.name
    if let .ok again := Module.parse trip.first then reportRead rendered again
    report "duet.roundtrip"
      ("round trip of " ++ name ++ ": " ++ if trip.stable then "stable" else "unstable")
    if trip.stable then
      report "duet.cli" (file ++ " round-trips")
      return true
    complain (file ++ ": rendering is not stable")
    complain (trip.diff m.name)
    return false

/-- Examines the canonical form of the module in a file. -/
def roundTripFile [Machine] (settings : Settings) (form : Formatter) (file : FilePath) :
    Command Bool := do
  let source ← readFile file
  let read := Module.parseFile file.text source settings.namingExtensions
  match ← accept false file.text source read with
  | none => return false
  | some m => roundTripModule form file.text m

/-- Examines the canonical forms of all files. -/
def roundTrip [Machine] (target : Text) : Command Bool := do
  let (files, settings) ← moduleFiles target
  if files.isEmpty then
    complain "warning: no module files found"
    return true
  let form ← formatterOf settings
  let passed ← onEach (roundTripFile settings form) files
  conclude passed (fun total => "round-tripped " ++ total ++ " file(s)") "failed the round trip"

/-! ### Viewing -/

/-- Lists the syntax tree of the module in a file. -/
def view [Machine] (file : Text) : Command Bool := do
  let settings ← settingsOf file
  let source ← readFile (FilePath.ofText file)
  let read := Module.parseFile file source settings.namingExtensions
  match ← accept true file source read with
  | none => return false
  | some m =>
    put (m.listingText 0).withoutSequences
    return true

end Command

end Idl
