/-
# Project settings

The settings of a project stand in a configuration with three sections: `project` names it,
`source` tells where its modules are and how their files end, and `format` tells how far fields
are indented.  What a configuration leaves out has a usual value.  The name, the version and
the root are kept as they are written, whatever their type.
-/
import Idl.Files.Disk
import Idl.Module
import Idl.Toml.Document

namespace Idl

/-- How far fields are indented, as it is written in the settings. -/
inductive Indentation where
  /-- So many spaces. -/
  | spaces (count : Nat)
  /-- One space or none. -/
  | flag (one : Bool)
deriving DecidableEq, Inhabited

/-- The number of spaces of an indentation. -/
def Indentation.width : Indentation → Int
  | .spaces count => count
  | .flag one => if one then 1 else 0

/-- The settings of a project. -/
structure Settings where
  /-- The name of the project. -/
  name : Toml.Value
  /-- The version of the project. -/
  version : Toml.Value
  /-- The folder of the modules, as seen from the folder of the project. -/
  root : Toml.Value
  /-- The endings of module files, each with a dot in front. -/
  extensions : List Text
  /-- The indentation of fields. -/
  indent : Indentation

/-- Why a configuration gives no settings. -/
inductive SettingsProblem where
  /-- The path of the file leads nowhere. -/
  | obstacle (o : Obstacle)
  /-- A folder stands where the file has to. -/
  | folder
  /-- The text is no configuration. -/
  | fault (f : Toml.Fault)
  /-- A section is no table. -/
  | sectionNoTable
  /-- The extensions are not a list of any kind. -/
  | extensionsNoList
  /-- One of the extensions is no text. -/
  | extensionNoText
  /-- The indentation, in a file with a path, is no natural number. -/
  | badIndent (path : Text)
deriving DecidableEq, Inhabited

/-- The message for a problem. -/
def SettingsProblem.message : SettingsProblem → Text
  | .obstacle o => o.message
  | .folder => "there is a folder where the settings file has to be"
  | .fault .malformed => "the settings file is not in TOML"
  | .fault .tooDeep => "the settings file has values nested too deeply"
  | .fault (.longInteger digits) =>
    "the settings file has an integer with " ++ Text.ofNat digits ++ " digits"
  | .sectionNoTable => "a section of the settings is no table"
  | .extensionsNoList => "[source] extensions are no list"
  | .extensionNoText => "one of the [source] extensions is no string"
  | .badIndent path => path ++ ": [format] indent must be a non-negative integer"

namespace Settings

/-- The settings of a project that says nothing. -/
def usual : Settings where
  name := .text "untitled"
  version := .text "0.0.0"
  root := .text "src"
  extensions := knownExtensions.take 1
  indent := .spaces 2

/-- An ending with a dot in front, unless it has one. -/
def withDot (t : Text) : Text :=
  if t.head? = some (CodePoint.scalar '.') then t else CodePoint.scalar '.' :: t

/-- The endings that a value lists: one text, the texts of an array, or the names in a table. -/
def extensionsOf : Toml.Value → Except SettingsProblem (List Text)
  | .text t => .ok [withDot t]
  | .array vs => vs.mapM fun
    | .text t => .ok (withDot t)
    | _ => .error .extensionNoText
  | .table entries => .ok (entries.map fun e => withDot e.1)
  | _ => .error .extensionsNoList

/-- The indentation that a value gives. -/
def indentOf (path : Text) : Toml.Value → Except SettingsProblem Indentation
  | .integer (.ofNat n) => .ok (.spaces n)
  | .boolean b => .ok (.flag b)
  | _ => .error (.badIndent path)

/-- The entries of a section; none if it is left out. -/
def sectionOf (t : Toml.Table) (name : Text) : Except SettingsProblem Toml.Table :=
  match Toml.Table.value? t name with
  | none => .ok []
  | some (.table entries) => .ok entries
  | some _ => .error .sectionNoTable

/-- The settings in a configuration.  Sections are looked at in the order in which they are
described, and the first problem counts. -/
def ofTable (path : Text) (t : Toml.Table) : Except SettingsProblem Settings := do
  let project ← sectionOf t "project"
  let source ← sectionOf t "source"
  let extensions ←
    ((Toml.Table.value? source "extensions").map extensionsOf).getD (.ok usual.extensions)
  let format ← sectionOf t "format"
  let indent ← ((Toml.Table.value? format "indent").map (indentOf path)).getD (.ok usual.indent)
  return {
    name := (Toml.Table.value? project "name").getD usual.name
    version := (Toml.Table.value? project "version").getD usual.version
    root := (Toml.Table.value? source "root").getD usual.root
    extensions, indent }

/-- The settings that a text holds.  The path is only named in messages. -/
def ofText [Machine] (path t : Text) : Except SettingsProblem Settings :=
  match Toml.parse t with
  | .error f => .error (.fault f)
  | .ok table => ofTable path table

/-- The endings that are taken off the names of files: those of the settings, and then the ones
that are always known. -/
def namingExtensions (s : Settings) : List Text := (s.extensions ++ knownExtensions).eraseDups

end Settings

end Idl
