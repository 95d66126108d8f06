/-
# Modules

The syntax tree of a module file: where the module is exported to, what it imports, its
annotations and its type declarations.  Sequences keep the order of the source.  A module has the
name of its file, which its text does not hold (`Text.logicalName`).
-/
import Idl.Position

namespace Idl

/-- The primitive types.  The last three have no reserved word; generators use them. -/
inductive Primitive where
  | boolean | int | decimal | string | date | dateTime | time
deriving DecidableEq, Inhabited

/-- How a primitive type is written. -/
def Primitive.spelling : Primitive → Text
  | .boolean => "Boolean"
  | .int => "Int"
  | .decimal => "Decimal"
  | .string => "String"
  | .date => "Date"
  | .dateTime => "DateTime"
  | .time => "Time"

/-- A type expression. -/
inductive TypeExpr where
  /-- A primitive type. -/
  | primitive (kind : Primitive)
  /-- A declared type, with the dotted name of its module if the source gives one. -/
  | reference (position : Position) (qualifier : Option Text) (name : Text)
  /-- `Array<…>`. -/
  | array (inner : TypeExpr)
  /-- `Maybe<…>`. -/
  | maybe (inner : TypeExpr)
deriving DecidableEq, Inhabited

/-- A parameter of an annotation. -/
structure Param where
  /-- The name. -/
  name : Text
  /-- Where the name stands. -/
  position : Position
  /-- The text behind `=`, if there is one. -/
  value : Option Text
deriving DecidableEq, Inhabited

/-- An annotation. -/
structure Annotation where
  /-- The name. -/
  name : Text
  /-- Where the opening angle stands. -/
  position : Position
  /-- The parameters. -/
  params : List Param
deriving DecidableEq, Inhabited

/-- The first parameter of a name. -/
def Annotation.param? (a : Annotation) (name : Text) : Option Param :=
  a.params.find? (·.name = name)

/-- A field of a record. -/
structure Field where
  /-- The name. -/
  name : Text
  /-- The type. -/
  type : TypeExpr
  /-- The annotations behind the type. -/
  annotations : List Annotation
deriving DecidableEq, Inhabited

/-- What a declared type is. -/
inductive Body where
  /-- Another name for a type. -/
  | alias (type : TypeExpr)
  /-- A new type around another one. -/
  | wrap (type : TypeExpr)
  /-- A record of fields. -/
  | record (fields : List Field)
  /-- A choice of variants; their order gives their numbers. -/
  | sum (variants : List Text)
deriving DecidableEq, Inhabited

/-- A type declaration. -/
structure Declaration where
  /-- The name of the declared type. -/
  name : Text
  /-- What the type is. -/
  body : Body
  /-- The annotations behind the body. -/
  annotations : List Annotation
deriving DecidableEq, Inhabited

/-- The packages that generated code goes to. -/
structure Exports where
  /-- The package named behind `scala:`. -/
  scala : Text
  /-- The package named behind `purs:`. -/
  purs : Text
  /-- The relative path of the generated files; empty until the module has a name. -/
  templatePath : Text
deriving DecidableEq, Inhabited

/-- A module. -/
structure Module where
  /-- The logical name; empty until it is taken from a file name. -/
  name : Text
  /-- The packages that generated code goes to. -/
  exports : Exports
  /-- The imported packages. -/
  imports : List Text
  /-- The annotations of the module itself. -/
  annotations : List Annotation
  /-- The type declarations. -/
  declarations : List Declaration
deriving DecidableEq, Inhabited

namespace Module

/-- The first declaration of a name. -/
def find? (m : Module) (name : Text) : Option Declaration :=
  m.declarations.find? (·.name = name)

/-- The module with other imports. -/
def withImports (m : Module) (imports : List Text) : Module := { m with imports }

end Module

/-! ### Logical names

A module is named after its file: the last component of the path without its extension.  The
dots of the name become the directories of the generated files. -/

/-- The extensions of module files, the usual one first. -/
def knownExtensions : List Text := [".duet", ".idl"]

namespace Text

/-- The last component of a path.  Empty components and single dots do not count, and neither
does the root. -/
def baseName (path : Text) : Text :=
  let parts := (pieces '/' path).filter fun p => p ≠ [] && p ≠ Text.ofString "."
  parts.getLast?.getD []

/-- The text without an ending, if it has that ending and something in front of it.  Of an
empty ending the whole text is taken to be part. -/
def withoutEnding? (t ending : Text) : Option Text :=
  if ending.isSuffixOf t ∧ ending.length < t.length then
    some (if ending = [] then [] else t.take (t.length - ending.length))
  else none

/-- The logical name of the module in a file: the base name without the first of the extensions
that it ends with. -/
def logicalName (path : Text) (extensions : List Text) : Text :=
  let base := path.baseName
  (extensions.findSome? base.withoutEnding?).getD base

/-- The relative path that the files generated for a module go to. -/
def templatePath (name : Text) : Text :=
  name.map fun c : CodePoint => if c = '.' then '/' else c

end Text

/-- The module with a logical name and the template path that goes with it. -/
def Module.withName (m : Module) (name : Text) : Module :=
  { m with name, exports := { m.exports with templatePath := name.templatePath } }

end Idl
