/-
# Tree listings

A listing shows the syntax tree of a module, one node or one plain value on each line, the
parts of a node deeper than the node.  Positions are left out, and so are values that are
absent; texts are quoted.
-/
import Idl.Module
import Idl.Text.Quoted

namespace Idl

namespace Listing

/-- The indentation of a node at a depth. -/
def margin (depth : Int) : Text := Text.spaces (2 * depth)

/-- The line of a node. -/
def node (depth : Int) (label : Text) : Text := margin depth ++ label

/-- The line that introduces a part of a node. -/
def heading (depth : Int) (name : Text) : Text := margin depth ++ "  " ++ name ++ ":"

/-- The line of a part that is a plain value. -/
def plain (depth : Int) (name value : Text) : Text := heading depth name ++ " " ++ value

/-- The line of a part that is a text. -/
def quotedPart (depth : Int) (name value : Text) : Text := plain depth name value.quoted

/-- The line of a part that may be absent. -/
def optionalPart (depth : Int) (name : Text) : Option Text → List Text
  | none => []
  | some v => [quotedPart depth name v]

/-- The lines of a part that is a node. -/
def child (depth : Int) (name : Text) (lines : List Text) : List Text :=
  heading depth name :: lines

/-- The lines of a part that is a sequence, from the lines of its members. -/
def children (depth : Int) (name : Text) : List (List Text) → List Text
  | [] => [plain depth name "[]"]
  | members => heading depth name :: members.flatten

/-- The line of a sequence's member that is a text. -/
def member (depth : Int) (value : Text) : List Text := [margin depth ++ "str: " ++ value.quoted]

end Listing

open Listing

/-- The listing of a type expression. -/
def TypeExpr.listing (depth : Int) : TypeExpr → List Text
  | .primitive p => [node depth "PrimitiveType", plain depth "kind" p.spelling]
  | .reference _ q name =>
    node depth "RefType" ::
      child depth "ref"
        (node (depth + 2) "TypeReference" ::
          (optionalPart (depth + 2) "module" q ++ [quotedPart (depth + 2) "name" name]))
  | .array t => node depth "ArrayType" :: child depth "inner" (t.listing (depth + 2))
  | .maybe t => node depth "OptionType" :: child depth "inner" (t.listing (depth + 2))

/-- The listing of a parameter. -/
def Param.listing (depth : Int) (p : Param) : List Text :=
  node depth "AnnotationParam" :: quotedPart depth "name" p.name ::
    optionalPart depth "value" p.value

namespace Annotation

/-- The listing of an annotation. -/
def listing (depth : Int) (a : Annotation) : List Text :=
  node depth "Annotation" :: quotedPart depth "name" a.name ::
    children depth "params" (a.params.map (Param.listing (depth + 2)))

/-- The listing of the annotations of a node. -/
def listingOf (depth : Int) (as : List Annotation) : List Text :=
  children depth "annotations" (as.map (listing (depth + 2)))

end Annotation

/-- The listing of a field. -/
def Field.listing (depth : Int) (f : Field) : List Text :=
  node depth "RecordProp" :: quotedPart depth "name" f.name ::
    (child depth "typ" (f.type.listing (depth + 2)) ++
      Annotation.listingOf depth f.annotations)

/-- The listing of the body of a declaration. -/
def Body.listing (depth : Int) : Body → List Text
  | .alias t => node depth "AliasType" :: child depth "typ" (t.listing (depth + 2))
  | .wrap t => node depth "WrapType" :: child depth "typ" (t.listing (depth + 2))
  | .record fields =>
    node depth "RecordType" :: children depth "props" (fields.map (Field.listing (depth + 2)))
  | .sum variants =>
    node depth "SumType" :: children depth "variants" (variants.map (member (depth + 2)))

/-- The listing of a declaration. -/
def Declaration.listing (depth : Int) (d : Declaration) : List Text :=
  node depth "TypeDecl" :: quotedPart depth "name" d.name ::
    (child depth "body" (d.body.listing (depth + 2)) ++
      Annotation.listingOf depth d.annotations)

/-- The listing of the exports. -/
def Exports.listing (depth : Int) (e : Exports) : List Text :=
  [node depth "Exports", quotedPart depth "scala" e.scala, quotedPart depth "purs" e.purs,
    quotedPart depth "template_path" e.templatePath]

namespace Module

/-- The lines of the listing of a module. -/
def listing (depth : Int) (m : Module) : List Text :=
  node depth "Module" :: quotedPart depth "name" m.name ::
    (child depth "exports" (m.exports.listing (depth + 2)) ++
      children depth "imports" (m.imports.map (member (depth + 2))) ++
      children depth "type_decls" (m.declarations.map (Declaration.listing (depth + 2))) ++
      Annotation.listingOf depth m.annotations)

/-- The listing of a module as a text, each line with its break. -/
def listingText (depth : Int) (m : Module) : Text :=
  (m.listing depth).flatMap fun line => line ++ "\n"

end Module

end Idl
