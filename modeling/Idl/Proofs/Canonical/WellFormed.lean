/-
# Well-formed modules

A module is well-formed if all its names are of the sorts that the places call for, and every
sum has a variant.  The name of the module, the path that goes with it, positions, and the
values of parameters may be anything.
-/
import Idl.Module
import Idl.Proofs.Text.Names

namespace Idl

/-- References in the type are made of names of types. -/
def TypeExpr.WellFormed : TypeExpr → Prop
  | .primitive _ => True
  | .reference _ qualifier name =>
    name.IsUpperName ∧ ∀ q ∈ qualifier, q.Dotted Text.IsUpperName
  | .array t | .maybe t => t.WellFormed

/-- The name of the parameter is one. -/
def Param.WellFormed (p : Param) : Prop := p.name.IsLowerName

/-- The names in the annotation are names. -/
structure Annotation.WellFormed (a : Annotation) : Prop where
  name : a.name.IsLowerName
  params : ∀ p ∈ a.params, p.WellFormed

/-- The names in the field are names. -/
structure Field.WellFormed (f : Field) : Prop where
  name : f.name.IsLowerName
  type : f.type.WellFormed
  annotations : ∀ a ∈ f.annotations, a.WellFormed

/-- The names in the body are names, and a sum has a variant. -/
def Body.WellFormed : Body → Prop
  | .alias t | .wrap t => t.WellFormed
  | .record fields => ∀ f ∈ fields, f.WellFormed
  | .sum variants => variants ≠ [] ∧ ∀ v ∈ variants, v.IsUpperName

/-- The names in the declaration are names. -/
structure Declaration.WellFormed (d : Declaration) : Prop where
  name : d.name.IsUpperName
  body : d.body.WellFormed
  annotations : ∀ a ∈ d.annotations, a.WellFormed

/-- All names in the module are of the sorts that their places call for. -/
structure Module.WellFormed (m : Module) : Prop where
  scala : m.exports.scala.IsPackageName
  purs : m.exports.purs.IsPackageName
  imports : ∀ i ∈ m.imports, i.IsPackageName
  annotations : ∀ a ∈ m.annotations, a.WellFormed
  declarations : ∀ d ∈ m.declarations, d.WellFormed

end Idl
