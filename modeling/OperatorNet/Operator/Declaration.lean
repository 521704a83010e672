import OperatorNet.Operator.Basic
import OperatorNet.PortType.Read

/-!
# Declarations

A declaration describes an operator in a document. Its types may be given in full or by name, and
some of its fields have short names.
-/

namespace OperatorNet

/-- A type given by name or in full. -/
inductive TypeRef where
  | named (name : String)
  | given (type : PortType)

/-- A described operator, not yet looked up in a catalog. -/
structure Declaration where
  name : String
  inTypes : List TypeRef
  outType : TypeRef
  differentiable : Bool
  invariance : List String
  stability : Option Float
  cost : List (String × Float)
  params : List (String × Data Float)
  adapter : Bool
  executor : Option String
  description : String

namespace TypeRef

/-- The document of a reference. -/
def toData : TypeRef → Data Float
  | named name => .text name
  | given type => type.toData

end TypeRef

/-- A type by name or in full; a value that is neither has the flaws of both readings. -/
def Check.typeRef (d : Data Float) : Check TypeRef :=
  match d with
  | .text name => .accepted (.named name)
  | _ =>
    match Check.portType d with
    | .accepted t => .accepted (.given t)
    | .refused issues => .refused (⟨["str"], .notText⟩ :: issues.map (Issue.under "TypeSpec"))
    | .brokenDown => .brokenDown

/-- The input types: a list of references, or a single one. -/
def Check.inputRefs (d : Data Float) : Check (List TypeRef) :=
  match d with
  | .text _ | .mapping _ => Check.list Check.typeRef (.list [d])
  | _ => Check.list Check.typeRef d

namespace Declaration

/-- The declared names of every field. -/
def fieldNames : List (List String) :=
  [["name"], ["in_types", "in"], ["out_type", "out"], ["differentiable", "diff"], ["invariance"],
    ["stability"], ["cost"], ["params"], ["adapter"], ["executor"], ["description"]]

/-- The fields of a declaration, each of the declared form. -/
def ofFields (fields : Check.Fields) : Check Declaration :=
  (Declaration.mk <$> Check.required fields "name" Check.text
    <*> Check.field fields ["in_types", "in"] Check.inputRefs none
    <*> Check.field fields ["out_type", "out"] Check.typeRef none
    <*> Check.field fields ["differentiable", "diff"] Check.truth (some false)
    <*> Check.withDefault fields "invariance" (Check.list Check.text) []
    <*> Check.withDefault fields "stability" (Check.optional Check.number) none
    <*> Check.withDefault fields "cost" (Check.mapping Check.number) []
    <*> Check.withDefault fields "params" (Check.mapping Check.anything) []
    <*> Check.withDefault fields "adapter" Check.truth false
    <*> Check.withDefault fields "executor" (Check.optional Check.text) none
    <*> Check.withDefault fields "description" Check.text "")
    <* Check.noOthers fields fieldNames

/-- A declared stability bound is a finite number. -/
def checkFinite (d : Declaration) : Check Declaration :=
  match d.stability with
  | some x => if x.isFinite then .accepted d else .flawed (.notFinite "stability" x)
  | none => .accepted d

/-- The declaration in a document. -/
def ofData : Data Float → Check Declaration :=
  Check.record "OperatorDecl" fun fields => (ofFields fields).andThen checkFinite

/-- The document of a declaration with all its fields. -/
def toData (d : Declaration) : Data Float :=
  .mapping [("name", .text d.name), ("in_types", .list (d.inTypes.map TypeRef.toData)),
    ("out_type", d.outType.toData), ("differentiable", .bool d.differentiable),
    ("invariance", .texts d.invariance), ("stability", (d.stability.map Data.real).getD .null),
    ("cost", .mapping (d.cost.map fun p => (p.1, .real p.2))), ("params", .mapping d.params),
    ("adapter", .bool d.adapter), ("executor", (d.executor.map Data.text).getD .null),
    ("description", .text d.description)]

end Declaration

end OperatorNet
