import OperatorNet.Catalog.Basic
import OperatorNet.Compatibility
import OperatorNet.Sorting

/-!
# Looking operators up

Operators are found by the kinds of their inputs and the kind of their output, through the names
that the index has under these kinds.

The catalog order puts cheaper operators first and goes by name among equally cheap ones, so it does
not depend on the order of registration. An operator answers a request of types directly, or through
adapters in front of its slots and behind its output.
-/

namespace OperatorNet

variable {α : Type} [Scalar α]

namespace Catalog

/-- Whether one operator comes before another: by cost, then by name. -/
def comesBefore (c : Catalog α) (a b : Operator α) : Bool :=
  let x := a.costOf c.sortMetric
  let y := b.costOf c.sortMetric
  if Scalar.same x y then a.name < b.name else x < y

/-- Operators in catalog order. -/
def inOrder (c : Catalog α) (ops : List (Operator α)) : List (Operator α) :=
  sortBy c.comesBefore ops

/-- All operators in catalog order. -/
def operators (c : Catalog α) : List (Operator α) :=
  c.inOrder c.registered

/-- The operator with a given name. -/
def get (c : Catalog α) (name : String) : Except Fault (Operator α) :=
  match c.find? name with
  | some op => .ok op
  | none => fail (.unknownOperator name (sortedTexts (c.registered.map (·.name))))

/-- The operator that a value names; only texts name operators. -/
def named (c : Catalog α) (d : Data Float) : Except Fault (Operator α) :=
  match d with
  | .text name => c.get name
  | d => do
    let _ ← d.key
    fail (.unknownOperator d.shown (sortedTexts (c.registered.map (·.name))))

/-- The place of an operator in catalog order. -/
def rank (c : Catalog α) (name : String) : Except Fault Nat :=
  match (c.operators.map (·.name)).idxOf? name with
  | some i => .ok i
  | none => fail (.unranked (Text.quoted name))

/-- The place in catalog order of the operator that a value names. -/
def rankNamed (c : Catalog α) (d : Data Float) : Except Fault Nat :=
  match d with
  | .text name => c.rank name
  | d => fail (.unranked d.literal)

/-- The adapters in catalog order. -/
def adapters (c : Catalog α) : List (Operator α) :=
  c.operators.filter (·.adapter)

/-- The operators of several inputs in catalog order. -/
def combinators (c : Catalog α) : List (Operator α) :=
  c.operators.filter (·.isCombinator)

/-- The operators with given input kinds and output kind, in catalog order. -/
def byKinds (c : Catalog α) (inputs : List String) (output : String) : List (Operator α) :=
  let names := c.index.namesAt (inputs.map normalizeTag, normalizeTag output)
  c.inOrder (names.filterMap c.find?)

/-- The operators of this catalog and the given ones in a new frozen catalog. -/
def withOperators (c : Catalog α) (ops : List (Operator α)) : Except Fault (Catalog α) := do
  let fresh ← start c.kinds.tags c.aliases.entries c.sortMetric
  return (← (← fresh.registerAll c.operators).registerAll ops).freeze

/-- The slots and, if one is asked for, the output of a fresh use of an operator, each paired with
what is requested there. -/
def requestSlots (op : Operator α) (inputs : List PortType) (output : Option PortType) :
    List (PortType × PortType) :=
  (op.inTypes.map (·.freshen "q")).zip inputs ++
    (output.map fun t => (t, op.outType.freshen "q")).toList

/-- Lets each requested type fit its slot, directly or through an adapter, under growing bindings;
`none` when one does not. -/
def adaptInputs (adapters : List (Operator α)) (b : Bindings) :
    List (PortType × PortType) → Except Fault (Option Bindings)
  | [] => .ok (some b)
  | (slot, requested) :: rest => do
    match (← compatible b requested slot adapters).bindings? with
    | some b' => adaptInputs adapters b' rest
    | none => return none

/-- How an operator answers a request of input types and possibly an output type. -/
def relate (c : Catalog α) (op : Operator α) (inputs : List PortType)
    (output : Option PortType) : Except Fault Relation := do
  if inputs.length ≠ op.arity then return .incompatible
  match ← worded (Bindings.empty.unifySlots (requestSlots op inputs output)) with
  | .ok _ => return .equal
  | .error _ =>
    let adapters := c.adapters.filter (·.name ≠ op.name)
    let slots := (op.inTypes.map (·.freshen "q")).zip inputs
    match ← adaptInputs adapters .empty slots with
    | none => return .incompatible
    | some b =>
      match output with
      | none => return .adaptable
      | some t =>
        let fit ← compatible b (op.outType.freshen "q") t adapters
        return if fit.relation = .incompatible then .incompatible else .adaptable

/-- The operators that answer a request, in catalog order. -/
def lookup (c : Catalog α) (inputs : List PortType) (output : Option PortType)
    (adaptable : Bool) : Except Fault (List (Operator α)) := do
  let answers ← c.operators.mapM fun op => do
    let r ← c.relate op inputs output
    return (op, r)
  return (answers.filter fun p =>
    p.2 = .equal || (adaptable && p.2 = .adaptable)).map Prod.fst

/-- The unary operators that take a type directly, in catalog order. -/
def consumers (c : Catalog α) (input : PortType) : Except Fault (List (Operator α)) :=
  c.lookup [input] none false

end Catalog

/-- Gives a new frozen catalog with the operators of the catalog at hand and the given ones. -/
def Cataloguing.withOperators (ops : List (Operator α)) : Cataloguing α (Catalog α) := do
  lift ((← get).withOperators ops)

end OperatorNet
