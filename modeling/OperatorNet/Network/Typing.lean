import OperatorNet.Network.Order

/-!
# Checking networks

A network is checked from scratch: in order, each operator gets symbols of its own and every slot is
unified with what is wired into it. All slots that fail are reported.
-/

namespace OperatorNet.Network

variable {α : Type}

/-- What has been derived from the nodes checked so far. -/
structure Derivation where
  errors : List SlotError
  bindings : Bindings
  /-- The type of every node over the symbols of this derivation. -/
  templates : List (Int × PortType)

/-- The derivation from no nodes. -/
def Derivation.empty : Derivation :=
  ⟨[], .empty, []⟩

/-- Adds an error. -/
def Derivation.report (d : Derivation) (e : SlotError) : Derivation :=
  { d with errors := d.errors ++ [e] }

/-- Checks one slot of a node. -/
def Derivation.checkSlot (d : Derivation) (node : Int) (slot : Nat) (expected : PortType)
    (source : Ref) : Derivation :=
  match source.id?.bind fun n => fetch n d.templates with
  | none =>
    d.report { slot, expected := none, actual := none, node, reason := .laterSource source }
  | some actual =>
    match d.bindings.unify expected actual with
    | .ok b => { d with bindings := b }
    | .error reason =>
      d.report {
        slot, expected := some (d.bindings.resolveType expected),
        actual := some (d.bindings.resolveType actual), node, reason := .mismatch reason }

/-- Checks slots from left to right, counting slots from `slot`. -/
def Derivation.checkSlots (d : Derivation) (node : Int) (slot : Nat) :
    List (PortType × Ref) → Derivation
  | [] => d
  | (expected, source) :: rest =>
    (d.checkSlot node slot expected source).checkSlots node (slot + 1) rest

/-- Checks one node, whose symbols get the given suffix. -/
def Derivation.checkNode (d : Derivation) (suffix : String) (n : Node α) : Derivation :=
  match n.operator with
  | none => { d with templates := d.templates ++ [(n.id, n.template)] }
  | some op =>
    let d := { d with templates := d.templates ++ [(n.id, op.outType.freshen suffix)] }
    if n.inputs.length ≠ op.arity then
      d.report {
        slot := min n.inputs.length op.arity, expected := none, actual := none, node := n.id,
        reason := .arity op.name op.arity n.inputs.length }
    else d.checkSlots n.id 0 ((op.inTypes.map (·.freshen suffix)).zip n.inputs)

/-- Checks nodes from left to right, counting nodes from `place`. -/
def Derivation.checkNodes (d : Derivation) (place : Nat) : List (Node α) → Derivation
  | [] => d
  | n :: rest => (d.checkNode ("v" ++ toString place) n).checkNodes (place + 1) rest

/-- Everything that follows from the wiring alone. -/
def derive (g : Network α) : Derivation :=
  match g.order with
  | .error f =>
    match f.cause with
    | .slot e => Derivation.empty.report e
    | _ => .empty
  | .ok order =>
    let start : Derivation :=
      if g.outputId.isNone then
        Derivation.empty.report
          { slot := -1, expected := none, actual := none, node := none, reason := .noOutput }
      else .empty
    start.checkNodes 0 (order.filterMap g.find?)

/-- All slots that do not accept what is wired into them. -/
def errors (g : Network α) : List SlotError :=
  g.derive.errors

/-- The errors of a network whose inputs can all be looked up, put into words. -/
def validate (g : Network α) : Except Fault (List SlotError) := do
  g.nodes.forM fun n => n.inputs.forM Ref.check
  requireWritable (g.errors.all SlotError.isWritable)
  return g.errors

end OperatorNet.Network
