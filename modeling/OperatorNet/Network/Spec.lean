import OperatorNet.Network.Typing
import OperatorNet.PortType.Read
import OperatorNet.Tensor.Read

/-!
# Exchanging networks

A specification holds everything about a network except its operators, which are named. It can be
checked on its own, and a catalog turns it back into a network if the wiring is well typed.
-/

namespace OperatorNet

variable {α : Type}

/-- A node with its operator named. -/
structure NodeSpec (α : Type) where
  id : Int
  name : String
  operator : Option String
  inputs : List Int
  type : PortType
  params : List (String × Data α)
  inserted : Bool

/-- A wire into a slot. -/
structure EdgeSpec where
  source : Int
  target : Int
  slot : Int

/-- A network with its operators named. -/
structure Spec (α : Type) where
  id : String
  nodes : List (NodeSpec α)
  edges : List EdgeSpec
  inputIds : List Int
  outputId : Int
  bindings : List (String × Data α)
  metadata : List (String × Data α)

namespace NodeSpec

/-- The document of a node. -/
def toData (n : NodeSpec α) : Data α :=
  .mapping [("node_id", .int n.id), ("name", .text n.name),
    ("operator", (n.operator.map Data.text).getD .null),
    ("inputs", .list (n.inputs.map .int)), ("resolved_type", n.type.toData),
    ("params", .mapping n.params), ("inserted_adapter", .bool n.inserted)]

/-- A node described by a document. -/
def ofData : Data Float → Check (NodeSpec Float) :=
  Check.record "GraphNodeSpec" fun fields =>
    (NodeSpec.mk <$> Check.required fields "node_id" Check.whole
      <*> Check.required fields "name" Check.text
      <*> Check.withDefault fields "operator" (Check.optional Check.text) none
      <*> Check.withDefault fields "inputs" (Check.list Check.whole) []
      <*> Check.required fields "resolved_type" Check.portType
      <*> Check.withDefault fields "params" (Check.mapping Check.anything) []
      <*> Check.withDefault fields "inserted_adapter" Check.truth false)
      <* Check.noOthers fields [["node_id"], ["name"], ["operator"], ["inputs"], ["resolved_type"],
        ["params"], ["inserted_adapter"]]

end NodeSpec

namespace EdgeSpec

/-- The document of a wire. -/
def toData (e : EdgeSpec) : Data α :=
  .mapping [("source", .int e.source), ("target", .int e.target), ("slot", .int e.slot)]

/-- A wire described by a document. -/
def ofData : Data Float → Check EdgeSpec :=
  Check.record "GraphEdgeSpec" fun fields =>
    (EdgeSpec.mk <$> Check.required fields "source" Check.whole
      <*> Check.required fields "target" Check.whole
      <*> Check.withDefault fields "slot" Check.whole 0)
      <* Check.noOthers fields [["source"], ["target"], ["slot"]]

end EdgeSpec

namespace Spec

/-- The document of a specification. -/
def toData (s : Spec α) : Data α :=
  .mapping [("graph_id", .text s.id), ("nodes", .list (s.nodes.map NodeSpec.toData)),
    ("edges", .list (s.edges.map EdgeSpec.toData)), ("input_ids", .list (s.inputIds.map .int)),
    ("output_id", .int s.outputId), ("bindings", .mapping s.bindings),
    ("metadata", .mapping s.metadata)]

/-- The first id that has come before. -/
def firstRepeated (seen : List Int) : List Int → Option Int
  | [] => none
  | n :: rest => if n ∈ seen then some n else firstRepeated (n :: seen) rest

/-- The first flaw of the ids of a specification: a repeated node, then what a node, an edge, the
output or an input list refers to without its being there. -/
def flaw? (s : Spec α) : Option Flaw :=
  let ids := s.nodes.map (·.id)
  let absent := fun id => !ids.contains id
  ((firstRepeated [] ids).map Flaw.repeatedNode)
    <|> (s.nodes.findSome? fun n =>
      (n.inputs.find? absent).map fun source => .missingSource n.id source (sortedIds ids))
    <|> (s.edges.find? fun e => absent e.source || absent e.target).map
      (fun e => .missingEdgeEnd e.source e.target)
    <|> (if absent s.outputId then some (.missingOutput s.outputId) else none)
    <|> (s.inputIds.find? absent).map .missingInput

/-- Checks what the ids of a specification refer to. -/
def check (s : Spec α) : Check (Spec α) :=
  match s.flaw? with
  | some f => .flawed f
  | none => .accepted s

/-- A specification described by a document. -/
def ofData (d : Data Float) : Check (Spec Float) :=
  (Check.record "GraphSpec" (fun fields =>
    (Spec.mk <$> Check.withDefault fields "graph_id" Check.text "graph"
      <*> Check.required fields "nodes" (Check.list NodeSpec.ofData)
      <*> Check.withDefault fields "edges" (Check.list EdgeSpec.ofData) []
      <*> Check.withDefault fields "input_ids" (Check.list Check.whole) []
      <*> Check.required fields "output_id" Check.whole
      <*> Check.withDefault fields "bindings" (Check.mapping Check.anything) []
      <*> Check.withDefault fields "metadata" (Check.mapping Check.anything) [])
      <* Check.noOthers fields [["graph_id"], ["nodes"], ["edges"], ["input_ids"], ["output_id"],
        ["bindings"], ["metadata"]]) d).andThen check

end Spec

namespace Node

/-- The parameters of a node by name, which must be recorded. -/
def paramsSpec (n : Node α) : Check (List (String × Data α)) :=
  match n.params with
  | some params => .accepted (params.entries.map fun p => (p.1, p.2.toData))
  | none => .flawed .notMapping

/-- A node with its operator named; its inputs must be ids or stand for some. -/
def toSpec (n : Node α) : Check (NodeSpec α) :=
  let spec := fun (inputs : List Int) (params : List (String × Data α)) =>
    ({ id := n.id, name := n.name, operator := n.operator.map (·.name), inputs, type := n.resolved,
       params, inserted := n.inserted } : NodeSpec α)
  spec <$> (Check.list Check.whole (.list (n.inputs.map Ref.toData))).under "inputs"
    <*> n.paramsSpec.under "params"

end Node

namespace Network

/-- The specification of a network with an output. -/
def toSpec (g : Network α) : Except Fault (Spec α) := do
  let nodes ← g.nodes.mapM fun n => n.toSpec.toExcept
  let out ← g.output
  requireWritable g.bindings.hasTerms
  let s : Spec α :=
    { id := g.id, nodes,
      edges := nodes.flatMap fun n => n.inputs.mapIdx fun slot source => ⟨source, n.id, slot⟩
      inputIds := g.inputIds, outputId := out.id,
      bindings := g.bindings.solution.map fun p => (p.1, p.2.toData),
      metadata := g.metadata.entries }
  s.check.toExcept

/-- The parameters of a node, with tensors where the operator's defaults have them. -/
def restoreParams [Scalar α] (op : Operator α) (params : List (String × Data α)) :
    Except Fault (Params α) := do
  let restored ← params.mapM fun p => do
    match op.params.get? p.1 with
    | some (.array (.reals _)) =>
      return (p.1, .array (.reals (← Tensor.ofData Tensor.numberLeaf p.2)))
    | some (.array (.words _)) =>
      return (p.1, .array (.words (← Tensor.ofData Tensor.wordLeaf p.2)))
    | _ => return (p.1, .data p.2)
  return .ofList restored

/-- The node of a specification, with its operator looked up. -/
def nodeOfSpec [Scalar α] (c : Catalog α) (s : NodeSpec α) : Except Fault (Node α) := do
  let operator ← s.operator.mapM c.get
  let params ← match operator with
    | some op => restoreParams op s.params
    | none => pure .empty
  return {
    id := s.id, name := s.name, operator, inputs := s.inputs.map .id, template := s.type,
    resolved := s.type, params := some params, inserted := s.inserted }

/-- The network of a specification, checked from scratch. -/
def ofSpec [Scalar α] (c : Catalog α) (s : Spec α) : Except Fault (Network α) := do
  let specs := sortBy (fun a b => decide (a.id < b.id)) s.nodes
  let nodes ← specs.mapM (nodeOfSpec c)
  let g : Network α :=
    { id := s.id, metadata := .ofList s.metadata, nodes, bindings := .empty,
      nextId := (match nodes.getLast? with
        | some n => n.id
        | none => -1) + 1,
      suffixes := 0, inputIds := s.inputIds, outputId := some s.outputId }
  let d := g.derive
  requireWritable (d.errors.all SlotError.isWritable)
  match d.errors with
  | e :: _ => fail (.slot e)
  | [] =>
    let g := ({ g with
      nodes := nodes.map fun n => { n with template := (fetch n.id d.templates).getD n.template }
      bindings := d.bindings
      suffixes := d.templates.length } : Network α).refresh
    requireWritable (g.nodes.all (·.resolved.hasTerms))
    return g

end Network

end OperatorNet
