import OperatorNet.Catalog.Lookup
import OperatorNet.Data.Number
import OperatorNet.Ref.Find

/-!
# Networks

A network wires operators to one another and to its inputs. Each node knows what it reads from, the
type of its value over the symbols of the network, and that type with everything known about the
symbols put in. Nodes are kept in ascending order of their ids.
-/

namespace OperatorNet

variable {α : Type}

/-- An input, or one use of an operator. -/
structure Node (α : Type) where
  id : Int
  name : String
  /-- Absent for an input. -/
  operator : Option (Operator α)
  inputs : List Ref
  /-- The type of the value over the symbols of the network. -/
  template : PortType
  /-- The same type as far as it is known. -/
  resolved : PortType
  /-- The parameters of this use, where they are recorded. -/
  params : Option (Params α)
  /-- Whether the node was put in between to adapt a type. -/
  inserted : Bool

/-- A wiring of operators with inputs and, once it is complete, one output. -/
structure Network (α : Type) where
  id : String
  metadata : Table String (Data α)
  nodes : List (Node α)
  bindings : Bindings
  nextId : Int
  /-- Number of suffixes used up for local symbols. -/
  suffixes : Nat
  inputIds : List Int
  outputId : Option Int

namespace Node

/-- An input of the network. -/
def isInput (n : Node α) : Bool :=
  n.operator.isNone

/-- The ids of the nodes that are read; what equals no id is left out. -/
def sources (n : Node α) : List Int :=
  n.inputs.filterMap Ref.id?

/-- The parameters that override those of the operator. -/
def overrides (n : Node α) : Params α :=
  n.params.getD .empty

/-- The cost of the operator of a node; inputs cost nothing. -/
def costOf [Zero α] (n : Node α) (metric : String) : α :=
  (n.operator.map (·.costOf metric)).getD 0

/-- The node with its type as far as it is known. -/
def refresh (b : Bindings) (n : Node α) : Node α :=
  { n with resolved := b.resolveType n.template }

end Node

namespace Network

/-- The network without nodes. -/
def empty (id : String) : Network α :=
  { id, metadata := .empty, nodes := [], bindings := .empty, nextId := 0, suffixes := 0,
    inputIds := [], outputId := none }

instance : Inhabited (Network α) := ⟨empty ""⟩

/-- The ids of all nodes. -/
def ids (g : Network α) : List Int :=
  g.nodes.map (·.id)

/-- The node with a given id. -/
def find? (g : Network α) (id : Int) : Option (Node α) :=
  g.nodes.find? (·.id = id)

/-- The node with a given id, which must be there. -/
def node (g : Network α) (id : Int) : Except Fault (Node α) :=
  match g.find? id with
  | some n => .ok n
  | none => fail (.missingKey (toString id))

/-- The node that a reference equals the id of, which must be there. -/
def nodeAt (g : Network α) (r : Ref) : Except Fault (Node α) :=
  r.find g.find?

/-- What a node reads from. -/
def inputs (g : Network α) (id : Int) : List Ref :=
  ((g.find? id).map (·.inputs)).getD []

/-- The ids of the nodes that a node reads from. -/
def sources (g : Network α) (id : Int) : List Int :=
  (g.inputs id).filterMap Ref.id?

/-- Changes the node with a given id. -/
def modify (g : Network α) (id : Int) (f : Node α → Node α) : Network α :=
  { g with nodes := g.nodes.map fun n => if n.id = id then f n else n }

/-- The output node. -/
def output (g : Network α) : Except Fault (Node α) :=
  match g.outputId with
  | some id => g.node id
  | none => fail (.noOutput g.id)

/-- All wires: source, target and slot, in the order of the targets. -/
def edges (g : Network α) : List (Ref × Int × Nat) :=
  g.nodes.flatMap fun n => n.inputs.mapIdx fun slot source => (source, n.id, slot)

/-- The input nodes in the order in which they were added. -/
def inputNodes (g : Network α) : Except Fault (List (Node α)) :=
  g.inputIds.mapM g.node

/-- The nodes that use an operator. -/
def operatorNodes (g : Network α) : List (Node α) :=
  g.nodes.filter fun n => !n.isInput

/-- The adapters that were put in between. -/
def adapterNodes (g : Network α) : List (Node α) :=
  g.nodes.filter (·.inserted)

/-- Checks that a node with a given id is part of the network. -/
def locate (g : Network α) (id : Int) : Except Fault Int :=
  if id ∈ g.ids then .ok id else fail (.notInNetwork id g.id)

/-- Brings the known types of all nodes up to date. -/
def refresh (g : Network α) : Network α :=
  { g with
    nodes := g.nodes.map (Node.refresh g.bindings)
    bindings := g.bindings.meet (g.nodes.flatMap fun n => n.template.shape.flatMap Dim.symbols) }

/-- The id of the node that a reference stands for. -/
def locateRef (g : Network α) (ref : Data Float) : Except Fault Int := do
  g.locate (← ref.whole)

end Network

end OperatorNet
