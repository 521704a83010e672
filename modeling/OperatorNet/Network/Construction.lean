import OperatorNet.Network.Basic

/-!
# Building networks

A call that adds a node unifies every slot with what is wired into it. Where that fails, the first
adapter of the catalog that fits is put in between. A call either succeeds or ends with a fault, and
then there is no new network.
-/

namespace OperatorNet.Network

variable {α : Type}

/-- Adds an input whose type uses the symbols of the network. -/
def addInput (g : Network α) (name : String) (type : PortType) :
    Except Fault (Int × Network α) :=
  if (g.nodes.filter fun n => n.id ∈ g.inputIds).any (·.name = name) then
    fail (.duplicateInput name)
  else
    let b := g.bindings.meet (type.shape.flatMap Dim.symbols)
    let node : Node α :=
      { id := g.nextId, name, operator := none, inputs := [], template := type,
        resolved := b.resolveType type, params := some .empty, inserted := false }
    .ok (g.nextId, { g with
      nodes := g.nodes ++ [node], bindings := b, nextId := g.nextId + 1,
      inputIds := g.inputIds ++ [g.nextId] })

/-- How a slot is fed: by a node, or by an adapter that reads from a node. -/
inductive Feed (α : Type) where
  | direct (source : Int)
  | adapted (adapter : Operator α) (source : Int) (type : PortType)

/-- The first adapter from one type to another, using one suffix. -/
def findAdapter (suffix : String) (b : Bindings) (actual expected : PortType) :
    List (Operator α) → Except Fault (Option (Operator α × PortType × Bindings))
  | [] => .ok none
  | a :: rest => do
    let input := (← a.firstInput).freshen suffix
    let out := a.outType.freshen suffix
    match b.unifySlots? [(input, actual), (expected, out)] with
    | some b' => return some (a, out, b')
    | none => findAdapter suffix b actual expected rest

/-- Feeds slots from left to right, counting slots from `slot`. -/
def feed (g : Network α) (adapters : List (Operator α)) (slot : Nat) (b : Bindings)
    (suffixes : Nat) : List (PortType × Int) → Except Fault (List (Feed α) × Bindings × Nat)
  | [] => .ok ([], b, suffixes)
  | (expected, source) :: rest => do
    let actual := (← g.node source).template
    match b.unify expected actual with
    | .ok b' =>
      let (feeds, b'', s) ← g.feed adapters (slot + 1) b' suffixes rest
      return (.direct source :: feeds, b'', s)
    | .error reason =>
      match ← findAdapter (toString suffixes) b actual expected adapters with
      | some (a, type, b') =>
        let (feeds, b'', s) ← g.feed adapters (slot + 1) b' (suffixes + 1) rest
        return (.adapted a source type :: feeds, b'', s)
      | none =>
        fail (.slot {
          slot, expected := some (b.resolveType expected), actual := some (b.resolveType actual),
          node := none, reason := .mismatch reason })

/-- Puts the adapters of the feeds into the network; the result lists what feeds each slot. -/
def place (g : Network α) : List (Feed α) → List Int × Network α
  | [] => ([], g)
  | .direct source :: rest =>
    let (sources, g') := g.place rest
    (source :: sources, g')
  | .adapted a source type :: rest =>
    let node : Node α :=
      { id := g.nextId, name := a.name, operator := some a, inputs := [.id source],
        template := type, resolved := type, params := some .empty, inserted := true }
    let (sources, g') :=
      ({ g with nodes := g.nodes ++ [node], nextId := g.nextId + 1 } : Network α).place rest
    (g.nextId :: sources, g')

/-- Adds a use of an operator that reads from the nodes with the given ids. -/
def addNode [Scalar α] (g : Network α) (c : Catalog α) (op : Operator α) (sources : List Int)
    (params : Params α) : Except Fault (Int × Network α) := do
  let sources ← sources.mapM g.locate
  if sources.length ≠ op.arity then
    fail (.slot {
      slot := min sources.length op.arity, expected := none, actual := none, node := none,
      reason := .arity op.name op.arity sources.length })
  let suffix := toString g.suffixes
  let slots := (op.inTypes.map (·.freshen suffix)).zip sources
  let (feeds, b, suffixes) ← g.feed c.adapters 0 g.bindings (g.suffixes + 1) slots
  let (inputs, g') := g.place feeds
  let type := op.outType.freshen suffix
  let node : Node α :=
    { id := g'.nextId, name := op.name, operator := some op, inputs := inputs.map .id,
      template := type, resolved := type, params := some params, inserted := false }
  return (g'.nextId, ({ g' with
    nodes := g'.nodes ++ [node], nextId := g'.nextId + 1, suffixes, bindings := b } :
      Network α).refresh)

/-- Chooses the output. -/
def setOutput (g : Network α) (id : Int) : Except Fault (Network α) := do
  return { g with outputId := some (← g.locate id) }

end OperatorNet.Network
