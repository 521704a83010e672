import OperatorNet.Network.Order

/-!
# Running networks

The live nodes are evaluated in order. A fault of an operator is passed on with a note that names
the node.
-/

namespace OperatorNet.Network

variable {α : Type}

/-- The values of the inputs: by name, or in the order of the inputs. -/
inductive Feeding (α : Type) where
  | named (values : List (String × Signal α))
  | ordered (values : List (Signal α))

/-- The values of the inputs by name. -/
def feedingByName (g : Network α) : Feeding α → Except Fault (List (String × Signal α))
  | .named values => .ok values
  | .ordered values => do
    let pairs ← (g.inputIds.zip values).mapM fun p => do
      return ((← g.node p.1).name, p.2)
    return (Table.ofList pairs).entries

/-- Values by node, in the order in which they were found. -/
abbrev Values (α : Type) := List (Ref × Signal α)

/-- The value of a node. -/
def Values.get? (values : Values α) (r : Ref) : Option (Signal α) :=
  (values.find? fun p => p.1.same r).map Prod.snd

/-- The note on a fault of the operator of a node. -/
def executionNote (g : Network α) (r : Ref) (n : Node α) : String :=
  "while executing node " ++ r.shown ++ " (operator '" ++ n.name ++ "') in graph '" ++ g.id ++ "'"

/-- The value of a node, given the values of nodes before it. -/
def evaluateNode (g : Network α) (inputs : List (String × Signal α)) (values : Values α) (r : Ref)
    (n : Node α) : Except Fault (Signal α) :=
  match n.operator with
  | none =>
    match fetch n.name inputs with
    | some v => .ok v
    | none => fail (.missingValue n.name)
  | some op => do
    let args ← n.inputs.mapM fun s =>
      match values.get? s with
      | some v => Except.ok v
      | none => fail (.missingKey s.shown)
    (op.evaluate args n.overrides).mapError fun f => (f.noted (g.executionNote r n)).locate r

/-- The values of nodes from left to right, after those of earlier nodes. -/
def evaluateFrom (g : Network α) (inputs : List (String × Signal α)) (values : Values α) :
    List Ref → Except Fault (Values α)
  | [] => .ok values
  | r :: rest => do
    let v ← g.evaluateNode inputs values r (← g.nodeAt r)
    g.evaluateFrom inputs (values ++ [(r, v)]) rest

/-- The values of all live nodes, in order. -/
def evaluateNodes (g : Network α) (inputs : Feeding α) : Except Fault (Values α) := do
  let live ← g.live
  let named ← g.feedingByName inputs
  g.evaluateFrom named [] (← g.orderOf live)

/-- The value of the output. -/
def execute (g : Network α) (inputs : Feeding α) : Except Fault (Signal α) := do
  let values ← g.evaluateNodes inputs
  let id := (← g.output).id
  match values.get? (.id id) with
  | some v => return v
  | none => fail (.missingKey (toString id))

end OperatorNet.Network
