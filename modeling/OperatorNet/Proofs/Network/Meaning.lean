import OperatorNet.Proofs.Network.Evaluation
import OperatorNet.Proofs.Network.Relevance

/-!
# The meaning of networks

A node means what is fed in under its name, or what its operator makes of what its sources mean
(`Means`). Where no live node fails, a run gives every live node its meaning, and nothing else; else
it ends with the fault of the first node in order that fails (`Standing.exists_runsThrough`). What
is not live has no part in it.
-/

namespace OperatorNet

namespace Network

variable {α : Type}

/-- The meaning of a node: what is fed in, or what its operator makes of the meanings of its
sources. -/
inductive Means (g : Network α) (inputs : List (String × Signal α)) : Int → Signal α → Prop
  | input {n v} : n ∈ g.nodes → n.operator = none → fetch n.name inputs = some v →
    Means g inputs n.id v
  | use {n op args v} : n ∈ g.nodes → n.operator = some op →
    List.Forall₂ (Means g inputs) n.sources args →
      op.evaluate args n.overrides = .ok v → Means g inputs n.id v

/-- A node fails although its sources have their meanings. A fault of an operator is noted, and says
where it arose unless it does so already. -/
inductive Fails (g : Network α) (inputs : List (String × Signal α)) (r : Ref) (n : Node α) :
    Fault → Prop
  | input : n.operator = none → fetch n.name inputs = none →
    Fails g inputs r n (.of (.missingValue n.name))
  | use {op args f} : n.operator = some op → List.Forall₂ (g.Means inputs) n.sources args →
      op.evaluate args n.overrides = .error f →
      Fails g inputs r n
        { cause := f.cause, node := if f.placed then f.node else some r
          notes := f.notes ++ [g.executionNote r n] }

variable {g g' : Network α} {inputs : List (String × Signal α)} {value : Int → Signal α}
  {out m n : Node α} {nodes before after : List (Node α)} {op : Operator α} {args : List (Signal α)}
  {v v' : Signal α} {r : Ref} {refs more : List Ref} {values : Values α}

/-- A fault is that of the first node of an order that fails; those before it have their
meanings. -/
def Stops (g : Network α) (inputs : List (String × Signal α)) (nodes : List (Node α)) (e : Fault) :
    Prop :=
  ∃ before n after, nodes = before ++ n :: after ∧ (∀ m ∈ before, ∃ v, g.Means inputs m.id v) ∧
    ∃ r, r.id? = some n.id ∧ g.Fails inputs r n e

namespace Sample

/-- An operator that does something. -/
def acting (name : String) (evaluate : List (Signal Nat) → Except Fault (Signal Nat)) :
    Operator Nat :=
  { name, inTypes := [], outType := default, differentiable := false
    invariance := .empty, stability := none, cost := .empty, params := .empty, adapter := false
    executor := some ⟨fun inputs _ => evaluate inputs, none, fun _ => .ok none⟩ }

/-- A node over natural numbers. -/
def acts (id : Int) (operator : Option (Operator Nat)) (reads : List Int) : Node Nat :=
  { id, name := "x", operator, inputs := reads.map .id, template := default, resolved := default
    params := none, inserted := false }

/-- What keeps the second of its inputs. -/
def second : Node Nat :=
  acts 2 (some (acting "second" fun inputs => match inputs with
    | [_, x, _] => .ok x
    | _ => fail .wrongForm)) [1, 0, 1]

/-- What gives a number of its own. -/
def constant : Node Nat :=
  acts 1 (some (acting "constant" fun _ => .ok (.reals (.scalar 5)))) [0]

end Sample

end Network

end OperatorNet
