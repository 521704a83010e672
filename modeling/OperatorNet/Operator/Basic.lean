import OperatorNet.Fault
import OperatorNet.Signal
import OperatorNet.Tensor.Read

/-!
# Operators

An operator is a typed box with declared costs, default parameters and, possibly, an executor that
does its numerical work. The executor is opaque: it maps inputs and parameters to a value, may pull
a gradient back, and may bound how much the box stretches distances.
-/

namespace OperatorNet

variable {α : Type}

/-- The value of a parameter: any document, a number on its own that was an entry of an array, or an
array. Only arrays of real numbers are trained. -/
inductive Param (α : Type) where
  | data (d : Data α)
  | entry (d : Data α)
  | array (s : Signal α)

instance : Inhabited (Param α) := ⟨.data .null⟩

/-- Parameters by name. -/
abbrev Params (α : Type) := Table String (Param α)

namespace Param

/-- The document of a parameter. -/
def toData : Param α → Data α
  | data d | entry d => d
  | array s => s.toData

/-- Whether a parameter is something with parts, or once was part of an array. -/
def canBeCopied : Param α → Bool
  | array _ | entry _ | data (.list _) | data (.mapping _) => true
  | data _ => false

/-- A parameter as an array. -/
def toSignal [Scalar α] : Param α → Except Fault (Signal α)
  | array s => .ok s
  | data d | entry d => .reals <$> Tensor.ofData Tensor.numberLeaf d

/-- The tensor of a parameter that can be trained. -/
def tensor? : Param α → Option (Tensor α)
  | array (.reals t) => some t
  | _ => none

end Param

/-- The document of parameters. -/
def paramsData (params : Params α) : Data α :=
  .mapping (params.entries.map fun p => (p.1, p.2.toData))

/-- The gradients of the inputs, where there are any, and of parameters by name. -/
abbrev Pullback (α : Type) := List (Option (Signal α)) × List (String × Signal α)

/-- What does the numerical work of an operator. -/
structure Executor (α : Type) where
  evaluate : List (Signal α) → Params α → Except Fault (Signal α)
  /-- The gradients, from inputs, parameters, output and the gradient of the output. -/
  pullback? : Option
    (List (Signal α) → Params α → Signal α → Signal α → Except Fault (Pullback α))
  /-- A Lipschitz bound, where one is known. -/
  bound : Params α → Except Fault (Option α)

/-- A typed box: an atom, a combinator of several inputs, or an adapter between types. -/
structure Operator (α : Type) where
  name : String
  inTypes : List PortType
  outType : PortType
  differentiable : Bool
  invariance : TagSet
  stability : Option α
  cost : Table String α
  params : Params α
  adapter : Bool
  executor : Option (Executor α)

namespace Operator

/-- Number of inputs. -/
def arity (op : Operator α) : Nat :=
  op.inTypes.length

/-- An operator of several inputs. -/
def isCombinator (op : Operator α) : Bool :=
  1 < op.arity

/-- The input and output types together. -/
def types (op : Operator α) : List PortType :=
  op.inTypes ++ [op.outType]

/-- Whether gradients can be pulled back through the operator. -/
def mixes (op : Operator α) : Bool :=
  op.differentiable && (op.executor.bind (·.pullback?)).isSome

/-- The declared cost in a metric, zero if there is none. -/
def costOf [Zero α] (op : Operator α) (metric : String) : α :=
  (op.cost.get? metric).getD 0

/-- The default parameters overridden by others. -/
def mergedParams (op : Operator α) (overrides : Params α) : Params α :=
  op.params.insertAll overrides.entries

/-- The declared Lipschitz bound, else the executor's, else nothing. -/
def lipschitz (op : Operator α) (overrides : Params α) : Except Fault (Option α) :=
  match op.stability with
  | some s => .ok (some s)
  | none =>
    match op.executor with
    | some e => e.bound (op.mergedParams overrides)
    | none => .ok none

/-- The value on given inputs. -/
def evaluate (op : Operator α) (inputs : List (Signal α)) (overrides : Params α) :
    Except Fault (Signal α) :=
  match op.executor with
  | some e => e.evaluate inputs (op.mergedParams overrides)
  | none => fail (.noExecutor op.name)

/-- The gradients of inputs and parameters. -/
def pullback (op : Operator α) (inputs : List (Signal α)) (overrides : Params α)
    (output gradient : Signal α) : Except Fault (Pullback α) :=
  match op.differentiable, op.executor.bind (·.pullback?) with
  | true, some f => f inputs (op.mergedParams overrides) output gradient
  | _, _ => fail (.notDifferentiable op.name)

/-- The default parameters that can be trained. -/
def trainable (op : Operator α) : List (String × Tensor α) :=
  op.params.entries.filterMap fun p => p.2.tensor?.map fun t => (p.1, t)

/-- The document of an operator. -/
def toData (op : Operator α) : Data α :=
  .mapping [("name", .text op.name), ("in_types", .list (op.inTypes.map PortType.toData)),
    ("out_type", op.outType.toData), ("differentiable", .bool op.differentiable),
    ("invariance", .texts op.invariance.tags),
    ("stability", (op.stability.map Data.real).getD .null),
    ("cost", .mapping (op.cost.entries.map fun p => (p.1, .real p.2))),
    ("params", paramsData op.params), ("adapter", .bool op.adapter)]

end Operator

end OperatorNet
