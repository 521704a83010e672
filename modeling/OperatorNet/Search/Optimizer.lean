import OperatorNet.Number
import OperatorNet.Tensor.Arithmetic

/-!
# Optimizers

Steps along gradients. How a step is taken is given with the search (`Optimizer`): it goes by what
is remembered of a tensor. Every key has a memory of its own, which begins anew when the key is
forgotten or its tensor changes shape (`KeyedOptimizer`). One way to take steps is along running
averages of the gradients and of their squares (`Optimizer.adam`).
-/

namespace OperatorNet

/-- What is remembered of a tensor: how many steps were taken, and tensors. -/
structure Memory (α : Type) where
  steps : Nat
  tensors : List (Tensor α)

/-- How steps along gradients are taken. -/
structure Optimizer (α : Type) where
  /-- Whether steps can be taken at a rate. -/
  accepts : Number α → Bool
  /-- What is remembered of a tensor of some shape before the first step. -/
  fresh : List Nat → Memory α
  /-- What is remembered after one more gradient. -/
  remember : Memory α → Tensor α → Memory α
  /-- A tensor after a step at a rate, by what is remembered. -/
  step : α → Memory α → Tensor α → Tensor α
  shape_step {rate : α} {memory : Memory α} {value : Tensor α} :
    (step rate memory value).shape = value.shape

/-- The memory of a tensor of some shape. -/
structure Slot (α : Type) where
  shape : List Nat
  memory : Memory α

/-- A way to take steps at a learning rate, with memories by key. -/
structure KeyedOptimizer (κ α : Type) where
  optimizer : Optimizer α
  /-- A value that is no number is a fault when the rate is first used. -/
  rate : Except Fault (Number α)
  slots : Table κ (Slot α)

namespace KeyedOptimizer

variable {κ α : Type} [DecidableEq κ]

/-- Steps at a given learning rate, before any gradient. -/
def start (optimizer : Optimizer α) (rate : Except Fault (Number α)) : KeyedOptimizer κ α :=
  ⟨optimizer, rate, .empty⟩

/-- Whether a key has a memory. -/
def contains (a : KeyedOptimizer κ α) (key : κ) : Bool :=
  a.slots.contains key

/-- Drops the memory of a key. -/
def forget (a : KeyedOptimizer κ α) (key : κ) : KeyedOptimizer κ α :=
  { a with slots := a.slots.erase key }

/-- The rate, and the memory of a key for tensors of a given shape, which may begin anew. -/
def prepared (a : KeyedOptimizer κ α) (key : κ) (shape : List Nat) :
    Except Fault (Number α × Memory α) := do
  let rate ← a.rate
  match (a.slots.get? key).filter (·.shape = shape) with
  | some slot => return (rate, slot.memory)
  | none =>
    if a.optimizer.accepts rate then return (rate, a.optimizer.fresh shape) else fail .learningRate

variable [Scalar α]

/-- One step of the tensor of a key along a gradient that is stretched to its shape. A single
number, or a rate beyond all real numbers, begins a memory but cannot take a step. -/
def update (a : KeyedOptimizer κ α) (key : κ) (value gradient : Tensor α) :
    Except Fault (Tensor α) × KeyedOptimizer κ α :=
  let noting := fun memory => { a with slots := a.slots.insert key ⟨value.shape, memory⟩ }
  match gradient.stretched value.shape, a.prepared key value.shape with
  | .error f, _ | .ok _, .error f => (.error f, a)
  | .ok g, .ok (rate, memory) =>
    if value.rank = 0 then (fail (.numeric .rank), noting memory)
    else
      let memory := a.optimizer.remember memory (g.map Scalar.finitize)
      (rate.toReal.map fun x => a.optimizer.step x memory value, noting memory)

end KeyedOptimizer

/-! ### Running averages -/

/-- A tensor that is changed by another one keeps its shape. -/
theorem Tensor.shape_combineAt {α β γ : Type} [Zero α] [Zero β] {f : α → β → γ} {a : Tensor α}
    {b : Tensor β} : (combineAt f a b).shape = a.shape := by
  unfold combineAt
  split <;> rfl

namespace Optimizer

variable {α : Type} [Scalar α]

/-- How much of the first average a step keeps. -/
def firstDecay : α :=
  Scalar.ofScientific 9 true 1

/-- How much of the second average a step keeps. -/
def secondDecay : α :=
  Scalar.ofScientific 999 true 3

/-- How much of its final size an average has after a number of steps. -/
def correction (decay : α) (steps : Nat) : α :=
  1 - Scalar.pow decay (Scalar.ofNat steps)

/-- The step to be taken at a rate after a number of steps, by the averages at one place. -/
def direction (steps : Nat) (rate a v : α) : α :=
  let size := Scalar.sqrt v / Scalar.sqrt (correction secondDecay steps)
    + Scalar.ofScientific 1 true 8
  rate / correction firstDecay steps * (a / size)

/-- Running averages of the gradients and of their squares after one more gradient. -/
def averages (memory : Memory α) (gradient : Tensor α) : Memory α :=
  let average := fun (place : Nat) => memory.tensors.getD place (.full gradient.shape 0)
  { steps := memory.steps + 1
    tensors :=
      [(average 0).combineAt (fun a g => a + (g - a) * (1 - firstDecay)) gradient,
        (average 1).combineAt (fun v g => v * secondDecay + (1 - secondDecay) * g * g) gradient] }

/-- The tensor after the step that running averages give. -/
def follow (rate : α) (memory : Memory α) (value : Tensor α) : Tensor α :=
  match memory.tensors with
  | [first, second] =>
    value.combineAt (· - ·) (first.combineAt (direction memory.steps rate) second)
  | _ => value

/-- A step along running averages keeps the shape of a tensor. -/
theorem shape_follow {rate : α} {memory : Memory α} {value : Tensor α} :
    (follow rate memory value).shape = value.shape := by
  unfold follow
  split
  · exact Tensor.shape_combineAt
  · rfl

/-- Steps along running averages of the gradients, each weighed by the size of its squares. -/
def adam : Optimizer α where
  accepts rate := (Number.whole 0).atMost rate
  fresh shape := ⟨0, [.full shape 0, .full shape 0]⟩
  remember := averages
  step := follow
  shape_step := shape_follow

end Optimizer

end OperatorNet
