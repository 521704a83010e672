import OperatorNet.Operator.Operand
import OperatorNet.Tensor.Axis

/-!
# Elementary executors

Executors for the simplest operators on rows of examples: copies, multiples, products with
parameters, means over the steps of a path, and ways to put paths together. Each comes with the
gradients of its inputs and parameters, where it has any.
-/

namespace OperatorNet.Elementary

variable {α : Type} [Scalar α]

/-- The value on some inputs with some parameters. -/
abbrev Evaluation (α : Type) := List (Signal α) → Params α → Except Fault (Signal α)

/-- The gradients, from inputs, parameters, output and the gradient of the output. -/
abbrev Gradients (α : Type) :=
  List (Signal α) → Params α → Signal α → Signal α → Except Fault (Pullback α)

/-- An executor by its value and its gradients; no bound is known. -/
def executor (evaluate : Evaluation α) (pullback? : Option (Gradients α)) : Executor α :=
  ⟨evaluate, pullback?, fun _ => .ok none⟩

/-- The first input. -/
def first (inputs : List (Signal α)) : Except Fault (Signal α) :=
  match inputs with
  | x :: _ => .ok x
  | [] => fail (.numeric .place)

/-- A parameter as an operand. -/
def operand (params : Params α) (name : String) : Except Fault (Operand α) :=
  match params.get? name with
  | some p => p.toOperand
  | none => fail (.executor "KeyError" none)

/-- A value that only depends on the first input. -/
def ofFirst (f : Signal α → Except Fault (Signal α)) : Evaluation α :=
  fun inputs _ => do f (← first inputs)

/-- Gradients that only depend on the first input. -/
def pullFirst (f : Signal α → Signal α → Except Fault (Signal α)) : Gradients α :=
  fun inputs _ _ g => do return ([some (← f (← first inputs) g)], [])

/-- The gradient as it is. -/
def pass : Gradients α :=
  pullFirst fun _ g => .ok g

/-- Applies a function to the entries as real numbers. -/
def onReals (f : α → α) (x : Signal α) : Signal α :=
  .reals (x.toReals.map f)

/-- Twice a signal. -/
def twice (x : Signal α) : Signal α :=
  onReals (fun v => v + v) x

/-- Half of a signal. -/
def half (x : Signal α) : Signal α :=
  onReals (Scalar.divNat · 2) x

/-- The size of the second axis. -/
def steps (x : Signal α) : Nat :=
  x.shape.getD 1 0

/-- Demands a second axis. -/
def needSteps (flaw : NumericFlaw) (x : Signal α) : Except Fault Unit :=
  if 1 < x.shape.length then .ok () else fail (.numeric flaw)

/-- The mean over the second axis. -/
def mean (x : Signal α) : Except Fault (Signal α) := do
  needSteps .axis x
  return .reals (x.toReals.foldAxis (fun xs => Scalar.divNat (Scalar.sum xs) xs.length) 1)

/-- The mean of the squares over the second axis. -/
def energy (x : Signal α) : Except Fault (Signal α) := do
  mean (← x.mul x)

/-- A signal several times along a new second axis. -/
def along (n : Nat) (g : Signal α) : Except Fault (Signal α) := do
  needSteps .place g
  return g.apply (Tensor.repeated 1 n)

/-- A signal divided by the number of steps of another one. -/
def perStep (x y : Signal α) : Except Fault (Signal α) := do
  needSteps .place x
  return onReals (Scalar.divNat · (steps x)) y

/-- The gradient of the sum of squares over the steps. -/
def pullSquares (x g : Signal α) : Except Fault (Signal α) := do
  (twice (← along 1 g)).mul x

/-- A part of the second axis. -/
def part (x : Signal α) (start n : Nat) : Signal α :=
  x.apply (Tensor.slice 1 start n)

/-- The parts of a gradient that belong to inputs one after the other. -/
def parts (g : Signal α) (start : Nat) : List (Signal α) → List (Option (Signal α))
  | [] => []
  | y :: ys => some (part g start (steps y)) :: parts g (start + steps y) ys

/-- Two equal columns. -/
def columns (v : α) (x : Signal α) : Except Fault (Signal α) :=
  match x.shape with
  | n :: _ => .ok (.reals (.full [n, 2] v))
  | [] => fail (.numeric .place)

/-- The gradients of the product with the parameter `scale`, and further ones. -/
def pullScale (more : List (String × Signal α)) : Gradients α :=
  fun inputs params _ g => do
    let x ← first inputs
    let gx ← (← operand params "scale").timesIn g
    return ([some gx], ("scale", (← g.mul x).apply Tensor.totalRow) :: more)

/-- The gradients of the product with `w` plus `b`. -/
def pullAffine : Gradients α := fun inputs params _ g => do
  let x ← first inputs
  let gx ← (← operand params "w").timesIn g
  return ([some gx],
    [("w", (← g.mul x).apply Tensor.columnSums), ("b", g.apply Tensor.columnSums)])

/-- The product with the parameter `scale`. -/
def scale : Evaluation α := fun inputs params => do
  let x ← first inputs
  (← operand params "scale").timesIn x

/-- The product with the parameter `w` plus the parameter `b`. -/
def affine : Evaluation α := fun inputs params => do
  let x ← (← operand params "w").timesIn (← first inputs)
  (← operand params "b").plusIn x

/-- The gradient of the means and the mean squares together. -/
def pullStats (x g : Signal α) : Except Fault (Signal α) := do
  let c := x.shape.getLastD 0
  perStep x (← (← along 1 (part g 0 c)).add (← pullSquares x (part g c (steps g - c))))

/-- The elementary executors by their names. -/
def executors : List (String × Executor α) := [
  ("identity", executor (ofFirst .ok) (some pass)),
  ("half", executor (ofFirst (.ok ∘ half)) (some (pullFirst fun _ g => .ok (half g)))),
  ("square", executor (ofFirst fun x => x.mul x) (some (pullFirst fun x g => (twice g).mul x))),
  ("nograd", executor (ofFirst .ok) (some fun _ _ _ _ => .ok ([none], []))),
  ("scale", executor scale (some (pullScale []))),
  ("scale_x", executor scale (some (pullScale [("other", .reals (.ofList [1]))]))),
  ("affine", executor affine (some pullAffine)),
  ("mean1", executor (ofFirst mean)
    (some (pullFirst fun x g => do perStep x (← along (steps x) g)))),
  ("energy", executor (ofFirst energy)
    (some (pullFirst fun x g => do perStep x (← pullSquares x g)))),
  ("stats", executor (ofFirst fun x => do
      Signal.combine (Tensor.joined 1) [← mean x, ← energy x]) (some (pullFirst pullStats))),
  ("trim", executor
    (ofFirst fun x => do
      needSteps .place x
      return part x 0 (steps x - 1))
    (some (pullFirst fun _ g => do
      needSteps .place g
      return g.apply (Tensor.extended 1 1)))),
  ("concat", executor
    (fun inputs _ => do
      let _ ← first inputs
      Signal.combine (Tensor.joined 1) inputs)
    (some fun inputs _ _ g => .ok (parts g 0 inputs, []))),
  ("add", executor (fun inputs _ => do inputs.tail.foldlM Signal.add (← first inputs))
    (some fun inputs _ _ g => .ok (inputs.map fun _ => some g, []))),
  ("first", executor (ofFirst .ok)
    (some fun inputs _ _ g =>
      .ok (inputs.mapIdx fun i _ => if i = 0 then some g else none, []))),
  ("mean_abs", executor (ofFirst fun x => mean x.magnitudes) none),
  ("last", executor
    (ofFirst fun x => do
      if steps x = 0 then fail (.numeric .place)
      return x.apply (Tensor.at_ 1 (steps x - 1)))
    none),
  ("diff1", executor
    (ofFirst fun x => do
      needSteps .place x
      (part x 1 (steps x - 1)).sub (part x 0 (steps x - 1)))
    none),
  ("nan", executor (ofFirst (columns (0 / 0))) none),
  ("zero", executor (ofFirst (columns 0)) none),
  ("bare", executor (ofFirst .ok) none),
  ("bare_vjp", executor (ofFirst .ok) (some pass)),
  ("doubler", executor (ofFirst (.ok ∘ twice)) (some (pullFirst fun _ g => .ok (twice g))))]

end OperatorNet.Elementary
