import OperatorNet.Network.Execution
import OperatorNet.Search.Relaxation.Basic
import OperatorNet.Tensor.Solve

/-!
# Scoring networks

A network is scored by how well a linear readout of its output predicts held-out targets. The
columns of the output are centred and scaled by what they are on the training data, a column of ones
is added, and the readout is solved for with a ridge. Features that are not finite score worst.
-/

namespace OperatorNet

variable {α : Type} [Scalar α]

/-- The output of a network on given inputs, one row per example. -/
def Network.features (g : Network α) (inputs : Signal α) : Except Fault (Tensor α) := do
  (← g.execute (.ordered [inputs])).toReals.flattened

/-- The mean and the deviation of the columns of a matrix; a column that never varies has
deviation one. -/
def columnScales (t : Tensor α) : Tensor α × Tensor α :=
  let mean := fun (xs : List α) => Scalar.divNat (Scalar.sum xs) xs.length
  let deviation := fun (xs : List α) =>
    let m := mean xs
    let d := Scalar.sqrt (mean (xs.map fun x => (x - m) * (x - m)))
    if Scalar.same d 0 then 1 else d
  (t.foldAxis mean 0, t.foldAxis deviation 0)

/-- Centres and scales the columns of a matrix, and adds a column of ones. -/
def standardized (scales : Tensor α × Tensor α) (t : Tensor α) : Except Fault (Tensor α) := do
  let z ← (← t.combined (· - ·) scales.1).combined (· / ·) scales.2
  return .ofFn [z.axis 0, z.axis 1 + 1] fun place =>
    if place.getD 1 0 < z.axis 1 then z.get place else 1

/-- The coefficients of a linear readout, with a ridge. -/
def ridgeReadout (ridge : α) (features targets : Tensor α) : Except Fault (Tensor α) := do
  let side ← features.transpose.product features
  let n := side.axis 0
  let gram : Tensor α := .ofFn [n, n] fun place =>
    side.get place + ridge * if place[0]? = place[1]? then 1 else 0
  gram.solve (← features.transpose.product targets)

/-- The score of a network on held-out data; less is better. -/
def ridgeScore (objective : Objective α) (train val : Dataset α) (ridge : Except Fault α)
    (g : Network α) : Except Fault α := do
  let fitted ← g.features train.inputs
  let held ← g.features val.inputs
  if !(fitted.toList ++ held.toList).all Scalar.isFinite then return Scalar.infinity
  let scales := columnScales fitted
  let rows ← standardized scales fitted
  let heldRows ← standardized scales held
  let targets ← objective.encode train.targets
  let coefficients ← ridgeReadout (← ridge) rows targets
  objective.score val.targets (.reals (← heldRows.product coefficients))

end OperatorNet
