import OperatorNet.Search.Relaxation.Forward

/-!
# Gradients of a mixture

The gradient of the loss is pulled back from the prediction through the readouts to the exits, and
from each position, in reverse order, through its candidates to what they read. A frozen position
lets no gradient through. In training the gradients of readouts and parameters are collected, in
validation those of the logits.
-/

namespace OperatorNet

/-- The loss of a prediction and its gradients. -/
structure Gradients (α : Type) where
  loss : α
  heads : List (Int × Readout α)
  params : List ((Int × String) × List (String × Tensor α))
  logits : List (Int × List α)
  route : List α

namespace Relaxation

variable {α : Type} [Scalar α]

/-- Adds a gradient to what has been collected at a key. -/
def accumulate {κ : Type} [DecidableEq κ] (key : κ) (g : Tensor α)
    (collected : List (κ × Tensor α)) : Except Fault (List (κ × Tensor α)) :=
  match fetch key collected with
  | some old => do return put key (← old.combined (· + ·) g) collected
  | none => .ok (put key g collected)

/-- What the positions behind the one at hand have left: gradients of values, of parameters and of
logits. -/
structure Pulled (α : Type) where
  values : List (Int × Tensor α)
  params : List ((Int × String) × List (String × Tensor α))
  logits : List (Int × List α)

/-- Adds the gradients that one candidate gives for its parameters and for what it reads. -/
def Pulled.add (train : Bool) (p : Position α) (acc : Pulled α) (op : Operator α)
    (pulled : Pullback α) : Except Fault (Pulled α) := do
  let params ←
    if train && !pulled.2.isEmpty then do
      let own := (fetch (p.id, op.name) acc.params).getD []
      let own ← pulled.2.foldlM (fun own q => accumulate q.1 q.2.toReals own) own
      pure (put (p.id, op.name) own acc.params)
    else pure acc.params
  let values ← (p.inputs.zip pulled.1).foldlM (fun values q =>
    match q with
    | (some s, some g) => accumulate s g.toReals values
    | _ => .ok values) acc.values
  return { acc with values, params }

/-- Pulls a gradient back through a candidate, given its share of the gradient of the position. -/
def candidatePullback (r : Relaxation α) (p : Position α) (args : List (Signal α))
    (op : Operator α) (out share : Tensor α) : Except Fault (Pullback α) :=
  (op.pullback args (r.paramsAt p.id op.name) (.reals out) (.reals share)).mapError fun f =>
    (f.noted ("while differentiating '" ++ op.name ++ "' at supergraph node "
      ++ toString p.id)).locate (.id p.id)

/-- The sum of the products of two tensors that can be stretched to one shape. -/
def pairing (a b : Tensor α) : Except Fault α := do
  return (← a.combined (· * ·) b).total

/-- Pulls the gradient of one position back. -/
def pullPosition (r : Relaxation α) (pass : Pass α) (train : Bool) (acc : Pulled α)
    (p : Position α) : Except Fault (Pulled α) := do
  match fetch p.id acc.values, fetch p.id pass.candidates with
  | some g, some own =>
    let w := pass.mixture.weights p.id
    let acc ← if train then pure acc else do
      let slopes ← own.padded.mapM (pairing g)
      own.logits.checkRow slopes.length
      pure { acc with logits := acc.logits ++ [(p.id, softmaxPullback (← r.heat) w slopes)] }
    if !train && p.sources.isEmpty then return acc
    let args ← arguments pass.values p
    let jobs ← ((p.mixing.zip own.plain).zip (← own.logits.shares w)).mapM fun q => do
      return (q.1.1, q.1.2, ← q.2 (← unalign g q.1.2))
    let pulled ← jobs.mapM fun q => r.candidatePullback p args q.1 q.2.1 q.2.2
    (p.mixing.zip pulled).foldlM (fun acc q => acc.add train p q.1 q.2) acc
  | _, _ => return acc

/-- The gradients of the readout of an exit, if they are collected, and of the value of the exit. -/
def pullExit (r : Relaxation α) (pass : Pass α) (train : Bool) (exit : Int) (share : Tensor α) :
    Except Fault (Option (Readout α) × Tensor α) := do
  match (r.heads.get? (.int exit)).bind (·.matrix), fetch exit pass.features,
      fetch (some exit) pass.values with
  | some h, some f, some v =>
    let own ← if train then do
        let matrix ← f.transpose.productWith share
        let readout : Readout α :=
          { matrix := some (.reals matrix), offset := some (.reals (share.sumAxis 0)) }
        pure (some readout)
      else pure none
    if h.shape.length ≠ 2 then fail (.numeric .shape)
    return (own, ← (← share.productWith h.toReals.transpose).reshaped v.shape)
  | _, _, _ => fail (.missingKey (toString exit))

/-- The loss of an evaluated mixture and its gradients. -/
def backward (r : Relaxation α) (targets : Signal α) (pass : Pass α) (train : Bool) :
    Except Fault (Gradients α) := do
  let loss ← r.objective.loss targets (.reals pass.prediction)
  let g ← r.objective.gradient targets (.reals pass.prediction)
  let slopes ← pass.predictions.mapM (pairing g)
  let shares ← pass.routeLogits.shares pass.mixture.route
  let exits ← (shares.zip r.graph.exits).mapM fun q => do
    return (q.2, ← r.pullExit pass train q.2 (← q.1 g))
  let values ← exits.foldlM (fun acc q => accumulate q.1 q.2.2 acc) []
  let start : Pulled α := { values, params := [], logits := [] }
  let pulled ← r.graph.positions.reverse.foldlM (r.pullPosition pass train) start
  if !train then pass.routeLogits.checkRow slopes.length
  return {
    loss, heads := exits.filterMap fun q => q.2.1.map fun h => (q.1, h), params := pulled.params
    logits := pulled.logits
    route := softmaxPullback (← r.heat) pass.mixture.route slopes }

end Relaxation

end OperatorNet
