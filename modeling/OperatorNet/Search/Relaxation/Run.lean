import OperatorNet.Search.Relaxation.Backward
import OperatorNet.Search.Relaxation.Penalty
import OperatorNet.Search.Relaxation.Pruning

/-!
# Running a relaxed search

A step first learns parameters and readouts on a batch of the training data, then logits on the
validation data with the penalty of the budget, and prunes now and then. A run takes steps while the
temperature falls, until the number of steps is reached or a stop is asked for; it can be resumed.
-/

namespace OperatorNet.Relaxation

variable {α : Type} [Scalar α]

/-- A batch of the training data. -/
def batch : Relaxing α (Dataset α) := do
  let r ← get
  match r.train.inputs.shape with
  | [] => lift (fail (.numeric .place))
  | n :: _ =>
    match ← lift (r.settings.batchSize.drawn? n) with
    | none => return r.train
    | some size =>
      let (places, generator) ← lift (r.generator.choose n size)
      set { r with generator }
      if places.any fun i => r.train.targets.shape.headD 0 ≤ i then lift (fail (.numeric .place))
      return ⟨r.train.inputs.takeRows places, r.train.targets.takeRows places⟩

/-- One step of a tensor that is learned on training data. -/
def learnWeight (key : WeightKey) (value gradient : Tensor α) : Relaxing α (Tensor α) := do
  let r ← get
  let (v, weightSteps) := r.weightSteps.update key value gradient
  set { r with weightSteps }
  lift v

/-- One step of logits. -/
def learnLogits (key : LogitKey) (logits : Logits α) (gradient : Tensor α) :
    Relaxing α (Logits α) := do
  let r ← get
  let (v, logitSteps) := r.logitSteps.update key logits.toTensor gradient
  set { r with logitSteps }
  return .ofSignal (.reals (← lift v))

/-- One step of a readout. -/
def learnHead (exit : Int) (g : Readout α) : Relaxing α Unit := do
  match ((← get).heads.get? (.int exit)).map fun h =>
    (h.matrix, g.matrix, h.offset, g.offset) with
  | some (some m, some gm, some o, some go) =>
    let matrix ← learnWeight (.matrix exit) m.toReals gm.toReals
    let offset ← learnWeight (.offset exit) o.toReals go.toReals
    let learned : Readout α := { matrix := some (.reals matrix), offset := some (.reals offset) }
    modify fun r => { r with heads := r.heads.insert (.int exit) learned }
  | _ => lift (fail (.missingKey (toString exit)))

/-- One step of a parameter, if it is one that can be learned. -/
def learnParam (position : Int) (operator : String) (g : String × Tensor α) :
    Relaxing α Unit := do
  match (← get).params.get? (position, operator) with
  | none => return
  | some own =>
    match own.get? g.1 with
    | none => return
    | some value =>
      let new ← learnWeight (.param position operator g.1) (← lift value.toSignal).toReals g.2
      modify fun r => { r with
        params := r.params.insert (position, operator) (own.insert g.1 (.array (.reals new))) }

/-- Steps along the gradients of readouts and parameters. -/
def learnWeights (g : Gradients α) : Relaxing α Unit := do
  g.heads.forM fun q => learnHead q.1 q.2
  g.params.forM fun q => q.2.forM (learnParam q.1.1 q.1.2)

/-- One step of the logits of a position, if there are at least two. -/
def learnPosition (g : Gradients α) (penalty : Penalty α) (id : Int) : Relaxing α Unit := do
  let p ← lift ((← get).graph.position id)
  if p.isFrozen || p.logits.entries.length < 2 then return
  let slope := ((fetch id g.logits).map .ofList).getD (.full p.logits.toTensor.shape 0)
  let slope ← match fetch id penalty.logits with
    | some more => lift (slope.combined (· + ·) (.ofList more))
    | none => pure slope
  let logits ← learnLogits (.position id) p.logits slope
  store { p with logits }

/-- Steps along the gradients of logits and of the penalty. -/
def learnArchitecture (g : Gradients α) (penalty : Penalty α) : Relaxing α Unit := do
  (← get).graph.ids.forM (learnPosition g penalty)
  let s := (← get).graph
  if 1 < s.routeLogits.entries.length then
    let slope := List.zipWith (· + ·) g.route penalty.route
    let routeLogits ← learnLogits .route s.routeLogits (.ofList slope)
    modify fun r => { r with graph := { r.graph with routeLogits } }

/-- Moves all positions of one state on to another. -/
def advance (source target : PositionState) : Relaxing α Unit := do
  (← get).graph.positions.forM fun p => do
    if p.state = source then
      store (← lift (p.transition target))

/-- One step. -/
def runStep : Relaxing α (StepRecord α) := do
  let data ← batch
  let pass ← forward (← lift (← get).mixture) data.inputs
  let trained ← lift ((← get).backward data.targets pass true)
  learnWeights trained
  let val := (← get).val
  let pass ← forward (← lift (← get).mixture) val.inputs
  let validated ← lift ((← get).backward val.targets pass false)
  let r ← get
  let penalty ← lift (r.penalty (← lift r.mixture))
  learnArchitecture validated penalty
  if 0 < r.step then
    advance .mixing .annealed
  let done := r.step + 1
  let due := (← lift r.settings.warmupSteps).below (.whole done)
    && r.settings.pruneEvery.divides done
  let pruned ← if due then prune else pure []
  return {
    step := r.step, temperature := r.temperature, trainLoss := trained.loss
    valLoss := validated.loss, penalty := penalty.value, prices := penalty.prices
    candidates := (← get).graph.candidateCount, pruned }

/-- At most `fuel` steps, until there are enough or a stop is asked for. After each step `cancels`
is told the number of steps done, and may ask for a stop. -/
def runSteps (clock : Int → α) (cancels : Int → Bool) : Nat → Relaxing α Unit
  | 0 => return
  | fuel + 1 => do
    let r ← get
    let step : Number α := .whole r.step
    if ¬ step.below r.settings.steps then return
    let (stopped, stop) ← lift (r.stop.check (clock r.step) (.ok step))
    if stopped then
      set { r with stop, stoppedEarly := true }
    else
      set { r with stop }
      let temperature ← lift (r.settings.schedule.temperature step)
      modify fun r => { r with temperature }
      let record ← runStep
      modify fun r => { r with history := r.history ++ [record], step := r.step + 1 }
      if cancels (r.step + 1) then
        let stop ← lift (← get).stop.cancel
        modify fun r => { r with stop }
      runSteps clock cancels fuel

/-- Steps until their number is reached or a stop is asked for. The clock says how much time has
passed when a step begins. -/
def run (clock : Int → α) (cancels : Int → Bool) : Relaxing α Unit := do
  modify fun r => { r with stop := r.stop.start }
  advance .masked .mixing
  let r ← get
  runSteps clock cancels (r.settings.steps.ceiling - r.step + 1).toNat

end OperatorNet.Relaxation
