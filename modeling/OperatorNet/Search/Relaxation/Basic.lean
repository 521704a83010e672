import OperatorNet.Objective
import OperatorNet.Random
import OperatorNet.Search.Alignment
import OperatorNet.Search.ExpectedCost
import OperatorNet.Search.Optimizer
import OperatorNet.Cost.Budget
import OperatorNet.Settings.Basic

/-!
# Relaxed search

A relaxed search learns the parameters of all candidates, one linear readout per exit, and the
logits by which candidates and routes compete. How it draws and how it takes steps along gradients
is given when it starts. Its state outlives a step that fails, so operations on it give a result or
a fault together with the state.
-/

namespace OperatorNet

/-- Examples: one input and one target per entry of the first axis. -/
structure Dataset (α : Type) where
  inputs : Signal α
  targets : Signal α

/-- A linear readout; its parts are absent if something that is no array was put in their place. -/
structure Readout (α : Type) where
  matrix : Option (Signal α)
  offset : Option (Signal α)

/-- What is learned on training data. -/
inductive WeightKey where
  | matrix (exit : Int)
  | offset (exit : Int)
  | param (position : Int) (operator name : String)
  deriving DecidableEq

/-- What is learned on validation data. -/
inductive LogitKey where
  | position (id : Int)
  | route
  deriving DecidableEq

/-- What is remembered of a step. -/
structure StepRecord (α : Type) where
  step : Int
  temperature : Number α
  trainLoss : α
  valLoss : α
  penalty : α
  prices : Prices α
  candidates : Nat
  pruned : List String

/-- The state of a relaxed search. -/
structure Relaxation (α : Type) [Scalar α] where
  graph : Supergraph α
  objective : Objective α
  settings : Settings α
  budget : Budget α
  train : Dataset α
  val : Dataset α
  /-- Number of columns of the readouts. -/
  outDim : Int
  generator : Generator α
  stop : StopSignal α
  /-- Number of steps that are done. -/
  step : Int
  temperature : Number α
  history : List (StepRecord α)
  stoppedEarly : Bool
  /-- Learned parameters by position and operator. -/
  params : Table (Int × String) (Params α)
  /-- The readouts by exit. -/
  heads : Keyed (Readout α)
  /-- The sizes that the values of a position are padded to. -/
  sizes : Table Int (List Nat)
  weightSteps : KeyedOptimizer WeightKey α
  logitSteps : KeyedOptimizer LogitKey α

/-- Something done to a relaxed search. -/
abbrev Relaxing (α : Type) [Scalar α] :=
  ExceptT Fault (StateM (Relaxation α))

namespace Relaxation

variable {α : Type} [Scalar α]

/-- A result that does not change the state. -/
def lift {β : Type} (x : Except Fault β) : Relaxing α β :=
  ExceptT.mk (pure x)

/-- The parameters of all candidates that can be trained. -/
def trainableParams (s : Supergraph α) : Table (Int × String) (Params α) :=
  .ofList (s.positions.flatMap fun p => p.candidates.filterMap fun op =>
    if op.trainable.isEmpty then none
    else some ((p.id, op.name), (Table.ofList op.trainable).mapValues fun t => .array (.reals t)))

/-- Drawn logits, as many as there are. -/
def drawn (scale : α) (g : Generator α) (logits : Logits α) :
    Except Fault (Logits α × Generator α) := do
  if logits.entries.isEmpty then return (logits, g)
  let (xs, g) ← g.manyAround 0 scale logits.entries.length
  return (.row xs, g)

/-- The positions with drawn logits. -/
def drawLogits (scale : α) (g : Generator α) :
    List (Position α) → Except Fault (List (Position α) × Generator α)
  | [] => return ([], g)
  | p :: rest => do
    let (logits, g) ← drawn scale g p.logits
    let (positions, g) ← drawLogits scale g rest
    return ({ p with logits } :: positions, g)

/-- The supergraph with drawn logits, if they are to be drawn. -/
def initialGraph (s : Supergraph α) (scale : Number α) (g : Generator α) :
    Except Fault (Supergraph α × Generator α) := do
  if (Number.whole 0).below scale then
    let scale ← scale.toReal
    let (positions, g) ← drawLogits scale g s.positions
    let (routeLogits, g) ← drawn scale g s.routeLogits
    return ({ s with positions, routeLogits }, g)
  else return (s, g)

/-- The state before the first step. Unless a stop signal is given, only the time that the settings
allow stops the search early. -/
def start (s : Supergraph α) (objective : Objective α) (train val : Dataset α)
    (budget : Budget α) (settings : Settings α) (draws : Draws α) (optimizer : Optimizer α)
    (seed : Int) (stop : Option (StopSignal α)) : Except Fault (Relaxation α) := do
  let outDim := max (← objective.width train.targets) (← objective.width val.targets)
  let temperature ← settings.schedule.temperature (.whole 0)
  let (graph, generator) ← initialGraph s (← settings.logitScale) (.ofSeed draws seed)
  return {
    graph, objective, settings, budget, train, val, outDim, generator
    stop := stop.getD (.ofSeconds settings.maxSeconds)
    step := 0, temperature, history := []
    stoppedEarly := false, params := trainableParams s, heads := [], sizes := .empty
    weightSteps := .start optimizer settings.weightRate
    logitSteps := .start optimizer settings.logitRate }

/-- The learned parameters of an operator at a position. -/
def paramsAt (r : Relaxation α) (position : Int) (operator : String) : Params α :=
  (r.params.get? (position, operator)).getD .empty

/-- A copy of the learned parameters of an operator at a position; single values have no copies. -/
def copiedParams (r : Relaxation α) (position : Ref) (operator : Data Float) :
    Except Fault (Params α) := do
  position.check
  let _ ← operator.key
  match position.id?, operator.text? with
  | some id, some name =>
    let params := r.paramsAt id name
    if params.values.all Param.canBeCopied then .ok params else fail .noParts
  | _, _ => return .empty

/-- The present temperature as a real number. -/
def heat (r : Relaxation α) : Except Fault α :=
  r.temperature.toReal

/-- The mixture that the logits give at the present temperature. -/
def mixture (r : Relaxation α) : Except Fault (Mixture α) := do
  return r.graph.mixture (← r.heat)

end Relaxation

end OperatorNet
