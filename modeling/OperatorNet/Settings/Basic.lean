import OperatorNet.Cost.Metric
import OperatorNet.Data.Number
import OperatorNet.Settings.Document
import OperatorNet.Settings.Schedule

/-!
# Settings

What a search and a decoder can be told: how long and how fast to learn, how the temperature falls,
what to prune and when, how much an exceeded budget costs, and how ties between swaps are broken.
-/

namespace OperatorNet

/-- How a tie between swaps is broken. -/
inductive TieRule where
  /-- The lower total cost first. -/
  | cost
  /-- The operator that comes first in the catalog. -/
  | catalogOrder
  deriving DecidableEq

namespace TieRule

/-- The rule with a given name. -/
def ofName? : String → Option TieRule
  | "cost" => some cost
  | "catalog_order" => some catalogOrder
  | _ => none

end TieRule

/-- How many examples a batch has. -/
inductive BatchSize (α : Type) where
  | all
  | rows (n : Int)
  /-- A number of rows that is not whole: it is all there are where it exceeds them. -/
  | real (x : α)
  | unreadable

namespace BatchSize

/-- The size in a document. -/
def ofData {α : Type} : Data α → BatchSize α
  | .null => all
  | .int n => rows n
  | .bool b => rows (if b then 1 else 0)
  | .real x => real x
  | _ => unreadable

/-- The number of rows to draw from `n`, if not all of them are taken. -/
def drawn? {α : Type} [Scalar α] (size : BatchSize α) (n : Nat) : Except Fault (Option Int) :=
  match size with
  | all => .ok none
  | rows k => .ok (if (n : Int) ≤ k then none else some k)
  | real x => if Scalar.ofNat n ≤ x then .ok none else fail .wrongForm
  | unreadable => fail .wrongForm

end BatchSize

/-- Settings of a search and of a decoder. A value that is no number is a fault where the number is
first used, and not before. -/
structure Settings (α : Type) [Scalar α] where
  /-- Learning rate of parameters and readouts. -/
  weightRate : Except Fault (Number α)
  /-- Learning rate of logits. -/
  logitRate : Except Fault (Number α)
  batchSize : BatchSize α
  headScale : Except Fault α
  logitScale : Except Fault (Number α)
  schedule : Schedule α
  pruneThreshold : α
  pruneEvery : Number α
  warmupSteps : Except Fault (Number α)
  /-- Weight of the relative excess over the budget. -/
  penalty : Except Fault α
  /-- Whether to leave out operators that exceed the budget on their own. -/
  maskOverBudget : Bool
  maxFanIn : Number α
  maxSeconds : Option (Except Fault (Number α))
  ridge : Except Fault α
  /-- Whether to try operators without gradients at the end. -/
  insertFixed : Bool
  tieBreak : List TieRule
  metricKinds : MetricKinds
  /-- Parameters of the objective, as they were given. -/
  objective : Data α

namespace Settings

/-- Number of learning steps. -/
def steps {α : Type} [Scalar α] (s : Settings α) : Number α :=
  s.schedule.steps

/-- The number that a value is, where there is a value. -/
def optional {α : Type} [Scalar α] : Data α → Option (Except Fault (Number α))
  | .null => none
  | d => some (Number.ofData d)

/-- The schedule of a checked document. -/
def scheduleOf (steps start final : Number Float) (cooling : Data Float) :
    Except Fault (Schedule Float) :=
  if h : (Number.whole 0).below final = true ∧ final.atMost start = true then
    match cooling with
    | .text name =>
      match Cooling.ofName? name with
      | some cooling =>
        .ok { start, final, steps, cooling, final_pos := h.1, final_le := h.2 }
      | none => fail (.settings (.scheduleKind (.text name)))
    | other => fail (.settings (.scheduleKind other))
  else fail (.settings .scheduleTemperatures)

/-- The settings of a checked document. -/
def ofFields (fields : SettingsDocument.Fields) : Except Fault (Settings Float) := do
  let value := fun (name : String) => (fetch name fields).getD .null
  let number := fun (name : String) => Number.ofData (value name)
  let real := fun (name : String) => do (← number name).toReal
  let rules ← (value "tie_break").elements
  return {
    weightRate := number "weight_lr"
    logitRate := number "arch_lr"
    batchSize := .ofData (value "batch_size")
    headScale := real "head_init_scale"
    logitScale := number "logit_init_scale"
    schedule := ← scheduleOf (← number "steps") (← number "initial_temperature")
      (← number "final_temperature") (value "schedule")
    pruneThreshold := ← real "prune_threshold"
    pruneEvery := ← number "prune_every"
    warmupSteps := number "warmup_steps"
    penalty := real "budget_penalty"
    maskOverBudget := !(value "mask_over_budget").isVoid
    maxFanIn := ← number "max_fan_in"
    maxSeconds := optional (value "max_seconds")
    ridge := real "ridge"
    insertFixed := !(value "insert_non_differentiable").isVoid
    tieBreak := rules.filterMap fun r => (r.text?).bind TieRule.ofName?
    metricKinds := .ofData (value "metric_kinds")
    objective := value "objective_params" }

/-- The settings that are given by name, with defaults for the others. -/
def ofGiven (given : Data Float) : Except Fault (Settings Float) := do
  ofFields (← SettingsDocument.ofData given)

end Settings

end OperatorNet
