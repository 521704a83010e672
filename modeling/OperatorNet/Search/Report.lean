import OperatorNet.Data.KeyOrder
import OperatorNet.Network.Explain
import OperatorNet.Search.Session

/-!
# Reports on searches

Documents of what a search works on and of what it finds: positions and supergraphs, steps,
evaluations with their gradients, selections, and outcomes.
-/

namespace OperatorNet

variable {α β : Type}

/-- A row of numbers. -/
def realRow (xs : List α) : Data α :=
  .list (xs.map .real)

/-- A row of sizes. -/
def sizeRow (sizes : List Nat) : Data α :=
  .list (sizes.map fun (n : Nat) => .int n)

/-- A mapping whose keys are ids. -/
def byId (f : β → Data α) (entries : List (Int × β)) : Data α :=
  .mapping (entries.map fun p => (toString p.1, f p.2))

/-- A mapping whose keys are positions with operators. -/
def byCandidate (f : β → Data α) (entries : List ((Int × String) × β)) : Data α :=
  .mapping (entries.map fun p => (toString p.1.1 ++ ":" ++ p.1.2, f p.2))

/-- A mapping of tensors. -/
def tensorFields (entries : List (String × Tensor α)) : Data α :=
  .mapping (entries.map fun p => (p.1, p.2.toData))

/-- A mapping of signals. -/
def signalFields (entries : List (String × Signal α)) : Data α :=
  .mapping (entries.map fun p => (p.1, p.2.toData))

/-- The document of a position. -/
def Position.toData (p : Position Float) : Data Float :=
  let names := fun (ops : List (Operator Float)) => Data.texts (ops.map (·.name))
  .mapping [("id", .int p.id), ("stage", .int p.stage),
    ("inputs", .list (p.inputs.map fun s => (s.map .int).getD .null)),
    ("out", .text p.outType.toText), ("candidates", names p.candidates),
    ("mixing", names p.mixing), ("deferred", names p.fixed), ("frozen", .bool p.isFrozen),
    ("fan_in", .bool p.isFanIn), ("state", .text p.state.name),
    ("chosen", p.chosen.getD .null), ("logits", p.logits.toData)]

/-- The document of a supergraph as a whole. -/
def Supergraph.toData (s : Supergraph α) : Data α :=
  let ids := fun (xs : List Int) => Data.list (xs.map .int)
  .mapping [("exits", ids s.exits), ("route_logits", s.routeLogits.toData),
    ("n_candidates", .int s.candidateCount),
    ("stages", .mapping (s.stages.entries.map fun p => (toString p.1, ids p.2))),
    ("summary", .text s.summary)]

/-- The row of a step. -/
def StepRecord.toData (r : StepRecord α) : Data α :=
  .list [.int r.step, r.temperature.toData, .real r.trainLoss, .real r.valLoss, .real r.penalty,
    pricesData r.prices, .int r.candidates, .texts r.pruned]

/-- The document of a readout. -/
def Readout.toData (h : Readout α) : Data α :=
  .list ([h.matrix, h.offset].map fun part => (part.map Signal.toData).getD .null)

/-- The document of an evaluation. -/
def Pass.toData [Scalar α] (p : Pass α) : Data α :=
  let shapes := fun (c : CandidateValues α) => Data.list (c.padded.map fun t => sizeRow t.shape)
  .mapping [("pred", p.prediction.toData), ("route", p.routeLogits.weightsData p.mixture.route),
    ("weights", byId id (p.candidates.map fun c =>
      (c.1, c.2.logits.weightsData (p.mixture.weights c.1)))),
    ("shapes", byId shapes p.candidates), ("feats", byId (fun t => sizeRow t.shape) p.features),
    ("preds", .list (p.predictions.map (·.toData)))]

/-- The document of the gradients of a loss, on training or on validation data. -/
def Gradients.toData (g : Gradients α) (train : Bool) : Data α :=
  .mapping (("loss", .real g.loss) ::
    if train then
      [("heads", byId (·.toData) g.heads), ("params", byCandidate tensorFields g.params)]
    else [("logits", byId realRow g.logits), ("route", realRow g.route)])

/-- The document of a penalty. -/
def Penalty.toData (p : Penalty α) : Data α :=
  .mapping [("penalty", .real p.value), ("logits", byId realRow p.logits),
    ("route", realRow p.route), ("costs", pricesData p.prices)]

/-- The document of the state of a relaxed search, whose readouts must be under keys that have an
order. -/
def Relaxation.toData (r : Relaxation Float) : Except Fault (Data Float) := do
  let _ ← sortedKeys (r.heads.map Prod.fst)
  return .mapping [("step", .int r.step), ("temperature", r.temperature.toData),
    ("stopped_early", .bool r.stoppedEarly), ("reason", r.stop.reason),
    ("out_dim", .int r.outDim), ("heads", r.heads.toData Readout.toData),
    ("params", byCandidate paramsData r.params.entries)]

/-- The document of a selection. -/
def Selection.toData (s : Selection) : Data Float :=
  .list [(s.exit.map Ref.toData).getD .null, .list (s.ops.map fun p => .list [p.1.toData, p.2])]

/-- The selection in a document: an exit or none, and pairs of a position and a choice. -/
def Selection.ofData (d : Data Float) : Selection :=
  let choices := match d.item? 1 with
    | some (.list choices) => choices
    | _ => []
  { exit := match d.item? 0 with
      | none | some .null => none
      | some e => some (.ofData e)
    ops := choices.map fun c => (.ofData ((c.item? 0).getD .null), (c.item? 1).getD .null) }

/-- The document of a decoded network. -/
def Decoded.toData (d : Decoded Float) (evaluations : Nat) : Data Float :=
  .mapping [("graph", d.draft.network.toData), ("costs", pricesData d.draft.prices),
    ("score", .real d.score), ("selection", d.draft.selection.toData), ("swaps", .int d.swaps),
    ("insertions", .int d.insertions), ("evaluations", .int evaluations)]

/-- The document of the outcome of a search. -/
def SearchOutcome.toData (o : SearchOutcome Float) : Data Float :=
  .mapping [("graph", o.network.toData), ("costs", pricesData o.prices),
    ("val_score", .real o.score), ("history", .list (o.history.map (·.toData))),
    ("stopped_early", .bool o.stoppedEarly), ("steps", .int o.steps), ("swaps", .int o.swaps),
    ("insertions", .int o.insertions)]

end OperatorNet
