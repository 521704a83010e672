import OperatorNet.Search.Decoder
import OperatorNet.Search.Enumeration
import OperatorNet.Search.Relaxation.Run
import OperatorNet.Search.Scorer

/-!
# Searches and sessions

A whole search: the supergraph of the request is built, relaxed on the data, and decoded to one
typed network that meets the budget. The clock and the asking for a stop are given as functions of
the step, so that equal requests have equal outcomes.

In a session a relaxed search and a decoder work on one supergraph in turn: what one of them changes
is what the other one finds. The decoder may use the parameters that the search has learned so far.
-/

namespace OperatorNet

/-- What is searched for, on which data, and how. -/
structure SearchRequest (α : Type) [Scalar α] where
  catalog : Catalog α
  input : PortType
  output : PortType
  task : String
  train : Dataset α
  val : Dataset α
  budget : Budget α
  depth : StageBound
  draws : Draws α
  optimizer : Optimizer α
  seed : Number α
  settings : Settings α
  stop : Option (StopSignal α)
  /-- The name of the network that is found. -/
  networkId : String

/-- What a search ends with. -/
structure SearchOutcome (α : Type) where
  network : Network α
  prices : Prices α
  score : α
  history : List (StepRecord α)
  stoppedEarly : Bool
  steps : Int
  swaps : Nat
  insertions : Nat

namespace SearchRequest

variable {α : Type} [Scalar α]

/-- The operators that a search leaves out from the beginning. -/
def excluded (r : SearchRequest α) : Exclusion α :=
  if r.settings.maskOverBudget && !r.budget.metrics.isEmpty then
    r.budget.exceededBy r.settings.metricKinds
  else fun _ => .ok false

/-- The relaxed search before its first step. -/
def relaxation (r : SearchRequest α) : Except Fault (Relaxation α) := do
  let objective ← Objective.ofTask r.task r.settings.objective
  requireWritable (r.input.isWritable && r.output.isWritable)
  let graph ← Supergraph.build r.catalog r.input r.output r.depth r.settings.maxFanIn r.excluded
  requireWritable (graph.positions.all (·.outType.isWritable))
  Relaxation.start graph objective r.train r.val r.budget r.settings r.draws r.optimizer
    r.seed.floor r.stop

/-- The decoder that follows a relaxed search. -/
def decoder (r : SearchRequest α) (x : Relaxation α) : Decoder α :=
  { scorer := ridgeScore x.objective r.train r.val r.settings.ridge
    budget := r.budget, settings := r.settings, params := x.copiedParams
    networkId := r.networkId }

/-- What a decoded network records of the search. -/
def recorded (r : SearchRequest α) (x : Relaxation α) (draft : Draft α) : Network α :=
  let entries : List (String × Data α) :=
    [("seed", r.seed.toData), ("task_kind", .text r.task), ("steps", .int x.step),
      ("stopped_early", .bool x.stoppedEarly), ("costs", pricesData draft.prices)]
  { draft.network with
    metadata := entries.foldl (fun t e => t.insert e.1 e.2) draft.network.metadata }

/-- Searches. -/
def run (r : SearchRequest α) (clock : Int → α) (cancels : Int → Bool) :
    Except (DecodeFault α) (SearchOutcome α) := do
  let start ← r.relaxation.mapError .fault
  let (ran, x) := (Relaxation.run clock cancels).run start
  ran.mapError .fault
  let d := r.decoder x
  let decoded ← ((d.decode (some x.temperature)).run (d.start x.graph)).1
  return {
    network := r.recorded x decoded.draft, prices := decoded.draft.prices
    score := decoded.score, history := x.history, stoppedEarly := x.stoppedEarly
    steps := x.step, swaps := decoded.swaps, insertions := decoded.insertions }

end SearchRequest

end OperatorNet

/-! ### Sessions -/

namespace OperatorNet

/-- A relaxed search and a decoder on its supergraph. -/
structure Session (α : Type) [Scalar α] where
  relaxed : Relaxation α
  decoder : Decoder α
  memory : Decoding α
  /-- Whether the decoder uses the learned parameters. -/
  learned : Bool

/-- Something done in a session; what has changed outlives a fault. -/
abbrev Working (α : Type) [Scalar α] :=
  ExceptT (DecodeFault α) (StateM (Session α))

namespace Session

variable {α β : Type} [Scalar α]

instance : MonadLift (Except Fault) (Working α) :=
  ⟨fun x => ExceptT.mk (pure (x.mapError .fault))⟩

/-- The supergraph. -/
def graph (s : Session α) : Supergraph α :=
  s.relaxed.graph

/-- The session with a new decoder, which remembers nothing. -/
def equip (s : Session α) (decoder : Decoder α) (learned : Bool) : Session α :=
  { s with decoder, learned, memory := decoder.start s.graph }

/-- The session of a relaxed search, with a decoder that scores by a readout and does not use the
learned parameters. -/
def start (r : Relaxation α) : Session α :=
  let decoder : Decoder α := {
    scorer := ridgeScore r.objective r.train r.val r.settings.ridge
    budget := r.budget, settings := r.settings, params := fun _ _ => .ok .empty
    networkId := "decoded" }
  { relaxed := r, decoder, memory := decoder.start r.graph, learned := false }

/-- Does something to the relaxed search. -/
def relax (x : Relaxing α β) : Working α β := do
  let s ← get
  let (result, relaxed) := x.run s.relaxed
  set { s with relaxed }
  result

/-- Does something with the decoder. -/
def decode (x : Decoder α → Decode α β) : Working α β := do
  let s ← get
  let d := if s.learned then { s.decoder with params := s.relaxed.copiedParams } else s.decoder
  let (result, memory) := (x d).run { s.memory with graph := s.graph }
  set { s with memory, relaxed := { s.relaxed with graph := memory.graph } }
  ExceptT.mk (pure result)

/-- Puts another supergraph in place. -/
def become (graph : Supergraph α) : Working α Unit :=
  modify fun s => { s with relaxed := { s.relaxed with graph } }

/-- Changes one position. -/
def edit (r : Ref) (f : Position α → Except Fault (Position α)) : Working α Unit := do
  let s := (← get).graph
  become (s.replace (← f (← s.positionAt r)))

/-- The draft of a selection, which must compose. -/
def draft (selection : Selection) (d : Decoder α) : Decode α (Draft α) := do
  let network ← Decoder.lift (d.materialize (← get).graph selection)
  return { selection, network, prices := ← Decoder.lift (d.pricesOf network) }

/-- Decodes the supergraph within a budget, with the scorer at hand and otherwise as by default. -/
def decodeWithin (budget : Budget α) (settings : Settings α) : Working α (Decoded α) := do
  let s ← get
  let d : Decoder α := {
    s.decoder with budget, settings, params := fun _ _ => .ok .empty, networkId := "decoded" }
  let (result, memory) := (d.decode none).run
    { d.start s.graph with evaluations := s.memory.evaluations }
  set { s with
    relaxed := { s.relaxed with graph := memory.graph }
    memory := { s.memory with evaluations := memory.evaluations } }
  ExceptT.mk (pure result)

end Session

end OperatorNet
