import OperatorNet.Cost.Aggregate
import OperatorNet.Cost.Budget
import OperatorNet.Network.Edit
import OperatorNet.Search.Selection
import OperatorNet.Settings.Basic

/-!
# Decoding

A decoder makes one typed network out of a supergraph. It starts from the best-ranked selection that
composes. While the network exceeds the budget it swaps one operator or the route, taking the swap
that worsens the score least per unit of budget that it recovers. Then it tries the fixed operators
one by one and keeps those that improve the score within the budget.
-/

namespace OperatorNet

/-- A selection with its network and the prices of the network in the metrics of the budget. -/
structure Draft (α : Type) where
  selection : Selection
  network : Network α
  prices : Prices α

/-- Why decoding ends without a network; when no swap helps, with the limits that are exceeded and
the best effort. -/
inductive DecodeFault (α : Type) where
  | fault (f : Fault)
  | infeasible (limits : Table String α) (best : Draft α)

/-- The wording for limits that cannot be met. -/
def infeasibleMessage (limits : Table String Float) (prices : Prices Float) : String :=
  let field := fun (name value : String) => Text.quoted name ++ ": " ++ value
  let limits := limits.entries.map fun p => field p.1 (Decimal.plain.write p.2)
  let costs := prices.map fun p => field p.1 p.2.literal
  "No swap brings the decoded graph within budget \x7b" ++ ", ".intercalate limits
    ++ "\x7d; best effort costs \x7b" ++ ", ".intercalate costs ++ "\x7d"

/-- What a decoder goes by. -/
structure Decoder (α : Type) [Scalar α] where
  /-- The score of a network; less is better. -/
  scorer : Network α → Except Fault α
  budget : Budget α
  settings : Settings α
  /-- Parameters of an operator at a position. -/
  params : Ref → Data Float → Except Fault (Params α)
  networkId : String

/-- What changes while a decoder works: the supergraph, and the scores that are known. -/
structure Decoding (α : Type) where
  graph : Supergraph α
  temperature : Number α
  /-- The scores by what selections have in common when they are equal. -/
  scores : List (SelectionKey × α)
  /-- Number of networks that were scored. -/
  evaluations : Nat

/-- The temperature as a real number. -/
def Decoding.heat {α : Type} [Scalar α] (st : Decoding α) : Except Fault α :=
  st.temperature.toReal

/-- A step of decoding; what has changed outlives a fault. -/
abbrev Decode (α : Type) :=
  ExceptT (DecodeFault α) (StateM (Decoding α))

/-- A decoded network. -/
structure Decoded (α : Type) where
  draft : Draft α
  score : α
  swaps : Nat
  insertions : Nat

namespace Decoder

variable {α : Type} [Scalar α]

/-- A result that changes nothing. -/
def lift {β : Type} (x : Except Fault β) : Decode α β :=
  ExceptT.mk (pure (x.mapError .fault))

instance : MonadLift (Except Fault) (Decode α) :=
  ⟨lift⟩

/-- The state before anything is decoded. -/
def start (d : Decoder α) (s : Supergraph α) : Decoding α :=
  { graph := s, temperature := d.settings.schedule.final, scores := [], evaluations := 0 }

/-- The nodes that stand for the input and for positions. -/
abbrev Refs := List (Option Int × Int)

/-- The node that stands for a position. -/
def ref (refs : Refs) (source : Option Ref) : Except Fault Int :=
  match source with
  | some r => r.find fun n => fetch (some n) refs
  | none =>
    match fetch none refs with
    | some n => .ok n
    | none => fail (.missingKey "None")

/-- What is selected for a position: an operator, the nodes that it reads from and its
parameters. -/
def useOf (d : Decoder α) (s : Supergraph α) (refs : Refs) (choice : Ref × Data Float) :
    Except Fault (Position α × Operator α × List Int × Params α) := do
  let p ← s.positionAt choice.1
  let params ← d.params choice.1 choice.2
  let sources ← p.inputs.mapM fun source => ref refs (source.map .id)
  let op ← s.catalog.get (← chosenName choice.2)
  return (p, op, sources, params)

/-- Adds the operator that is selected for a position. -/
def addChoice (d : Decoder α) (s : Supergraph α) (acc : Refs × Network α)
    (choice : Ref × Data Float) : Except Fault (Refs × Network α) := do
  let (p, op, sources, params) ← d.useOf s acc.1 choice
  let (id, g) ← (Edit.addNode s.catalog op (sources.map .int) params).on acc.2
  return (put (some p.id) id acc.1, g)

/-- The network of the input and of the operators that are selected for some positions. -/
def wire (d : Decoder α) (s : Supergraph α) (choices : List (Ref × Data Float)) :
    Except Fault (Refs × Network α) := do
  let (input, g) ← (Edit.addInput "x" s.inputType).on (Network.empty d.networkId)
  choices.foldlM (d.addChoice s) ([(none, input)], g)

/-- The typed network of a selection. -/
def materialize (d : Decoder α) (s : Supergraph α) (selection : Selection) :
    Except Fault (Network α) := do
  let (refs, g) ← d.wire s selection.ops
  let g ← g.setOutput (← ref refs selection.exit)
  let out ← g.output
  match ← worded (g.bindings.unify s.outputType out.template) with
  | .error _ =>
    .error (SlotError.fault {
      slot := 0, expected := some s.outputType, actual := some out.resolved, node := some out.id
      reason := .wrongResult })
  | .ok _ =>
    let exit := (selection.exit.map (Ref.toDataOver α)).getD .null
    return { g with metadata := g.metadata.insert "exit" exit }

/-- The prices of a network in the metrics of the budget. -/
def pricesOf (d : Decoder α) (g : Network α) : Except Fault (Prices α) :=
  g.aggregateAll d.budget.metrics d.settings.metricKinds

/-- The draft of a selection, if the selection composes. -/
def draft? (d : Decoder α) (s : Supergraph α) (selection : Selection) :
    Except Fault (Option (Draft α)) :=
  match d.materialize s selection with
  | .ok network => do return some { selection, network, prices := ← d.pricesOf network }
  | .error f =>
    match f.cause with
    | .slot _ => .ok none
    | _ => .error f

/-- The score of a selection with a given network; each selection is scored once. -/
def score (d : Decoder α) (selection : Selection) (network : Network α) : Decode α α := do
  let st ← get
  match fetch selection.key st.scores with
  | some x => return x
  | none =>
    set { st with evaluations := st.evaluations + 1 }
    let x ← lift (d.scorer network)
    modify fun st => { st with scores := st.scores ++ [(selection.key, x)] }
    return x

/-- How much of the budget is recovered when prices change. -/
def recovered (d : Decoder α) (before after : Prices α) : Amount α :=
  match d.budget.overage before, d.budget.overage after with
  | a, b =>
    if b.isInfinite then .finite 0
    else if a.isInfinite then .infinite
    else match a, b with
      | .finite x, .finite y => .finite (x - y)
      | _, _ => .finite 0

/-- What a swap is compared by when its rate is the same as that of another one. -/
def tieValues (d : Decoder α) (s : Supergraph α) (network : Network α) (swapped : Data Float) :
    Except Fault (List (Amount α)) :=
  d.settings.tieBreak.mapM fun rule => do
    match rule with
    | .cost =>
      match ← network.aggregate s.catalog.sortMetric d.settings.metricKinds with
      | .known x => return .finite x
      | .unknown => return .infinite
    | .catalogOrder => return .finite (Scalar.ofNat (← s.catalog.rankNamed swapped))

/-- A swap that recovers budget, with what it is compared by. -/
structure Swap (α : Type) where
  key : List (Amount α)
  draft : Draft α

/-- The better of the best swap so far and a selection next to the draft at hand, whose score is
`base`. A swap that recovers no budget does not count. -/
def betterSwap (d : Decoder α) (current : Draft α) (base : α) (best : Option (Swap α))
    (next : Selection × Data Float) : Decode α (Option (Swap α)) := do
  let s := (← get).graph
  match ← lift (d.draft? s next.1) with
  | none => return best
  | some draft =>
    let gain := d.recovered current.prices draft.prices
    if !Amount.less (.finite 0) gain && !gain.isInfinite then return best
    let worsening := (← d.score draft.selection draft.network) - base
    let rate := match gain with
      | .finite x => if gain.isInfinite then 0 else worsening / x
      | .infinite => 0
    let key := .finite rate :: (← lift (d.tieValues s draft.network next.2))
    match best with
    | none => return some { key, draft }
    | some b => return if Amount.precedes key b.key then some { key, draft } else best

/-- The best swap that recovers budget, if there is one. -/
def bestSwap (d : Decoder α) (current : Draft α) : Decode α (Option (Swap α)) := do
  let base ← d.score current.selection current.network
  let st ← get
  (st.graph.neighbourGroups (← lift st.heat) current.selection).foldlM
    (fun best group => do (← lift group).foldlM (d.betterSwap current base) best) none

/-- Swaps until the budget is met, at most `fuel` times; the result counts the swaps. -/
def repairWithin (d : Decoder α) (fuel swaps : Nat) (current : Draft α) :
    Decode α (Draft α × Nat) := do
  if d.budget.satisfiedBy current.prices then return (current, swaps)
  match ← d.bestSwap current with
  | none => throw (.infeasible d.budget.limits current)
  | some swap =>
    match fuel with
    | 0 => throw (.infeasible d.budget.limits current)
    | fuel + 1 => d.repairWithin fuel (swaps + 1) swap.draft

/-- Swaps until the budget is met. Every swap lowers the overage, so no selection comes twice and
their number bounds that of the swaps. -/
def repair (d : Decoder α) (current : Draft α) : Decode α (Draft α × Nat) := do
  d.repairWithin ((← get).graph.selectionBound current.selection) 0 current

/-- Tries one fixed operator at a position. -/
def tryFixed (d : Decoder α) (acc : Draft α × α × Nat) (choice : Ref × String) :
    Decode α (Draft α × α × Nat) := do
  let (current, best, count) := acc
  if (← lift (current.selection.get choice.1)).text? = some choice.2 then return acc
  let other := current.selection.replace choice.1 (.text choice.2)
  match ← lift (d.draft? (← get).graph other) with
  | none => return acc
  | some draft =>
    if !d.budget.satisfiedBy draft.prices then return acc
    let x ← d.score draft.selection draft.network
    return if x < best then (draft, x, count + 1) else acc

/-- Tries the fixed operators of all positions of a selection, one at a time. -/
def insertFixed (d : Decoder α) (current : Draft α) : Decode α (Draft α × Nat) := do
  let best ← d.score current.selection current.network
  let s := (← get).graph
  let (draft, _, count) ← current.selection.ops.foldlM (fun acc q => do
    let p ← lift (s.positionAt q.1)
    p.fixed.foldlM (fun acc op => d.tryFixed acc (q.1, op.name)) acc) (current, best, 0)
  return (draft, count)

/-- The draft of the first selection that composes; else the fault of the first selection. -/
def firstDraft (d : Decoder α) (s : Supergraph α) (fault : Option Fault) :
    List Selection → Except Fault (Draft α)
  | [] =>
    match fault with
    | some f => .error (f.noted "no route of the supergraph decodes to a well-typed graph")
    | none => fail .noExit
  | selection :: rest =>
    match d.materialize s selection with
    | .ok network => do return { selection, network, prices := ← d.pricesOf network }
    | .error f =>
      match f.cause with
      | .slot _ => d.firstDraft s (fault <|> some f) rest
      | _ => .error f

/-- Marks a position as decoded. -/
def settle (selection : Selection) (p : Position α) : Except Fault (Position α) := do
  let p := { p with chosen := selection.get? p.id <|> p.chosen }
  if p.state = .decoded then return p else p.transition .decoded

/-- The draft of the best-ranked selection that composes; the temperature may be given. -/
def prepare (d : Decoder α) (temperature : Option (Number α)) : Decode α (Draft α) := do
  modify fun st => { st with temperature := temperature.getD st.temperature }
  let st ← get
  let ranked ← lift (st.graph.rankedSelections (← lift st.heat))
  lift (d.firstDraft st.graph none ranked)

/-- Marks all positions as decoded, and records the score of the network. -/
def conclude (d : Decoder α) (draft : Draft α) (swaps insertions : Nat) : Decode α (Decoded α) := do
  let positions ← lift ((← get).graph.positions.mapM (settle draft.selection))
  modify fun st => { st with graph := { st.graph with positions } }
  let score ← d.score draft.selection draft.network
  let network := { draft.network with
    metadata := draft.network.metadata.insert "val_score" (.real score) }
  return { draft := { draft with network }, score, swaps, insertions }

/-- Decodes the supergraph; the temperature may be given. -/
def decode (d : Decoder α) (temperature : Option (Number α)) : Decode α (Decoded α) := do
  let (draft, swaps) ← d.repair (← d.prepare temperature)
  let (draft, insertions) ←
    if d.settings.insertFixed then d.insertFixed draft else pure (draft, 0)
  d.conclude draft swaps insertions

end Decoder

end OperatorNet
