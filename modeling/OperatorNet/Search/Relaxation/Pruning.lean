import OperatorNet.Search.Relaxation.Basic

/-!
# Pruning

Candidates and exits whose weight is below a threshold are dropped for good, but never the last one
of a position or of the supergraph: when all are below, the heaviest stays. With them go their
parameters, readouts and running averages, and the positions that no exit needs any more.
-/

namespace OperatorNet.Relaxation

variable {α : Type} [Scalar α]

/-- The elements with a weight below a threshold; without the heaviest one if these are all. -/
def light {β : Type} (threshold : α) (xs : List β) (weights : List α) : Except Fault (List β) :=
  let below := (xs.zip weights).filter fun q => q.2 < threshold
  if below.length < xs.length then .ok (below.map Prod.fst)
  else if Scalar.argmax weights < xs.length then .ok (xs.eraseIdx (Scalar.argmax weights))
  else fail (.numeric .place)

/-- Replaces a position by what becomes of it. -/
def store (p : Position α) : Relaxing α Unit :=
  modify fun r => { r with graph := r.graph.replace p }

/-- Drops the light candidates of one position. A single candidate that is left is chosen. -/
def prunePosition (id : Int) : Relaxing α (List String) := do
  let r ← get
  let p ← lift (r.graph.position id)
  if p.isFrozen || p.state = .decoded then return []
  let names := p.mixing.map (·.name)
  lift p.logits.check
  let weights := p.weights (← lift r.heat)
  lift (p.logits.checkSingles names.length)
  let dropped ← lift (light r.settings.pruneThreshold names weights)
  if dropped.isEmpty then return []
  let p ← lift (p.remove dropped)
  store p
  modify fun r => { r with
    logitSteps := r.logitSteps.forget (.position id)
    params := r.params.filter fun k _ => !(k.1 = id && dropped.contains k.2) }
  let p ← lift (p.transition .pruned)
  store p
  match p.candidates with
  | [op] =>
    let p := { p with chosen := some (.text op.name) }
    store p
    store (← lift (p.transition .decoded))
  | _ => pure ()
  return dropped.map fun name => toString id ++ ":" ++ name

/-- Drops the light exits, and what only they needed. -/
def pruneExits : Relaxing α (List String) := do
  let r ← get
  if r.graph.exits.length ≤ 1 then return []
  let weights ← lift (r.graph.routeWeights (← lift r.heat))
  lift (r.graph.routeLogits.checkSingles r.graph.exits.length)
  let dropped ← lift (light r.settings.pruneThreshold r.graph.exits weights)
  if dropped.isEmpty then return []
  let graph ← lift (r.graph.removeExits (dropped.map .id))
  let graph ← lift graph.dropDead
  let gone := r.graph.ids.filter fun id => !graph.ids.contains id
  set { r with
    graph
    logitSteps := r.logitSteps.forget .route
    params := r.params.filter fun k _ => !gone.contains k.1
    heads := dropped.foldl (fun heads e => heads.erase (.int e)) r.heads }
  return dropped.map fun e => "exit:" ++ toString e

/-- Drops what is light; the result says what was dropped. -/
def prune : Relaxing α (List String) := do
  let ids := (← get).graph.ids
  let candidates ← ids.mapM prunePosition
  return candidates.flatten ++ (← pruneExits)

end OperatorNet.Relaxation
