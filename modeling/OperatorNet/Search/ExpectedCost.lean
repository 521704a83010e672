import OperatorNet.Cost.Metric
import OperatorNet.Search.Supergraph

/-!
# Expected cost

What a mixture of networks costs. A position costs the weighted mean of its mixing candidates, or
what its first fixed candidate costs; a route costs the sum over the positions of an exit, or over
the most expensive path to it; and the routes are weighted once more. The gradient is taken in the
weights. Lipschitz bounds are multiplied along the routes and have no gradient.
-/

namespace OperatorNet

variable {α : Type} [Scalar α]

/-- The sum of products of weights and numbers, of which there must be equally many. -/
def weightedSum (weights xs : List α) : Except Fault α :=
  if weights.length = xs.length then .ok (Scalar.dot weights xs) else fail (.numeric .shape)

/-- An expected cost, with its gradients in the weights of candidates and of routes. -/
structure CostGradient (α : Type) where
  value : α
  positions : List (Int × List α)
  route : List α

namespace Supergraph

/-- The costs of the mixing candidates of a position. -/
def candidateCosts (metric : String) (p : Position α) : List α :=
  p.mixing.map (·.costOf metric)

/-- What a position is expected to cost. -/
def positionCost (m : Mixture α) (metric : String) (p : Position α) : Except Fault α := do
  if p.isFrozen then return (← p.firstFixed).costOf metric
  p.logits.checkRow p.mixing.length
  weightedSum (m.weights p.id) (candidateCosts metric p)

/-- What all positions are expected to cost. -/
def positionCosts (s : Supergraph α) (m : Mixture α) (metric : String) :
    Except Fault (List (Int × α)) :=
  s.positions.mapM fun p => do
    return (p.id, ← positionCost m metric p)

/-- The most expensive path to a position, from its end, with what it costs. -/
structure CostlyPath (α : Type) where
  cost : α
  path : List Int

/-- The more expensive of two paths; the first one unless the second costs more. -/
def CostlyPath.longer (a b : CostlyPath α) : CostlyPath α :=
  if a.cost < b.cost then b else a

/-- The most expensive path to every position. -/
def costlyPaths (s : Supergraph α) (costs : List (Int × α)) : List (Int × CostlyPath α) :=
  s.positions.foldl (fun (done : List (Int × CostlyPath α)) p =>
    let best := (p.sources.filterMap fun q => fetch q done).foldl CostlyPath.longer ⟨0, []⟩
    done ++ [(p.id, ⟨best.cost + (fetch p.id costs).getD 0, p.id :: best.path⟩)]) []

/-- The positions whose costs make up the cost of each exit. -/
def charged (s : Supergraph α) (kind : MetricKind) (costs : List (Int × α)) :
    Except Fault (List (List Int)) :=
  match kind with
  | .criticalPath =>
    let paths := s.costlyPaths costs
    s.exits.mapM fun e =>
      match fetch e paths with
      | some p => .ok p.path
      | none => fail (.missingKey (toString e))
  | _ => s.exits.mapM s.ancestors

/-- The total weight of the routes that charge a position. -/
def usage (charged : List (List Int)) (route : List α) (id : Int) : α :=
  Scalar.sum (((route.zip charged).filter fun p => p.2.contains id).map Prod.fst)

/-- The expected cost of a mixture with its gradient. -/
def costGradient (s : Supergraph α) (m : Mixture α) (metric : String) (kinds : MetricKinds) :
    Except Fault (CostGradient α) := do
  let kind ← metricKind metric kinds
  if kind = .lipschitz then fail (.multiplicative metric)
  let costs ← s.positionCosts m metric
  let route ← s.routes m
  let charged ← s.charged kind costs
  let totals := charged.map fun ids => Scalar.sum (ids.map fun n => (fetch n costs).getD 0)
  let positions := (s.positions.filter fun p => !p.isFrozen).map fun p =>
    (p.id, (candidateCosts metric p).map (usage charged route p.id * ·))
  return { value := ← weightedSum route totals, positions, route := totals }

/-- The bound of a position on its own, if every operator that may be used there has one. -/
def ownBound (m : Mixture α) (p : Position α) : Except Fault (Option α) := do
  if p.isFrozen then (← p.firstFixed).lipschitz .empty
  else
    match (← p.mixing.mapM fun op => op.lipschitz .empty).mapM id with
    | some bounds =>
      p.logits.checkRow bounds.length
      some <$> weightedSum (m.weights p.id) bounds
    | none => return none

/-- The bound of a position behind others. -/
def boundBehind (m : Mixture α) (done : List (Option Int × Price α)) (p : Position α) :
    Except Fault (Price α) := do
  let incoming := p.inputs.filterMap fun q => fetch q done
  match ← ownBound m p, incoming.mapM Price.value? with
  | some own, some (x :: xs) => return .known (own * Scalar.maximum x xs)
  | some _, some [] => fail (.numeric .shape)
  | _, _ => return .unknown

/-- The bounds of positions from left to right. -/
def boundsOf (m : Mixture α) (done : List (Option Int × Price α)) :
    List (Position α) → Except Fault (List (Option Int × Price α))
  | [] => .ok done
  | p :: rest => do
    let b ← boundBehind m done p
    boundsOf m (done ++ [(some p.id, b)]) rest

/-- The expected Lipschitz bound of a mixture. -/
def expectedBound (s : Supergraph α) (m : Mixture α) : Except Fault (Price α) := do
  let bounds ← boundsOf m [(none, .known 1)] s.positions
  match (s.exits.map fun e => (fetch (some e) bounds).getD .unknown).mapM Price.value? with
  | some xs =>
    s.checkRoutes
    s.routeLogits.checkRow xs.length
    return .known (← weightedSum m.route xs)
  | none => return .unknown

/-- The expected price of a mixture in a metric. -/
def expectedPrice (s : Supergraph α) (m : Mixture α) (metric : String) (kinds : MetricKinds) :
    Except Fault (Price α) := do
  match ← metricKind metric kinds with
  | .lipschitz => s.expectedBound m
  | _ => return .known (← s.costGradient m metric kinds).value

end Supergraph

end OperatorNet
