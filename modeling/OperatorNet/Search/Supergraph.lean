import OperatorNet.Network.Order
import OperatorNet.Search.Position

/-!
# Supergraphs

All positions that may lie on a way from an input type to an output type. Positions read from
positions before them; those whose type answers the request are exits, and each exit has a logit by
which its route competes with the others. A mixture gives weights to candidates and to routes.
-/

namespace OperatorNet

variable {α : Type}

/-- The positions for a request, in ascending order of their ids. -/
structure Supergraph (α : Type) where
  catalog : Catalog α
  inputType : PortType
  outputType : PortType
  /-- Largest number of stages. -/
  depth : StageBound
  positions : List (Position α)
  exits : List Int
  /-- One logit per exit. -/
  routeLogits : Logits α

/-- Weights of the mixing candidates of every position, and of the exits. -/
structure Mixture (α : Type) where
  weights : Int → List α
  route : List α

namespace Supergraph

/-- The ids of all positions. -/
def ids (s : Supergraph α) : List Int :=
  s.positions.map (·.id)

/-- The position with a given id. -/
def find? (s : Supergraph α) (id : Int) : Option (Position α) :=
  s.positions.find? (·.id = id)

/-- The position with a given id, which must be there. -/
def position (s : Supergraph α) (id : Int) : Except Fault (Position α) :=
  match s.find? id with
  | some p => .ok p
  | none => fail (.missingKey (toString id))

/-- The position that a reference equals the id of, which must be there. -/
def positionAt (s : Supergraph α) (r : Ref) : Except Fault (Position α) :=
  r.find s.find?

/-- Puts a position in the place of the one with the same id. -/
def replace (s : Supergraph α) (p : Position α) : Supergraph α :=
  { s with positions := s.positions.map fun q => if q.id = p.id then p else q }

/-- What a position reads from. -/
def sources (s : Supergraph α) (id : Int) : List Ref :=
  ((s.find? id).map fun p => p.sources.map .id).getD []

/-- A position and all positions that it reads from, in ascending order of their ids. -/
def ancestorsOf (s : Supergraph α) (r : Ref) : Except Fault (List Ref) :=
  sortedRefs <$> reachable s.sources s.ids s.ids [r]

/-- The ids of a position and of all positions that it reads from, in ascending order. -/
def ancestors (s : Supergraph α) (id : Int) : Except Fault (List Int) := do
  return (← s.ancestorsOf (.id id)).filterMap Ref.id?

/-- The positions by stage. -/
def stages (s : Supergraph α) : Table Nat (List Int) :=
  s.positions.foldl
    (fun t p => t.insert p.stage ((t.get? p.stage).getD [] ++ [p.id])) .empty

/-- Number of candidates that are left. -/
def candidateCount (s : Supergraph α) : Nat :=
  s.positions.foldr (fun p n => p.candidates.length + n) 0

/-- Drops positions that no exit reads from. -/
def dropDead (s : Supergraph α) : Except Fault (Supergraph α) := do
  let live ← s.exits.mapM s.ancestors
  return { s with positions := s.positions.filter fun p => live.flatten.contains p.id }

/-- A text about a supergraph, with a line per position. -/
def summary (s : Supergraph α) : String :=
  let exits := "[" ++ ", ".intercalate (s.exits.map toString) ++ "]"
  let head := "Supergraph(" ++ s.inputType.toText ++ " -> " ++ s.outputType.toText ++ ", depth="
    ++ s.depth.literal ++ ", nodes=" ++ toString s.positions.length ++ ", exits=" ++ exits ++ ")"
  "\n".intercalate (head :: s.positions.map fun p => "  " ++ p.describe)

variable [Scalar α]

/-- Drops exits; the logits of the others stay with them. -/
def removeExits (s : Supergraph α) (rs : List Ref) : Except Fault (Supergraph α) := do
  rs.forM Ref.check
  let ids := rs.filterMap Ref.id?
  let kept := s.exits.zipIdx.filter fun q => !ids.contains q.1
  return { s with
    routeLogits := ← s.routeLogits.take (kept.map Prod.snd), exits := kept.map Prod.fst }

/-- Checks that there is a logit of a route. -/
def checkRoutes (s : Supergraph α) : Except Fault Unit :=
  match s.routeLogits with
  | .nothing => fail .wrongForm
  | l => if l.entries.isEmpty then fail (.numeric .shape) else .ok ()

/-- The weights of the exits at a temperature, row by row; there must be a logit. -/
def routeWeights (s : Supergraph α) (temperature : α) : Except Fault (List α) := do
  s.checkRoutes
  return s.routeLogits.weights temperature

/-- The mixture that the logits give at a temperature. -/
def mixture (s : Supergraph α) (temperature : α) : Mixture α :=
  { weights := fun id => ((s.find? id).map (·.weights temperature)).getD []
    route := s.routeLogits.weights temperature }

/-- The weights of the routes of a mixture, which must be a row with at least one entry. -/
def routes (s : Supergraph α) (m : Mixture α) : Except Fault (List α) := do
  s.checkRoutes
  if s.routeLogits.toTensor.rank ≠ 1 then fail .wrongForm
  return m.route

end Supergraph

end OperatorNet
