import OperatorNet.Search.Supergraph

/-!
# Selections

A discrete choice: an exit, and one operator for each position that the exit depends on. A selection
may also be given from outside; then positions are referred to in any form, and what is chosen need
not name an operator. Left to itself a position takes the operator that was chosen for it, its first
fixed one if nothing can be mixed, or else the one with the largest weight.
-/

namespace OperatorNet

/-- An exit with operators by position; without an exit the input itself is the output. -/
structure Selection where
  exit : Option Ref
  ops : List (Ref × Data Float)

/-- What selections that equal each other have in common. -/
abbrev SelectionKey := Option (Option Key) × List (Option Key × Option Key)

namespace Selection

/-- What is selected for a position, if anything is; the last choice counts. -/
def get? (s : Selection) (id : Int) : Option (Data Float) :=
  (s.ops.reverse.find? fun p => p.1.id? = some id).map Prod.snd

/-- What is selected for a position. -/
def get (s : Selection) (r : Ref) : Except Fault (Data Float) := do
  s.ops.forM fun p => p.1.check
  r.find s.get?

/-- The selection with another choice for a position. -/
def replace (s : Selection) (r : Ref) (choice : Data Float) : Selection :=
  { s with ops := s.ops.map fun p => (p.1, if p.1.same r then choice else p.2) }

/-- What is the same in selections that equal each other. -/
def key (s : Selection) : SelectionKey :=
  (s.exit.map Ref.key?, s.ops.map fun p => (p.1.key?, p.2.key?))

end Selection

/-- The name that a choice is. -/
def chosenName (choice : Data Float) : Except Fault String :=
  match choice with
  | .text name => .ok name
  | _ => fail .noParts

variable {α : Type} [Scalar α]

/-- The operator with the largest weight at a temperature. -/
def Position.heaviest (p : Position α) (temperature : α) : Except Fault String := do
  p.logits.check
  match p.weights temperature with
  | [] => fail (.numeric .shape)
  | w =>
    match p.mixing[Scalar.argmax w]? with
    | some op => .ok op.name
    | none => fail (.numeric .place)

/-- The operator that a position takes by itself. -/
def Position.preferred (p : Position α) (temperature : α) : Except Fault (Data Float) :=
  match p.state, p.chosen with
  | .decoded, some choice => .ok choice
  | _, _ =>
    if p.isFrozen then return .text (← p.firstFixed).name
    else .text <$> p.heaviest temperature

namespace Supergraph

/-- The selection for an exit that keeps what is selected already and lets the other positions
choose by themselves. -/
def routeSelection (s : Supergraph α) (temperature : α) (exit : Int) (kept : Option Selection) :
    Except Fault Selection := do
  let ops ← (← s.ancestors exit).mapM fun id => do
    let own ← (← s.position id).preferred temperature
    return (.id id, (kept.bind (·.get? id)).getD own)
  return { exit := some (.id exit), ops }

/-- What the operators of a selection cost, each in the metric by which the catalog is sorted. -/
def selectionCost (s : Supergraph α) (selection : Selection) : Except Fault α := do
  let costs ← selection.ops.mapM fun p => do
    return (← s.catalog.named p.2).costOf s.catalog.sortMetric
  return Scalar.sum costs

/-- A selection with what it is ranked by. -/
structure Ranked (α : Type) where
  weight : α
  cost : α
  selection : Selection

/-- Whether one selection is ranked before another: by the larger weight, then the lower cost, then
the smaller exit. -/
def Ranked.before (a b : Ranked α) : Bool :=
  if !Scalar.same a.weight b.weight then b.weight < a.weight
  else if !Scalar.same a.cost b.cost then a.cost < b.cost
  else (a.selection.exit.bind Ref.id?).getD 0 < (b.selection.exit.bind Ref.id?).getD 0

/-- The selection of every exit, the best route first. -/
def rankedSelections (s : Supergraph α) (temperature : α) : Except Fault (List Selection) := do
  let weights ← s.routeWeights temperature
  let selections ← s.exits.mapM fun e => s.routeSelection temperature e none
  let ranked ← selections.zipIdx.mapM fun q => do
    return ⟨← s.routeLogits.entryAt weights q.2, ← s.selectionCost q.1, q.1⟩
  if 1 < ranked.length then s.routeLogits.checkSingles ranked.length
  return (sortBy Ranked.before ranked).map (·.selection)

/-- The selections that differ from a given one just at one of its positions, each with the name of
the operator that comes in. -/
def swapsAt (s : Supergraph α) (selection : Selection) (choice : Ref × Data Float) :
    Except Fault (List (Selection × Data Float)) := do
  let p ← s.positionAt choice.1
  let pool := (if p.isFrozen then p.fixed else p.mixing).filter fun op =>
    choice.2.text? ≠ some op.name
  return pool.map fun op => (selection.replace choice.1 (.text op.name), .text op.name)

/-- The selection that takes another exit, with the name of the operator there. -/
def rerouted (s : Supergraph α) (temperature : α) (selection : Selection) (exit : Int) :
    Except Fault (List (Selection × Data Float)) := do
  let other ← s.routeSelection temperature exit (some selection)
  return [(other, ← other.get (.id exit))]

/-- The selections that differ from a given one at one position or take another exit, in groups. -/
def neighbourGroups (s : Supergraph α) (temperature : α) (selection : Selection) :
    List (Except Fault (List (Selection × Data Float))) :=
  selection.ops.map (s.swapsAt selection)
    ++ (s.exits.filter fun e => selection.exit.bind Ref.id? ≠ some e).map
      (s.rerouted temperature selection)

/-- The selections that differ from a given one at one position or take another exit. -/
def neighbours (s : Supergraph α) (temperature : α) (selection : Selection) :
    Except Fault (List (Selection × Data Float)) :=
  List.flatten <$> (s.neighbourGroups temperature selection).mapM id

/-- A bound on the number of selections that swaps make of a given one. Each keeps the positions of
the given one or takes those of an exit, and each of its choices is one of the given selection, one
that a position takes by itself, or a candidate. -/
def selectionBound (s : Supergraph α) (selection : Selection) : Nat :=
  let choices := selection.ops.length + s.positions.length + s.candidateCount
  s.exits.foldr (fun e n =>
    match s.ancestors e with
    | .ok ids => choices.pow ids.length + n
    | .error _ => n) (choices.pow selection.ops.length)

end Supergraph

end OperatorNet
