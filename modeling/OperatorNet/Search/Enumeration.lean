import OperatorNet.Cost.Budget
import OperatorNet.Number
import OperatorNet.PortType.Signature
import OperatorNet.Search.Supergraph

/-!
# Enumerating positions

Positions are laid out in stages. A position of a stage reads at least one source of the stage
before; an operator of one input reads just that, and an operator of several inputs reads different
sources in some order. Operators that read the same sources and whose values have the same type, up
to the names of symbols, compete for one position. Positions from which no exit can be reached are
left out.
-/

namespace OperatorNet

variable {α : Type}

/-- All choices of one element, with what is left. -/
def picks {β : Type} : List β → List (β × List β)
  | [] => []
  | x :: xs => (x, xs) :: (picks xs).map fun p => (p.1, x :: p.2)

/-- All ordered choices of `k` elements at different places. -/
def arrangements {β : Type} : Nat → List β → List (List β)
  | 0, _ => [[]]
  | k + 1, xs => (picks xs).flatMap fun p => (arrangements k p.2).map (p.1 :: ·)

/-- What a position can read: the input, or another position. -/
structure Source where
  id : Option Int
  type : PortType
  stage : Nat

/-- Operators that read the same sources and give the same type. -/
structure CandidateGroup (α : Type) where
  inputs : List (Option Int)
  key : SignatureKey
  outType : PortType
  operators : List (Operator α)

/-- Which operators are left out. -/
abbrev Exclusion (α : Type) := Operator α → Except Fault Bool

/-- Leaves out operators that exceed a limit of the budget on their own. -/
def Budget.exceededBy [Scalar α] (b : Budget α) (kinds : MetricKinds) : Exclusion α := fun op =>
  b.metrics.anyM fun metric => do
    let limit ← b.limit metric
    match ← metricKind metric kinds with
    | .lipschitz => return ((← op.lipschitz .empty).map fun x => decide (limit < x)).getD false
    | _ => return limit < op.costOf metric

/-- The type of the value of an operator on given input types, if it takes them; the suffix makes
its symbols local. -/
def Operator.instantiate (op : Operator α) (suffix : String) (inputs : List PortType) :
    Except Fault (Option PortType) := do
  match ← worded (Bindings.empty.unifySlots ((op.inTypes.map (·.freshen suffix)).zip inputs)) with
  | .ok b =>
    let type := b.resolveType (op.outType.freshen suffix)
    requireWritable type.hasTerms
    return some type
  | .error _ => return none

/-- Adds an operator to the group that it belongs to, or opens a group for it at the end. -/
def addToGroup (op : Operator α) (inputs : List (Option Int)) (outType : PortType) :
    List (CandidateGroup α) → List (CandidateGroup α)
  | [] => [{ inputs, key := outType.signatureKey, outType, operators := [op] }]
  | g :: rest =>
    if g.inputs = inputs ∧ g.key = outType.signatureKey then
      { g with operators := g.operators ++ [op] } :: rest
    else g :: addToGroup op inputs outType rest

/-- Groups the attempts to apply operators to sources. Each attempt counts up the suffix of local
symbols, whether it succeeds or not. -/
def groupAttempts (suffix : Nat) (groups : List (CandidateGroup α)) :
    List (Operator α × List Source) → Except Fault (List (CandidateGroup α))
  | [] => .ok groups
  | (op, sources) :: rest => do
    match ← op.instantiate ("s" ++ toString suffix) (sources.map (·.type)) with
    | some t => groupAttempts (suffix + 1) (addToGroup op (sources.map (·.id)) t groups) rest
    | none => groupAttempts (suffix + 1) groups rest

variable [Scalar α]

/-- The operators of one input that take a source. -/
def unaryAttempts (c : Catalog α) (excluded : Exclusion α) (source : Source) :
    Except Fault (List (Operator α × List Source)) := do
  let ops := (← c.consumers source.type).filter fun op => !op.isCombinator
  let open_ ← ops.filterM fun op => return !(← excluded op)
  return open_.map (·, [source])

/-- The attempts of a stage, given all sources so far. -/
def stageAttempts (c : Catalog α) (excluded : Exclusion α) (combinators : List (Operator α))
    (stage : Nat) (sources : List Source) : Except Fault (List (Operator α × List Source)) := do
  let last := sources.filter (·.stage + 1 = stage)
  let unary ← last.mapM (unaryAttempts c excluded)
  let several := combinators.flatMap fun op =>
    ((arrangements op.arity sources).filter fun ss => ss.any (·.stage + 1 = stage)).map (op, ·)
  return unary.flatten ++ several

/-- The position of a group. -/
def CandidateGroup.toPosition (c : Catalog α) (stage : Nat) (id : Int) (g : CandidateGroup α) :
    Position α :=
  { id, stage, inputs := g.inputs, outType := g.outType, candidates := c.inOrder g.operators,
    state := .masked, logits := .row [], chosen := none }

/-- The positions of some stages from `stage` on, after the given ones. -/
def layOut (c : Catalog α) (excluded : Exclusion α) (combinators : List (Operator α))
    (input : PortType) (stage suffix : Nat) (positions : List (Position α)) :
    Nat → Except Fault (List (Position α))
  | 0 => .ok positions
  | stages + 1 => do
    let sources := ⟨none, input, 0⟩ :: positions.map fun p => ⟨some p.id, p.outType, p.stage⟩
    let attempts ← stageAttempts c excluded combinators stage sources
    match ← groupAttempts suffix [] attempts with
    | [] =>
      if stage = 1 then
        requireWritable input.isWritable
        fail (.noConsumer input)
      else return positions
    | groups =>
      let new := groups.mapIdx fun i g =>
        g.toPosition c stage ((positions.length + i : Nat) : Int)
      layOut c excluded combinators input (stage + 1) (suffix + attempts.length)
        (positions ++ new) stages

namespace Supergraph

/-- The number of stages that a value asks for. Stages are counted in whole numbers; other numbers
are told apart only by being too small. -/
def stagesOf (d : Data Float) : Except Fault StageBound := do
  match d with
  | .int n => return .whole n
  | .bool b => return .truth b
  | .real x => if x < 1 then fail (.depth d.literal) else fail .wrongForm
  | _ => fail .wrongForm

/-- The positions whose values fit a type. -/
def answering (output : PortType) (positions : List (Position α)) :
    Except Fault (List (Position α)) :=
  positions.filterM fun p => return (← worded (Bindings.empty.unify output p.outType)).isOk

/-- The supergraph of a request. What is asked for is told when it is done, or why it cannot be. -/
def build (c : Catalog α) (input output : PortType) (depth : StageBound)
    (maxFanIn : Number α) (excluded : Exclusion α) : Except Fault (Supergraph α) := do
  if depth.count < 1 then fail (.depth depth.literal)
  let combinators ← (c.combinators.filter fun op => (Number.whole op.arity).atMost maxFanIn).filterM
    fun op => return !(← excluded op)
  let positions ← layOut c excluded combinators input 1 0 [] depth.count.toNat
  let exits := (← answering output positions).map (·.id)
  if exits.isEmpty then
    requireWritable (input.isWritable && output.isWritable)
    fail (.noRoute depth input output)
  else
    let s ← dropDead {
      catalog := c, inputType := input, outputType := output, depth, positions := positions, exits
      routeLogits := .zeros exits }
    requireWritable (input.isWritable && output.isWritable)
    return { s with
      positions := s.positions.map fun p => { p with logits := .zeros p.mixing } }

end Supergraph

end OperatorNet
