import OperatorNet.Operator.Basic
import OperatorNet.Search.Logits

/-!
# Positions

A position of a supergraph is a place for one operator: it reads from given sources, its value has a
given type, and several candidates compete for it. Candidates through which gradients can be pulled
take part in a mixture, with one logit each; the others are fixed and wait for the decoder. A
position is frozen when nothing can be mixed. Its stage of life only moves forward.
-/

namespace OperatorNet

/-- The stages of life of a position. -/
inductive PositionState where
  | masked
  | mixing
  | annealed
  | pruned
  | decoded
  deriving DecidableEq

namespace PositionState

/-- The state with a given name. -/
def ofName? : String → Option PositionState
  | "masked" => some masked
  | "mixing" => some mixing
  | "annealed" => some annealed
  | "pruned" => some pruned
  | "decoded" => some decoded
  | _ => none

/-- The name of a state. -/
def name : PositionState → String
  | masked => "masked"
  | mixing => "mixing"
  | annealed => "annealed"
  | pruned => "pruned"
  | decoded => "decoded"

/-- The states that may follow a state. -/
def following : PositionState → List PositionState
  | masked => [mixing, decoded]
  | mixing => [annealed, pruned, decoded]
  | annealed => [annealed, pruned, decoded]
  | pruned => [pruned, decoded]
  | decoded => []

end PositionState

/-- A place for one operator. -/
structure Position (α : Type) where
  id : Int
  /-- Number of operators on the longest way to the position, itself included. -/
  stage : Nat
  /-- The positions that are read; `none` stands for the input. -/
  inputs : List (Option Int)
  outType : PortType
  /-- The candidates that are left, in catalog order. -/
  candidates : List (Operator α)
  state : PositionState
  /-- One logit per mixing candidate. -/
  logits : Logits α
  /-- The name of the operator that was chosen, or whatever was put in its place. -/
  chosen : Option (Data Float)

namespace Position

variable {α : Type}

/-- The candidates that take part in the mixture. -/
def mixing (p : Position α) : List (Operator α) :=
  p.candidates.filter (·.mixes)

/-- The candidates that are left to the decoder. -/
def fixed (p : Position α) : List (Operator α) :=
  p.candidates.filter fun op => !op.mixes

/-- Whether nothing can be mixed. -/
def isFrozen (p : Position α) : Bool :=
  p.mixing.isEmpty

/-- Whether the position reads more than one source. -/
def isFanIn (p : Position α) : Bool :=
  1 < p.inputs.length

/-- The positions that are read. -/
def sources (p : Position α) : List Int :=
  p.inputs.filterMap fun s => s

/-- The operator that a frozen position uses. -/
def firstFixed (p : Position α) : Except Fault (Operator α) :=
  match p.fixed with
  | op :: _ => .ok op
  | [] => fail (.numeric .place)

/-- Moves the position on to another state. -/
def transition (p : Position α) (state : PositionState) : Except Fault (Position α) :=
  if state ∈ p.state.following then .ok { p with state }
  else fail (.transition p.id p.state.name state.name)

/-- A line of text about a position. -/
def describe (p : Position α) : String :=
  let sources := p.inputs.map fun s => (s.map toString).getD "in"
  "[" ++ toString p.id ++ "] stage " ++ toString p.stage ++ " (" ++ ",".intercalate sources
    ++ ") -> " ++ p.outType.toText ++ ": \x7b"
    ++ ",".intercalate (p.candidates.map (·.name)) ++ "\x7d"

variable [Scalar α]

/-- The weights of the mixing candidates at a temperature. -/
def weights (p : Position α) (temperature : α) : List α :=
  p.logits.weights temperature

/-- The document of the weights; where there are no logits the temperature does not matter. -/
def weightsData (p : Position α) (temperature : Except Fault α) : Except Fault (Data α) :=
  match p.logits with
  | .nothing => fail .noParts
  | l =>
    if l.entries.isEmpty then .ok l.toData
    else do return l.weightsData (p.weights (← temperature))

/-- Drops candidates by name; the logits of the others stay with them. -/
def remove (p : Position α) (names : List String) : Except Fault (Position α) := do
  let kept := (p.mixing.zipIdx.filter fun q => !names.contains q.1.name).map Prod.snd
  return { p with
    logits := ← p.logits.take kept
    candidates := p.candidates.filter fun op => !names.contains op.name }

end Position

end OperatorNet
