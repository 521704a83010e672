import OperatorNet.Number

/-!
# Annealing schedules and stopping

The temperature falls from an initial to a final value over a number of steps, by equal factors or
by equal amounts, and stays at the final value; neither steps nor their number need be whole. A run
can be stopped from outside, after a number of steps, or after a time. A limit that is no number is
found out when it is first compared.
-/

namespace OperatorNet

/-- How the temperature falls. -/
inductive Cooling where
  | exponential
  | linear
  deriving DecidableEq

namespace Cooling

/-- The cooling with a given name. -/
def ofName? : String → Option Cooling
  | "exponential" => some exponential
  | "linear" => some linear
  | _ => none

end Cooling

/-- A falling temperature. -/
structure Schedule (α : Type) [Scalar α] where
  start : Number α
  final : Number α
  steps : Number α
  cooling : Cooling
  final_pos : (Number.whole 0).below final = true
  final_le : final.atMost start = true

namespace Schedule

variable {α : Type} [Scalar α]

/-- The part of the way from the initial to the final temperature that is done at a step. -/
def progress (s : Schedule α) (step : Number α) : Except Fault α := do
  let last ← s.steps.minus (.whole 1)
  ((step.larger (.whole 0)).smaller last).dividedBy last

/-- The temperature at a step. -/
def temperature (s : Schedule α) (step : Number α) : Except Fault (Number α) := do
  if s.steps.atMost (.whole 1) then
    return if (Number.whole 0).below step then s.final else s.start
  let part ← s.progress step
  match s.cooling with
  | .linear => s.start.plus (← (← s.final.minus s.start).times (.real part))
  | .exponential => s.start.times (.real (Scalar.pow (← s.final.dividedBy s.start) part))

end Schedule

/-- What may stop a run, and why it was last stopped. -/
structure StopSignal (α : Type) where
  maxSteps : Option (Except Fault (Number α))
  maxSeconds : Option (Except Fault (Number α))
  /-- Whether a stop was asked for from outside, if that can be told. -/
  cancelled : Except Fault Bool
  /-- A text, or whatever the signal was made with. -/
  reason : Data α

namespace StopSignal

variable {α : Type} [Scalar α]

/-- The signal that only a time limit raises. -/
def ofSeconds (maxSeconds : Option (Except Fault (Number α))) : StopSignal α :=
  ⟨none, maxSeconds, .ok false, .null⟩

/-- Begins a run. -/
def start (s : StopSignal α) : StopSignal α :=
  { s with reason := .null }

/-- Asks for a stop from outside. -/
def cancel (s : StopSignal α) : Except Fault (StopSignal α) := do
  let _ ← s.cancelled
  return { s with cancelled := .ok true }

/-- Whether a limit, if there is one, is reached. -/
def reaches (limit : Option (Except Fault (Number α))) (x : Except Fault (Number α)) :
    Except Fault Bool :=
  match limit with
  | none => .ok false
  | some limit => do return (← limit).atMost (← x)

/-- Why to stop before a step when a given time has passed, if there is a reason. -/
def cause? (s : StopSignal α) (elapsed : α) (step : Except Fault (Number α)) :
    Except Fault (Option String) := do
  if ← s.cancelled then return some "cancelled"
  if ← reaches s.maxSteps step then return some "max_steps"
  if ← reaches s.maxSeconds (.ok (.real elapsed)) then return some "max_seconds"
  return none

/-- Whether to stop before a step; a stop notes its reason. -/
def check (s : StopSignal α) (elapsed : α) (step : Except Fault (Number α)) :
    Except Fault (Bool × StopSignal α) := do
  match ← s.cause? elapsed step with
  | some r => return (true, { s with reason := .text r })
  | none => return (false, s)

end StopSignal

end OperatorNet
