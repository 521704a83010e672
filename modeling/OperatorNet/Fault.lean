import OperatorNet.Bindings.Unify
import OperatorNet.Ref.Basic
import OperatorNet.Search.Bound
import OperatorNet.Validation.Check

/-!
# Faults

Everything that can go wrong, by cause. A fault also carries the place at which it arose, when there
is one, and notes on what was being done. Each cause of this library has one wording.
-/

namespace OperatorNet

/-- Why an operator cannot be registered, or a type cannot be named. -/
inductive SignatureFlaw where
  | noInput
  | untypedSlot (slot : Nat)
  | unknownKind (kind : String)
  | unknownReference (ref : String)
  | adapterArity
  | negativeCost (metric : String)
  | negativeStability
  | description (flaw : Flaw)

namespace SignatureFlaw

/-- The wording of a flaw. -/
def message : SignatureFlaw → String
  | noInput => "operator must take at least one input"
  | untypedSlot slot => "slot " ++ toString slot ++ " is not a TypeSpec"
  | unknownKind kind => "unknown type kind '" ++ kind ++ "'"
  | unknownReference ref => "unknown type alias or kind '" ++ ref ++ "'"
  | adapterArity => "adapters must be unary"
  | negativeCost metric => "negative cost for '" ++ metric ++ "'"
  | negativeStability => "negative stability bound"
  | description flaw => flaw.message

end SignatureFlaw

/-- Why a wiring is not well typed. -/
inductive SlotReason where
  | mismatch (m : Mismatch)
  | arity (operator : String) (takes got : Nat)
  | cycle (network : String) (sorted all : Nat)
  | noOutput
  | laterSource (source : Ref)
  | wrongResult

namespace SlotReason

/-- The wording of a reason. -/
def message : SlotReason → String
  | mismatch m => m.message
  | arity operator takes got =>
    "operator '" ++ operator ++ "' takes " ++ toString takes ++ " inputs, got " ++ toString got
  | cycle network sorted all =>
    "graph '" ++ network ++ "' contains a cycle; sorted " ++ toString sorted ++ "/" ++ toString all
      ++ " nodes"
  | noOutput => "graph has no output node"
  | laterSource source => "input " ++ source.shown ++ " is not an earlier node"
  | wrongResult => "decoded output does not match the requested output type"

end SlotReason

/-- A slot that does not accept what is wired into it; slot `-1` stands for the whole network. -/
structure SlotError where
  slot : Int
  expected : Option PortType
  actual : Option PortType
  node : Option Int
  reason : SlotReason

namespace SlotError

/-- A type that may be missing. -/
def typeText (t : Option PortType) : String :=
  (t.map PortType.toText).getD "None"

/-- The wording of a slot error. -/
def message (e : SlotError) : String :=
  let place := (e.node.map fun n => "node " ++ toString n ++ ", ").getD ""
  "Type check failed at " ++ place ++ "slot " ++ toString e.slot ++ ": expected "
    ++ typeText e.expected ++ ", got " ++ typeText e.actual ++ " (" ++ e.reason.message ++ ")"

/-- Whether the wording of a slot error has no number that is too long to be written. -/
def isWritable (e : SlotError) : Bool :=
  (e.expected.all PortType.isWritable && e.actual.all PortType.isWritable) &&
    match e.reason with
    | .mismatch reason => reason.isWritable
    | _ => true

/-- The document of a slot error. -/
def toData {α : Type} (e : SlotError) : Data α :=
  .mapping [("slot", .int e.slot), ("node_id", (e.node.map .int).getD .null),
    ("message", .text e.message), ("reason", .text e.reason.message)]

end SlotError

/-- Why settings are refused. -/
inductive SettingsFlaw where
  | unknownKeys (keys : List (Data Float))
  | unknownSchedule (given : Data Float)
  | temperatures
  | negativeSteps
  | pruneThreshold
  | pruneEvery
  | maxWorkers
  | maxFanIn
  | unknownRule (given : Data Float)
  | scheduleTemperatures
  | scheduleKind (given : Data Float)

namespace SettingsFlaw

/-- The wording of a flaw. -/
def message : SettingsFlaw → String
  | unknownKeys keys => "Unknown SearchConfig keys: " ++ (Data.list keys).literal
  | unknownSchedule given =>
    "schedule must be one of ('exponential', 'linear'), got " ++ given.literal
  | temperatures =>
    "temperatures must satisfy 0 < final_temperature <= initial_temperature"
  | negativeSteps => "steps must be >= 0"
  | pruneThreshold => "prune_threshold must be in [0, 1)"
  | pruneEvery => "prune_every must be >= 1"
  | maxWorkers => "max_workers must be >= 1"
  | maxFanIn => "max_fan_in must be >= 1"
  | unknownRule given =>
    "Unknown tie_break rule " ++ given.literal ++ "; expected ('cost', 'catalog_order')"
  | scheduleTemperatures => "TemperatureSchedule requires 0 < final <= initial"
  | scheduleKind given => "Unknown schedule kind " ++ given.literal

end SettingsFlaw

/-- What a numerical operation was asked that has no answer. -/
inductive NumericFlaw where
  /-- Shapes that cannot be brought together, or nothing to choose from. -/
  | shape
  /-- A place outside a tensor. -/
  | place
  /-- An axis that a tensor lacks. -/
  | axis
  /-- A system of equations without a unique solution. -/
  | singular
  /-- A single number where a row is needed. -/
  | rank
  /-- More room than there is. -/
  | room
  /-- A text where numbers are needed. -/
  | text
  deriving DecidableEq

/-- Why something could not be done. -/
inductive Cause where
  | dimension (e : DimError)
  | invalid (issues : List Issue)
  /-- A value of a form that cannot be examined. -/
  | wrongForm
  /-- A value without the parts that a declaration has. -/
  | noParts
  | signature (operator : String) (flaw : SignatureFlaw)
  | aliasFlaw (name : String) (flaw : SignatureFlaw)
  | duplicate (operator : String)
  | frozen
  | unknownOperator (name : String) (available : List String)
  /-- A value, as shown in messages, that names no operator with a place in the order. -/
  | unranked (shown : String)
  | slot (e : SlotError)
  | notInNetwork (id : Int) (network : String)
  | missingKey (key : String)
  /-- A mapping without the field on a path. -/
  | noField
  | duplicateInput (name : String)
  | noOutput (network : String)
  | missingValue (input : String)
  | notAnInteger (text : String)
  /-- More digits than a whole number may have in a text. -/
  | tooManyDigits (count : Option Nat)
  /-- A number that is no number, where a whole number is needed. -/
  | undefinedWhole
  /-- A number too large for its place. -/
  | overflow
  | notANumber (text : String)
  | noExecutor (operator : String)
  | notDifferentiable (operator : String)
  /-- An error of an executor, under its own name. -/
  | executor (kind : String) (text : Option String)
  /-- An item, at a place of a row, that is no pair of a key and a value. -/
  | unpaired (place length : Nat)
  | numeric (flaw : NumericFlaw)
  | unknownMetricKind
  | multiplicative (metric : String)
  | unknownState
  | transition (node : Int) (source target : String)
  | depth (bound : String)
  | noConsumer (type : PortType)
  | noRoute (bound : StageBound) (source target : PortType)
  | noExit
  | widthChanged (exit : Int) (before now : Nat)
  | settings (flaw : SettingsFlaw)
  | unknownTask (task : String)
  | learningRate

namespace Cause

/-- The wording of a cause; causes outside this library's own vocabulary have none. -/
def message? : Cause → Option String
  | dimension e => some e.message
  | signature operator flaw =>
    some ("Operator '" ++ operator ++ "' has a malformed signature: " ++ flaw.message)
  | aliasFlaw name flaw => some ("Type alias '" ++ name ++ "' is malformed: " ++ flaw.message)
  | duplicate operator => some ("Operator '" ++ operator ++ "' is already registered")
  | frozen => some "Catalog is frozen; use with_operators() to derive a new snapshot"
  | unknownOperator name available =>
    some ("Unknown operator '" ++ name ++ "'. Available: " ++ Text.quotedList "[" available "]")
  | unranked shown => some (shown ++ " is not in list")
  | slot e => some e.message
  | notInNetwork id network =>
    some ("Node " ++ toString id ++ " is not part of graph '" ++ network ++ "'")
  | missingKey key => some key
  | duplicateInput name => some ("Duplicate graph input '" ++ name ++ "'")
  | noOutput network => some ("Graph '" ++ network ++ "' has no output node")
  | missingValue input => some ("Missing value for graph input '" ++ input ++ "'")
  | notAnInteger text => some (Decimal.notAnInteger text)
  | tooManyDigits count => some (Text.tooManyDigits count)
  | undefinedWhole => some "cannot convert float NaN to integer"
  | notANumber text => some ("could not convert string to float: " ++ Text.quoted text)
  | noExecutor operator => some ("Operator '" ++ operator ++ "' has no executor bound")
  | notDifferentiable operator => some ("Operator '" ++ operator ++ "' is not differentiable")
  | executor _ text => text
  | unpaired place length =>
    some ("dictionary update sequence element #" ++ toString place ++ " has length "
      ++ toString length ++ "; 2 is required")
  | multiplicative metric =>
    some ("Metric '" ++ metric ++ "' aggregates multiplicatively; no relaxed gradient")
  | transition node source target =>
    some ("Supergraph node " ++ toString node ++ ": " ++ source ++ " -> " ++ target
      ++ " is not a valid transition")
  | depth bound => some ("depth_bound must be >= 1, got " ++ bound)
  | noConsumer type => some ("No operator in the catalog consumes " ++ type.toText)
  | noRoute bound source target =>
    some ("No operator sequence of depth <= " ++ bound.literal ++ " maps " ++ source.toText
      ++ " to " ++ target.toText)
  | noExit => some "Supergraph has no exit left to decode"
  | widthChanged exit before now =>
    some ("Exit " ++ toString exit ++ " feature width changed from " ++ toString before ++ " to "
      ++ toString now)
  | settings flaw => some flaw.message
  | unknownTask task =>
    some ("Unknown task_kind '" ++ task ++ "'. Available: ['classification', 'regression']")
  | invalid _ | wrongForm | noParts | noField | numeric _ | overflow | unknownMetricKind
  | unknownState | learningRate => none

end Cause

/-- A cause with the place at which it arose and notes on what was being done. -/
structure Fault where
  cause : Cause
  node : Option Ref
  notes : List String

namespace Fault

/-- A fault that has just arisen. -/
def of (cause : Cause) : Fault :=
  let node := match cause with
    | .slot e => e.node.map .id
    | _ => none
  ⟨cause, node, []⟩

/-- Adds a note. -/
def noted (text : String) (f : Fault) : Fault :=
  { f with notes := f.notes ++ [text] }

/-- Whether the fault already says where it arose; slot errors always do, even about no node. -/
def placed (f : Fault) : Bool :=
  f.node.isSome || match f.cause with
    | .slot _ => true
    | _ => false

/-- Says where the fault arose, unless it says so already. -/
def locate (node : Ref) (f : Fault) : Fault :=
  if f.placed then f else { f with node := some node }

/-- A number that is too long to be written. -/
def unwritable : Fault :=
  .of (.dimension .unwritable)

end Fault

/-- Ends with a fault. -/
def fail {β : Type} (cause : Cause) : Except Fault β :=
  .error (.of cause)

/-- Goes on when something can be written. -/
def requireWritable (writable : Bool) : Except Fault PUnit :=
  if writable then .ok ⟨⟩ else .error .unwritable

/-- What a comparison says, put into words where it fails. -/
def worded {β : Type} : Except Mismatch β → Except Fault (Except Mismatch β)
  | .ok b => .ok (.ok b)
  | .error reason => do
    requireWritable reason.isWritable
    return .error reason

/-- The fault about a slot, once it is put into words. -/
def SlotError.fault (e : SlotError) : Fault :=
  if e.isWritable then .of (.slot e) else .unwritable

/-- The result of a check, with its issues as a fault. -/
def Check.toExcept {β : Type} : Check β → Except Fault β
  | .accepted b => .ok b
  | .refused issues => fail (.invalid issues)
  | .brokenDown => fail .wrongForm

end OperatorNet
