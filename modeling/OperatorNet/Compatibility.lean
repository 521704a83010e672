import OperatorNet.Operator.Basic

/-!
# Compatibility

A value fits a slot directly when its type unifies with that of the slot, and through an adapter
when the adapter's input fits the value and its output fits the slot. Adapters are tried in order
and each attempt gives the adapter symbols of its own. The reasons why types do not fit are put into
words, whether they are told or not.
-/

namespace OperatorNet

variable {α : Type}

/-- How a type, or an operator, answers a request. -/
inductive Relation where
  | equal
  | adaptable
  | incompatible
  deriving DecidableEq

namespace Relation

/-- The name of a relation. -/
def name : Relation → String
  | equal => "equal"
  | adaptable => "adaptable"
  | incompatible => "incompatible"

end Relation

/-- Whether and how a value fits a slot, with what is known afterwards. -/
inductive Fit where
  | direct (bindings : Bindings)
  | through (adapter : String) (bindings : Bindings)
  | none

namespace Fit

/-- The relation between the value and the slot. -/
def relation : Fit → Relation
  | direct _ => .equal
  | through _ _ => .adaptable
  | none => .incompatible

/-- The adapter in between. -/
def adapter? : Fit → Option String
  | through name _ => some name
  | _ => Option.none

/-- What is known afterwards. -/
def bindings? : Fit → Option Bindings
  | direct b | through _ b => some b
  | none => Option.none

/-- The document of a fit. -/
def toData {α : Type} (f : Fit) : Data α :=
  .mapping [("relation", .text f.relation.name), ("truthy", .bool (f.relation ≠ .incompatible)),
    ("adapter", (f.adapter?.map .text).getD .null),
    ("bindings", (f.bindings?.map (·.toData)).getD .null)]

end Fit

/-- The input type of an adapter. -/
def Operator.firstInput (op : Operator α) : Except Fault PortType :=
  match op.inTypes with
  | t :: _ => .ok t
  | [] => fail (.numeric .place)

/-- The first adapter, from place `i` on, that leads from one type to another. -/
def bridge (b : Bindings) (actual expected : PortType) (i : Nat) :
    List (Operator α) → Except Fault Fit
  | [] => .ok .none
  | a :: rest => do
    let suffix := "a" ++ toString i
    let input := (← a.firstInput).freshen suffix
    match ← worded (b.unifySlots [(input, actual), (expected, a.outType.freshen suffix)]) with
    | .ok b' => return .through a.name b'
    | .error _ => bridge b actual expected (i + 1) rest

/-- Whether a value of type `actual` fits a slot of type `expected`. -/
def compatible (b : Bindings) (actual expected : PortType) (adapters : List (Operator α)) :
    Except Fault Fit := do
  match ← worded (b.unify expected actual) with
  | .ok b' => return .direct b'
  | .error _ => bridge b actual expected 0 adapters

end OperatorNet
