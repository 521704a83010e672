import OperatorNet.Fault

/-!
# Patches

Documents with another value at one place. A path leads there through fields of mappings and items
of lists; what it passes must be there, and only its last step may add a field.
-/

namespace OperatorNet

/-- A step of a path into a document. -/
inductive PathStep where
  | field (key : String)
  /-- An item; a negative place counts from the end. -/
  | item (place : Int)

namespace Data

variable {α : Type}

/-- The place of an item in a list, which must have so many items. -/
def placeIn (items : List (Data α)) (place : Int) : Except Fault Nat :=
  let n := if place < 0 then place + items.length else place
  if 0 ≤ n ∧ n < items.length then .ok n.toNat else fail (.numeric .place)

/-- The document with another value at the end of a path, which has a first step. -/
def patched (new d : Data α) (step : PathStep) : List PathStep → Except Fault (Data α)
  | [] =>
    match d, step with
    | .mapping fields, .field key => .ok (.mapping (put key new fields))
    | .list items, .item place => do
      return .list (items.set (← placeIn items place) new)
    | _, _ => fail .wrongForm
  | next :: rest =>
    match d, step with
    | .mapping fields, .field key =>
      match fetch key fields with
      | some inner => do
        return .mapping (put key (← patched new inner next rest) fields)
      | none => fail .noField
    | .list items, .item place => do
      let i ← placeIn items place
      return .list (items.set i (← patched new (items.getD i .null) next rest))
    | .mapping _, .item _ => fail .noField
    | _, _ => fail .wrongForm

end Data

end OperatorNet
