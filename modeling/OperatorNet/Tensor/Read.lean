import OperatorNet.Data.Number
import OperatorNet.Tensor.Basic
import OperatorNet.Word

/-!
# Reading tensors

Nested lists whose shapes agree at every level are the numbers of a tensor row by row.
-/

namespace OperatorNet.Tensor

variable {α β : Type}

/-- Joins the shapes and numbers of the items of a list. -/
def joinItems (parts : List (List Nat × List β)) : Except Fault (List Nat × List β) :=
  match parts with
  | [] => .ok ([0], [])
  | p :: rest =>
    if rest.all fun q => q.1 = p.1 then
      .ok (parts.length :: p.1, parts.flatMap Prod.snd)
    else fail (.numeric .shape)

mutual

/-- The shape and the numbers of nested lists. -/
def gather (leaf : Data α → Except Fault β) : Data α → Except Fault (List Nat × List β)
  | .list items => do joinItems (← gatherAll leaf items)
  | .null => return ([], [← leaf .null])
  | .bool b => return ([], [← leaf (.bool b)])
  | .int n => return ([], [← leaf (.int n)])
  | .real x => return ([], [← leaf (.real x)])
  | .text s => return ([], [← leaf (.text s)])
  | .mapping fields => return ([], [← leaf (.mapping fields)])

/-- The shapes and numbers of several values. -/
def gatherAll (leaf : Data α → Except Fault β) :
    List (Data α) → Except Fault (List (List Nat × List β))
  | [] => .ok []
  | d :: rest => do return (← gather leaf d) :: (← gatherAll leaf rest)

end

/-- The largest number of axes. -/
def mostAxes : Nat :=
  64

/-- The tensor in a document, whose leaves are read by `leaf`. -/
def ofData (leaf : Data α → Except Fault β) (d : Data α) : Except Fault (Tensor β) := do
  let (shape, xs) ← gather leaf d
  if mostAxes < shape.length then fail (.numeric .shape)
  else if h : xs.toArray.size = volume shape then return ⟨shape, xs.toArray, h⟩
  else fail (.numeric .shape)

/-- A number in a document; a text that is no number is no entry of a tensor. -/
def numberLeaf [Scalar α] : Data α → Except Fault α
  | .null => .ok (0 / 0)
  | .list _ => fail (.numeric .shape)
  | .text s =>
    match Decimal.readNumber? s with
    | some x => .ok x
    | none => fail (.numeric .shape)
  | d => d.number

/-- A word in a document; other numbers lose their fraction. -/
def wordLeaf [Scalar α] (d : Data α) : Except Fault Word := do
  let n ← match d with
    | .list _ => fail (.numeric .shape)
    | .text s =>
      match Decimal.readInt? s with
      | some n => .ok n
      | none => fail (.numeric .shape)
    | .real x => if Scalar.same x x then wholeOfReal x else fail (.numeric .shape)
    | d => d.whole
  match Word.ofInt? n with
  | some w => return w
  | none => fail .overflow

end OperatorNet.Tensor
