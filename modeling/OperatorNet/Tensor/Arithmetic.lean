import OperatorNet.Fault
import OperatorNet.Tensor.Basic

/-!
# Tensor arithmetic

Operations that are only defined for some shapes; the others end with a fault. Padding and cutting
work at the far end of every axis.
-/

namespace OperatorNet

instance decidableInside : (shape place : List Nat) → Decidable (Inside shape place)
  | [], [] => isTrue trivial
  | [], _ :: _ => isFalse id
  | _ :: _, [] => isFalse id
  | d :: ds, i :: is =>
    match decidableInside ds is with
    | isTrue h => if hi : i < d then isTrue ⟨hi, h⟩ else isFalse fun ⟨hi', _⟩ => hi hi'
    | isFalse h => isFalse fun ⟨_, h'⟩ => h h'

namespace Tensor

variable {α β γ : Type}

/-- Combines two tensors place by place after stretching them to a common shape. -/
def combined [Zero α] [Zero β] (f : α → β → γ) (a : Tensor α) (b : Tensor β) :
    Except Fault (Tensor γ) :=
  match a.combine? f b with
  | some t => .ok t
  | none => fail (.numeric .shape)

/-- Stretches a tensor to a given shape. -/
def stretched [Zero α] (t : Tensor α) (shape : List Nat) : Except Fault (Tensor α) :=
  match t.stretchTo? shape with
  | some t => .ok t
  | none => fail (.numeric .shape)

/-- One row per entry of the first axis, which must have an entry. -/
def flattened (t : Tensor α) : Except Fault (Tensor α) :=
  match t.rows? with
  | none => fail (.numeric .place)
  | some r => if r.axis 0 = 0 then fail (.numeric .shape) else .ok r

/-- Gives a tensor another shape of the same volume. -/
def reshaped (t : Tensor α) (shape : List Nat) : Except Fault (Tensor α) :=
  if h : volume t.shape = volume shape then .ok (t.reshape shape h)
  else fail (.numeric .shape)

/-- The product of two matrices. -/
def product [Scalar α] (a b : Tensor α) : Except Fault (Tensor α) :=
  if a.rank = 2 ∧ b.rank = 2 ∧ a.axis 1 = b.axis 0 then .ok (a.matmul b)
  else fail (.numeric .shape)

/-- The products of the matrices along the last two axes of two tensors whose other axes are
stretched to each other. A row on the right counts as a column. -/
def productWith [Scalar α] (a b : Tensor α) : Except Fault (Tensor α) :=
  let before := fun (t : Tensor α) => t.shape.take (t.rank - 2)
  let entry := fun (t : Tensor α) (place inner : List Nat) =>
    t.get (stretchedPlace (before t) place ++ inner)
  let line := fun (d : Nat) (f g : Nat → α) =>
    Scalar.sum ((List.range d).map fun j => f j * g j)
  match a.shape.drop (a.rank - 2), b.shape.drop (b.rank - 2), stretch? (before a) (before b) with
  | [n, d], [e], some front =>
    if d = e then
      .ok (ofFn (front ++ [n]) fun place =>
        let outer := place.take front.length
        line d (fun j => entry a outer [place.getD front.length 0, j]) fun j => b.get [j])
    else fail (.numeric .shape)
  | [n, d], [e, k], some front =>
    if d = e then
      .ok (ofFn (front ++ [n, k]) fun place =>
        let outer := place.take front.length
        line d (fun j => entry a outer [place.getD front.length 0, j]) fun j =>
          entry b outer [j, place.getD (front.length + 1) 0])
    else fail (.numeric .shape)
  | _, _, _ => fail (.numeric .shape)

/-- The weighted sum of tensors of one shape. -/
def mixed [Scalar α] (weights : List α) (ts : List (Tensor α)) : Except Fault (Tensor α) :=
  match ts with
  | [] => fail (.numeric .shape)
  | t :: rest =>
    if (rest.all fun u => u.shape = t.shape) ∧ weights.length = ts.length then
      .ok (mix weights ts)
    else fail (.numeric .shape)

/-- Replaces the numbers along every line of an axis. -/
def mapLines [Zero α] [Zero β] (f : List α → List β) (k : Nat) (t : Tensor α) : Tensor β :=
  ofFn t.shape fun place => (f (t.line k (place.eraseIdx k))).getD (place.getD k 0) 0

/-- A tensor in a larger shape of the same rank, zero at the places that are added. -/
def padTo [Zero α] (t : Tensor α) (shape : List Nat) : Tensor α :=
  ofFn shape fun place => if Inside t.shape place then t.get place else 0

/-- The part of a tensor that lies in a shape of the same rank. -/
def cutTo [Zero α] (t : Tensor α) (shape : List Nat) : Tensor α :=
  ofFn (List.zipWith min t.shape shape) t.get

/-- The mean of all numbers. -/
def mean [Scalar α] (t : Tensor α) : α :=
  Scalar.divNat t.total (volume t.shape)

end Tensor

end OperatorNet
