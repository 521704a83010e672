import OperatorNet.Tensor.Arithmetic

/-!
# Work along an axis

Cutting a tensor along an axis, putting tensors one after the other, repeating one along a new axis,
and adding up. Nothing here looks at what the entries are.
-/

namespace OperatorNet

/-- A shape with another size of one of its axes. -/
def resized (shape : List Nat) (k n : Nat) : List Nat :=
  shape.take k ++ n :: shape.drop (k + 1)

namespace Tensor

variable {β : Type} [Zero β]

/-- `n` entries of an axis, from the place `start` on, or as many as there are. -/
def slice (k start n : Nat) (t : Tensor β) : Tensor β :=
  ofFn (resized t.shape k (min n (t.axis k - start))) fun place =>
    t.get (resized place k (place.getD k 0 + start))

/-- The entry at a place behind several tensors, counted along an axis through all of them. -/
def getJoined (k : Nat) (place : List Nat) : Nat → List (Tensor β) → β
  | _, [] => 0
  | i, t :: rest =>
    if i < t.axis k then t.get (resized place k i) else getJoined k place (i - t.axis k) rest

/-- Tensors one after the other along an axis; their other sizes must agree. -/
def joined (k : Nat) (ts : List (Tensor β)) : Except Fault (Tensor β) :=
  match ts with
  | [] => fail (.numeric .shape)
  | t :: _ =>
    if t.rank ≤ k then fail (.numeric (if t.rank = 0 then .shape else .axis))
    else if ts.any fun u => resized u.shape k 0 ≠ resized t.shape k 0 then fail (.numeric .shape)
    else
      let size := ts.foldr (fun u n => u.axis k + n) 0
      .ok (ofFn (resized t.shape k size) fun place => getJoined k place (place.getD k 0) ts)

/-- A tensor `n` times along a new axis. -/
def repeated (k n : Nat) (t : Tensor β) : Tensor β :=
  ofFn (t.shape.take k ++ n :: t.shape.drop k) fun place => t.get (place.eraseIdx k)

/-- The entries at one place of an axis. -/
def at_ (k i : Nat) (t : Tensor β) : Tensor β :=
  ofFn (t.shape.eraseIdx k) fun place => t.get (place.take k ++ i :: place.drop k)

/-- The tensor with `n` zeros more behind an axis. -/
def extended (k n : Nat) (t : Tensor β) : Tensor β :=
  t.padTo (resized t.shape k (t.axis k + n))

variable [Add β]

/-- The sums over all axes but the last one. -/
def columnSums (t : Tensor β) : Tensor β :=
  (t.rank - 1).repeat (fun s => s.foldAxis (fun xs => xs.foldl (· + ·) 0) 0) t

/-- The sum of all entries, as a row of one. -/
def totalRow (t : Tensor β) : Tensor β :=
  ofList [t.toList.foldl (· + ·) 0]

end Tensor

end OperatorNet
