import OperatorNet.Tensor.Arithmetic

/-!
# Alignment

The values of candidates differ in shape. Before they are mixed they are padded with zeros to a
common shape; when even their ranks differ, each example is first written as one row. The common
shape of a position never shrinks while its rank stays. A gradient of the common shape is cut back
the same way.
-/

namespace OperatorNet

variable {α : Type} [Scalar α]

/-- The smallest sizes that contain all the given ones. -/
def enclosing : List (List Nat) → List Nat
  | [] => []
  | s :: rest => rest.foldl (List.zipWith max) s

/-- Tensors of one rank: as they are if they have one, else with a row per example. -/
def leveled (ts : List (Tensor α)) : Except Fault (List (Tensor α)) :=
  match ts with
  | [] => .ok []
  | t :: rest => if rest.all fun u => u.rank = t.rank then .ok ts else ts.mapM Tensor.flattened

/-- The sizes of the axes behind the first that tensors are padded to, when some such sizes may be
known from before. -/
def alignedSizes (known : Option (List Nat)) (ts : List (Tensor α)) : List Nat :=
  let sizes := enclosing (ts.map fun t => t.shape.drop 1)
  match known with
  | some before => if before.length = sizes.length then List.zipWith max before sizes else sizes
  | none => sizes

/-- Tensors padded to common sizes, with these sizes. -/
def align (known : Option (List Nat)) (ts : List (Tensor α)) :
    Except Fault (List Nat × List (Tensor α)) := do
  let ts ← leveled ts
  let sizes := alignedSizes known ts
  return (sizes, ts.map fun t => t.padTo (t.shape.take 1 ++ sizes))

/-- The part of a gradient that belongs to the value `out` before it was padded. -/
def unalign (gradient out : Tensor α) : Except Fault (Tensor α) :=
  if gradient.rank = out.rank then .ok (gradient.cutTo out.shape)
  else do
    let flat ← gradient.flattened
    if out.rank = 0 ∨ out.axis 0 = 0 then fail (.numeric .place)
    (flat.cutTo [flat.axis 0, volume (out.shape.drop 1)]).reshaped out.shape

end OperatorNet
