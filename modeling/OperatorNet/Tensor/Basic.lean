import OperatorNet.Scalar
import OperatorNet.Tensor.Shape

/-!
# Tensors

Rectangular arrays of numbers of any rank. A tensor is given by its value at every place; `get_ofFn`
says that reading gives that value back.
-/

namespace OperatorNet

/-- Numbers at all places of a shape, row by row. -/
structure Tensor (α : Type) where
  shape : List Nat
  data : Array α
  size_eq : data.size = volume shape

namespace Tensor

variable {α β γ : Type}

/-- The tensor with given values. -/
def ofFn (shape : List Nat) (f : List Nat → α) : Tensor α :=
  ⟨shape, Array.ofFn (n := volume shape) fun k => f (unravel shape k), by simp⟩

/-- The value at a place. -/
def get [Zero α] (t : Tensor α) (place : List Nat) : α :=
  t.data.getD (ravel t.shape place) 0

/-- A tensor made of a function has its values. -/
theorem get_ofFn [Zero α] {shape place : List Nat} (h : Inside shape place) (f : List Nat → α) :
    (ofFn shape f).get place = f place := by
  have hlt := ravel_lt h
  simp [get, ofFn, Array.getD, hlt, unravel_ravel h]

/-- A row of numbers. -/
def ofList (xs : List α) : Tensor α :=
  ⟨[xs.length], xs.toArray, by simp [volume]⟩

/-- A single number. -/
def scalar (x : α) : Tensor α :=
  ⟨[], #[x], rfl⟩

/-- One number at every place. -/
def full (shape : List Nat) (x : α) : Tensor α :=
  ⟨shape, Array.replicate (volume shape) x, by simp⟩

instance : Inhabited (Tensor α) :=
  ⟨⟨[0], #[], by simp [volume]⟩⟩

/-- All numbers, row by row. -/
def toList (t : Tensor α) : List α :=
  t.data.toList

/-- Number of axes. -/
def rank (t : Tensor α) : Nat :=
  t.shape.length

/-- Size of an axis. -/
def axis (t : Tensor α) (k : Nat) : Nat :=
  t.shape.getD k 0

/-- Applies a function at every place. -/
def map (f : α → β) (t : Tensor α) : Tensor β :=
  ⟨t.shape, t.data.map f, by simpa using t.size_eq⟩

/-- The same numbers in another shape of the same volume. -/
def reshape (t : Tensor α) (shape : List Nat) (h : volume t.shape = volume shape) : Tensor α :=
  ⟨shape, t.data, t.size_eq.trans h⟩

/-- One row per entry of the first axis; a single number has no rows. -/
def rows? (t : Tensor α) : Option (Tensor α) :=
  match h : t.shape with
  | [] => none
  | n :: rest => some (t.reshape [n, volume rest] (by simp [h, volume]))

/-- Combines two tensors of one shape place by place. -/
def zipWith (f : α → β → γ) (a : Tensor α) (b : Tensor β) (h : a.shape = b.shape) : Tensor γ :=
  ⟨a.shape, Array.zipWith f a.data b.data, by
    simp [Array.size_zipWith, a.size_eq, b.size_eq, h]⟩

/-- Combines two tensors place by place after stretching them to a common shape. -/
def combine? [Zero α] [Zero β] (f : α → β → γ) (a : Tensor α) (b : Tensor β) :
    Option (Tensor γ) :=
  if h : a.shape = b.shape then some (zipWith f a b h)
  else (stretch? a.shape b.shape).map fun shape =>
    ofFn shape fun place =>
      f (a.get (stretchedPlace a.shape place)) (b.get (stretchedPlace b.shape place))

/-- Combines two tensors at the places of the first one. -/
def combineAt [Zero β] (f : α → β → γ) [Zero α] (a : Tensor α) (b : Tensor β) : Tensor γ :=
  if h : a.shape = b.shape then zipWith f a b h
  else ofFn a.shape fun place => f (a.get place) (b.get place)

/-- Stretches a tensor to a given shape. -/
def stretchTo? [Zero α] (t : Tensor α) (shape : List Nat) : Option (Tensor α) :=
  if t.shape = shape then some t
  else if stretch? t.shape shape = some shape then
    some (ofFn shape fun place => t.get (stretchedPlace t.shape place))
  else none

/-- The entries of the first axis at the given places. -/
def takeRows [Zero α] (t : Tensor α) (places : List Nat) : Tensor α :=
  ofFn (places.length :: t.shape.drop 1) fun place =>
    match place with
    | i :: rest => t.get (places.getD i 0 :: rest)
    | [] => 0

/-- The numbers along one axis through a place of the other axes. -/
def line [Zero α] (t : Tensor α) (k : Nat) (place : List Nat) : List α :=
  (List.range (t.axis k)).map fun i => t.get (place.take k ++ i :: place.drop k)

/-- Replaces one axis by what a function makes of the numbers along it. -/
def foldAxis [Zero α] (f : List α → β) (k : Nat) (t : Tensor α) : Tensor β :=
  ofFn (t.shape.take k ++ t.shape.drop (k + 1)) fun place => f (t.line k place)

section Scalar

variable [Scalar α]

/-- Adds two tensors at the places of the first one. -/
def add (a b : Tensor α) : Tensor α :=
  combineAt (· + ·) a b

/-- Multiplies every number by one number. -/
def scale (c : α) (t : Tensor α) : Tensor α :=
  t.map (c * ·)

/-- The sum of all numbers, row by row. -/
def total (t : Tensor α) : α :=
  Scalar.sum t.toList

/-- The sum of the products at the places of the first tensor. -/
def inner (a b : Tensor α) : α :=
  (combineAt (· * ·) a b).total

/-- The sums along one axis. -/
def sumAxis (k : Nat) (t : Tensor α) : Tensor α :=
  t.foldAxis Scalar.sum k

/-- Rows and columns exchanged. -/
def transpose (t : Tensor α) : Tensor α :=
  ofFn [t.axis 1, t.axis 0] fun place => t.get place.reverse

/-- The product of two matrices whose inner sizes agree. -/
def matmul (a b : Tensor α) : Tensor α :=
  ofFn [a.axis 0, b.axis 1] fun place =>
    Scalar.sum ((List.range (a.axis 1)).map fun k =>
      a.get [place.getD 0 0, k] * b.get [k, place.getD 1 0])

/-- The weighted sum of tensors, at the places of the first one. -/
def mix (weights : List α) (ts : List (Tensor α)) : Tensor α :=
  match List.zipWith scale weights ts with
  | [] => default
  | t :: rest => rest.foldl add t

end Scalar

end Tensor

end OperatorNet
