import OperatorNet.Data.Basic
import OperatorNet.Tensor.Arithmetic
import OperatorNet.Word

/-!
# Signals

What flows between operators: a tensor of real numbers, or a tensor of words. Operations that only
add, subtract, multiply and move entries are written once for any kind of entry; they stay among
words as long as all their operands are words, and go over to real numbers otherwise.
-/

namespace OperatorNet

/-- Entries that can be added, subtracted and multiplied. -/
class Element (β : Type) extends Zero β, Add β, Sub β, Mul β

instance : Element Word where

/-- Scalars as entries. -/
@[reducible] def Element.ofScalar (α : Type) [Scalar α] : Element α where

/-- A tensor of real numbers or of words. -/
inductive Signal (α : Type) where
  | reals (t : Tensor α)
  | words (t : Tensor Word)

/-- The nested lists of a given shape, from their leaves row by row. -/
def nestedLists {α β : Type} (leaf : β → Data α) : List Nat → List β → Data α
  | [], xs => (xs.head?.map leaf).getD .null
  | d :: ds, xs =>
    .list ((List.range d).map fun i => nestedLists leaf ds (xs.drop (i * volume ds)))

/-- The document of a tensor. -/
def Tensor.toData {α : Type} (t : Tensor α) : Data α :=
  nestedLists .real t.shape t.toList

namespace Signal

variable {α : Type}

instance : Inhabited (Signal α) := ⟨reals default⟩

/-- The sizes of the axes. -/
def shape : Signal α → List Nat
  | reals t => t.shape
  | words t => t.shape

/-- The document of a signal. -/
def toData : Signal α → Data α
  | reals t => t.toData
  | words t => nestedLists (fun w => .int w.toInt) t.shape t.toList

/-- The words of a signal, if it has words. -/
def words? : Signal α → Option (Tensor Word)
  | words t => some t
  | reals _ => none

variable [Scalar α]

/-- The entries as real numbers. -/
def toReals : Signal α → Tensor α
  | reals t => t
  | words t => t.map fun w => Scalar.ofInt w.toInt

/-- Applies an operation for any kind of entry to several operands. -/
def combine (f : {β : Type} → [Element β] → List (Tensor β) → Except Fault (Tensor β))
    (xs : List (Signal α)) : Except Fault (Signal α) :=
  match xs.mapM words? with
  | some ts => words <$> f ts
  | none => reals <$> @f α (Element.ofScalar α) (xs.map toReals)

/-- Applies an operation for any kind of entry. -/
def apply (f : {β : Type} → [Element β] → Tensor β → Tensor β) : Signal α → Signal α
  | reals t => reals (@f α (Element.ofScalar α) t)
  | words t => words (f t)

/-- Applies an operation for any kind of entry to two operands. -/
def combine₂ (f : {β : Type} → [Element β] → Tensor β → Tensor β → Except Fault (Tensor β))
    (x y : Signal α) : Except Fault (Signal α) :=
  combine (fun ts =>
    match ts with
    | [a, b] => f a b
    | _ => fail (.numeric .shape)) [x, y]

/-- The sum of two signals. -/
def add (x y : Signal α) : Except Fault (Signal α) :=
  combine₂ (Tensor.combined (· + ·)) x y

/-- The difference of two signals. -/
def sub (x y : Signal α) : Except Fault (Signal α) :=
  combine₂ (Tensor.combined (· - ·)) x y

/-- The product of two signals. -/
def mul (x y : Signal α) : Except Fault (Signal α) :=
  combine₂ (Tensor.combined (· * ·)) x y

/-- The magnitudes of all entries. -/
def magnitudes : Signal α → Signal α
  | reals t => reals (t.map Scalar.magnitude)
  | words t => words (t.map Word.magnitude)

/-- The entries of the first axis at the given places. -/
def takeRows (s : Signal α) (places : List Nat) : Signal α :=
  s.apply fun t => t.takeRows places

end Signal

end OperatorNet
