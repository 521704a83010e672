import OperatorNet.Data.Basic
import OperatorNet.Fault
import OperatorNet.Scalar

/-!
# Numbers as they are given

A number is given as a truth value, as a whole number or as a real number, and keeps this form where
nothing is computed from it. Comparisons are exact in all forms. Arithmetic stays whole on whole
numbers; where a real number takes part it is real, and a whole number beyond all real numbers
cannot take part.
-/

namespace OperatorNet

/-- A number in one of three forms. -/
inductive Number (α : Type) where
  | truth (b : Bool)
  | whole (n : Int)
  | real (x : α)

namespace Number

variable {α : Type} [Scalar α]

instance : Inhabited (Number α) :=
  ⟨whole 0⟩

/-- The whole number that a number is by its form. -/
def whole? : Number α → Option Int
  | truth b => some (if b then 1 else 0)
  | whole n => some n
  | real _ => none

/-- The nearest real number. -/
def toReal (a : Number α) : Except Fault α :=
  match a with
  | real x => .ok x
  | truth b => .ok (if b then 1 else 0)
  | whole n =>
    if Scalar.isFinite (Scalar.ofInt n : α) then .ok (Scalar.ofInt n) else fail .overflow

/-- Whether a whole number is below a real one. -/
def wholeBelow (n : Int) (x : α) : Bool :=
  if Scalar.isFinite x then
    let t := Scalar.truncate x
    n < t || (n = t && decide ((Scalar.ofInt t : α) < x))
  else decide (0 < x)

/-- Whether a real number is below a whole one. -/
def belowWhole (x : α) (n : Int) : Bool :=
  if Scalar.isFinite x then
    let t := Scalar.truncate x
    t < n || (t = n && decide (x < (Scalar.ofInt t : α)))
  else decide (x < 0)

/-- Whether a number is below another one. -/
def below (a b : Number α) : Bool :=
  match a.whole?, b.whole?, a, b with
  | some m, some n, _, _ => m < n
  | some m, none, _, real y => wholeBelow m y
  | none, some n, real x, _ => belowWhole x n
  | _, _, real x, real y => decide (x < y)
  | _, _, _, _ => false

/-- Whether a number is at most another one. -/
def atMost (a b : Number α) : Bool :=
  match a.whole?, b.whole?, a, b with
  | some m, some n, _, _ => m ≤ n
  | some m, none, _, real y => decide (y ≤ y) && !belowWhole y m
  | none, some n, real x, _ => decide (x ≤ x) && !wholeBelow n x
  | _, _, real x, real y => decide (x ≤ y)
  | _, _, _, _ => false

/-- Applies an operation on whole numbers, or one on real numbers where a real number takes part. -/
def combine (onWhole : Int → Int → Int) (onReal : α → α → α) (a b : Number α) :
    Except Fault (Number α) :=
  match a.whole?, b.whole? with
  | some m, some n => .ok (whole (onWhole m n))
  | _, _ => do return real (onReal (← a.toReal) (← b.toReal))

/-- The sum. -/
def plus (a b : Number α) : Except Fault (Number α) :=
  a.combine (· + ·) (· + ·) b

/-- The difference. -/
def minus (a b : Number α) : Except Fault (Number α) :=
  a.combine (· - ·) (· - ·) b

/-- The product. -/
def times (a b : Number α) : Except Fault (Number α) :=
  a.combine (· * ·) (· * ·) b

/-- The quotient by a positive number, which is real also for whole numbers. -/
def dividedBy (a b : Number α) : Except Fault α :=
  match a.whole?, b.whole? with
  | some m, some n =>
    let q : α := Scalar.ofRatio m n.natAbs
    if Scalar.isFinite q then .ok q else fail .overflow
  | _, _ => do return (← a.toReal) / (← b.toReal)

/-- The larger of two numbers; the first one unless the second is larger. -/
def larger (a b : Number α) : Number α :=
  if a.below b then b else a

/-- The smaller of two numbers; the first one unless the second is smaller. -/
def smaller (a b : Number α) : Number α :=
  if b.below a then b else a

/-- Whether a whole number is a whole multiple of a number. -/
def divides (a : Number α) (n : Int) : Bool :=
  match a with
  | real x => Scalar.divides x n
  | truth b => b
  | whole m => m ≠ 0 && n % m = 0

/-- A whole number that is not below a number, unless that is infinite. -/
def ceiling (a : Number α) : Int :=
  match a with
  | real x => Scalar.truncate (if Scalar.isFinite x then x else Scalar.finitize x) + 1
  | truth _ => 1
  | whole n => n

/-- The whole number next to a number on the side of zero. -/
def floor (a : Number α) : Int :=
  match a with
  | real x => Scalar.truncate x
  | truth b => if b then 1 else 0
  | whole n => n

/-- The document of a number. -/
def toData : Number α → Data α
  | truth b => .bool b
  | whole n => .int n
  | real x => .real x

/-- The number that a document is. -/
def ofData? : Data α → Option (Number α)
  | .bool b => some (truth b)
  | .int n => some (whole n)
  | .real x => some (real x)
  | _ => none

/-- The number that a document must be. -/
def ofData (d : Data α) : Except Fault (Number α) :=
  match ofData? d with
  | some a => .ok a
  | none => fail .wrongForm

end Number

end OperatorNet
