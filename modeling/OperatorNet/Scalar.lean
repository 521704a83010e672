import OperatorNet.Decimal.Binary

/-!
# Scalars

The operations that the numerical parts need of their numbers. Doubles are the instance that runs.
Order is only ever asked for as `<` and `≤`, and each question is asked in the direction in which it
is meant, so that a number that compares with nothing is treated the same way everywhere.
-/

namespace OperatorNet

/-- Numbers with arithmetic, a decidable order, and a few elementary functions. -/
class Scalar (α : Type) extends
    Zero α, One α, Add α, Sub α, Mul α, Div α, Neg α, LT α, LE α where
  decideLT : (x y : α) → Decidable (x < y)
  decideLE : (x y : α) → Decidable (x ≤ y)
  ofNat : Nat → α
  ofScientific : Nat → Bool → Nat → α
  /-- The nearest number to a quotient. -/
  ofRatio : Int → Nat → α
  exp : α → α
  log : α → α
  sqrt : α → α
  pow : α → α → α
  /-- What stands for a number beyond all others. -/
  infinity : α
  /-- Neither infinite nor undefined. -/
  isFinite : α → Bool
  /-- The number, with infinities and the undefined number replaced by finite ones. -/
  finitize : α → α
  /-- The whole number next to a number on the side of zero. -/
  truncate : α → Int
  /-- Whether a whole number is a whole multiple of a number. -/
  divides : α → Int → Bool

namespace Scalar

variable {α : Type} [Scalar α]

instance (x y : α) : Decidable (x < y) :=
  decideLT x y

instance (x y : α) : Decidable (x ≤ y) :=
  decideLE x y

/-- Two numbers that are each at most the other. -/
def same (x y : α) : Bool :=
  x ≤ y ∧ y ≤ x

/-- The larger of two numbers; the first one unless the second is larger. -/
def larger (x y : α) : α :=
  if x < y then y else x

/-- The smaller of two numbers; the first one unless the second is smaller. -/
def smaller (x y : α) : α :=
  if y < x then y else x

/-- The positive part of a number. -/
def positivePart (x : α) : α :=
  if 0 < x then x else 0

/-- The magnitude of a number; that of zero has no sign. -/
def magnitude (x : α) : α :=
  if 0 < x then x else 0 - x

/-- A whole number as a scalar. -/
def ofInt : Int → α
  | .ofNat n => ofNat n
  | .negSucc n => -ofNat (n + 1)

/-- The sum from left to right. -/
def sum (xs : List α) : α :=
  xs.foldl (· + ·) 0

/-- The sum of products from left to right. -/
def dot (xs ys : List α) : α :=
  sum (List.zipWith (· * ·) xs ys)

/-- The largest number of a list, the earliest of those that no later one exceeds. -/
def maximum (x : α) (xs : List α) : α :=
  xs.foldl larger x

/-- Division by a whole number. -/
def divNat (x : α) (n : Nat) : α :=
  x / ofNat n

/-- The later of two candidates for the largest number wins when it is not at most the earlier one,
unless the earlier one compares with nothing. -/
def beats (later earlier : α) : Bool :=
  earlier ≤ earlier ∧ ¬ later ≤ earlier

/-- The place of the first largest number, looking from place `i` on, when the number at place
`best` is the best so far. -/
def argmaxFrom (i best : Nat) (x : α) : List α → Nat
  | [] => best
  | y :: ys => if beats y x then argmaxFrom (i + 1) i y ys else argmaxFrom (i + 1) best x ys

/-- The place of the first largest number. -/
def argmax : List α → Nat
  | [] => 0
  | x :: xs => argmaxFrom 1 0 x xs

end Scalar

/-- The whole part of a finite double, and zero for the others. -/
def truncateFloat (x : Float) : Int :=
  match Decimal.Binary.ofFloat? x with
  | some b =>
    let n : Int := (b.numerator / b.denominator : Nat)
    if b.negative then -n else n
  | none => 0

/-- Whether a whole number is a whole multiple of a double, by exact arithmetic; nothing is one of
an infinite double but zero. -/
def dividesFloat (x : Float) (n : Int) : Bool :=
  match Decimal.Binary.ofFloat? x with
  | some b => b.mantissa ≠ 0 && n.natAbs * b.denominator % b.numerator = 0
  | none => !x.isNaN && n = 0

/-- The double nearest to a quotient of whole numbers. The quotient is cut off behind more binary
places than a double has, and the last place says whether something was lost. -/
def ratioFloat (num : Int) (den : Nat) : Float :=
  let places : Int := (Nat.log2 den : Int) - Nat.log2 num.natAbs + 66
  let scaled := num.natAbs * Nat.pow 2 places.toNat
  let divisor := den * Nat.pow 2 (-places).toNat
  let digits := scaled / divisor
  let kept := if digits % 2 = 0 ∧ scaled % divisor ≠ 0 then digits + 1 else digits
  let magnitude := (Float.ofNat kept).scaleB (-places)
  if num < 0 then -magnitude else magnitude

/-- The largest double. -/
def largestFloat : Float :=
  Float.ofScientific 17976931348623157 false 292

instance : Scalar Float where
  zero := 0.0
  one := 1.0
  decideLT x y := inferInstanceAs (Decidable (x < y))
  decideLE x y := inferInstanceAs (Decidable (x ≤ y))
  ofNat n := Float.ofNat n
  ofScientific := Float.ofScientific
  ofRatio := ratioFloat
  exp := Float.exp
  log := Float.log
  sqrt := Float.sqrt
  pow := Float.pow
  infinity := 1.0 / 0.0
  isFinite := Float.isFinite
  finitize x :=
    if x.isNaN then 0.0
    else if x.isFinite then x
    else if 0.0 < x then largestFloat else -largestFloat
  truncate := truncateFloat
  divides := dividesFloat

end OperatorNet
