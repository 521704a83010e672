/-!
# Finite doubles as exact numbers

A finite double is a sign, a whole mantissa and a power of two. `Binary.decimalExponent` places its
magnitude between two neighbouring powers of ten, by whole number arithmetic only.
-/

namespace OperatorNet.Decimal

/-- The number `± mantissa · 2 ^ exponent`. -/
structure Binary where
  negative : Bool
  mantissa : Nat
  exponent : Int
  deriving DecidableEq

namespace Binary

/-- The exact value of a finite double; infinities and not-a-number have none. -/
def ofFloat? (x : Float) : Option Binary :=
  let bits : Nat := x.toBits.toNat
  let biased : Nat := bits / Nat.pow 2 52 % Nat.pow 2 11
  let fraction : Nat := bits % Nat.pow 2 52
  if biased = 2047 then none
  else some {
    negative := bits / Nat.pow 2 63 = 1
    mantissa := if biased = 0 then fraction else fraction + Nat.pow 2 52
    exponent := ((if biased = 0 then 1 else biased : Nat) : Int) - 1075 }

/-- The power of two over which the magnitude is a whole number. -/
def denominator (b : Binary) : Nat :=
  Nat.pow 2 (-b.exponent).toNat

/-- The magnitude times `denominator`. -/
def numerator (b : Binary) : Nat :=
  b.mantissa * Nat.pow 2 b.exponent.toNat

/-- Number of decimal digits, with one digit for zero. -/
def digitCount (n : Nat) : Nat :=
  (Nat.toDigits 10 n).length

/-- For a magnitude `v > 0`, the `x` with `10 ^ x ≤ v < 10 ^ (x + 1)`. -/
def decimalExponent (b : Binary) : Int :=
  if b.denominator ≤ b.numerator then
    (digitCount (b.numerator / b.denominator) : Int) - 1
  else
    -(digitCount (b.denominator / b.numerator) : Int)

end Binary

/-- `10 ^ e` for a non-negative `e`, and 1 otherwise. -/
def tenPow (e : Int) : Nat :=
  Nat.pow 10 e.toNat

/-- The quotient rounded to the nearest whole number, a tie going to the even neighbour. -/
def roundDiv (num den : Nat) : Nat :=
  let q := num / den
  let r := num % den
  if 2 * r < den then q
  else if den < 2 * r then q + 1
  else if q % 2 = 0 then q else q + 1

end OperatorNet.Decimal
