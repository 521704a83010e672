import OperatorNet.Decimal.Read
import OperatorNet.Decimal.Shortest

/-!
# Rounded doubles

A measured value is shown to nine decimal places when its magnitude is below one hundredth, and to
seven significant digits otherwise. Both roundings act on the exact value and send ties to the even
neighbour.
-/

namespace OperatorNet.Decimal

/-- The magnitude of `b` rounded to a multiple of `10 ^ p`. -/
def Binary.roundedTo (b : Binary) (p : Int) : Scaled :=
  ⟨roundDiv (b.numerator * tenPow (-p)) (b.denominator * tenPow p), p⟩

/-- The magnitude of a finite double as a rounded decimal. -/
def rounded (b : Binary) : Scaled :=
  if b.mantissa = 0 ∨ b.decimalExponent < -2 then b.roundedTo (-9)
  else b.roundedTo (b.decimalExponent - 6)

/-- The double nearest to a rounded double; zero has no sign. -/
def roundedFloat (x : Float) : Float :=
  match Binary.ofFloat? x with
  | none => x
  | some b =>
    let d := rounded b
    if d.digits = 0 then 0.0 else nearest b.negative d.digits d.exponent

end OperatorNet.Decimal
