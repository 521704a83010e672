import OperatorNet.Decimal.Binary

/-!
# The shortest decimal that reads back

A double stands for all reals that round to it. Among the decimals in that interval the ones with
the fewest digits are taken, and of those the one nearest to the double. `Style.write` lays such a
decimal out as text.
-/

namespace OperatorNet.Decimal

/-- The decimal number `digits · 10 ^ exponent`. -/
structure Scaled where
  digits : Nat
  exponent : Int
  deriving DecidableEq

namespace Binary

/-- Numerator of the lower end of the interval that rounds to the double, over four times its
denominator; the step down is half as long just above a power of two. -/
def lowEnd (b : Binary) : Nat :=
  4 * b.numerator -
    (if b.mantissa = Nat.pow 2 52 ∧ -1074 < b.exponent then 1 else 2) * Nat.pow 2 b.exponent.toNat

/-- Numerator of the upper end of the interval, over four times the denominator. -/
def highEnd (b : Binary) : Nat :=
  4 * b.numerator + 2 * Nat.pow 2 b.exponent.toNat

/-- `c · 10 ^ p` rounds to the double: it lies in the interval, whose ends count iff the mantissa
is even. -/
def covers (b : Binary) (c : Nat) (p : Int) : Bool :=
  let value := c * tenPow p * (4 * b.denominator)
  let low := b.lowEnd * tenPow (-p)
  let high := b.highEnd * tenPow (-p)
  if b.mantissa % 2 = 0 then low ≤ value && value ≤ high else low < value && value < high

/-- The better neighbour of the double on the grid `10 ^ p`, if one rounds to it. -/
def onGrid? (b : Binary) (p : Int) : Option Scaled :=
  let unit := b.denominator * tenPow p
  let value := b.numerator * tenPow (-p)
  let below := value / unit
  let nearest := roundDiv value unit
  if b.covers below p && b.covers (below + 1) p then some ⟨nearest, p⟩
  else if b.covers below p then some ⟨below, p⟩
  else if b.covers (below + 1) p then some ⟨below + 1, p⟩
  else none

/-- The shortest decimal that reads back as a non-zero double: seventeen digits always suffice. -/
def shortest (b : Binary) : Scaled :=
  let top := b.decimalExponent
  ((List.range 17).findSome? fun (n : Nat) => b.onGrid? (top - n)).getD
    ⟨roundDiv (b.numerator * tenPow (16 - top)) (b.denominator * tenPow (top - 16)), top - 16⟩

end Binary

/-- Text without the zeros at its end. -/
def dropTrailingZeros (ds : List Char) : List Char :=
  (ds.reverse.dropWhile (· = '0')).reverse

/-- How a double is written. -/
structure Style where
  /-- The least decimal exponent written without a power of ten. -/
  lowest : Int
  /-- The least decimal exponent that is again written with a power of ten. -/
  highest : Int
  /-- Least number of digits of a written exponent. -/
  exponentWidth : Nat
  infinity : String
  notANumber : String

namespace Style

/-- A row of zeros. -/
def zeros (n : Nat) : List Char :=
  List.replicate n '0'

/-- Digits `ds` with the point after the first `point` of them. -/
def positional (ds : List Char) (point : Int) : List Char :=
  if point ≤ 0 then '0' :: '.' :: zeros (-point).toNat ++ ds
  else if ds.length ≤ point.toNat then ds ++ zeros (point.toNat - ds.length) ++ ['.', '0']
  else ds.take point.toNat ++ '.' :: ds.drop point.toNat

/-- Digits `ds` with the point after the first one, and the power of ten behind. -/
def scientific (style : Style) (ds : List Char) (power : Int) : List Char :=
  let size := Nat.toDigits 10 power.natAbs
  ds.take 1 ++ (if ds.length ≤ 1 then [] else '.' :: ds.drop 1) ++
    'e' :: (if power < 0 then '-' else '+') :: zeros (style.exponentWidth - size.length) ++ size

/-- The text of a double. -/
def write (style : Style) (x : Float) : String :=
  match Binary.ofFloat? x with
  | none =>
    if x.isNaN then style.notANumber else if x < 0 then "-" ++ style.infinity else style.infinity
  | some b =>
    let sign := if b.negative then ['-'] else []
    if b.mantissa = 0 then String.ofList (sign ++ ['0', '.', '0'])
    else
      let d := b.shortest
      let all := Nat.toDigits 10 d.digits
      let point := d.exponent + all.length
      let ds := dropTrailingZeros all
      String.ofList (sign ++
        if style.lowest < point ∧ point ≤ style.highest then positional ds point
        else style.scientific ds (point - 1))

end Style

/-- The style of numbers inside texts: no power of ten from `1e-4` up to below `1e16`. -/
def plain : Style :=
  { lowest := -4, highest := 16, exponentWidth := 2, infinity := "inf", notANumber := "nan" }

end OperatorNet.Decimal
