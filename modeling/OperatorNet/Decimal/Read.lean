import OperatorNet.Scalar
import OperatorNet.Text.Classes
import OperatorNet.Text.Quoted

/-!
# Reading numbers

White space around a number text is dropped; a single underscore may stand between two digits. Whole
numbers are a sign and digits of any script. Other numbers add a fraction, a power of ten, and the
words for infinity and for not-a-number in any case.
-/

namespace OperatorNet.Decimal

open OperatorNet.Text

/-- Removes the underscores, where `previous` says whether a digit came just before. A text with an
underscore that does not stand between two digits is refused. -/
def joinDigits (previous : Bool) : List Char → Option (List Char)
  | [] => some []
  | '_' :: c :: rest =>
    if previous && (decimalValue? c).isSome then (joinDigits true rest).map (c :: ·) else none
  | c :: rest =>
    if c = '_' then none else (joinDigits (decimalValue? c).isSome rest).map (c :: ·)

/-- Splits a sign off: `true` for minus. -/
def splitSign : List Char → Bool × List Char
  | '-' :: rest => (true, rest)
  | '+' :: rest => (false, rest)
  | cs => (false, cs)

/-- The number that a non-empty row of digits stands for. -/
def wholeOf? (cs : List Char) : Option Nat :=
  if cs.isEmpty then none else natOfDigits? cs

/-- The number of digits that a text begins with behind its white space and its sign, if its
underscores are in place. -/
def leadingDigits (s : String) : Nat :=
  let body := (splitSign (trimBy isWhite s.toList)).2
  let row := body.takeWhile fun c => c = '_' || (decimalValue? c).isSome
  ((joinDigits false row).map (·.length)).getD 0

/-- The wording for a text that is no whole number; a long text is cut off. -/
def notAnInteger (s : String) : String :=
  "invalid literal for int() with base 10: " ++ String.ofList ((quoted s).toList.take 200)

/-- Reads a whole number. -/
def readInt? (s : String) : Option Int := do
  let (negative, body) := splitSign (← joinDigits false (trimBy isWhite s.toList))
  let n ← wholeOf? body
  return if negative then -n else n

/-- Reads the part behind the letter of a power of ten. -/
def readExponent? (cs : List Char) : Option Int := do
  let (negative, body) := splitSign cs
  let n ← wholeOf? body
  return if negative then -n else n

/-- The scalar nearest to `± digits · 10 ^ exponent`. Powers of ten far outside the range of doubles
decide the answer alone. -/
def nearest {α : Type} [Scalar α] (negative : Bool) (digits : Nat) (exponent : Int) : α :=
  let top := exponent + (Nat.toDigits 10 digits).length
  let magnitude : α :=
    if digits = 0 ∨ top < -400 then 0
    else if 400 < top then Scalar.infinity
    else Scalar.ofScientific digits (decide (exponent < 0)) exponent.natAbs
  if negative then -magnitude else magnitude

/-- The whole digits, the digits behind the point, and the power of ten of a number text. -/
def splitParts (cs : List Char) : List Char × List Char × Option (List Char) :=
  let mark := fun c => c = 'e' || c = 'E'
  let mantissa := cs.takeWhile (!mark ·)
  let power := match cs.dropWhile (!mark ·) with
    | _ :: rest => some rest
    | [] => none
  let whole := mantissa.takeWhile (· ≠ '.')
  (whole, (mantissa.dropWhile (· ≠ '.')).drop 1, power)

variable {α : Type} [Scalar α]

/-- Reads digits with an optional fraction and an optional power of ten. -/
def readDigits? (negative : Bool) (cs : List Char) : Option α := do
  let (whole, fraction, power) := splitParts cs
  if whole.isEmpty && fraction.isEmpty then none
  let digits ← natOfDigits? (whole ++ fraction)
  let e ← match power with
    | some rest => readExponent? rest
    | none => some 0
  return nearest negative digits (e - fraction.length)

/-- Reads a number without grouped digits, infinity or not-a-number. -/
def readPlain? (cs : List Char) : Option α := do
  let (negative, body) := splitSign cs
  let word := String.ofList (body.map Char.toLower)
  if word = "inf" || word = "infinity" then
    return if negative then -Scalar.infinity else Scalar.infinity
  else if word = "nan" then
    return 0 / 0
  else readDigits? negative body

/-- Reads a number, infinity or not-a-number. -/
def readNumber? (s : String) : Option α := do
  readPlain? (← joinDigits false (trimBy isWhite s.toList))

end OperatorNet.Decimal
