import OperatorNet.Data.Key
import OperatorNet.Decimal.Read
import OperatorNet.Fault

/-!
# Numbers in documents

Many forms of a value stand for a number: truth values count as zero and one, and texts are read.
As a whole number a value loses its fraction; as a real number it must not be beyond all of these.
A few more readings are here too: as a row, and as nothing.
-/

namespace OperatorNet

variable {α : Type} [Scalar α]

/-- The real number next to a whole number, which must not be beyond all real numbers. -/
def realOfInt (n : Int) : Except Fault α :=
  if Scalar.isFinite (Scalar.ofInt n : α) then .ok (Scalar.ofInt n) else fail .overflow

/-- The whole number next to a real number on the side of zero. -/
def wholeOfReal (x : α) : Except Fault Int :=
  if Scalar.isFinite x then .ok (Scalar.truncate x)
  else fail (if Scalar.same x x then .overflow else .undefinedWhole)

/-- The whole number that a text stands for. -/
def wholeOfText (s : String) : Except Fault Int :=
  let digits := Decimal.leadingDigits s
  if Text.longestNumeral < digits then fail (.tooManyDigits (some digits))
  else match Decimal.readInt? s with
    | some n => .ok n
    | none => fail (.notAnInteger s)

namespace Data

/-- The whole number that a value stands for. -/
def whole : Data α → Except Fault Int
  | .int n => .ok n
  | .bool b => .ok (if b then 1 else 0)
  | .real x => wholeOfReal x
  | .text s => wholeOfText s
  | _ => fail .wrongForm

/-- The real number that a value stands for. -/
def number : Data α → Except Fault α
  | .int n => realOfInt n
  | .bool b => .ok (if b then 1 else 0)
  | .real x => .ok x
  | .text s =>
    match Decimal.readNumber? s with
    | some x => .ok x
    | none => fail (.notANumber s)
  | _ => fail .wrongForm

/-- A value that is a number without being read, as which truth values count too. -/
def numeric : Data α → Except Fault α
  | .text _ => fail .wrongForm
  | d => d.number

/-- The elements of a row: the items of a list, the keys of a mapping, or the characters of a
text. -/
def elements : Data α → Except Fault (List (Data α))
  | .list items => .ok items
  | .mapping fields => .ok (fields.map fun p => .text p.1)
  | .text s => .ok (s.toList.map fun c => .text (String.singleton c))
  | _ => fail .wrongForm

/-- The key that a value must be. -/
def key (d : Data Float) : Except Fault Key :=
  match d.key? with
  | some k => .ok k
  | none => fail .wrongForm

/-- Values that count as nothing: zero, false, and all that is empty. -/
def isVoid : Data α → Bool
  | .null | .bool false | .text "" | .list [] | .mapping [] => true
  | .int n => n = 0
  | .real x => Scalar.same x 0
  | _ => false

end Data

end OperatorNet
