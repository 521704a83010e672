import OperatorNet.Number
import OperatorNet.Operator.Basic

/-!
# Operands

A parameter takes part in arithmetic as an array. Rows of whole numbers are words if all of them
fit, and real numbers otherwise. A whole number on its own takes the kind of what it stands beside:
among words it has to be a word itself, among real numbers it becomes one of them.
-/

namespace OperatorNet

/-- What a parameter is in arithmetic. -/
inductive Operand (α : Type) where
  | signal (s : Signal α)
  /-- A whole number on its own. -/
  | whole (n : Int)

namespace Operand

variable {α : Type} [Scalar α]

/-- The operand as an array of the kind of another one. -/
def beside (p : Operand α) (x : Signal α) : Except Fault (Signal α) :=
  match p, x with
  | signal s, _ => .ok s
  | whole n, .words _ =>
    match Word.ofInt? n with
    | some w => .ok (.words (.scalar w))
    | none => fail .overflow
  | whole n, .reals _ => do return .reals (.scalar (← (Number.whole n).toReal))

/-- The product of an array and an operand. -/
def timesIn (p : Operand α) (x : Signal α) : Except Fault (Signal α) := do
  x.mul (← p.beside x)

/-- The sum of an array and an operand. -/
def plusIn (p : Operand α) (x : Signal α) : Except Fault (Signal α) := do
  x.add (← p.beside x)

end Operand

/-- The whole number that a document is by its form. -/
def Data.whole? {α : Type} : Data α → Option Int
  | .int n => some n
  | .bool b => some (if b then 1 else 0)
  | _ => none

/-- Whether a whole number fits a word or, without a sign, the room of one. -/
def fitsUnsigned (n : Int) : Bool :=
  -(wordBound : Int) ≤ n && n < 2 * (wordBound : Int)

/-- An entry of an array of real numbers; texts and what is no number do not take part. -/
def operandLeaf {α : Type} [Scalar α] : Data α → Except Fault α
  | .text _ => fail (.numeric .text)
  | d => d.number

namespace Param

variable {α : Type} [Scalar α]

/-- The operand that a document is. -/
def operandOf (d : Data α) : Except Fault (Operand α) := do
  match d.whole? with
  | some n => return .whole n
  | none =>
    let entries ← Tensor.ofData .ok d
    match entries.toList.mapM Data.whole? with
    | none | some [] => return .signal (.reals (← Tensor.ofData operandLeaf d))
    | some ns =>
      return .signal (← if ns.all Word.fits then .words <$> Tensor.ofData Tensor.wordLeaf d
        else .reals <$> Tensor.ofData operandLeaf d)

/-- A parameter as an operand. -/
def toOperand : Param α → Except Fault (Operand α)
  | array s => .ok (.signal s)
  | data d => operandOf d
  | entry (.int n) =>
    match Word.ofInt? n with
    | some w => .ok (.signal (.words (.scalar w)))
    | none => fail .overflow
  | entry d => operandOf d

/-- The magnitudes of a parameter. A whole number on its own must fit a word or its room. -/
def magnitudes (p : Param α) : Except Fault (List α) := do
  match ← p.toOperand with
  | .signal s => return s.magnitudes.toReals.toList
  | .whole n =>
    match Word.ofInt? n with
    | some w => return [Scalar.ofInt w.magnitude.toInt]
    | none => if fitsUnsigned n then return [Scalar.ofInt n] else fail .noParts

/-- The largest magnitude of a parameter, which must have one. -/
def largestMagnitude (p : Param α) : Except Fault α := do
  match ← p.magnitudes with
  | [] => fail (.numeric .shape)
  | xs => return xs.getD (Scalar.argmax xs) 0

end Param

end OperatorNet
