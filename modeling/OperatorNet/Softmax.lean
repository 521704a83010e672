import OperatorNet.Scalar

/-!
# Softmax

Exponentials scaled to the sum one. The largest number is taken off first, which changes nothing in
exact arithmetic and keeps the exponentials bounded.
-/

namespace OperatorNet

variable {α : Type} [Scalar α]

/-- The exponentials of some numbers, scaled to the sum one. -/
def softmax (xs : List α) : List α :=
  match xs with
  | [] => []
  | x :: rest =>
    let top := Scalar.maximum x rest
    let es := xs.map fun y => Scalar.exp (y - top)
    es.map (· / Scalar.sum es)

/-- The logarithms of the softmax. -/
def logSoftmax (xs : List α) : List α :=
  match xs with
  | [] => []
  | x :: rest =>
    let top := Scalar.maximum x rest
    let shifted := xs.map fun y => y - if Scalar.isFinite top then top else 0
    shifted.map (· - Scalar.log (Scalar.sum (shifted.map Scalar.exp)))

/-- The softmax of logits at a temperature: the lower the temperature, the sharper. -/
def softmaxAt (temperature : α) (logits : List α) : List α :=
  softmax (logits.map (· / temperature))

/-- The gradient of logits, given weights made of them and the gradient of the weights. -/
def softmaxPullback (temperature : α) (weights gradient : List α) : List α :=
  let slope := Scalar.dot weights gradient
  List.zipWith (fun w g => w * (g - slope) / temperature) weights gradient

end OperatorNet
