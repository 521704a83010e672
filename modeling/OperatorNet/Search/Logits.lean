import OperatorNet.Fault
import OperatorNet.Signal
import OperatorNet.Softmax
import OperatorNet.Tensor.Arithmetic

/-!
# Logits

The numbers by which alternatives compete, one for each of them. Logits may also be put in place
from outside, as an array of any shape or as nothing at all; then the weights have the shape of the
array, and what needs one weight per alternative refuses them.
-/

namespace OperatorNet

/-- A row of logits, or what was put in its place. -/
inductive Logits (α : Type) where
  | row (xs : List α)
  | array (s : Signal α)
  | nothing

namespace Logits

variable {α : Type} [Scalar α]

/-- Equal logits for some alternatives. -/
def zeros {β : Type} (alternatives : List β) : Logits α :=
  row (alternatives.map fun _ => 0)

/-- The logits that an array is; real numbers in a row are a row. -/
def ofSignal (s : Signal α) : Logits α :=
  match s with
  | .reals t => if t.rank = 1 then row t.toList else array s
  | .words _ => array s

/-- The logits as a tensor; nothing is an empty row. -/
def toTensor : Logits α → Tensor α
  | row xs => .ofList xs
  | array s => s.toReals
  | nothing => .ofList []

/-- All numbers, row by row. -/
def entries (l : Logits α) : List α :=
  l.toTensor.toList

/-- The document of logits. -/
def toData : Logits α → Data α
  | row xs => .list (xs.map .real)
  | array s => s.toData
  | nothing => .null

/-- The weights at a temperature, row by row. -/
def weights (l : Logits α) (temperature : α) : List α :=
  softmaxAt temperature l.entries

/-- The document of weights that were made of the logits. -/
def weightsData (l : Logits α) (weights : List α) : Data α :=
  nestedLists .real l.toTensor.shape weights

/-- Checks that there are logits. -/
def check : Logits α → Except Fault Unit
  | nothing => fail .noParts
  | _ => .ok ()

/-- Checks that there is one weight for each of `n` alternatives. -/
def checkRow (l : Logits α) (n : Nat) : Except Fault Unit := do
  l.check
  match l.toTensor.shape with
  | [m] => if m = n then return else fail (.numeric .shape)
  | shape => if shape.getLast? = some n then fail .wrongForm else fail (.numeric .shape)

/-- Checks that each of the first `n` entries of the first axis is a single number. -/
def checkSingles (l : Logits α) (n : Nat) : Except Fault Unit :=
  match l.toTensor.shape with
  | [] => fail .wrongForm
  | m :: rest => if min m n = 0 ∨ volume rest = 1 then .ok () else fail (.numeric .shape)

/-- The weight at an entry of the first axis. -/
def entryAt (l : Logits α) (weights : List α) (i : Nat) : Except Fault α :=
  match l.toTensor.shape with
  | [] => fail (.numeric .place)
  | m :: rest =>
    match weights[i * volume rest]? with
    | some w => if i < m then .ok w else fail (.numeric .place)
    | none => fail (.numeric .place)

/-- The logits of the alternatives at the given places. -/
def take (l : Logits α) (places : List Nat) : Except Fault (Logits α) :=
  match l with
  | nothing => fail .wrongForm
  | row xs =>
    row <$> places.mapM fun i =>
      match xs[i]? with
      | some x => Except.ok x
      | none => fail (.numeric .place)
  | array s =>
    match s.shape with
    | [] => fail (.numeric .place)
    | n :: _ =>
      if places.all (· < n) then .ok (array (s.takeRows places)) else fail (.numeric .place)

/-- The parts of a list of a given length, as many as there are. -/
def chunks {β : Type} (length : Nat) : Nat → List β → List (List β)
  | 0, _ => []
  | n + 1, xs => xs.take length :: chunks length n (xs.drop length)

/-- What each entry of the first axis makes of a tensor that is shared out by weights. -/
def shares (l : Logits α) (weights : List α) :
    Except Fault (List (Tensor α → Except Fault (Tensor α))) :=
  match l.toTensor.shape with
  | [] => fail .wrongForm
  | [_] => .ok (weights.map fun w t => .ok (t.scale w))
  | m :: rest =>
    .ok ((chunks (volume rest) m weights).map fun ws t =>
      (Tensor.ofFn rest fun place => ws.getD (ravel rest place) 0).combined (· * ·) t)

/-- Tensors mixed by weights that were made of the logits. -/
def mix (l : Logits α) (weights : List α) (ts : List (Tensor α)) : Except Fault (Tensor α) :=
  match l with
  | row _ => Tensor.mixed weights ts
  | nothing => fail .noParts
  | array s =>
    match s.shape with
    | [] => fail (.numeric .place)
    | [_] => Tensor.mixed weights ts
    | shape => do
      let front := shape.dropLast
      let parts ← (chunks (shape.getLastD 0) (volume front) weights).mapM fun w =>
        Tensor.mixed w ts
      let inner := (ts.head?.map (·.shape)).getD []
      return .ofFn (front ++ inner) fun place =>
        (parts.getD (ravel front (place.take front.length)) default).get (place.drop front.length)

end Logits

end OperatorNet
