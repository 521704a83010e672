import OperatorNet.Data.Number
import OperatorNet.Signal
import OperatorNet.Softmax

/-!
# Objectives

What a readout is trained for: numbers, by half the mean squared distance, or classes, by the mean
cross-entropy of a softmax. Targets are encoded as one row per example; a class has a one in its own
column. What is reported in the end is the mean squared distance, or the share of wrong classes.
-/

namespace OperatorNet

/-- What is to be predicted; the number of classes may be given. -/
inductive Objective (α : Type) where
  | regression
  | classification (classes : Option (Data α))

/-- A class by its number. -/
structure Label where
  number : Int
  deriving DecidableEq

instance : Zero Label := ⟨⟨0⟩⟩

namespace Objective

variable {α : Type} [Scalar α]

/-- The parameters of an objective by name, which are a mapping or nothing. The name `self` is that
of the objective and of no parameter. -/
def paramsOf (d : Data α) : Except Fault (List (String × Data α)) :=
  match d with
  | .mapping fields =>
    if fields.any (·.1 = "self") then fail .wrongForm else .ok fields
  | d => if d.isVoid then .ok [] else fail .wrongForm

/-- The objective of a task. -/
def ofTask (task : String) (params : Data α) : Except Fault (Objective α) := do
  match task with
  | "regression" =>
    let _ ← paramsOf params
    return .regression
  | "classification" => return .classification (fetch "n_classes" (← paramsOf params))
  | other => fail (.unknownTask other)

/-- What stands for targets that are missing: an undefined number, but no class. -/
def absent : Objective α → Except Fault (Signal α)
  | regression => .ok (.reals (.scalar (0 / 0)))
  | classification _ => fail .wrongForm

/-- The number of columns, if it does not depend on the targets. -/
def fixedWidth? : Objective α → Option (Except Fault Int)
  | regression | classification none | classification (some .null) => none
  | classification (some n) => some n.whole

/-- The largest target as a class, if there is one. -/
def largestClass (y : Signal α) : Except Fault Int :=
  match y with
  | .words t =>
    match t.toList with
    | [] => fail (.numeric .shape)
    | w :: ws => .ok (ws.foldl Word.larger w).toInt
  | .reals t =>
    match t.toList with
    | [] => fail (.numeric .shape)
    | x :: xs =>
      if (x :: xs).all fun t => Scalar.same t t then wholeOfReal (Scalar.maximum x xs)
      else fail .undefinedWhole

/-- Number of columns that a readout of given targets needs. -/
def width (o : Objective α) (y : Signal α) : Except Fault Int :=
  match o with
  | regression =>
    match y.shape with
    | [_] => .ok 1
    | _ :: k :: _ => .ok k
    | [] => fail (.numeric .place)
  | classification _ => o.fixedWidth?.getD do return (← largestClass y) + 1

/-- The class of a target; a target that fits no word has a class of its own. -/
def labelOf (x : α) : Int :=
  ((if Scalar.isFinite x then Word.ofInt? (Scalar.truncate x) else none).getD .least).toInt

/-- The classes of targets. -/
def labels : Signal α → List Int
  | .words t => t.toList.map (·.toInt)
  | .reals t => t.toList.map labelOf

/-- The column of a class among `n`; negative numbers count from the last one. -/
def column (n : Nat) (label : Int) : Except Fault Nat :=
  if 0 ≤ label ∧ label < n then .ok label.toNat
  else if label < 0 ∧ 0 ≤ label + n then .ok (label + n).toNat
  else fail (.numeric .place)

/-- The most room for a matrix. -/
def roomBound : Nat :=
  Nat.pow 2 40

/-- Checks that there is room for a matrix of doubles; sizes beyond all words are no shape at
all. -/
def checkRoom (rows columns : Nat) : Except Fault Unit :=
  let room := 8 * (max rows 1 * max columns 1)
  if wordBound ≤ room then fail (.numeric .shape)
  else if roomBound ≤ room then fail (.numeric .room)
  else .ok ()

/-- Targets as one row per example. -/
def encode (o : Objective α) (y : Signal α) : Except Fault (Tensor α) :=
  match o with
  | regression =>
    let t := y.toReals
    if t.rank = 1 then t.reshaped [t.axis 0, 1] else t.flattened
  | classification _ => do
    let classes := labels y
    let top := classes.foldl max 0
    let n := (max (← o.width y) (top + 1)).toNat
    checkRoom classes.length n
    let columns ← classes.mapM (column n)
    return .ofFn [classes.length, n] fun place =>
      if columns[place.getD 0 0]? = place[1]? then 1 else 0

/-- Encoded classes with as many columns as a prediction: missing columns are zero, and columns
beyond are left out. -/
def targets (o : Objective α) (y : Signal α) (shape : List Nat) : Except Fault (Tensor α) := do
  let t ← o.encode y
  match shape with
  | _ :: k :: _ => return (t.cutTo [t.axis 0, k]).padTo [t.axis 0, k]
  | _ => fail (.numeric .place)

/-- Checks that there is something to choose from along the second axis. -/
def checkWidth (shape : List Nat) : Except Fault Unit :=
  if shape.getD 1 0 = 0 ∧ volume (shape.eraseIdx 1) ≠ 0 then fail (.numeric .shape) else .ok ()

/-- Predictions for a softmax along the second axis: words are taken less the largest one of their
row while they still are words. -/
def centred (prediction : Signal α) : Tensor α :=
  match prediction with
  | .reals t => t
  | .words t =>
    let shift := fun (ws : List Word) => ws.map (· - ws.foldl Word.larger (ws.headD 0))
    (Signal.words (t.mapLines shift 1)).toReals

/-- The distances of a prediction from its targets. -/
def residuals (o : Objective α) (y prediction : Signal α) : Except Fault (Tensor α) := do
  prediction.toReals.combined (· - ·) (← o.encode y)

/-- What training makes small. -/
def loss (o : Objective α) (y prediction : Signal α) : Except Fault α :=
  match o with
  | regression => do
    let r ← o.residuals y prediction
    return Scalar.ofScientific 5 true 1 * ((r.map fun x => x * x).sumAxis 1).mean
  | classification _ => do
    let t ← o.targets y prediction.shape
    checkWidth prediction.shape
    let logs := (centred prediction).mapLines logSoftmax 1
    return -(((← t.combined (· * ·) logs).sumAxis 1).mean)

/-- The gradient of the loss in the prediction. -/
def gradient (o : Objective α) (y prediction : Signal α) : Except Fault (Tensor α) :=
  let n := prediction.shape.getD 0 0
  match o with
  | regression => do
    let r ← o.residuals y prediction
    if prediction.shape.isEmpty then fail (.numeric .place)
    return r.map (Scalar.divNat · n)
  | classification _ => do
    let t ← o.targets y prediction.shape
    checkWidth prediction.shape
    let r ← ((centred prediction).mapLines softmax 1).combined (· - ·) t
    return r.map (Scalar.divNat · n)

/-- The place of the first largest word. -/
def largestPlace (ws : List Word) : Nat :=
  ws.findIdx (· = ws.foldl Word.larger (ws.headD 0))

/-- The class that a prediction gives each example. -/
def predictedLabels (prediction : Signal α) : Tensor Label :=
  match prediction with
  | .reals t => t.foldAxis (fun xs => ⟨Scalar.argmax xs⟩) 1
  | .words t => t.foldAxis (fun ws => ⟨largestPlace ws⟩) 1

/-- What is reported of a prediction; less is better. -/
def score (o : Objective α) (y prediction : Signal α) : Except Fault α :=
  match o with
  | regression => do
    return ((← o.residuals y prediction).map fun x => x * x).mean
  | classification _ => do
    match prediction.shape with
    | [] | [_] => fail (.numeric .axis)
    | _ :: k :: _ => if k = 0 then fail (.numeric .shape)
    let wrong ← (predictedLabels prediction).combined (fun a b => if a = b then (0 : α) else 1)
      (.ofList ((labels y).map .mk))
    return wrong.mean

/-- What becomes of the loss, and of its gradient, when the prediction is missing. -/
def lossOfNothing {β : Type} (o : Objective α) (y : Signal α) : Except Fault β := do
  let _ ← o.encode y
  match o with
  | regression => fail .wrongForm
  | classification _ => fail .noParts

/-- What becomes of the score when the prediction is missing. -/
def scoreOfNothing (o : Objective α) (y : Signal α) : Except Fault α :=
  match o with
  | regression => o.lossOfNothing y
  | classification _ => fail (.numeric .axis)

end Objective

end OperatorNet
