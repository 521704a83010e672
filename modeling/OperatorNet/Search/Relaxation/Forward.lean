import OperatorNet.Search.Relaxation.Basic

/-!
# Evaluating a mixture

In order, each position mixes the padded values of its candidates, or takes the value of its first
fixed candidate. The value of an exit, one row per example, goes through the readout of the exit,
and the readouts are mixed by the weights of the routes.
-/

namespace OperatorNet

/-- The values of the mixing candidates of a position, as they are and padded. -/
structure CandidateValues (α : Type) where
  plain : List (Tensor α)
  padded : List (Tensor α)
  /-- The logits that the weights were made of. -/
  logits : Logits α

/-- What an evaluation of a mixture has found. -/
structure Pass (α : Type) where
  mixture : Mixture α
  routeLogits : Logits α
  /-- The values of the positions; that of `none` is the input. -/
  values : List (Option Int × Signal α)
  candidates : List (Int × CandidateValues α)
  features : List (Int × Tensor α)
  predictions : List (Tensor α)
  prediction : Tensor α

variable {α : Type} [Scalar α]

/-- What a readout makes of features. -/
def Readout.apply (h : Readout α) (features : Tensor α) : Except Fault (Tensor α) := do
  match h.matrix, h.offset with
  | none, _ => fail .noParts
  | some matrix, offset =>
    let product ← features.productWith matrix.toReals
    match offset with
    | none => fail .wrongForm
    | some offset => product.combined (· + ·) offset.toReals

namespace Relaxation

/-- The values that a position reads. -/
def arguments (values : List (Option Int × Signal α)) (p : Position α) :
    Except Fault (List (Signal α)) :=
  p.inputs.mapM fun s =>
    match fetch s values with
    | some v => .ok v
    | none => fail (.missingKey ((s.map toString).getD "None"))

/-- The value of a candidate. -/
def candidateValue (r : Relaxation α) (p : Position α) (args : List (Signal α))
    (op : Operator α) : Except Fault (Signal α) :=
  (op.evaluate args (r.paramsAt p.id op.name)).mapError fun f =>
    (f.noted ("while evaluating candidate '" ++ op.name ++ "' at supergraph node "
      ++ toString p.id)).locate (.id p.id)

/-- The value of a position, with those of its mixing candidates if it has any. -/
def positionValue (m : Mixture α) (values : List (Option Int × Signal α)) (p : Position α) :
    Relaxing α (Signal α × Option (CandidateValues α)) := do
  let r ← get
  let args ← lift (arguments values p)
  if p.isFrozen then
    return (← lift (r.candidateValue p args (← lift p.firstFixed)), none)
  else
    let plain := (← lift (p.mixing.mapM (r.candidateValue p args))).map Signal.toReals
    let (sizes, padded) ← lift (align (r.sizes.get? p.id) plain)
    set { r with sizes := r.sizes.insert p.id sizes }
    let mixed ← lift (p.logits.mix (m.weights p.id) padded)
    return (.reals mixed, some { plain, padded, logits := p.logits })

/-- The values of positions from left to right, after those of earlier ones. -/
def positionValues (m : Mixture α) (values : List (Option Int × Signal α))
    (candidates : List (Int × CandidateValues α)) :
    List (Position α) →
      Relaxing α (List (Option Int × Signal α) × List (Int × CandidateValues α))
  | [] => return (values, candidates)
  | p :: rest => do
    let (v, own) ← positionValue m values p
    positionValues m (values ++ [(some p.id, v)])
      (candidates ++ (own.map fun c => (p.id, c)).toList) rest

/-- The readout of an exit for a number of features; it is drawn when it is first used. -/
def readout (exit : Int) (features : Nat) : Relaxing α (Readout α) := do
  let r ← get
  match r.heads.get? (.int exit) with
  | some h =>
    match h.matrix.map Signal.shape with
    | none => lift (fail .noParts)
    | some [] => lift (fail (.numeric .place))
    | some (n :: _) =>
      if n = features then return h else lift (fail (.widthChanged exit n features))
  | none =>
    if r.outDim < 0 then lift (fail (.numeric .shape))
    let columns := r.outDim.toNat
    let scale ← lift r.settings.headScale
    let (xs, generator) ← lift (r.generator.manyAround 0 scale (features * columns))
    let matrix ← lift ((Tensor.ofList xs).reshaped [features, columns])
    let h : Readout α :=
      { matrix := some (.reals matrix), offset := some (.reals (.full [columns] 0)) }
    set { r with generator, heads := r.heads.insert (.int exit) h }
    return h

/-- The features of an exit and the prediction of its readout. -/
def exitPrediction (values : List (Option Int × Signal α)) (exit : Int) :
    Relaxing α (Tensor α × Tensor α) := do
  match fetch (some exit) values with
  | none => lift (fail (.missingKey (toString exit)))
  | some v =>
    let features ← lift v.toReals.flattened
    let h ← readout exit (features.axis 1)
    return (features, ← lift (h.apply features))

/-- Evaluates a mixture on some inputs. -/
def forward (m : Mixture α) (inputs : Signal α) : Relaxing α (Pass α) := do
  let s := (← get).graph
  let (values, candidates) ← positionValues m [(none, inputs)] [] s.positions
  lift s.checkRoutes
  let found ← s.exits.mapM (exitPrediction values)
  let predictions := found.map Prod.snd
  let prediction ← lift (s.routeLogits.mix m.route predictions)
  return { mixture := m, routeLogits := s.routeLogits, values, candidates,
           features := s.exits.zip (found.map Prod.fst), predictions, prediction }

end Relaxation

end OperatorNet
