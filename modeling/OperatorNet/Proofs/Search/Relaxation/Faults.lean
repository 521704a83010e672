import OperatorNet.Proofs.Search.Unanswered
import OperatorNet.Search.Relaxation.Run

/-!
# Faults of a relaxed search

What a relaxed search computes may fail, but never for a cause that tells how a search goes, unless
an executor, a setting or a stop signal that was handed in does so (`Relaxation.Harmless`). What
readouts make of features never fails because their number has changed (`Blameless`).
-/

namespace OperatorNet

variable {α β γ : Type}

/-! ### Tensors and numbers -/

namespace Tensor

@[simp] lemma unconcerned_combined [Zero α] [Zero β] {f : α → β → γ} {a : Tensor α} {b : Tensor β} :
    Unconcerned (combined f a b) := by
  unfold combined
  split <;> simp

@[simp] lemma unconcerned_stretched [Zero α] {t : Tensor α} {shape : List Nat} :
    Unconcerned (t.stretched shape) := by
  unfold stretched
  split <;> simp

@[simp] lemma unconcerned_flattened {t : Tensor α} : Unconcerned t.flattened := by
  unfold flattened
  split <;> simp

@[simp] lemma unconcerned_reshaped {t : Tensor α} {shape : List Nat} :
    Unconcerned (t.reshaped shape) := by
  unfold reshaped
  split <;> simp

@[simp] lemma unconcerned_productWith [Scalar α] {a b : Tensor α} :
    Unconcerned (a.productWith b) := by
  unfold productWith
  dsimp only
  split <;> simp

@[simp] lemma unconcerned_mixed [Scalar α] {weights : List α} {ts : List (Tensor α)} :
    Unconcerned (mixed weights ts) := by
  unfold mixed
  split <;> simp

end Tensor

section Numbers

variable [Scalar α]

@[simp] lemma unconcerned_realOfInt {n : Int} : Unconcerned (realOfInt n : Except Fault α) := by
  simp [realOfInt]

@[simp] lemma unconcerned_wholeOfReal {x : α} : Unconcerned (wholeOfReal x) := by
  unfold wholeOfReal
  split
  · simp
  · split <;> simp

@[simp] lemma Data.unconcerned_whole {d : Data α} : Unconcerned d.whole := by
  unfold Data.whole
  split
  · simp
  · simp
  · simp
  · unfold wholeOfText
    dsimp only
    split
    · simp
    · split <;> simp
  · simp

@[simp] lemma Data.unconcerned_number {d : Data α} : Unconcerned d.number := by
  unfold Data.number
  split
  · simp
  · simp
  · simp
  · split <;> simp
  · simp

namespace Number

variable {a b : Number α}

@[simp] lemma unconcerned_toReal : Unconcerned a.toReal := by
  unfold toReal
  split <;> simp

@[simp] lemma unconcerned_combine {onWhole : Int → Int → Int} {onReal : α → α → α} :
    Unconcerned (combine onWhole onReal a b) := by
  unfold combine
  split <;> simp

@[simp] lemma unconcerned_dividedBy : Unconcerned (a.dividedBy b) := by
  unfold dividedBy
  split <;> simp

end Number

@[simp] lemma Schedule.unconcerned_temperature {s : Schedule α} {step : Number α} :
    Unconcerned (s.temperature step) := by
  simp only [Schedule.temperature, Schedule.progress, Number.minus, Number.plus, Number.times]
  split
  · simp
  · simp only [unconcerned_bind_iff]
    refine ⟨by simp, fun part _ => ?_⟩
    split <;> simp

@[simp] lemma BatchSize.unconcerned_drawn? {size : BatchSize α} {n : Nat} :
    Unconcerned (size.drawn? n) := by
  unfold BatchSize.drawn?
  split <;> simp

end Numbers

/-! ### Parameters -/

section Reading

variable {leaf : Data α → Except Fault β}

mutual

lemma Tensor.unconcerned_gather (each : ∀ d, Unconcerned (leaf d)) :
    ∀ d, Unconcerned (Tensor.gather leaf d)
  | .list items => by
    simp only [Tensor.gather, unconcerned_bind_iff]
    refine ⟨Tensor.unconcerned_gatherAll each items, fun parts _ => ?_⟩
    unfold Tensor.joinItems
    split <;> simp
  | .null | .bool _ | .int _ | .real _ | .text _ | .mapping _ => by simp [Tensor.gather, each]

lemma Tensor.unconcerned_gatherAll (each : ∀ d, Unconcerned (leaf d)) :
    ∀ items, Unconcerned (Tensor.gatherAll leaf items)
  | [] => by simp [Tensor.gatherAll]
  | d :: rest => by
    simp [Tensor.gatherAll, Tensor.unconcerned_gather each d,
      Tensor.unconcerned_gatherAll each rest]

end

end Reading

lemma Tensor.unconcerned_numberLeaf [Scalar α] (d : Data α) :
    Unconcerned (Tensor.numberLeaf d) := by
  unfold Tensor.numberLeaf
  split
  · simp
  · simp
  · split <;> simp
  · simp

@[simp] lemma Param.unconcerned_toSignal [Scalar α] {p : Param α} : Unconcerned p.toSignal := by
  have read : ∀ d : Data α, Unconcerned (Tensor.ofData Tensor.numberLeaf d) := fun d => by
    unfold Tensor.ofData
    refine unconcerned_bind (Tensor.unconcerned_gather Tensor.unconcerned_numberLeaf d) ?_
    rintro ⟨shape, xs⟩ -
    dsimp only
    split
    · simp
    · split <;> simp
  unfold Param.toSignal
  split <;> simp [read]

/-! ### Objectives -/

namespace Objective

variable [Scalar α] {o : Objective α} {y prediction : Signal α}

@[simp] lemma unconcerned_width : Unconcerned (o.width y) := by
  have largest : Unconcerned (largestClass y) := by
    unfold largestClass
    split
    · split <;> simp
    · split <;> simp
  unfold width
  split
  · split <;> simp
  · unfold fixedWidth?
    split <;> simp [largest]

@[simp] lemma unconcerned_encode : Unconcerned (o.encode y) := by
  unfold encode
  split
  · simp
  · have column : ∀ n label, Unconcerned (column n label) := fun n label => by
      unfold Objective.column
      split
      · simp
      · split <;> simp
    simp [column, checkRoom]

@[simp] lemma unconcerned_targets {shape : List Nat} : Unconcerned (o.targets y shape) := by
  unfold targets
  simp only [unconcerned_bind_iff]
  refine ⟨unconcerned_encode, fun t _ => ?_⟩
  split <;> simp

@[simp] lemma unconcerned_checkWidth {shape : List Nat} : Unconcerned (checkWidth shape) := by
  simp [checkWidth]

@[simp] lemma unconcerned_loss : Unconcerned (o.loss y prediction) := by
  unfold loss
  split <;> simp [residuals]

@[simp] lemma unconcerned_gradient : Unconcerned (o.gradient y prediction) := by
  unfold gradient
  dsimp only
  split <;> simp [residuals]

end Objective

/-! ### Logits and expected costs -/

section Logits

variable [Scalar α] {l : Logits α}

namespace Logits

omit [Scalar α] in
@[simp] lemma unconcerned_check : Unconcerned l.check := by
  unfold check
  split <;> simp

@[simp] lemma unconcerned_checkRow {n : Nat} : Unconcerned (l.checkRow n) := by
  unfold checkRow
  simp only [unconcerned_bind_iff]
  refine ⟨unconcerned_check, fun _ _ => ?_⟩
  split <;> simp

@[simp] lemma unconcerned_checkSingles {n : Nat} : Unconcerned (l.checkSingles n) := by
  unfold checkSingles
  split <;> simp

@[simp] lemma unconcerned_take {places : List Nat} : Unconcerned (l.take places) := by
  unfold take
  split
  · simp
  · refine unconcerned_map.2 (unconcerned_mapM fun i _ => ?_)
    split <;> simp
  · split <;> simp

@[simp] lemma unconcerned_shares {weights : List α} : Unconcerned (l.shares weights) := by
  unfold shares
  split <;> simp

lemma unconcerned_of_mem_shares {weights : List α} {fs : List (Tensor α → Except Fault (Tensor α))}
    (shared : l.shares weights = .ok fs) : ∀ f ∈ fs, ∀ t, Unconcerned (f t) := by
  unfold shares at shared
  split at shared
  · cases shared
  · cases shared
    intro f hf t
    obtain ⟨w, -, rfl⟩ := List.mem_map.1 hf
    exact unconcerned_ok
  · cases shared
    intro f hf t
    obtain ⟨ws, -, rfl⟩ := List.mem_map.1 hf
    exact Tensor.unconcerned_combined

@[simp] lemma unconcerned_mix {weights : List α} {ts : List (Tensor α)} :
    Unconcerned (l.mix weights ts) := by
  unfold mix
  split
  · simp
  · simp
  · split <;> simp

end Logits

end Logits

@[simp] lemma unconcerned_metricKind {metric : String} {kinds : MetricKinds} :
    Unconcerned (metricKind metric kinds) := by
  unfold metricKind
  dsimp only
  split
  · split <;> simp
  · simp
  · simp
  · simp

@[simp] lemma unconcerned_weightedSum [Scalar α] {weights xs : List α} :
    Unconcerned (weightedSum weights xs) := by
  simp [weightedSum]

@[simp] lemma Budget.unconcerned_limit [Scalar α] {b : Budget α} {metric : String} :
    Unconcerned (b.limit metric) := by
  unfold Budget.limit
  split <;> simp

/-- What an executor does never tells how a search goes. -/
structure Operator.Harmless (op : Operator α) : Prop where
  evaluate : ∀ inputs params, Unconcerned (op.evaluate inputs params)
  pullback : ∀ inputs params output gradient,
    Unconcerned (op.pullback inputs params output gradient)
  lipschitz : ∀ params, Unconcerned (op.lipschitz params)

/-- All candidates of a position are harmless. -/
def Position.Harmless (p : Position α) : Prop :=
  ∀ op ∈ p.candidates, op.Harmless

namespace Position

variable {p : Position α}

lemma Harmless.mixing (harmless : p.Harmless) : ∀ op ∈ p.mixing, op.Harmless :=
  fun op mem => harmless op (List.mem_filter.1 mem).1

@[simp] lemma unconcerned_firstFixed : Unconcerned p.firstFixed := by
  unfold firstFixed
  split <;> simp

lemma Harmless.firstFixed (harmless : p.Harmless) {op : Operator α}
    (first : p.firstFixed = .ok op) :
    op.Harmless :=
  harmless op (Position.mem_candidates_of_firstFixed first)

end Position

namespace Supergraph

@[simp] lemma unconcerned_position {s : Supergraph α} {id : Int} : Unconcerned (s.position id) := by
  unfold position
  split <;> simp

variable [Scalar α] {s : Supergraph α} {m : Mixture α} {metric : String} {kinds : MetricKinds}

@[simp] lemma unconcerned_checkRoutes : Unconcerned s.checkRoutes := by
  unfold checkRoutes
  split <;> simp

@[simp] lemma unconcerned_removeExits {rs : List Ref} : Unconcerned (s.removeExits rs) := by
  have checked : Unconcerned (rs.forM Ref.check) := by
    induction rs with
    | nil => exact unconcerned_pure
    | cons r rest ih => exact unconcerned_bind r.unconcerned_check fun _ _ => ih
  exact unconcerned_bind checked fun _ _ => by simp

@[simp] lemma unconcerned_costGradient : Unconcerned (s.costGradient m metric kinds) := by
  have charged : ∀ kind costs, Unconcerned (s.charged kind costs) := fun kind costs => by
    unfold charged
    split
    · refine unconcerned_mapM fun e _ => ?_
      split <;> simp
    · simp [ancestors]
  simp [costGradient, positionCosts, positionCost, routes, charged, fail_ne_ok]

lemma unconcerned_expectedPrice (harmless : ∀ p ∈ s.positions, p.Harmless) :
    Unconcerned (s.expectedPrice m metric kinds) := by
  have own : ∀ p ∈ s.positions, Unconcerned (ownBound m p) := fun p hp => by
    unfold ownBound
    split
    · exact unconcerned_bind Position.unconcerned_firstFixed fun op first =>
        ((harmless p hp).firstFixed first).lipschitz _
    · refine unconcerned_bind (unconcerned_mapM fun op mem =>
        ((harmless p hp).mixing op mem).lipschitz _) fun bounds _ => ?_
      split <;> simp
  have bounds : ∀ ps done, (∀ p ∈ ps, p ∈ s.positions) → Unconcerned (boundsOf m done ps) := by
    intro ps
    induction ps with
    | nil => exact fun _ _ => unconcerned_ok
    | cons p rest ih =>
      intro done within
      rw [List.forall_mem_cons] at within
      refine unconcerned_bind (unconcerned_bind (own p within.1) fun bound _ => ?_) fun _ _ =>
        ih _ within.2
      split <;> simp
  unfold expectedPrice
  simp only [unconcerned_bind_iff]
  refine ⟨unconcerned_metricKind, fun kind _ => ?_⟩
  split
  · unfold expectedBound
    refine unconcerned_bind (bounds _ _ fun _ mem => mem) fun found _ => ?_
    split <;> simp
  · simp

end Supergraph

/-! ### The state of a search -/

/-- The settings of a relaxed search never fail for a cause that tells how a search goes. -/
structure Settings.Harmless [Scalar α] (s : Settings α) : Prop where
  weightRate : Unconcerned s.weightRate
  logitRate : Unconcerned s.logitRate
  headScale : Unconcerned s.headScale
  warmupSteps : Unconcerned s.warmupSteps
  penalty : Unconcerned s.penalty
  maxSeconds : ∀ limit, s.maxSeconds = some limit → Unconcerned limit

/-- The limits of a stop signal never do. -/
structure StopSignal.Harmless (s : StopSignal α) : Prop where
  maxSteps : ∀ limit, s.maxSteps = some limit → Unconcerned limit
  maxSeconds : ∀ limit, s.maxSeconds = some limit → Unconcerned limit
  cancelled : Unconcerned s.cancelled

namespace StopSignal

variable [Scalar α] {s s' : StopSignal α}

omit [Scalar α] in
lemma Harmless.start (harmless : s.Harmless) : s.start.Harmless :=
  ⟨harmless.maxSteps, harmless.maxSeconds, harmless.cancelled⟩

omit [Scalar α] in
lemma Harmless.unconcerned_cancel (harmless : s.Harmless) : Unconcerned s.cancel := by
  simp [cancel, harmless.cancelled]

omit [Scalar α] in
lemma Harmless.cancel (harmless : s.Harmless) (done : s.cancel = .ok s') : s'.Harmless := by
  simp only [StopSignal.cancel, bind_eq_ok, pure_eq_ok] at done
  obtain ⟨-, -, rfl⟩ := done
  exact ⟨harmless.maxSteps, harmless.maxSeconds, unconcerned_ok⟩

lemma unconcerned_reaches {limit : Option (Except Fault (Number α))} {x : Number α}
    (each : ∀ l, limit = some l → Unconcerned l) :
    Unconcerned (reaches limit (.ok x) : Except Fault Bool) := by
  cases limit with
  | none => exact unconcerned_ok
  | some l => exact unconcerned_bind (each l rfl) fun _ _ => unconcerned_pure

lemma Harmless.unconcerned_check (harmless : s.Harmless) {elapsed : α} {step : Number α} :
    Unconcerned (s.check elapsed (.ok step)) := by
  unfold StopSignal.check cause?
  simp only [unconcerned_bind_iff]
  refine ⟨?_, fun reason _ => ?_⟩
  · simp [harmless.cancelled, unconcerned_reaches harmless.maxSteps,
      unconcerned_reaches harmless.maxSeconds]
  · split <;> simp

lemma Harmless.check (harmless : s.Harmless) {elapsed : α} {step : Except Fault (Number α)}
    {stopped : Bool} (done : s.check elapsed step = .ok (stopped, s')) : s'.Harmless := by
  unfold StopSignal.check at done
  simp only [bind_eq_ok] at done
  obtain ⟨reason, -, done⟩ := done
  split at done <;> cases done
  · exact ⟨harmless.maxSteps, harmless.maxSeconds, harmless.cancelled⟩
  · exact harmless

end StopSignal

namespace Generator

variable {g : Generator α}

lemma unconcerned_next {drawn : Except NumericFlaw (β × Nat)} : Unconcerned (g.next drawn) := by
  unfold next
  split <;> simp

@[simp] lemma unconcerned_manyAround {centre spread : α} {n : Nat} :
    Unconcerned (g.manyAround centre spread n) :=
  unconcerned_next

@[simp] lemma unconcerned_choose {n : Nat} {count : Int} : Unconcerned (g.choose n count) :=
  unconcerned_next

end Generator

namespace KeyedOptimizer

variable [Scalar α] {κ : Type} [DecidableEq κ] {a : KeyedOptimizer κ α} {key : κ}
    {value gradient : Tensor α}

lemma rate_update : (a.update key value gradient).2.rate = a.rate := by
  unfold update
  dsimp only
  split
  · rfl
  · rfl
  · split <;> rfl

lemma unconcerned_update (rate : Unconcerned a.rate) :
    Unconcerned (a.update key value gradient).1 := by
  have prepared : Unconcerned (a.prepared key value.shape) := by
    unfold prepared
    refine unconcerned_bind rate fun rate _ => ?_
    split
    · simp
    · split <;> simp
  unfold update
  dsimp only
  split
  next f failed => exact unconcerned_error.2 (Tensor.unconcerned_stretched f failed)
  next f _ failed => exact unconcerned_error.2 (prepared f failed)
  next =>
    split
    · simp
    · exact unconcerned_map.2 Number.unconcerned_toReal

end KeyedOptimizer

namespace Relaxation

variable [Scalar α]

/-- What was handed to a relaxed search never fails for a cause that tells how a search goes. -/
structure Harmless (r : Relaxation α) : Prop where
  positions : ∀ p ∈ r.graph.positions, p.Harmless
  settings : r.settings.Harmless
  stop : r.stop.Harmless
  weightRate : Unconcerned r.weightSteps.rate
  logitRate : Unconcerned r.logitSteps.rate

variable {r : Relaxation α} {p : Position α}

@[simp] lemma unconcerned_heat : Unconcerned r.heat :=
  Number.unconcerned_toReal

@[simp] lemma unconcerned_mixture : Unconcerned r.mixture := by
  simp [mixture]

omit [Scalar α] in
@[simp] lemma unconcerned_arguments {values : List (Option Int × Signal α)} :
    Unconcerned (arguments values p) := by
  refine unconcerned_mapM fun s _ => ?_
  split <;> simp

/-- To say where something failed does not change why it did. -/
lemma unconcerned_mapError {x : Except Fault β} {text : String} {place : Ref}
    (each : Unconcerned x) :
    Unconcerned (x.mapError fun f => (f.noted text).locate place) := by
  cases x with
  | ok => exact unconcerned_ok
  | error f =>
    refine unconcerned_error.2 ?_
    have cause : ((f.noted text).locate place).cause = f.cause := by
      unfold Fault.locate
      split <;> rfl
    rw [cause]
    exact each f rfl

lemma unconcerned_candidateValue {args : List (Signal α)} {op : Operator α}
    (harmless : op.Harmless) :
    Unconcerned (r.candidateValue p args op) :=
  unconcerned_mapError (harmless.evaluate _ _)

@[simp] lemma unconcerned_align {known : Option (List Nat)} {ts : List (Tensor α)} :
    Unconcerned (align known ts) := by
  have leveled : Unconcerned (leveled ts) := by
    unfold OperatorNet.leveled
    split
    · simp
    · simp
  exact unconcerned_bind leveled fun _ _ => unconcerned_pure

@[simp] lemma unconcerned_apply {h : Readout α} {features : Tensor α} :
    Unconcerned (h.apply features) := by
  unfold Readout.apply
  split
  · simp
  · simp only [unconcerned_bind_iff]
    refine ⟨Tensor.unconcerned_productWith, fun _ _ => ?_⟩
    split <;> simp

@[simp] lemma unconcerned_pairing {a b : Tensor α} : Unconcerned (pairing a b) := by
  simp [pairing]

@[simp] lemma unconcerned_accumulate {κ : Type} [DecidableEq κ] {key : κ} {g : Tensor α}
    {collected : List (κ × Tensor α)} : Unconcerned (accumulate key g collected) := by
  unfold accumulate
  split <;> simp

@[simp] lemma unconcerned_unalign {g out : Tensor α} : Unconcerned (unalign g out) := by
  simp [unalign, fail_ne_ok]

@[simp] lemma unconcerned_add {train : Bool} {acc : Pulled α} {op : Operator α}
    {pulled : Pullback α} : Unconcerned (acc.add train p op pulled) := by
  unfold Pulled.add
  split
  · refine unconcerned_bind (by simp) fun own _ => unconcerned_bind unconcerned_pure fun _ _ => ?_
    refine unconcerned_bind (unconcerned_foldlM fun values q _ => ?_) fun _ _ => unconcerned_pure
    split <;> simp
  · refine unconcerned_bind unconcerned_pure fun own _ => ?_
    refine unconcerned_bind (unconcerned_foldlM fun values q _ => ?_) fun _ _ => unconcerned_pure
    split <;> simp

lemma unconcerned_candidatePullback {args : List (Signal α)} {op : Operator α}
    (harmless : op.Harmless) {out share : Tensor α} :
    Unconcerned (r.candidatePullback p args op out share) :=
  unconcerned_mapError (harmless.pullback _ _ _ _)

lemma unconcerned_pullPosition {pass : Pass α} {train : Bool} {acc : Pulled α}
    (harmless : p.Harmless) : Unconcerned (r.pullPosition pass train acc p) := by
  have onward : ∀ (own : CandidateValues α) (w : List α) (g : Tensor α) (acc : Pulled α),
      Unconcerned (do
        let args ← arguments pass.values p
        let jobs ← ((p.mixing.zip own.plain).zip (← own.logits.shares w)).mapM fun q => do
          return (q.1.1, q.1.2, ← q.2 (← unalign g q.1.2))
        let pulled ← jobs.mapM fun q => r.candidatePullback p args q.1 q.2.1 q.2.2
        (p.mixing.zip pulled).foldlM (fun acc q => acc.add train p q.1 q.2) acc) := by
    intro own w g acc
    refine unconcerned_bind unconcerned_arguments fun args _ => ?_
    refine unconcerned_bind Logits.unconcerned_shares fun shares shared => ?_
    -- jobs are those of mixing candidates, each with what its entry makes of a gradient
    refine unconcerned_bind (unconcerned_mapM fun q mem => ?_) fun jobs listed => ?_
    · have entry := Logits.unconcerned_of_mem_shares shared q.2 (List.of_mem_zip mem).2
      simp [entry]
    refine unconcerned_bind (unconcerned_mapM fun q mem => ?_) fun pulled _ => ?_
    · have mixing : ∀ job ∈ jobs, job.1 ∈ p.mixing := by
        rw [mapM_eq_ok] at listed
        intro job hjob
        obtain ⟨q, hq, made⟩ := exists_of_mem_forall₂ listed hjob
        simp only [bind_eq_ok, pure_eq_ok] at made
        obtain ⟨-, -, -, -, rfl⟩ := made
        exact (List.of_mem_zip (List.of_mem_zip hq).1).1
      exact unconcerned_candidatePullback (harmless.mixing _ (mixing q mem))
    · exact unconcerned_foldlM fun _ _ _ => unconcerned_add
  unfold pullPosition
  split
  next g own _ _ =>
    have rest : ∀ acc, Unconcerned (if (!train && p.sources.isEmpty) = true then
        (pure acc : Except Fault (Pulled α)) else _) := fun acc => by
      rw [unconcerned_ite]
      exact ⟨fun _ => unconcerned_pure, fun _ => onward own (pass.mixture.weights p.id) g acc⟩
    dsimp only
    split
    · exact unconcerned_bind unconcerned_pure fun acc _ => rest acc
    · refine unconcerned_bind (unconcerned_mapM fun _ _ => unconcerned_pairing) fun slopes _ => ?_
      refine unconcerned_bind Logits.unconcerned_checkRow fun _ _ => ?_
      refine unconcerned_bind unconcerned_heat fun _ _ => ?_
      exact unconcerned_bind unconcerned_pure fun acc _ => rest acc
  next => simp

lemma unconcerned_pullExit {pass : Pass α} {train : Bool} {exit : Int} {share : Tensor α} :
    Unconcerned (r.pullExit pass train exit share) := by
  unfold pullExit
  split
  · cases train <;> simp [fail_ne_ok]
  · simp

lemma unconcerned_backward {targets : Signal α} {pass : Pass α} {train : Bool}
    (harmless : ∀ p ∈ r.graph.positions, p.Harmless) :
    Unconcerned (r.backward targets pass train) := by
  unfold backward
  refine unconcerned_bind Objective.unconcerned_loss fun loss _ => ?_
  refine unconcerned_bind Objective.unconcerned_gradient fun g _ => ?_
  refine unconcerned_bind (unconcerned_mapM fun _ _ => unconcerned_pairing) fun slopes _ => ?_
  refine unconcerned_bind Logits.unconcerned_shares fun shares shared => ?_
  refine unconcerned_bind (unconcerned_mapM fun q mem => ?_) fun exits _ => ?_
  · have entry := Logits.unconcerned_of_mem_shares shared q.1 (List.of_mem_zip mem).1
    exact unconcerned_bind (entry g) fun _ _ =>
      unconcerned_bind unconcerned_pullExit fun _ _ => unconcerned_pure
  refine unconcerned_bind (unconcerned_foldlM fun _ _ _ => unconcerned_accumulate)
    fun values _ => ?_
  refine unconcerned_bind (unconcerned_foldlM fun _ p mem => ?_) fun pulled _ => ?_
  · exact unconcerned_pullPosition (harmless p (List.mem_reverse.1 mem))
  · split <;> simp

lemma unconcerned_penalty {m : Mixture α} (harmless : r.Harmless) : Unconcerned (r.penalty m) := by
  have excess : ∀ acc metric, Unconcerned (r.addExcess m acc metric) := fun acc metric => by
    unfold addExcess
    refine unconcerned_bind unconcerned_metricKind fun kind _ => ?_
    split
    · exact unconcerned_bind (Supergraph.unconcerned_expectedPrice harmless.positions) fun _ _ =>
        unconcerned_pure
    · refine unconcerned_bind Supergraph.unconcerned_costGradient fun g _ => ?_
      refine unconcerned_bind Budget.unconcerned_limit fun limit _ => ?_
      split
      · simp
      · exact unconcerned_bind harmless.settings.penalty fun _ _ => unconcerned_pure
  unfold penalty
  refine unconcerned_bind (unconcerned_foldlM fun acc metric _ => excess acc metric) fun _ _ => ?_
  simp

@[simp] lemma unconcerned_light {threshold : α} {xs : List β} {weights : List α} :
    Unconcerned (light threshold xs weights) := by
  simp [light]

end Relaxation

/-! ### A number of features that has changed -/

/-- A computation never fails for a number of features that has changed. -/
def Blameless (x : Except Fault β) : Prop :=
  ∀ f, x = .error f → ∀ exit before now, f.cause ≠ .widthChanged exit before now

section Blameless

variable {x : Except Fault β} {f : β → Except Fault γ}

@[simp] lemma blameless_ok {b : β} : Blameless (.ok b) :=
  fun _ failed => by cases failed

@[simp] lemma blameless_fail {c : Cause} :
    Blameless (fail c : Except Fault β) ↔ ∀ exit before now, c ≠ .widthChanged exit before now :=
  ⟨fun h => h _ rfl, fun other _ same => Except.error.inj same ▸ other⟩

lemma blameless_bind (first : Blameless x) (next : ∀ b, Blameless (f b)) : Blameless (x >>= f) := by
  intro e failed
  rcases bind_eq_error.1 failed with failed | ⟨b, -, failed⟩
  · exact first e failed
  · exact next b e failed

lemma blameless_mapM {xs : List β} (each : ∀ b, Blameless (f b)) : Blameless (xs.mapM f) := by
  intro e failed
  obtain ⟨b, -, failed⟩ := exists_of_mapM_eq_error failed
  exact each b e failed

lemma Generator.blameless_manyAround {g : Generator α} {centre spread : α} {n : Nat} :
    Blameless (g.manyAround centre spread n) := by
  unfold manyAround next
  split <;> simp

lemma Tensor.blameless_flattened {t : Tensor α} : Blameless t.flattened := by
  unfold flattened
  split
  · simp
  · split <;> simp

lemma Tensor.blameless_reshaped {t : Tensor α} {shape : List Nat} :
    Blameless (t.reshaped shape) := by
  unfold reshaped
  split <;> simp

variable [Scalar α]

lemma Tensor.blameless_mixed {weights : List α} {ts : List (Tensor α)} :
    Blameless (mixed weights ts) := by
  unfold mixed
  split
  · simp
  · split <;> simp

lemma Logits.blameless_mix {l : Logits α} {weights : List α} {ts : List (Tensor α)} :
    Blameless (l.mix weights ts) := by
  unfold mix
  split
  · exact Tensor.blameless_mixed
  · simp
  · split
    · simp
    · exact Tensor.blameless_mixed
    · exact blameless_bind (blameless_mapM fun _ => Tensor.blameless_mixed) fun _ => blameless_ok

lemma Readout.blameless_apply {h : Readout α} {features : Tensor α} :
    Blameless (h.apply features) := by
  have product : ∀ {a b : Tensor α}, Blameless (a.productWith b) := by
    intro a b
    unfold Tensor.productWith
    dsimp only
    split
    · split <;> simp
    · split <;> simp
    · simp
  have sum : ∀ {a b : Tensor α}, Blameless (a.combined (· + ·) b) := by
    intro a b
    unfold Tensor.combined
    split <;> simp
  unfold apply
  split
  · simp
  · refine blameless_bind product fun _ => ?_
    split
    · simp
    · exact sum

lemma Supergraph.blameless_checkRoutes {s : Supergraph α} : Blameless s.checkRoutes := by
  unfold checkRoutes
  split
  · simp
  · split <;> simp

end Blameless

end OperatorNet
