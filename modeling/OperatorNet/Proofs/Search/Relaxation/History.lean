import Mathlib.Data.Rat.Floor
import OperatorNet.Proofs.Search.Annealing
import OperatorNet.Proofs.Search.Relaxation.Courses

/-!
# What is remembered of runs

A step leaves alone what is remembered of the earlier ones, whether it succeeds or fails, and tells
its place and its temperature in its record (`ends_runStep`). So after any runs, however each of
them has ended, there is one record for each step that is done, in order (`Chronicle`), and a run
that does not fail ends where the number of steps is reached or where a stop was asked for
(`ends_runSteps`). Where numbers are not rounded, the temperatures of the records fall.
-/

namespace OperatorNet

open Scalar

namespace Relaxation

variable {α β : Type} [Scalar α] {r r' : Relaxation α}

/-! ### Steps -/

/-- Neither the settings nor what is remembered of steps differ. -/
structure SameLog (r r' : Relaxation α) : Prop where
  settings : r'.settings = r.settings
  step : r'.step = r.step
  temperature : r'.temperature = r.temperature
  history : r'.history = r.history

instance : Overlooks (SameLog (α := α)) where
  trans _ _ _ first second :=
    ⟨second.settings.trans first.settings, second.step.trans first.step,
      second.temperature.trans first.temperature, second.history.trans first.history⟩
  learned _ := ⟨rfl, rfl, rfl, rfl⟩

/-- Learning a readout logs nothing. -/
lemma logs_learnHead {exit : Int} {g : Readout α} : Moves SameLog r (learnHead exit g) := by
  refine moves_get_bind ?_
  split
  · exact moves_bind moves_learnWeight fun _ _ => moves_bind moves_learnWeight fun _ _ =>
      moves_modify ⟨rfl, rfl, rfl, rfl⟩
  · exact moves_lift

/-- Evaluating a position logs nothing. -/
lemma logs_positionValue {m : Mixture α} {values : List (Option Int × Signal α)} {p : Position α} :
    Moves SameLog r (positionValue m values p) := by
  refine moves_get_bind (moves_lift_bind fun _ _ => ?_)
  split
  · exact moves_lift_bind fun _ _ => moves_lift_bind fun _ _ => moves_pure
  · exact moves_lift_bind fun _ _ => moves_lift_bind fun _ _ =>
      moves_set_bind ⟨rfl, rfl, rfl, rfl⟩ (moves_lift_bind fun _ _ => moves_pure)

/-- Evaluating positions logs nothing. -/
lemma logs_positionValues {m : Mixture α} {values : List (Option Int × Signal α)}
    {candidates : List (Int × CandidateValues α)} {ps : List (Position α)} :
    Moves SameLog r (positionValues m values candidates ps) := by
  induction ps generalizing r values candidates with
  | nil => exact moves_pure
  | cons p rest ih => exact moves_bind logs_positionValue fun _ _ => ih

/-- A readout logs nothing. -/
lemma logs_readout {exit : Int} {features : Nat} :
    Moves SameLog r (readout exit features : Relaxing α (Readout α)) := by
  have drawn : ∀ {r : Relaxation α} {matrix : Except Fault (Tensor α)} {g : Generator α}
      {h : Tensor α → Readout α}, Moves SameLog r (do
        let m ← lift matrix
        set { r with generator := g, heads := r.heads.insert (.int exit) (h m) }
        return h m) := fun {_ _ _ _} =>
    moves_lift_bind fun _ _ => moves_set_bind ⟨rfl, rfl, rfl, rfl⟩ moves_pure
  refine moves_get_bind ?_
  split
  next =>
    split
    · exact moves_lift
    · exact moves_lift
    · split
      · exact moves_pure
      · exact moves_lift
  next =>
    split
    · exact moves_lift_bind fun _ _ => moves_lift_bind fun _ _ => moves_lift_bind fun _ _ => drawn
    · exact moves_lift_bind fun _ _ => moves_lift_bind fun _ _ => drawn

/-- A forward pass logs nothing. -/
lemma logs_forward {m : Mixture α} {inputs : Signal α} : Moves SameLog r (forward m inputs) := by
  refine moves_get_bind (moves_bind logs_positionValues fun _ _ => moves_lift_bind fun _ _ => ?_)
  refine moves_bind (moves_mapM fun exit r => ?_) fun _ _ => moves_lift_bind fun _ _ => moves_pure
  rw [exitPrediction]
  split
  · exact moves_lift
  · exact moves_lift_bind fun _ _ => moves_bind logs_readout fun _ _ =>
      moves_lift_bind fun _ _ => moves_pure

/-- A step changes nothing of what is remembered, and a step that succeeds tells where it was. -/
lemma ends_runStep : Ends runStep r
    (fun record r' => SameLog r r' ∧ record.step = r.step ∧ record.temperature = r.temperature)
    fun _ => SameLog r := by
  refine moves_batch.ends_bind (refl r) fun data r₁ same => ends_get_bind ?_
  refine ends_lift_bind (fun m _ => ?_) fun _ _ => same
  refine logs_forward.ends_bind same fun pass r₂ same => ends_get_bind ?_
  refine ends_lift_bind (fun trained _ => ?_) fun _ _ => same
  refine (moves_learnWeights fun _ _ _ => logs_learnHead).ends_bind same fun _ r₃ same =>
    ends_get_bind (ends_get_bind ?_)
  refine ends_lift_bind (fun m _ => ?_) fun _ _ => same
  refine logs_forward.ends_bind same fun pass r₄ same => ends_get_bind ?_
  refine ends_lift_bind (fun validated _ => ?_) fun _ _ => same
  refine ends_get_bind (ends_lift_bind (fun m _ => ?_) fun _ _ => same)
  refine ends_lift_bind (fun penalty _ => ?_) fun _ _ => same
  have told : r₄.step = r.step ∧ r₄.temperature = r.temperature := ⟨same.step, same.temperature⟩
  refine moves_learnArchitecture.ends_bind same fun _ r₅ same => ?_
  refine moves_advance.ends_when same fun r₆ same =>
    ends_lift_bind (fun warmup _ => ?_) fun _ _ => same
  dsimp only
  split
  · exact (moves_prune fun _ _ => ⟨rfl, rfl, rfl, rfl⟩).ends_bind same fun pruned r₇ same =>
      ends_get_bind ⟨same, told⟩
  · exact moves_pure.ends_bind same fun pruned r₇ same => ends_get_bind ⟨same, told⟩

/-! ### Runs -/

/-- There is one record for each step that is done, in order, with the temperature of the step; and
no more steps are done than there should be. -/
structure Chronicle (r : Relaxation α) : Prop where
  counts : r.step = r.history.length
  numbered : r.history.map (·.step) = (List.range r.history.length).map Int.ofNat
  temperature : ∀ x ∈ r.history, r.settings.schedule.temperature (.whole x.step) = .ok x.temperature
  bounded (n : Nat) : (Number.whole n).below r.settings.steps = false → r.step ≤ n

/-- There is cause for a stop at the present step, and the search has noted it. -/
def Stopped (clock : Int → α) (r : Relaxation α) : Prop :=
  r.stoppedEarly = true ∧ ∃ cause, r.stop.reason = .text cause ∧
    r.stop.cause? (clock r.step) (.ok (.whole r.step)) = .ok (some cause)

/-- The chronicle depends on the settings, the step and the history only. -/
lemma Chronicle.of_same (chronicle : Chronicle r) (settings : r'.settings = r.settings)
    (step : r'.step = r.step) (history : r'.history = r.history) : Chronicle r' := by
  obtain ⟨counts, numbered, temperature, bounded⟩ := chronicle
  rw [← step, ← history] at counts
  rw [← history] at numbered temperature
  rw [← settings] at temperature bounded
  rw [← step] at bounded
  exact ⟨counts, numbered, temperature, bounded⟩

/-- One step more has one record more. -/
lemma Chronicle.snoc {record : StepRecord α} (chronicle : Chronicle r)
    (below : (Number.whole r.step).below r.settings.steps = true) (place : record.step = r.step)
    (temperature : r.settings.schedule.temperature (.whole r.step) = .ok record.temperature) :
    Chronicle { r with history := r.history ++ [record], step := r.step + 1 } where
  counts := by
    rw [chronicle.counts, List.length_append]
    rfl
  numbered := by
    rw [List.map_append, chronicle.numbered, List.length_append, List.length_singleton,
      List.range_succ, List.map_append, List.map_singleton, place, chronicle.counts]
    rfl
  temperature x mem := by
    rcases List.mem_append.1 mem with earlier | last
    · exact chronicle.temperature x earlier
    · rw [List.mem_singleton.1 last, place]
      exact temperature
  bounded n enough := by
    refine Int.add_one_le_of_lt (not_le.1 fun le => ?_)
    rw [Number.below_of_le le below] at enough
    cases enough

/-- A search that stops has a cause to. -/
lemma exists_cause {s s' : StopSignal α} {elapsed : α} {step : Except Fault (Number α)}
    (stops : s.check elapsed step = .ok (true, s')) :
    ∃ cause, s'.reason = .text cause ∧ s'.cause? elapsed step = .ok (some cause) := by
  obtain ⟨cause?, why, stops⟩ := bind_eq_ok.1 stops
  cases cause? with
  | none => cases stops
  | some cause =>
    cases stops
    exact ⟨cause, rfl, why⟩

/-- With the same settings as before, all steps are told, those of before in the same way. -/
structure Tells (r r' : Relaxation α) : Prop where
  settings : r'.settings = r.settings
  history : r.history <+: r'.history
  chronicle : Chronicle r'

/-- Where nothing is logged the history tells the same. -/
lemma Tells.of_same (chronicle : Chronicle r) (same : SameLog r r') : Tells r r' :=
  ⟨same.settings, same.history ▸ List.prefix_rfl,
    chronicle.of_same same.settings same.step same.history⟩

/-- What is told by two runs is told by one after the other. -/
lemma Tells.trans {r'' : Relaxation α} (first : Tells r r') (second : Tells r' r'') : Tells r r'' :=
  ⟨second.settings.trans first.settings, first.history.trans second.history, second.chronicle⟩

/-- A step at the temperature of its place is told once it is done, and leaves all told where it
fails. -/
lemma ends_told {temperature : Number α} (chronicle : Chronicle r)
    (below : (Number.whole r.step).below r.settings.steps = true)
    (cooled : r.settings.schedule.temperature (.whole r.step) = .ok temperature) :
    Ends runStep { r with temperature }
      (fun record r' => r'.step = r.step ∧
        Tells r { r' with history := r'.history ++ [record], step := r'.step + 1 })
      fun _ => Tells r := by
  have cools : Chronicle { r with temperature } := chronicle.of_same rfl rfl rfl
  refine ends_runStep.mono ?_ fun _ r' same => ?_
  · rintro record r' ⟨same, place, told⟩
    have settings : r'.settings = r.settings := same.settings
    have kept : r'.history = r.history := same.history
    refine ⟨same.step, settings, kept ▸ List.prefix_append .., ?_⟩
    refine (Tells.of_same cools same).chronicle.snoc ?_ (place.trans same.step.symm) ?_
    · rw [settings, same.step]
      exact below
    · rw [settings, same.step, told]
      exact cooled
  · exact ⟨same.settings, same.history ▸ List.prefix_rfl, (Tells.of_same cools same).chronicle⟩

/-- Whatever happens in a run, all steps are told; one that does not fail is stopped, or does all
that it may. -/
lemma ends_runSteps {clock : Int → α} {cancels : Int → Bool} {fuel : Nat}
    (chronicle : Chronicle r) :
    Ends (runSteps clock cancels fuel) r
      (fun _ r' => Tells r r' ∧ (Stopped clock r' ∨
        ∀ n : Nat, r.settings.steps.IsCeiling n → n ≤ r.step + fuel → n ≤ r'.step))
      fun _ => Tells r := by
  have here : Tells r r := ⟨rfl, List.prefix_rfl, chronicle⟩
  induction fuel generalizing r with
  | zero => exact ⟨here, .inr fun n _ le => by simpa using le⟩
  | succ fuel ih =>
    refine ends_get_bind ?_
    dsimp only
    split
    case isTrue enough =>
      refine ⟨here, .inr fun n ceils _ => ?_⟩
      rw [chronicle.counts] at enough ⊢
      exact Nat.cast_le.2 (ceils.2 _ (by simpa using enough))
    case isFalse less =>
      -- one step is done, so that one less is to be allowed for
      have onward : ∀ s, Tells r s → s.step = r.step + 1 → Ends (runSteps clock cancels fuel) s
          (fun _ r' => Tells r r' ∧ (Stopped clock r' ∨
            ∀ n : Nat, r.settings.steps.IsCeiling n → n ≤ r.step + (fuel + 1 : Nat) → n ≤ r'.step))
          fun _ => Tells r := by
        intro s told step
        refine (ih told.chronicle ⟨rfl, List.prefix_rfl, told.chronicle⟩).mono ?_ fun _ r' =>
          told.trans
        rintro _ r' ⟨more, ended⟩
        refine ⟨told.trans more, ended.imp_right fun all n ceils le => ?_⟩
        rw [told.settings] at all
        exact all n ceils (by omega)
      refine ends_lift_bind (fun check checked => ?_) fun _ _ => here
      obtain ⟨stopped, stop⟩ := check
      have noted : ∀ {stop stoppedEarly}, Tells r { r with stop, stoppedEarly } :=
        .of_same chronicle ⟨rfl, rfl, rfl, rfl⟩
      dsimp only
      split
      case isTrue stops => exact ⟨noted, .inl ⟨rfl, exists_cause (stops ▸ checked)⟩⟩
      case isFalse goes =>
        refine ends_bind.2
          (ends_set.2 (ends_lift_bind (fun temperature cooled => ?_) fun _ _ => noted))
        refine ends_bind.2 (ends_modify.2 (ends_bind.2 ?_))
        have taken := ends_told (r := { r with stop }) noted.chronicle (not_not.1 less) cooled
        refine taken.mono (fun record r' ⟨step, told⟩ => ?_) fun _ _ told => noted.trans told
        have told := noted.trans told
        have done : r'.step + 1 = r.step + 1 := congrArg (· + 1) step
        refine ends_bind.2 (ends_modify.2 ?_)
        split
        · refine ends_get_bind (ends_lift_bind (fun stop _ => ?_) fun _ _ => told)
          refine ends_bind.2 (ends_modify.2 (onward _ ?_ done))
          exact told.trans (.of_same told.chronicle ⟨rfl, rfl, rfl, rfl⟩)
        · exact onward _ told done

/-- Whatever happens in a run, all steps are told; one that does not fail is stopped, or goes on to
the end. -/
lemma ends_run {clock : Int → α} {cancels : Int → Bool} (chronicle : Chronicle r) :
    Ends (run clock cancels) r
      (fun _ r' => Tells r r' ∧ (Stopped clock r' ∨
        ∀ n : Nat, r.settings.steps.IsCeiling n → r'.step = n))
      fun _ => Tells r := by
  have begun : SameLog r { r with stop := r.stop.start } := ⟨rfl, rfl, rfl, rfl⟩
  refine ends_bind.2 (ends_modify.2 (ends_bind.2 ?_))
  refine (moves_advance.after begun).mono (fun _ r₁ same => ?_) fun _ _ => .of_same chronicle
  have told := Tells.of_same chronicle same
  have counted := told.chronicle.counts
  refine ends_get_bind ((ends_runSteps told.chronicle).mono ?_ fun _ r' => told.trans)
  rintro _ r' ⟨more, ended⟩
  have told := told.trans more
  refine ⟨told, ended.imp_right fun all n ceils => ?_⟩
  have most : r'.step ≤ n := told.chronicle.bounded n (told.settings ▸ ceils.1)
  rw [← same.settings] at ceils
  have le := ceils.le_ceiling
  exact le_antisymm most (all n ceils (by omega))

/-- A run tells what it did. -/
lemma tells_run {clock : Int → α} {cancels : Int → Bool} (chronicle : Chronicle r) :
    Tells r ((run clock cancels).run r).2 := by
  rcases ran : (run clock cancels).run r with ⟨_ | _, r'⟩
  · exact (ends_run chronicle).of_error ran
  · exact ((ends_run chronicle).of_ok ran).1

/-! ### Searches that are run again and again -/

/-- A search that was started, changed in any way but in its settings and in what it remembers of
its steps, and run any number of times, however each of the runs has ended. -/
inductive Underway : Relaxation α → Prop
  | start {s : Supergraph α} {objective : Objective α} {train val : Dataset α} {budget : Budget α}
      {settings : Settings α} {draws : Draws α} {optimizer : Optimizer α} {seed : Int}
        {stop : Option (StopSignal α)} {r : Relaxation α} :
      start s objective train val budget settings draws optimizer seed stop = .ok r → Underway r
  | change {r r' : Relaxation α} : Underway r → r'.settings = r.settings → r'.step = r.step →
      r'.history = r.history → Underway r'
  | run {r : Relaxation α} (clock : Int → α) (cancels : Int → Bool) : Underway r →
      Underway ((run clock cancels).run r).2

/-- A search underway has a chronicle. -/
lemma Underway.chronicle (underway : Underway r) : Chronicle r := by
  induction underway with
  | start started =>
    unfold Relaxation.start at started
    simp only [bind_eq_ok, pure_eq_ok] at started
    obtain ⟨_, -, _, -, _, -, _, -, _, -, rfl⟩ := started
    exact ⟨rfl, rfl, nofun, fun n _ => n.cast_nonneg⟩
  | change _ settings step history ih => exact ih.of_same settings step history
  | run clock cancels _ ih => exact (tells_run ih).chronicle

/-- In the order of the records the steps rise. -/
lemma Chronicle.rising (chronicle : Chronicle r) :
    r.history.Pairwise fun x y => x.step < y.step := by
  have rising : ((List.range r.history.length).map Int.ofNat).Pairwise (· < ·) :=
    List.pairwise_lt_range.map _ fun _ _ => Int.ofNat_lt.2
  rw [← chronicle.numbered] at rising
  exact List.pairwise_map.1 rising

section Exact

variable {K : Type} [Field K] [LinearOrder K] {e : Elementary K}

/-- How the temperature falls in a search. -/
def annealing (r : @Relaxation K (ofField e)) : @Schedule K (ofField e) :=
  @Settings.schedule K (ofField e) (@settings K (ofField e) r)

/-- The temperatures that are remembered. -/
def temperatures (r : @Relaxation K (ofField e)) : List K :=
  (@history K (ofField e) r).map fun x => x.temperature.value

variable [IsStrictOrderedRing K] {r : @Relaxation K (ofField e)}
    (chronicle : @Chronicle K (ofField e) r)
  (law : e.Truncates) (decays : @Schedule.cooling K (ofField e) r.annealing =
    .exponential → e.Decays)

include chronicle law decays

/-- The temperatures of a chronicle fall. -/
lemma Chronicle.falling : r.temperatures.Pairwise (· ≥ ·) := by
  let _ := ofField e
  refine List.pairwise_map.2 (chronicle.rising.imp_of_mem fun first second earlier => ?_)
  refine Schedule.temperature_le law decays (chronicle.temperature _ first)
    (chronicle.temperature _ second) ?_
  exact Int.cast_le.2 earlier.le

/-- The temperatures of a chronicle stay between the lowest and the highest. -/
lemma Chronicle.between {t : K} (mem : t ∈ r.temperatures) :
    r.annealing.low ≤ t ∧ t ≤ r.annealing.high := by
  let _ := ofField e
  obtain ⟨x, there, rfl⟩ := List.mem_map.1 mem
  exact Schedule.temperature_mem law decays (chronicle.temperature x there)

end Exact

/-- However a search was run, there is one record for each step that is done, in order. A run adds
to the records. No more steps are done than there should be, rounded up to a whole number, and all
of them by a run that neither fails nor is stopped. Where numbers are not rounded, the temperatures
of the records fall, between the initial and the final one. -/
theorem history_spec :
    (∀ {α : Type} [Scalar α] {r : Relaxation α}, Underway r →
      r.step = r.history.length ∧
      r.history.map (·.step) = (List.range r.history.length).map Int.ofNat ∧
      (∀ clock cancels, r.history <+: ((run clock cancels).run r).2.history) ∧
      ∀ n : Nat, r.settings.steps.IsCeiling n → r.step ≤ n ∧
        ∀ clock cancels r', (run clock cancels).run r = (.ok (), r') → Stopped clock r' ∨
          r'.step = n) ∧
    ∀ {K : Type} [Field K] [LinearOrder K] [IsStrictOrderedRing K] {e : Elementary K}
      {r : @Relaxation K (ofField e)}, e.Truncates → @Underway K (ofField e) r →
      (@Schedule.cooling K (ofField e) r.annealing = .exponential → e.Decays) →
        r.temperatures.Pairwise (· ≥ ·) ∧
        ∀ t ∈ r.temperatures, r.annealing.low ≤ t ∧ t ≤ r.annealing.high := by
  constructor
  · intro α _ r underway
    have chronicle := underway.chronicle
    refine ⟨chronicle.counts, chronicle.numbered, fun clock cancels =>
      (tells_run chronicle).history, ?_⟩
    refine fun n ceils => ⟨chronicle.bounded n ceils.1, fun clock cancels r' ran => ?_⟩
    exact ((ends_run chronicle).of_ok ran).2.imp_right fun all => all n ceils
  · intro K _ _ _ e r law underway decays
    have chronicle := @Underway.chronicle K (ofField e) r underway
    exact ⟨chronicle.falling law decays, fun t => chronicle.between law decays⟩

/-! ### Three runs -/

namespace Annealed

/-- Elementary functions of rational numbers; powers fall in a straight line. -/
def elementary : Elementary ℚ where
  exp x := 1 + x
  log x := x - 1
  sqrt x := x
  pow r x := 1 + (r - 1) * x
  infinity := 0
  truncate x := if 0 ≤ x then ⌊x⌋ else ⌈x⌉
  divides x n := x ≠ 0 && (n / x).den = 1

/-- The numbers are truncated to whole ones. -/
lemma truncates : elementary.Truncates where
  of_nonneg {x} nonneg := by
    simp only [elementary, if_pos nonneg]
    exact ⟨Int.floor_le x, Int.lt_floor_add_one x⟩
  of_nonpos {x} nonpos := by
    rcases nonpos.eq_or_lt with rfl | neg
    · simp [elementary]
    · simp only [elementary, if_neg (not_le.2 neg)]
      exact ⟨Int.le_ceil x, sub_lt_iff_lt_add.2 (Int.ceil_lt_add_one x)⟩

/-- The powers decay. -/
lemma decays : elementary.Decays where
  pow_zero _ _ := by simp [elementary]
  pow_one _ _ := by simp [elementary]
  pow_le_pow {r x y} pos le nonneg less one := by
    simp only [elementary]
    nlinarith

scoped instance : Scalar ℚ :=
  ofField elementary

/-- A vector of any length. -/
def typeOf (kind : String) : PortType :=
  { kind, shape := [.symbol "N"], metric := "l2", group := .empty }

/-- An operator that gives what it reads. -/
def keep : Operator ℚ :=
  { name := "keep", inTypes := [typeOf "path"], outType := typeOf "feature", differentiable := true
    invariance := .empty, stability := none, cost := .empty, params := .empty, adapter := false
    executor := some
      { evaluate := fun inputs _ =>
          match inputs with
          | [x] => .ok x
          | _ => fail .wrongForm
        pullback? := none
        bound := fun _ => .ok none } }

/-- The catalog with one operator. -/
def catalog : Catalog ℚ :=
  (Catalog.ofKinds ["path", "feature"] "cost").extend [keep] (by decide)

/-- The position that takes the operator. -/
def position : Position ℚ :=
  { id := 0, stage := 1, inputs := [none], outType := typeOf "feature", candidates := [keep]
    state := .masked, logits := .row [0], chosen := none }

/-- The network with one position. -/
def single : Supergraph ℚ :=
  { catalog, inputType := typeOf "path", outputType := typeOf "feature", depth := .whole 1
    positions := [position], exits := [0], routeLogits := .row [0] }

/-- Three steps, in which the temperature falls to a half. -/
def brief : Settings ℚ where
  weightRate := .ok (.whole 0)
  logitRate := .ok (.whole 0)
  batchSize := .all
  headScale := .ok 0
  logitScale := .ok (.whole 0)
  schedule :=
    { start := .whole 1, final := .real (1 / 2), steps := .whole 3, cooling := .exponential
      final_pos := by decide +kernel, final_le := by decide +kernel }
  pruneThreshold := 0
  pruneEvery := .whole 1
  warmupSteps := .ok (.whole 0)
  penalty := .ok 0
  maskOverBudget := false
  maxFanIn := .whole 3
  maxSeconds := none
  ridge := .ok 0
  insertFixed := true
  tieBreak := [.cost, .catalogOrder]
  metricKinds := .none
  objective := .null

/-- The budget without limits. -/
def unlimited : Budget ℚ :=
  ⟨.empty, fun _ mem => absurd mem List.not_mem_nil⟩

/-- One example, of nothing. -/
def data : Dataset ℚ :=
  ⟨.reals (.full [1, 1] 1), .reals (.full [1, 1] 0)⟩

/-- A run in which a stop is asked for after the first step. -/
def stopped (r : Relaxation ℚ) : Relaxation ℚ :=
  ((run (fun _ => 0) fun n => n = 1).run r).2

/-- The search, no longer stopped, with an operator that cannot be evaluated. -/
def broken (r : Relaxation ℚ) : Relaxation ℚ :=
  { stopped r with
    stop := .ofSeconds none
    graph :=
      (stopped r).graph.replace { position with candidates := [{ keep with executor := none }] } }

/-- A run that fails, and one with the operator of before. -/
def finished (r : Relaxation ℚ) : Relaxation ℚ :=
  ((run (fun _ => 0) fun _ => false).run
    { ((run (fun _ => 0) fun _ => false).run (broken r)).2 with graph := (stopped r).graph }).2

end Annealed

open Annealed in
/-- A search that is stopped, then fails, and then goes on to the end, has one record of each of its
steps. -/
theorem history_resumed :
    ∃ r, start single .regression data data unlimited brief .congruential .adam 0 none = .ok r ∧
      ((stopped r).stop.reason.text? = some "cancelled" ∧
        ((run (fun _ => 0) fun _ => false).run (broken r)).1.isOk = false ∧
        (finished r).temperatures = [1, 3 / 4, 1 / 2] ∧
          (finished r).settings.steps.whole? = some (3 : Nat)) ∧
      elementary.Truncates ∧ elementary.Decays ∧ Underway (finished r) ∧
      (finished r).step = (finished r).history.length ∧
      (finished r).history.map (·.step) = (List.range (finished r).history.length).map Int.ofNat ∧
      (finished r).step ≤ 3 ∧ (finished r).temperatures.Pairwise (· ≥ ·) ∧
      ∀ t ∈ (finished r).temperatures, (finished r).annealing.low ≤ t ∧
        t ≤ (finished r).annealing.high := by
  have shown : ∃ r, (start single .regression data data unlimited brief .congruential .adam 0
      none).toOption = some r ∧
      decide ((stopped r).stop.reason.text? = some "cancelled" ∧
        ((run (fun _ => 0) fun _ => false).run (broken r)).1.isOk = false ∧
        (finished r).temperatures = [1, 3 / 4, 1 / 2] ∧
          (finished r).settings.steps.whole? = some (3 : Nat)) := by
    rw [← Option.any_eq_true]
    decide +kernel
  obtain ⟨r, started, shown⟩ := shown
  have started := toOption_eq_some.1 started
  have shown := of_decide_eq_true shown
  -- a run that is cancelled, one that breaks down, and one to the end, with changes in between
  have underway : Underway (finished r) := by
    have once : Underway (stopped r) := .run _ _ (.start started)
    have changed : Underway (broken r) := .change once rfl rfl rfl
    have twice := Underway.run (fun _ => 0) (fun _ => false) changed
    exact .run _ _ (.change twice rfl rfl rfl)
  obtain ⟨told, cooled⟩ := history_spec
  obtain ⟨counts, numbered, -, bounded⟩ := told underway
  obtain ⟨falling, between⟩ := cooled truncates underway fun _ => decays
  exact ⟨r, started, shown, truncates, decays, underway, counts, numbered,
    (bounded 3 (Number.isCeiling_of_whole? shown.2.2.2)).1,
    falling, between⟩

end Relaxation

end OperatorNet
