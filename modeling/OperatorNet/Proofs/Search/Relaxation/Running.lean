import OperatorNet.Proofs.Search.Relaxation.Steps

/-!
# Relaxed searches go by steps

Each function of a relaxed search goes by steps, up to pruning (`Relaxation.acts_prune`) and to a
whole run (`Relaxation.acts_run`). Evaluating and learning on training data change nothing but what
is kept beside the supergraph.
-/

namespace OperatorNet

variable {α β γ : Type}

/-- A position that mixes may be pruned. -/
lemma PositionState.pruned_mem_following {state : PositionState} (begun : state ≠ masked)
    (undecoded : state ≠ decoded) : pruned ∈ state.following := by
  cases state with
  | masked => exact absurd rfl begun
  | decoded => exact absurd rfl undecoded
  | mixing | annealed | pruned => decide

/-- A position goes on to a state that follows without faults. -/
lemma Position.unconcerned_transition {p : Position α} {state : PositionState}
    (follows : state ∈ p.state.following) : Unconcerned (p.transition state) := by
  rw [transition, if_pos follows]
  exact unconcerned_ok

/-- A tensor keeps its shape when it is learned. -/
lemma KeyedOptimizer.shape_update [Scalar α] {κ : Type} [DecidableEq κ] {a : KeyedOptimizer κ α}
    {key : κ} {value gradient v : Tensor α} (updated : (a.update key value gradient).1 = .ok v) :
    v.shape = value.shape := by
  unfold update at updated
  dsimp only at updated
  split at updated
  next => cases updated
  next => cases updated
  next rate memory _ _ =>
    split at updated
    · exact absurd updated fail_ne_ok
    · cases read : rate.toReal with
      | error f =>
        rw [read] at updated
        cases updated
      | ok x =>
        rw [read] at updated
        cases updated
        exact a.optimizer.shape_step

/-- Logits that were learned are a row as before. -/
lemma Logits.IsRow.ofSignal [Scalar α] {l : Logits α} {n : Nat} {t : Tensor α} (row : l.IsRow n)
    (shape : t.shape = l.toTensor.shape) : (Logits.ofSignal (.reals t)).IsRow n := by
  obtain ⟨xs, rfl, rfl⟩ := row
  have one : t.shape = [xs.length] := shape
  refine ⟨t.toList, if_pos (by rw [Tensor.rank, one]; rfl), ?_⟩
  rw [Tensor.toList, Array.length_toList, t.size_eq, one]
  exact Nat.mul_one _

namespace Relaxation

variable [Scalar α] {calm : Prop} {r : Relaxation α}

/-! ### Evaluating -/

lemma acts_positionValue {m : Mixture α} {values : List (Option Int × Signal α)} {p : Position α}
    (harmless : calm → p.Harmless) : Acts calm r (positionValue m values p) := by
  refine acts_get_bind (acts_lift_bind (fun _ => unconcerned_arguments) fun args _ => ?_)
  split
  · refine acts_lift_bind (fun _ => Position.unconcerned_firstFixed) fun op first => ?_
    refine acts_lift_bind (fun h => ?_) fun _ _ => acts_pure
    exact unconcerned_candidateValue ((harmless h).firstFixed first)
  · refine acts_lift_bind (fun h => ?_) fun plain _ => ?_
    · exact unconcerned_mapM fun op mem => unconcerned_candidateValue ((harmless h).mixing op mem)
    refine acts_lift_bind (fun _ => unconcerned_align) fun aligned _ => ?_
    refine acts_set_bind (step_same rfl) ?_
    exact acts_lift_bind (fun _ => Logits.unconcerned_mix) fun _ _ => acts_pure

lemma acts_positionValues {m : Mixture α} {positions : List (Position α)}
    {values : List (Option Int × Signal α)} {candidates : List (Int × CandidateValues α)}
    (stands : Stands calm r) (harmless : calm → ∀ p ∈ positions, p.Harmless) :
    Acts calm r (positionValues m values candidates positions) := by
  induction positions generalizing r values candidates with
  | nil => exact acts_pure
  | cons p rest ih =>
    simp only [List.forall_mem_cons] at harmless
    refine acts_bind stands (acts_positionValue fun h => (harmless h).1) fun _ _ stands => ?_
    exact ih stands fun h => (harmless h).2

/-- A readout acts by steps. -/
lemma acts_readout {exit : Int} {features : Nat} (stands : Stands calm r) :
    Acts calm r (readout exit features) := by
  refine acts_get_bind ?_
  split
  · split
    · exact acts_lift fun _ => by simp
    · exact acts_lift fun _ => by simp
    · split
      · exact acts_pure
      · exact acts_lift fun _ => by simp
  · refine acts_check (fun _ => by simp) ?_
    refine acts_lift_bind (fun h => (stands.harmless h).settings.headScale) fun scale _ => ?_
    refine acts_lift_bind (fun _ => Generator.unconcerned_manyAround) fun drawn _ => ?_
    refine acts_lift_bind (fun _ => Tensor.unconcerned_reshaped) fun matrix _ => ?_
    exact acts_set_bind (step_same rfl) acts_pure

/-- The prediction at an exit acts by steps. -/
lemma acts_exitPrediction {values : List (Option Int × Signal α)} {exit : Int}
    (stands : Stands calm r) : Acts calm r (exitPrediction values exit) := by
  unfold exitPrediction
  split
  · exact acts_lift fun _ => by simp
  · refine acts_lift_bind (fun _ => Tensor.unconcerned_flattened) fun features _ => ?_
    refine acts_bind stands (acts_readout stands) fun h _ _ => ?_
    exact acts_lift_bind (fun _ => unconcerned_apply) fun _ _ => acts_pure

/-- A forward pass acts by steps. -/
lemma acts_forward {m : Mixture α} {inputs : Signal α} (stands : Stands calm r) :
    Acts calm r (forward m inputs) := by
  refine acts_get_bind (acts_bind stands
    (acts_positionValues stands fun h => (stands.harmless h).positions) fun values _ stands => ?_)
  refine acts_lift_bind (fun _ => Supergraph.unconcerned_checkRoutes) fun _ _ => ?_
  refine acts_bind stands (acts_mapM stands fun _ _ => acts_exitPrediction) fun found _ _ => ?_
  exact acts_lift_bind (fun _ => Logits.unconcerned_mix) fun _ _ => acts_pure

/-! ### Learning -/

/-- Drawing a batch acts by steps. -/
lemma acts_batch : Acts calm r batch := by
  refine acts_get_bind ?_
  split
  · exact acts_lift fun _ => by simp
  · refine acts_lift_bind (fun _ => BatchSize.unconcerned_drawn?) fun size _ => ?_
    split
    · exact acts_pure
    · refine acts_lift_bind (fun _ => Generator.unconcerned_choose) fun drawn _ => ?_
      refine acts_set_bind (step_same rfl) ?_
      exact acts_check (fun _ => by simp) acts_pure

/-- After a tensor has been learned only its running averages are different. -/
lemma acts_learnWeight_bind {key : WeightKey} {value gradient : Tensor α}
    {f : Tensor α → Relaxing α γ} (stands : Stands calm r)
    (next : ∀ v steps, steps.rate = r.weightSteps.rate →
      Acts calm { r with weightSteps := steps } (f v)) :
    Acts calm r (learnWeight key value gradient >>= f) := by
  have rate : (r.weightSteps.update key value gradient).2.rate = r.weightSteps.rate :=
    KeyedOptimizer.rate_update
  rw [learnWeight, bind_assoc]
  refine acts_get_bind ?_
  dsimp only
  rw [bind_assoc]
  refine acts_set_bind (step_weightSteps rate) ?_
  refine acts_lift_bind (fun h => ?_) fun v _ => next v _ rate
  exact KeyedOptimizer.unconcerned_update (stands.harmless h).weightRate

/-- After logits have been learned only their running averages are different, and a row stays a row
of the same length. -/
lemma acts_learnLogits_bind {key : LogitKey} {l : Logits α} {gradient : Tensor α}
    {f : Logits α → Relaxing α γ} (stands : Stands calm r)
    (next : ∀ l' steps, steps.rate = r.logitSteps.rate → (∀ n, l.IsRow n → l'.IsRow n) →
      Acts calm { r with logitSteps := steps } (f l')) :
      Acts calm r (learnLogits key l gradient >>= f) := by
  have rate : (r.logitSteps.update key l.toTensor gradient).2.rate = r.logitSteps.rate :=
    KeyedOptimizer.rate_update
  rw [learnLogits, bind_assoc]
  refine acts_get_bind ?_
  dsimp only
  rw [bind_assoc]
  refine acts_set_bind (step_logitSteps rate) ?_
  rw [bind_assoc]
  refine acts_lift_bind (fun h => ?_) fun v updated => next _ _ rate fun n row => ?_
  · exact KeyedOptimizer.unconcerned_update (stands.harmless h).logitRate
  · exact row.ofSignal (KeyedOptimizer.shape_update updated)

/-- Learning a readout acts by steps. -/
lemma acts_learnHead {exit : Int} {g : Readout α} (stands : Stands calm r) :
    Acts calm r (learnHead exit g) := by
  refine acts_get_bind ?_
  split
  · refine acts_learnWeight_bind stands fun matrix steps rate => ?_
    have step : Step r { r with weightSteps := steps } := step_weightSteps rate
    refine acts_learnWeight_bind (stands.after (.single step)) fun offset steps' rate' => ?_
    exact acts_modify (step_same rfl)
  · exact acts_lift fun _ => by simp

/-- Learning a parameter acts by steps. -/
lemma acts_learnParam {position : Int} {operator : String} {g : String × Tensor α}
    (stands : Stands calm r) : Acts calm r (learnParam position operator g) := by
  refine acts_get_bind ?_
  split
  next => exact acts_pure
  next own found =>
    split
    · exact acts_pure
    · refine acts_lift_bind (fun _ => Param.unconcerned_toSignal) fun value _ => ?_
      refine acts_learnWeight_bind stands fun new steps rate => ?_
      refine acts_modify (step_params fun k mem => ?_)
      -- the key is there already
      have there : (position, operator) ∈ r.params.keys :=
        List.mem_map_of_mem (f := Prod.fst) (Table.mem_of_get? found)
      rwa [Table.keys_insert, if_pos there] at mem

/-- Learning the weights acts by steps. -/
lemma acts_learnWeights {g : Gradients α} (stands : Stands calm r) :
    Acts calm r (learnWeights g) :=
  acts_bind stands (acts_forM stands fun _ _ _ => acts_learnHead) fun _ _ stands =>
    acts_forM stands fun _ _ _ stands => acts_forM stands fun _ _ _ => acts_learnParam

/-- Learning the logits of a position acts by steps. -/
lemma acts_learnPosition {g : Gradients α} {penalty : Penalty α} {id : Int}
    (stands : Stands calm r) :
    Acts calm r (learnPosition g penalty id) := by
  refine acts_get_bind (acts_lift_bind (fun _ => Supergraph.unconcerned_position) fun p found => ?_)
  have mem : p ∈ r.graph.positions := List.mem_of_find?_eq_some (Supergraph.position_eq_ok.1 found)
  have learn : ∀ slope, Acts calm r (do
      let logits ← learnLogits (.position id) p.logits slope
      store { p with logits }) := fun slope =>
    acts_learnLogits_bind stands fun l steps _ row => acts_modify (step_graph (.logits mem row))
  split
  · exact acts_pure
  · dsimp only
    split
    · exact acts_lift_bind (fun _ => Tensor.unconcerned_combined) fun slope _ => learn slope
    · exact learn _

/-- Learning the architecture acts by steps. -/
lemma acts_learnArchitecture {g : Gradients α} {penalty : Penalty α} (stands : Stands calm r) :
    Acts calm r (learnArchitecture g penalty) := by
  refine acts_get_bind (acts_bind stands (acts_forM stands fun _ _ _ => acts_learnPosition) ?_)
  refine fun _ r' stands => acts_get_bind ?_
  dsimp only
  split
  · exact acts_learnLogits_bind stands fun l steps _ row => acts_modify (step_graph (.routes row))
  · exact acts_pure

/-- Moving on all positions of one state never fails, and leaves none of them behind. -/
lemma ends_advance {source target : PositionState} (follows : target ∈ source.following)
    (other : target ≠ source) (distinct : r.graph.ids.Nodup) :
    Ends (advance source target) r
      (fun _ r' => Steps r r' ∧ ∀ q ∈ r'.graph.positions, q.state ≠ source) fun _ _ => False := by
  -- what is left of the list are positions that were not replaced, and all that may be of the state
  have onward : ∀ (ps : List (Position α)) (r : Relaxation α), (ps.map (·.id)).Nodup →
      (∀ p ∈ ps, p ∈ r.graph.positions) →
      (∀ q ∈ r.graph.positions, q.state = source → q ∈ ps) →
      Ends (ps.forM fun p => do
          if p.state = source then
            store (← lift (p.transition target))) r
        (fun _ r' => Steps r r' ∧ ∀ q ∈ r'.graph.positions, q.state ≠ source) fun _ _ => False := by
    intro ps
    induction ps with
    | nil => exact fun r _ _ left => ⟨.refl, fun q hq same => List.not_mem_nil (left q hq same)⟩
    | cons p rest ih =>
      intro r apart there left
      rw [List.map_cons, List.nodup_cons] at apart
      rw [List.forall_mem_cons] at there
      rw [List.forM, ends_bind]
      split
      next here =>
        have moved : p.transition target = .ok { p with state := target } :=
          Position.transition_eq_ok.2 ⟨here.symm ▸ follows, rfl⟩
        rw [moved]
        have step : Step r { r with graph := r.graph.replace { p with state := target } } :=
          step_graph (.move there.1 moved)
        refine (ih _ apart.2 (fun q hq => ?_) fun q hq same => ?_).mono
          (fun _ r' done => ⟨.head step done.1, done.2⟩) fun _ _ h => h
        · refine Supergraph.mem_replace_of_ne (there.2 q hq) fun same => apart.1 ?_
          exact List.mem_map.2 ⟨q, hq, same⟩
        · rcases Supergraph.mem_replace hq with rfl | ⟨old, elsewhere⟩
          · exact absurd same other
          · refine (List.mem_cons.1 (left q old same)).resolve_left fun eq => elsewhere ?_
            rw [eq]
      next elsewhere =>
        refine ih r apart.2 there.2 fun q hq same => ?_
        exact (List.mem_cons.1 (left q hq same)).resolve_left fun eq => elsewhere (eq ▸ same)
  exact onward _ r distinct (fun _ mem => mem) fun _ mem _ => mem

/-- Going on to another state acts by steps. -/
lemma acts_advance {source target : PositionState} (follows : target ∈ source.following)
    (other : target ≠ source) (stands : Stands calm r) : Acts calm r (advance source target) :=
  (ends_advance follows other stands.distinct).mono (fun _ _ done => done.1) fun _ _ none =>
    none.elim

/-! ### Pruning -/

/-- What is light is never all. -/
lemma length_lt_of_light {xs ys : List β} {threshold : α} {weights : List α}
    (found : light threshold xs weights = .ok ys) : ys.length < xs.length := by
  unfold light at found
  dsimp only at found
  split at found
  next fewer =>
    cases found
    rwa [List.length_map]
  next =>
    split at found
    next less =>
      cases found
      rw [List.length_eraseIdx_of_lt less]
      exact Nat.sub_one_lt_of_lt less
    next => exact absurd found fail_ne_ok

/-- A run that stores a position first acts as it goes on. -/
lemma acts_store_bind {p : Position α} {f : Unit → Relaxing α γ}
    (change : Change r.graph r.params (r.graph.replace p) r.params)
    (next : Acts calm { r with graph := r.graph.replace p } (f ())) : Acts calm r (store p >>= f) :=
  acts_modify_bind (step_graph change) next

/-- A run that stores a position and changes the search acts as it goes on. -/
lemma acts_store_modify_bind {p : Position α} {g : Relaxation α → Relaxation α}
    {f : PUnit → Relaxing α γ} (step : Step r (g { r with graph := r.graph.replace p }))
    (next : Acts calm (g { r with graph := r.graph.replace p }) (f ⟨⟩)) :
    Acts calm r (do store p; let u ← modify g; f u) := by
  have onward := next.after (.single step)
  exact onward

/-- A single candidate is chosen and decoded. -/
lemma acts_choose {p : Position α} {op : Operator α} {f : Unit → Relaxing α γ}
    (mem : p ∈ r.graph.positions) (pruned : p.state = .pruned) (single : p.candidates = [op])
    (next : ∀ r', Step r r' → Acts calm r' (f ())) :
    Acts calm r (do
      store { p with chosen := some (.text op.name) }
      let q ← lift (Position.transition { p with chosen := some (.text op.name) } .decoded)
      let u ← store q
      f u) := by
  have moved : Position.transition { p with chosen := some (.text op.name) } .decoded =
      .ok { p with chosen := some (.text op.name), state := .decoded } :=
    Position.transition_eq_ok.2 ⟨by rw [pruned]; decide, rfl⟩
  have step := step_graph (.choose mem pruned single)
  -- what was only chosen is replaced at once
  rw [← Supergraph.replace_replace (p := { p with chosen := some (.text op.name) })
    (q := { p with chosen := some (.text op.name), state := .decoded }) rfl] at step
  have onward := (next _ step).after (.single step)
  rw [moved]
  exact onward

/-- Pruning a position acts by steps. -/
lemma acts_prunePosition {id : Int} (stands : Stands calm r) :
    Acts calm r (prunePosition id) := by
  refine acts_get_bind (acts_lift_bind (fun _ => Supergraph.unconcerned_position) fun p found => ?_)
  rw [Supergraph.position_eq_ok, Supergraph.find?] at found
  have mem : p ∈ r.graph.positions := List.mem_of_find?_eq_some found
  obtain rfl : p.id = id := by simpa using List.find?_some found
  split
  next => exact acts_pure
  next unfinished =>
    rw [Bool.or_eq_true, not_or, decide_eq_true_iff] at unfinished
    refine acts_lift_bind (fun _ => Logits.unconcerned_check) fun _ _ => ?_
    refine acts_lift_bind (fun _ => unconcerned_heat) fun heat _ => ?_
    refine acts_lift_bind (fun _ => Logits.unconcerned_checkSingles) fun _ _ => ?_
    refine acts_lift_bind (fun _ => unconcerned_light) fun dropped fewer => ?_
    split
    · exact acts_pure
    refine acts_lift_bind (fun _ => by simp [Position.remove]) fun kept removed => ?_
    have less := length_lt_of_light fewer
    rw [List.length_map] at less
    refine acts_store_modify_bind ?_ ?_
    · exact ⟨.drop mem unfinished.2 less removed, rfl, fun h => h, rfl, rfl⟩
    obtain ⟨l, -, rfl⟩ := Position.remove_eq_ok removed
    have there := Supergraph.mem_replace_self (q := { p with
      logits := l, candidates := p.candidates.filter fun op => !dropped.contains op.name }) mem rfl
    refine acts_lift_bind (fun h => ?_) fun q moved => ?_
    · exact Position.unconcerned_transition
        (PositionState.pruned_mem_following (stands.begun h p mem) unfinished.2)
    refine acts_store_bind (.move there moved) ?_
    have pruned : q.state = .pruned := by
      rw [(Position.transition_eq_ok.1 moved).2]
    have here := Supergraph.mem_replace_self there (Position.leadsTo_transition moved).id
    dsimp only
    split
    next op single => exact acts_choose here pruned single fun _ _ => acts_pure
    next => exact acts_pure

/-- Pruning the exits acts by steps. -/
lemma acts_pruneExits : Acts calm r pruneExits := by
  refine acts_get_bind ?_
  split
  next => exact acts_pure
  next =>
    refine acts_lift_bind (fun _ => unconcerned_heat) fun heat _ => ?_
    refine acts_lift_bind (fun _ => by simp [Supergraph.routeWeights]) fun weights _ => ?_
    refine acts_lift_bind (fun _ => Logits.unconcerned_checkSingles) fun _ _ => ?_
    refine acts_lift_bind (fun _ => unconcerned_light) fun dropped fewer => ?_
    split
    · exact acts_pure
    refine acts_lift_bind (fun _ => Supergraph.unconcerned_removeExits) fun s removed => ?_
    refine acts_lift_bind (fun _ => Supergraph.unconcerned_dropDead) fun t live => ?_
    refine acts_set_bind ?_ acts_pure
    exact ⟨.exits (length_lt_of_light fewer) removed live, rfl, fun h => h, rfl, rfl⟩

/-- Pruning acts by steps. -/
lemma acts_prune (stands : Stands calm r) : Acts calm r prune := by
  refine acts_get_bind (acts_bind stands (acts_mapM stands fun _ _ => acts_prunePosition) ?_)
  exact fun _ _ stands => acts_bind stands acts_pruneExits fun _ _ _ => acts_pure

/-! ### Runs -/

/-- A step of the search acts by steps. -/
lemma acts_runStep (stands : Stands calm r) : Acts calm r runStep := by
  refine acts_bind stands acts_batch fun data r stands => acts_get_bind ?_
  refine acts_lift_bind (fun _ => unconcerned_mixture) fun _ _ => ?_
  refine acts_bind stands (acts_forward stands) fun pass r stands => acts_get_bind ?_
  refine acts_lift_bind (fun h => unconcerned_backward (stands.harmless h).positions)
    fun trained _ => ?_
  refine acts_bind stands (acts_learnWeights stands) fun _ r stands =>
    acts_get_bind (acts_get_bind ?_)
  refine acts_lift_bind (fun _ => unconcerned_mixture) fun _ _ => ?_
  refine acts_bind stands (acts_forward stands) fun pass r known => acts_get_bind ?_
  refine acts_lift_bind (fun h => unconcerned_backward (known.harmless h).positions)
    fun validated _ => ?_
  refine acts_get_bind (acts_lift_bind (fun _ => unconcerned_mixture) fun _ _ => ?_)
  refine acts_lift_bind (fun h => unconcerned_penalty (known.harmless h)) fun penalty _ => ?_
  refine acts_bind known (acts_learnArchitecture known) fun _ r stands => ?_
  refine acts_when stands (acts_advance (by decide) (by decide) stands) fun r stands => ?_
  refine acts_lift_bind (fun h => (known.harmless h).settings.warmupSteps) fun warmup _ => ?_
  dsimp only
  split
  · exact acts_bind stands (acts_prune stands) fun pruned r _ => acts_get_bind acts_pure
  · exact acts_bind stands acts_pure fun pruned r _ => acts_get_bind acts_pure

/-- Some steps of the search act by steps. -/
lemma acts_runSteps {clock : Int → α} {cancels : Int → Bool} {fuel : Nat} (stands : Stands calm r) :
    Acts calm r (runSteps clock cancels fuel) := by
  induction fuel generalizing r with
  | zero => exact acts_pure
  | succ fuel ih =>
    refine acts_get_bind ?_
    dsimp only
    split
    · exact acts_pure
    refine acts_lift_bind (fun h => (stands.harmless h).stop.unconcerned_check) fun check checked =>
      ?_
    split
    · exact acts_set ⟨.aside fun _ mem => mem, rfl, fun h => h.check checked, rfl, rfl⟩
    have step : Step r { r with stop := check.2 } := step_stop fun h => h.check checked
    refine acts_set_bind step (acts_lift_bind (fun _ => Schedule.unconcerned_temperature) ?_)
    refine fun temperature _ => acts_bind (stands.after (.single step)) (acts_modify ?_) ?_
    · exact step_same rfl
    refine fun _ r stands => acts_bind stands (acts_runStep stands) fun record r stands => ?_
    refine acts_bind stands (acts_modify ?_) fun _ r stands => ?_
    · exact step_same rfl
    split
    · refine acts_get_bind
        (acts_lift_bind (fun h => (stands.harmless h).stop.unconcerned_cancel) ?_)
      intro stop cancelled
      refine acts_bind stands (acts_modify ?_) fun _ r stands => ih stands
      exact step_stop fun h => h.cancel cancelled
    · exact ih stands

/-- A run that ends after some steps at the latest. -/
def runFor (clock : Int → α) (cancels : Int → Bool) (steps : Nat) : Relaxing α Unit := do
  modify fun r => { r with stop := r.stop.start }
  advance .masked .mixing
  runSteps clock cancels steps

/-- A run is so many steps of the search. -/
lemma exists_run_eq {clock : Int → α} {cancels : Int → Bool} :
    ∃ steps, (run clock cancels).run r = (runFor clock cancels steps).run r := by
  have first : (modify fun r : Relaxation α => { r with stop := r.stop.start } :
      Relaxing α PUnit).run r = (.ok ⟨⟩, { r with stop := r.stop.start }) := rfl
  simp only [run, runFor, run_bind, first]
  rcases (advance .masked .mixing).run { r with stop := r.stop.start } with ⟨_ | _, r'⟩
  · exact ⟨0, rfl⟩
  · exact ⟨(r'.settings.steps.ceiling - r'.step + 1).toNat, rfl⟩

lemma acts_runFor {clock : Int → α} {cancels : Int → Bool} {steps : Nat}
    (distinct : r.graph.ids.Nodup) (harmless : calm → r.Harmless) :
    Acts calm r (runFor clock cancels steps) := by
  have step : Step r { r with stop := r.stop.start } := step_stop fun h => h.start
  have advanced := ends_advance (by decide : PositionState.mixing ∈ PositionState.masked.following)
    (by decide) (step.distinct distinct)
  rw [runFor, Acts, ends_bind, ends_modify, ends_bind]
  refine advanced.mono (fun _ r' after => ?_) fun _ _ none => none.elim
  obtain ⟨moved, begun⟩ := after
  have before : Steps r r' := .head step moved
  -- from here on no position waits for the first run
  have stands : Stands calm r' := ⟨before.keep Step.distinct distinct,
    fun h => before.keep Step.harmless (harmless h), fun _ => begun⟩
  exact (acts_runSteps stands).after before

lemma acts_run {clock : Int → α} {cancels : Int → Bool} (distinct : r.graph.ids.Nodup)
    (harmless : calm → r.Harmless) : Acts calm r (run clock cancels) := by
  obtain ⟨steps, same⟩ := exists_run_eq (r := r)
  rw [Acts, Ends, same]
  exact acts_runFor distinct harmless

end Relaxation

end OperatorNet
