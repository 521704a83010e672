import OperatorNet.Proofs.Search.Relaxation.Soundness

/-!
# Courses of relaxed searches

A relaxed search goes on by evaluations of the mixture that its logits give, and by turns in
between: batches are drawn, weights and logits are learned, positions move on, candidates and exits
are pruned (`Relaxation.Course`). Turns leave alone what is remembered of sizes, and give readouts
no other shape (`Turn.kept`); positions lose candidates in them, but not where nothing mixes
(`Turn.survives`). Every run goes by a course (`goes_run`).
-/

namespace OperatorNet

variable {α β γ : Type} [Scalar α]

/-- A signal of reals has the shape of the signal. -/
lemma Signal.shape_toReals (v : Signal α) : v.toReals.shape = v.shape := by
  cases v <;> rfl

namespace Relaxation

/-- A result that is lifted first ends as what comes after it, or as its fault. -/
lemma ends_lift_bind {r : Relaxation α} {y : Except Fault β} {f : β → Relaxing α γ}
    {good : γ → Relaxation α → Prop} {bad : Fault → Relaxation α → Prop}
    (next : ∀ b, y = .ok b → Ends (f b) r good bad) (failed : ∀ e, y = .error e → bad e r) :
    Ends (lift y >>= f) r good bad := by
  rw [ends_bind]
  cases y with
  | ok b => exact next b rfl
  | error e => exact failed e rfl

/-! ### What is left alone -/

/-- A relation between states that overlooks what is drawn and learned. -/
class Overlooks (R : Relaxation α → Relaxation α → Prop) :
    Prop extends IsTrans (Relaxation α) R where
  learned (r : Relaxation α) {graph : Supergraph α} {generator : Generator α}
    {params : Table (Int × String) (Params α)} {weightSteps : KeyedOptimizer WeightKey α}
    {logitSteps : KeyedOptimizer LogitKey α} :
    R r { r with graph, generator, params, weightSteps, logitSteps }

section Overlooks

variable {R : Relaxation α → Relaxation α → Prop} {r : Relaxation α} {f : β → Relaxing α γ}

/-- A result that is lifted moves nowhere. -/
lemma moves_lift [Std.Refl R] {y : Except Fault β} : Moves R r (lift y : Relaxing α β) := by
  cases y <;> exact refl r

/-- A run that begins with a lifted result moves as it goes on. -/
lemma moves_lift_bind [Std.Refl R] {y : Except Fault β} (next : ∀ b, y = .ok b → Moves R r (f b)) :
    Moves R r (lift y >>= f) :=
  ends_lift_bind next fun _ _ => refl r

variable [Overlooks R]

instance : Std.Refl R :=
  ⟨fun r => Overlooks.learned r⟩

/-- Storing a position is overlooked. -/
lemma moves_store {p : Position α} : Moves R r (store p) :=
  moves_modify (Overlooks.learned r)

/-- Drawing a batch is overlooked. -/
lemma moves_batch : Moves R r batch := by
  refine moves_get_bind ?_
  split
  · exact moves_lift
  · refine moves_lift_bind fun size _ => ?_
    split
    · exact moves_pure
    · refine moves_lift_bind fun drawn _ => moves_set_bind (Overlooks.learned r) ?_
      split
      · exact moves_bind moves_lift fun _ _ => moves_pure
      · exact moves_pure

/-- Learning a weight is overlooked. -/
lemma moves_learnWeight {key : WeightKey} {value gradient : Tensor α} :
    Moves R r (learnWeight key value gradient) :=
  moves_get_bind (moves_set_bind (Overlooks.learned r) moves_lift)

/-- Learning a parameter is overlooked. -/
lemma moves_learnParam {position : Int} {operator : String} {g : String × Tensor α} :
    Moves R r (learnParam position operator g) := by
  refine moves_get_bind ?_
  split
  next => exact moves_pure
  next =>
    split
    · exact moves_pure
    · exact moves_lift_bind fun value _ => moves_bind moves_learnWeight fun _ r =>
        moves_modify (Overlooks.learned r)

/-- Learning logits is overlooked. -/
lemma moves_learnLogits {key : LogitKey} {l : Logits α} {gradient : Tensor α} :
    Moves R r (learnLogits key l gradient) := by
  refine moves_get_bind ?_
  dsimp only
  exact moves_set_bind (Overlooks.learned r) (moves_bind moves_lift fun _ _ => moves_pure)

/-- Learning the architecture is overlooked. -/
lemma moves_learnArchitecture {g : Gradients α} {penalty : Penalty α} :
    Moves R r (learnArchitecture g penalty) := by
  have each : ∀ id r, Moves R r (learnPosition g penalty id) := by
    intro id r
    refine moves_get_bind (moves_lift_bind fun p _ => ?_)
    split
    · exact moves_pure
    · dsimp only
      split
      · exact moves_lift_bind fun _ _ => moves_bind moves_learnLogits fun _ _ => moves_store
      · exact moves_bind moves_pure fun _ _ => moves_bind moves_learnLogits fun _ _ => moves_store
  refine moves_get_bind (moves_bind (moves_forM each) fun _ r => moves_get_bind ?_)
  dsimp only
  split
  · exact moves_bind moves_learnLogits fun _ r => moves_modify (Overlooks.learned r)
  · exact moves_pure

/-- Going on to another state is overlooked. -/
lemma moves_advance {source target : PositionState} : Moves R r (advance source target) := by
  refine moves_get_bind (moves_forM fun p r => ?_)
  split
  · exact moves_lift_bind fun _ _ => moves_store
  · exact moves_pure

/-- Pruning a position is overlooked. -/
lemma moves_prunePosition {id : Int} : Moves R r (prunePosition id : Relaxing α (List String)) := by
  refine moves_get_bind (moves_lift_bind fun p _ => ?_)
  split
  · exact moves_pure
  refine moves_lift_bind fun _ _ => moves_lift_bind fun _ _ => moves_lift_bind fun _ _ => ?_
  refine moves_lift_bind fun dropped _ => ?_
  split
  · exact moves_pure
  refine moves_lift_bind fun q _ => moves_bind moves_store fun _ r => ?_
  refine moves_bind (moves_modify (Overlooks.learned r)) fun _ r => ?_
  refine moves_lift_bind fun q _ => moves_bind moves_store fun _ r => ?_
  split
  · refine moves_bind moves_store fun _ _ => moves_lift_bind fun _ _ => ?_
    exact moves_bind moves_store fun _ _ => moves_pure
  · exact moves_pure

/-- Learning the weights moves as learning the readouts does. -/
lemma moves_learnWeights {g : Gradients α} (heads : ∀ exit g r, Moves R r (learnHead exit g)) :
    Moves R r (learnWeights g) :=
  moves_bind (moves_forM fun _ _ => heads _ _ _) fun _ _ =>
    moves_forM fun _ _ => moves_forM fun _ _ => moves_learnParam

/-- Pruning moves as dropping positions does. -/
lemma moves_prune
    (drops : ∀ (r : Relaxation α) (dropped : List Int) {graph params logitSteps},
      R r { r with
        graph, params, logitSteps
        heads := dropped.foldl (fun heads e => heads.erase (.int e)) r.heads }) :
    Moves R r (prune : Relaxing α (List String)) := by
  refine moves_get_bind (moves_bind (moves_mapM fun _ _ => moves_prunePosition) fun _ r => ?_)
  refine moves_bind ?_ fun _ _ => moves_pure
  refine moves_get_bind ?_
  split
  · exact moves_pure
  refine moves_lift_bind fun _ _ => moves_lift_bind fun _ _ => moves_lift_bind fun _ _ => ?_
  refine moves_lift_bind fun dropped _ => ?_
  split
  · exact moves_pure
  exact moves_lift_bind fun _ _ => moves_lift_bind fun _ _ =>
    moves_set_bind (drops r dropped) moves_pure

end Overlooks

/-! ### Sizes and readouts -/

/-- Sizes that are remembered stay, and so does the shape of every readout that is left. -/
def Kept (r r' : Relaxation α) : Prop :=
  r'.sizes = r.sizes ∧ ∀ exit h', r'.heads.get? (.int exit) = some h' →
    ∃ h, r.heads.get? (.int exit) = some h ∧ ∀ matrix', h'.matrix = some matrix' →
      ∃ matrix, h.matrix = some matrix ∧ matrix.shape = matrix'.shape

section Kept

variable {r r' r'' : Relaxation α}

/-- What has the same sizes and readouts is kept. -/
lemma kept_of_same (sizes : r'.sizes = r.sizes) (heads : r'.heads = r.heads) : Kept r r' :=
  ⟨sizes, fun _ h' found => ⟨h', heads ▸ found, fun matrix' own => ⟨matrix', own, rfl⟩⟩⟩

/-- What is kept twice is kept. -/
lemma Kept.trans (first : Kept r r') (second : Kept r' r'') : Kept r r'' := by
  refine ⟨second.1.trans first.1, fun exit h' found => ?_⟩
  obtain ⟨h, found, later⟩ := second.2 exit h' found
  obtain ⟨h₀, found, earlier⟩ := first.2 exit h found
  refine ⟨h₀, found, fun matrix' own => ?_⟩
  obtain ⟨matrix, own, shape⟩ := later matrix' own
  obtain ⟨matrix₀, own, shape₀⟩ := earlier matrix own
  exact ⟨matrix₀, own, shape₀.trans shape⟩

instance : Overlooks (Kept (α := α)) where
  trans _ _ _ := Kept.trans
  learned _ := kept_of_same rfl rfl

/-- Learning a weight keeps its shape. -/
lemma ends_learnWeight {key : WeightKey} {value gradient : Tensor α} :
    Ends (learnWeight key value gradient) r
      (fun v r' => (∃ weightSteps, r' = { r with weightSteps }) ∧ v.shape = value.shape)
      fun _ r' => ∃ weightSteps, r' = { r with weightSteps } := by
  unfold learnWeight
  rw [ends_bind, ends_get]
  dsimp only
  rw [ends_bind, ends_set]
  cases updated : (r.weightSteps.update key value gradient).1 with
  | ok v => exact ⟨⟨_, rfl⟩, KeyedOptimizer.shape_update updated⟩
  | error f => exact ⟨_, rfl⟩

/-- Learning a readout keeps sizes and the shapes of readouts. -/
lemma keeps_learnHead {exit : Int} {g : Readout α} : Moves Kept r (learnHead exit g) := by
  refine moves_get_bind ?_
  split
  next m gm o go found =>
    obtain ⟨h, here, parts⟩ := Option.map_eq_some_iff.1 found
    obtain ⟨own, -⟩ := Prod.mk.inj parts
    refine ends_bind.2 (ends_learnWeight.mono (fun matrix r' first => ?_)
      fun _ _ ⟨_, same⟩ => same ▸ kept_of_same rfl rfl)
    obtain ⟨⟨weightSteps, rfl⟩, shape⟩ := first
    refine ends_bind.2 (ends_learnWeight.mono (fun offset r'' second => ?_)
      fun _ _ ⟨_, same⟩ => same ▸ kept_of_same rfl rfl)
    obtain ⟨⟨weightSteps', rfl⟩, -⟩ := second
    refine ⟨rfl, fun other h' there => ?_⟩
    rw [Keyed.get?_insert] at there
    split at there
    next same =>
      obtain rfl : exit = other := by simpa [Data.key?] using same
      cases there
      refine ⟨h, here, fun matrix' eq => ⟨m, own, ?_⟩⟩
      cases eq
      exact m.shape_toReals.symm.trans shape.symm
    next => exact ⟨h', there, fun matrix' eq => ⟨matrix', eq, rfl⟩⟩
  next => exact moves_lift

/-- Pruning keeps the sizes and readouts of what stays. -/
lemma keeps_prune : Moves Kept r (prune : Relaxing α (List String)) := by
  refine moves_prune fun r dropped {_ _ _} => ⟨rfl, fun exit h found => ?_⟩
  -- readouts of exits that are dropped are no longer there
  refine ⟨h, ?_, fun matrix own => ⟨matrix, own, rfl⟩⟩
  have erased : ∀ (dropped : List Int) (heads : Keyed (Readout α)),
      (dropped.foldl (fun heads e => heads.erase (.int e)) heads).get? (.int exit) = some h →
        heads.get? (.int exit) = some h := by
    intro dropped
    induction dropped with
    | nil => exact fun _ found => found
    | cons e rest ih => exact fun heads found => Keyed.get?_of_erase (ih _ found)
  exact erased _ _ found

end Kept

/-! ### Turns and evaluations -/

/-- An evaluation of a mixture in a state of a relaxed search. -/
structure Evaluation (α : Type) [Scalar α] where
  state : Relaxation α
  mixture : Mixture α
  inputs : Signal α

/-- The state afterwards, whether a prediction was found or not. -/
def Evaluation.after (v : Evaluation α) : Relaxation α :=
  ((forward v.mixture v.inputs).run v.state).2

/-- What may happen to a relaxed search between two evaluations: what its run does there, pruning,
and logits of any values whatever. -/
inductive Turn (r : Relaxation α) : Relaxation α → Prop
  | batch : Turn r (batch.run r).2
  | weights (g : Gradients α) : Turn r ((learnWeights g).run r).2
  | architecture (g : Gradients α) (penalty : Penalty α) :
    Turn r ((learnArchitecture g penalty).run r).2
  | advance {source target : PositionState} : target ∈ source.following → target ≠ source →
      Turn r ((advance source target).run r).2
  | prune : Turn r (prune.run r).2
  | logits {p : Position α} {l : Logits α} : p ∈ r.graph.positions → l.IsRow p.mixing.length →
      Turn r { r with graph := r.graph.replace { p with logits := l } }
  | routes {l : Logits α} : l.IsRow r.graph.exits.length →
      Turn r { r with graph := { r.graph with routeLogits := l } }
  /-- Time goes by. -/
  | note {stop : StopSignal α} {step : Int} {temperature : Number α} {history : List (StepRecord α)}
      {stoppedEarly : Bool} : Turn r { r with stop, step, temperature, history, stoppedEarly }

/-- A relaxed search goes on by evaluations of the mixture that its logits give, and by what happens
in between. -/
inductive Course (r : Relaxation α) : List (Evaluation α) → Relaxation α → Prop
  | start : Course r [] r
  | turn {passes : List (Evaluation α)} {r' r'' : Relaxation α} : Course r passes r' → Turn r' r'' →
      Course r passes r''
  | pass {passes : List (Evaluation α)} {v : Evaluation α} : Course r passes v.state →
      v.state.mixture = .ok v.mixture → Course r (passes ++ [v]) v.after

section Turns

variable {r r' : Relaxation α}

/-- No step takes candidates from a position where nothing mixes. -/
lemma Change.candidates {s s' : Supergraph α} {params params' : Table (Int × String) (Params α)}
    (change : Change s params s' params') :
    ∀ q ∈ s'.positions, ∃ p ∈ s.positions, p.id = q.id ∧
      (p.isFrozen = true → q.candidates = p.candidates) := by
  have same : ∀ q ∈ s.positions, ∃ p ∈ s.positions, p.id = q.id ∧
      (p.isFrozen = true → q.candidates = p.candidates) := fun q hq => ⟨q, hq, rfl, fun _ => rfl⟩
  have replaced : ∀ {p q : Position α}, p ∈ s.positions → q.id = p.id →
      (p.isFrozen = true → q.candidates = p.candidates) → ∀ q' ∈ (s.replace q).positions,
        ∃ p ∈ s.positions, p.id = q'.id ∧ (p.isFrozen = true → q'.candidates = p.candidates) := by
    intro p q hp id candidates q' hq
    rcases Supergraph.mem_replace hq with rfl | ⟨there, -⟩
    · exact ⟨p, hp, id.symm, candidates⟩
    · exact same q' there
  cases change with
  | aside | routes => exact same
  | logits mem => exact replaced mem rfl fun _ => rfl
  | choose mem => exact replaced mem rfl fun _ => rfl
  | move mem moved =>
    obtain ⟨-, rfl⟩ := Position.transition_eq_ok.1 moved
    exact replaced mem rfl fun _ => rfl
  | drop mem _ less removed =>
    obtain ⟨l, -, rfl⟩ := Position.remove_eq_ok removed
    refine replaced mem rfl fun frozen => ?_
    rw [List.isEmpty_iff.1 frozen] at less
    cases less
  | exits _ removed dropped =>
    rw [← Supergraph.positions_removeExits removed]
    intro q hq
    exact ⟨q, (Supergraph.sublist_dropDead dropped).2.2.subset hq, rfl, fun _ => rfl⟩

/-- What becomes of a position between evaluations: it may lose candidates, but not where nothing
mixes. -/
def Survives (p q : Position α) : Prop :=
  p.Remains q ∧ (p.isFrozen = true → q.candidates = p.candidates)

/-- After some steps each position is what has survived of one. -/
lemma Steps.survives (steps : Steps r r') (sound : r.Sound) :
    ∀ q ∈ r'.graph.positions, ∃ p ∈ r.graph.positions, Survives p q := by
  induction steps with
  | refl => exact fun q hq => ⟨q, hq, .refl q, fun _ => rfl⟩
  | @tail r₁ r₂ before step ih =>
    intro q hq
    obtain ⟨graph, params⟩ := (Steps.sound before sound).1
    obtain ⟨q₁, hq₁, remains⟩ := (step.change.sound graph params).2.positions q hq
    obtain ⟨q₂, hq₂, same, candidates⟩ := step.change.candidates q hq
    obtain rfl := List.inj_on_of_nodup_map graph.nodup hq₂ hq₁ (same.trans remains.id)
    obtain ⟨p, hp, earlier, before⟩ := ih q₂ hq₂
    refine ⟨p, hp, earlier.trans remains, fun frozen => ?_⟩
    rw [candidates (earlier.frozen.trans frozen), before frozen]

/-- After a turn each position is what has survived of one. -/
lemma Turn.survives (turn : Turn r r') (sound : r.Sound) :
    r'.Sound ∧ ∀ q ∈ r'.graph.positions, ∃ p ∈ r.graph.positions, Survives p q := by
  have stands : Stands False r := ⟨sound.graph.nodup, False.elim, False.elim⟩
  have steps : ∀ {r'}, Steps r r' → r'.Sound ∧
      ∀ q ∈ r'.graph.positions, ∃ p ∈ r.graph.positions, Survives p q :=
    fun steps => ⟨(steps.sound sound).1, steps.survives sound⟩
  cases turn with
  | batch => exact steps (acts_batch : Acts False r Relaxation.batch).steps
  | weights => exact steps (acts_learnWeights stands).steps
  | architecture => exact steps (acts_learnArchitecture stands).steps
  | advance follows other => exact steps (acts_advance follows other stands).steps
  | prune => exact steps (Move.prune.steps sound)
  | logits mem row => exact steps ((Move.logits mem row).steps sound)
  | routes row => exact steps ((Move.routes row).steps sound)
  | note => exact ⟨⟨sound.graph, sound.params⟩, fun q hq => ⟨q, hq, .refl q, fun _ => rfl⟩⟩

/-- A turn keeps sizes and readouts. -/
lemma Turn.kept (turn : Turn r r') : Kept r r' := by
  cases turn with
  | batch => exact moves_batch.run
  | weights => exact (moves_learnWeights fun _ _ _ => keeps_learnHead).run
  | architecture => exact moves_learnArchitecture.run
  | advance => exact moves_advance.run
  | prune => exact keeps_prune.run
  | logits | routes | note => exact kept_of_same rfl rfl

/-! ### Runs -/

/-- Two courses one after the other are one. -/
lemma Course.trans {passes more : List (Evaluation α)} {r'' : Relaxation α}
    (first : Course r passes r') (second : Course r' more r'') : Course r (passes ++ more) r'' := by
  induction second with
  | start => rwa [List.append_nil]
  | turn _ turn ih => exact .turn ih turn
  | pass _ mixture ih =>
    rw [← List.append_assoc]
    exact .pass ih mixture

/-- A computation goes by a course. -/
def Goes {β : Type} (r : Relaxation α) (x : Relaxing α β) : Prop :=
  ∃ passes, Course r passes (x.run r).2

section Rules

variable {β γ : Type} {x : Relaxing α β} {f : β → Relaxing α γ}

/-- What takes a turn goes its course. -/
lemma Turn.goes (turn : Turn r (x.run r).2) : Goes r x :=
  ⟨[], .turn .start turn⟩

/-- A value goes no way. -/
lemma goes_pure {b : β} : Goes r (pure b : Relaxing α β) :=
  ⟨[], .start⟩

/-- Two steps go their course when each one does. -/
lemma goes_bind (first : Goes r x) (next : ∀ b r', Goes r' (f b)) : Goes r (x >>= f) := by
  obtain ⟨passes, first⟩ := first
  rw [Goes, run_bind]
  rcases run : x.run r with ⟨_ | b, r'⟩
  · rw [run] at first
    exact ⟨passes, first⟩
  · rw [run] at first
    obtain ⟨more, second⟩ := next b r'
    exact ⟨passes ++ more, first.trans second⟩

/-- A step that is taken on a condition only may be passed over. -/
lemma goes_when {c : Prop} [Decidable c] {x : Relaxing α Unit} {f : Unit → Relaxing α γ}
    (first : Goes r x) (next : ∀ r', Goes r' (f ())) : Goes r (if c then x >>= f else f ()) := by
  split
  · exact goes_bind first fun _ r' => next r'
  · exact next r

/-- A run that looks at the state first goes as it goes on. -/
lemma goes_get_bind {f : Relaxation α → Relaxing α γ} (next : Goes r (f r)) : Goes r (get >>= f) :=
  next

/-- A run that begins with a lifted result goes as it goes on. -/
lemma goes_lift_bind {y : Except Fault β} (next : ∀ b, y = .ok b → Goes r (f b)) :
    Goes r (lift y >>= f) := by
  cases y with
  | ok b => exact next b rfl
  | error e => exact ⟨[], .start⟩

/-- A forward pass is one pass of the course. -/
lemma goes_forward {m : Mixture α} {inputs : Signal α} (mixture : r.mixture = .ok m) :
    Goes r (forward m inputs) :=
  ⟨_, .pass (v := ⟨r, m, inputs⟩) .start mixture⟩

end Rules

/-- A step of the search goes a course. -/
lemma goes_runStep : Goes r runStep := by
  refine goes_bind Turn.batch.goes fun data r => goes_get_bind (goes_lift_bind fun m mixture => ?_)
  refine goes_bind (goes_forward mixture) fun pass r =>
    goes_get_bind (goes_lift_bind fun trained _ => ?_)
  refine goes_bind (Turn.weights trained).goes fun _ r => goes_get_bind (goes_get_bind ?_)
  refine goes_lift_bind fun m mixture => ?_
  refine goes_bind (goes_forward mixture) fun pass r =>
    goes_get_bind (goes_lift_bind fun validated _ => ?_)
  refine goes_get_bind (goes_lift_bind fun m _ => goes_lift_bind fun penalty _ => ?_)
  refine goes_bind (Turn.architecture validated penalty).goes fun _ r => ?_
  refine goes_when (Turn.advance (by decide) (by decide)).goes fun r =>
    goes_lift_bind fun warmup _ => ?_
  dsimp only
  split
  · exact goes_bind Turn.prune.goes fun pruned r => goes_get_bind goes_pure
  · exact goes_bind goes_pure fun pruned r => goes_get_bind goes_pure

/-- A run goes by a course, with two evaluations in each step. -/
lemma goes_run (r : Relaxation α) (clock : Int → α) (cancels : Int → Bool) :
    Goes r (run clock cancels) := by
  have steps : ∀ fuel (r : Relaxation α), Goes r (runSteps clock cancels fuel) := by
    intro fuel
    induction fuel with
    | zero => exact fun r => goes_pure
    | succ fuel ih =>
      intro r
      refine goes_get_bind ?_
      dsimp only
      split
      · exact goes_pure
      refine goes_lift_bind fun check _ => ?_
      split
      · exact Turn.note.goes
      refine goes_bind Turn.note.goes fun _ r => goes_lift_bind fun temperature _ => ?_
      refine goes_bind Turn.note.goes fun _ r => goes_bind goes_runStep fun record r => ?_
      refine goes_bind Turn.note.goes fun _ r => ?_
      split
      · exact goes_get_bind (goes_lift_bind fun stop _ => goes_bind Turn.note.goes fun _ r => ih r)
      · exact ih r
  refine goes_bind Turn.note.goes fun _ r => ?_
  exact goes_bind (Turn.advance (by decide) (by decide)).goes fun _ r => goes_get_bind (steps _ r)

end Turns

end Relaxation

end OperatorNet
