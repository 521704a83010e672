import OperatorNet.Proofs.Search.Relaxation.Running

/-!
# What relaxation makes of a supergraph

A relaxed search begins with drawn logits and goes on by steps, and each of them leaves a supergraph
orderly (`Relaxation.Change.orderly`), whether the search ends well or with a fault. So all
supergraphs are orderly that come from building, relaxing and pruning
(`Supergraph.Reached.orderly`).
-/

namespace OperatorNet

variable {α β : Type} [Scalar α]

/-! ### The beginning -/

omit [Scalar α] in
/-- What is drawn comes with the state that goes on. -/
lemma Generator.next_eq_ok {γ : Type} {g : Generator α} {drawn : Except NumericFlaw (γ × Nat)}
    {x : γ × Generator α} (done : g.next drawn = .ok x) :
    ∃ state, drawn = .ok (x.1, state) := by
  cases drawn with
  | ok y => exact Except.ok.inj done ▸ ⟨y.2, rfl⟩
  | error flaw => cases done

omit [Scalar α] in
/-- As many values are drawn as are asked for. -/
lemma Generator.length_manyAround {g : Generator α} {centre spread : α} {n : Nat}
    {drawn : List α × Generator α} (done : g.manyAround centre spread n = .ok drawn) :
    drawn.1.length = n := by
  obtain ⟨state, done⟩ := next_eq_ok done
  exact g.draws.length_around done

/-- Drawn logits are as many as those in whose place they are put. -/
lemma Relaxation.isRow_drawn {scale : α} {g : Generator α} {l : Logits α}
    {new : Logits α × Generator α} (done : drawn scale g l = .ok new) {n : Nat} (row : l.IsRow n) :
    new.1.IsRow n := by
  unfold drawn at done
  split at done
  · cases done
    exact row
  · simp only [bind_eq_ok, pure_eq_ok] at done
    obtain ⟨xs, draws, rfl⟩ := done
    obtain ⟨ys, rfl, rfl⟩ := row
    exact ⟨xs.1, rfl, Generator.length_manyAround draws⟩

/-- Two supergraphs differ in their logits only, and have as many of them. -/
structure Supergraph.Redrawn (s t : Supergraph α) : Prop where
  positions : List.Forall₂
    (fun p q => ∃ l, q = { p with logits := l } ∧ ∀ n, p.logits.IsRow n → l.IsRow n)
    s.positions t.positions
  exits : t.exits = s.exits
  routes : ∀ n, s.routeLogits.IsRow n → t.routeLogits.IsRow n
  catalog : t.catalog = s.catalog

namespace Relaxation

variable {r : Relaxation α} {s : Supergraph α}

/-- Drawing gives each position a row of logits. -/
lemma forall₂_drawLogits {scale : α} {g : Generator α} {positions : List (Position α)}
    {new : List (Position α) × Generator α} (done : drawLogits scale g positions = .ok new) :
    List.Forall₂ (fun p q => ∃ l, q = { p with logits := l } ∧ ∀ n, p.logits.IsRow n → l.IsRow n)
      positions new.1 := by
  induction positions generalizing g new with
  | nil =>
    cases done
    exact .nil
  | cons p rest ih =>
    simp only [drawLogits, bind_eq_ok, pure_eq_ok] at done
    obtain ⟨first, draws, others, later, rfl⟩ := done
    exact .cons ⟨_, rfl, fun n row => isRow_drawn draws row⟩ (ih later)

/-- The initial network is redrawn from the one that was built. -/
lemma redrawn_initialGraph {scale : Number α} {g : Generator α} {new : Supergraph α × Generator α}
    (done : initialGraph s scale g = .ok new) : s.Redrawn new.1 := by
  unfold initialGraph at done
  split at done
  · simp only [bind_eq_ok, pure_eq_ok] at done
    obtain ⟨scale, -, positions, drawn, routes, draws, rfl⟩ := done
    exact ⟨forall₂_drawLogits drawn, rfl, fun n row => isRow_drawn draws row, rfl⟩
  · cases done
    exact ⟨List.forall₂_same.2 fun p _ => ⟨p.logits, rfl, fun _ row => row⟩, rfl,
      fun _ row => row, rfl⟩

/-- A relaxed search begins with the supergraph that it is given, but for the logits. -/
lemma redrawn_start {objective : Objective α} {train val : Dataset α} {budget : Budget α}
    {settings : Settings α} {draws : Draws α} {optimizer : Optimizer α} {seed : Int}
    {stop : Option (StopSignal α)}
    (started : start s objective train val budget settings draws optimizer seed stop = .ok r) :
    s.Redrawn r.graph := by
  simp only [start, bind_eq_ok, pure_eq_ok] at started
  obtain ⟨_, -, _, -, _, -, _, -, new, done, rfl⟩ := started
  exact redrawn_initialGraph done

/-! ### Steps -/

/-- A change keeps a network orderly. -/
lemma Change.orderly {s' : Supergraph α} {params params' : Table (Int × String) (Params α)}
    (change : Change s params s' params') (orderly : s.Orderly) : s'.Orderly := by
  cases change with
  | aside => exact orderly
  | @logits p l mem => exact orderly.replace (p := { p with logits := l }) (orderly.settled p mem)
  | routes => exact ⟨orderly.ascending, orderly.settled⟩
  | move mem moved => exact orderly.replace ((orderly.settled _ mem).transition moved).1
  | drop mem undecoded _ removed =>
    refine orderly.replace (Position.settled_of_chosen_eq_none ?_)
    rw [Position.chosen_of_remove removed]
    exact (orderly.settled _ mem).chosen_eq_none undecoded
  | @choose p op mem _ single =>
    refine orderly.replace fun c chosen => ⟨rfl, op, ?_, (Option.some.inj chosen).symm⟩
    exact single ▸ List.mem_singleton.2 rfl
  | exits _ removed dropped => exact (orderly.removeExits removed).dropDead dropped

/-- What goes by steps leaves the supergraph orderly, also where it ends with a fault. -/
lemma Acts.orderly {calm : Prop} {x : Relaxing α β} (acts : Acts calm r x)
    (orderly : r.graph.Orderly) : (x.run r).2.graph.Orderly :=
  acts.steps.keep (P := fun r => r.graph.Orderly) (fun step => step.change.orderly) orderly

end Relaxation

namespace Supergraph

omit [Scalar α] in
/-- Drawing logits changes nothing that matters. -/
lemma Redrawn.orderly {s t : Supergraph α} (redrawn : s.Redrawn t) (orderly : s.Orderly) :
    t.Orderly := by
  refine orderly.of_forall₂ (redrawn.positions.imp ?_)
  rintro p _ ⟨l, rfl, -⟩
  exact ⟨rfl, fun settled => settled⟩

/-- The supergraphs that come from building, relaxing and pruning. A relaxation may begin with any
of them, and what it does may also end with a fault. -/
inductive Reached : Supergraph α → Prop
  | build {c input output depth maxFanIn excluded s} :
      Supergraph.build c input output depth maxFanIn excluded = .ok s → Reached s
  | start {s objective train val budget settings draws optimizer seed stop r} : Reached s →
      Relaxation.start s objective train val budget settings draws optimizer seed stop = .ok r →
      Reached r.graph
  | run {r : Relaxation α} {clock cancels} : Reached r.graph →
      Reached ((Relaxation.run clock cancels).run r).2.graph
  | runStep {r : Relaxation α} : Reached r.graph → Reached (Relaxation.runStep.run r).2.graph
  | forward {r : Relaxation α} {m inputs} : Reached r.graph →
      Reached ((Relaxation.forward m inputs).run r).2.graph
  | prune {r : Relaxation α} : Reached r.graph → Reached (Relaxation.prune.run r).2.graph

/-- Building, relaxing and pruning give orderly supergraphs. -/
lemma Reached.orderly {s : Supergraph α} (reached : s.Reached) : s.Orderly := by
  have stands : ∀ {r : Relaxation α}, r.graph.Orderly → Relaxation.Stands False r :=
    fun orderly => ⟨orderly.nodup, False.elim, False.elim⟩
  induction reached with
  | build built => exact orderly_build built
  | start _ started orderly => exact (Relaxation.redrawn_start started).orderly orderly
  | run _ orderly => exact (Relaxation.acts_run orderly.nodup False.elim).orderly orderly
  | runStep _ orderly => exact (Relaxation.acts_runStep (stands orderly)).orderly orderly
  | forward _ orderly => exact (Relaxation.acts_forward (stands orderly)).orderly orderly
  | prune _ orderly => exact (Relaxation.acts_prune (stands orderly)).orderly orderly

end Supergraph

end OperatorNet
