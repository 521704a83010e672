import Mathlib.Logic.Relation
import OperatorNet.Proofs.Runs
import OperatorNet.Proofs.Search.Decodable
import OperatorNet.Proofs.Search.Relaxation.Faults

/-!
# Steps of a relaxed search

Whatever a relaxed search does, it does in steps of seven kinds (`Change`): it learns something
beside the supergraph, it learns logits of a position or of the routes, it moves a position on, it
drops candidates or exits, or it chooses a last candidate. Every function goes by such steps,
whether it ends well or with a fault, and where nothing that was handed in tells how a search goes,
no fault does (`Acts`).
-/

namespace OperatorNet

variable {α β γ : Type}

/-! ### What always holds of positions -/

/-- What becomes of a position, whatever is done: it may lose candidates and move on. -/
structure Position.LeadsTo (p q : Position α) : Prop where
  id : q.id = p.id
  candidates : q.candidates.Sublist p.candidates
  onward : p.state.place ≤ q.state.place

/-- A position leads to itself. -/
lemma Position.LeadsTo.refl (p : Position α) : p.LeadsTo p :=
  ⟨rfl, .refl _, Nat.le_refl _⟩

/-- A position leads to itself in another state. -/
lemma Position.leadsTo_transition {p q : Position α} {state : PositionState}
    (moved : p.transition state = .ok q) : p.LeadsTo q := by
  obtain ⟨follows, rfl⟩ := Position.transition_eq_ok.1 moved
  exact ⟨rfl, .refl _, PositionState.place_le_of_mem_following follows⟩

namespace Supergraph

variable {s t : Supergraph α}

/-- What becomes of a supergraph, whatever is done: its positions follow those that were there. -/
structure LeadsTo (s t : Supergraph α) : Prop where
  ids : t.ids.Sublist s.ids
  positions : ∀ q ∈ t.positions, ∃ p ∈ s.positions, p.LeadsTo q

/-- A replacement keeps the ids. -/
lemma ids_replace {q : Position α} : (s.replace q).ids = s.ids := by
  rw [ids, replace, List.map_map]
  refine List.map_congr_left fun r _ => ?_
  rw [Function.comp_apply]
  split
  next here => exact here.symm
  next => rfl

/-- A replacement keeps the other positions. -/
lemma mem_replace_of_ne {p q : Position α} (mem : p ∈ s.positions) (other : p.id ≠ q.id) :
    p ∈ (s.replace q).positions :=
  List.mem_map.2 ⟨p, mem, if_neg other⟩

/-- After a replacement the new position is there. -/
lemma mem_replace_self {p q : Position α} (mem : p ∈ s.positions) (id : q.id = p.id) :
    q ∈ (s.replace q).positions :=
  List.mem_map.2 ⟨p, mem, if_pos id.symm⟩

/-- A network leads to what is left when positions are dropped. -/
lemma LeadsTo.of_sublist (sublist : t.positions.Sublist s.positions) : s.LeadsTo t :=
  ⟨sublist.map _, fun q hq => ⟨q, sublist.subset hq, .refl q⟩⟩

/-- A network leads to what it is when one position goes on. -/
lemma LeadsTo.replace {p q : Position α} (mem : p ∈ s.positions) (leads : p.LeadsTo q) :
    s.LeadsTo (s.replace q) := by
  refine ⟨by rw [ids_replace], fun r hr => ?_⟩
  rcases mem_replace hr with rfl | ⟨there, -⟩
  · exact ⟨p, mem, leads⟩
  · exact ⟨r, there, .refl r⟩

/-- Dropping what leads nowhere drops positions only. -/
lemma sublist_dropDead (dropped : s.dropDead = .ok t) :
    t.exits = s.exits ∧ t.routeLogits = s.routeLogits ∧ t.positions.Sublist s.positions := by
  simp only [dropDead, bind_eq_ok, pure_eq_ok] at dropped
  obtain ⟨live, -, rfl⟩ := dropped
  exact ⟨rfl, rfl, List.filter_sublist⟩

/-- Removing exits drops no position. -/
lemma positions_removeExits [Scalar α] {rs : List Ref} (removed : s.removeExits rs = .ok t) :
    t.positions = s.positions := by
  simp only [removeExits, bind_eq_ok, pure_eq_ok] at removed
  obtain ⟨-, -, logits, -, rfl⟩ := removed
  rfl

end Supergraph

/-- Removing candidates takes their logits away with them. -/
lemma Position.remove_eq_ok [Scalar α] {p q : Position α} {names : List String}
    (removed : p.remove names = .ok q) :
    ∃ l, p.logits.take ((p.mixing.zipIdx.filter fun c => !names.contains c.1.name).map Prod.snd) =
        .ok l ∧
      q = { p with
        logits := l, candidates := p.candidates.filter fun op => !names.contains op.name } := by
  simp only [remove, bind_eq_ok, pure_eq_ok] at removed
  obtain ⟨l, taken, rfl⟩ := removed
  exact ⟨l, taken, rfl⟩

namespace Relaxation

variable [Scalar α]

/-! ### Steps -/

/-- What one step makes of a supergraph and of the learned parameters. -/
inductive Change (s : Supergraph α) (params : Table (Int × String) (Params α)) :
    Supergraph α → Table (Int × String) (Params α) → Prop
  | aside {params' : Table (Int × String) (Params α)} :
      (∀ k ∈ params'.keys, k ∈ params.keys) → Change s params s params'
  | logits {p : Position α} {l : Logits α} : p ∈ s.positions →
      (∀ n, p.logits.IsRow n → l.IsRow n) →
        Change s params (s.replace { p with logits := l }) params
  | routes {l : Logits α} : (∀ n, s.routeLogits.IsRow n → l.IsRow n) →
      Change s params { s with routeLogits := l } params
  | move {p q : Position α} {state : PositionState} : p ∈ s.positions →
      p.transition state = .ok q → Change s params (s.replace q) params
  | drop {p q : Position α} {names : List String} : p ∈ s.positions → p.state ≠ .decoded →
      names.length < p.mixing.length → p.remove names = .ok q → Change s params (s.replace q)
        (params.filter fun k _ => !(k.1 = p.id && names.contains k.2))
  | choose {p : Position α} {op : Operator α} : p ∈ s.positions → p.state = .pruned →
      p.candidates = [op] →
      Change s params (s.replace { p with chosen := some (.text op.name), state := .decoded })
        params
  | exits {dropped : List Int} {t u : Supergraph α} : dropped.length < s.exits.length →
      s.removeExits (dropped.map .id) = .ok t → t.dropDead = .ok u → Change s params u
        (params.filter fun k _ => !(s.ids.filter fun id => !u.ids.contains id).contains k.1)

/-- One step of a relaxed search. What was handed to it stays. -/
structure Step (r r' : Relaxation α) : Prop where
  change : Change r.graph r.params r'.graph r'.params
  settings : r'.settings = r.settings
  stop : r.stop.Harmless → r'.stop.Harmless
  weightRate : r'.weightSteps.rate = r.weightSteps.rate
  logitRate : r'.logitSteps.rate = r.logitSteps.rate

/-- A number of steps. -/
abbrev Steps : Relaxation α → Relaxation α → Prop :=
  Relation.ReflTransGen Step

/-- No step changes the catalog. -/
lemma Change.catalog {s s' : Supergraph α} {params params' : Table (Int × String) (Params α)}
    (change : Change s params s' params') : s'.catalog = s.catalog := by
  cases change with
  | aside | logits | routes | move | drop | choose => rfl
  | exits _ removed dropped =>
    simp only [Supergraph.removeExits, bind_eq_ok, pure_eq_ok] at removed
    obtain ⟨-, -, l, -, rfl⟩ := removed
    simp only [Supergraph.dropDead, bind_eq_ok, pure_eq_ok] at dropped
    obtain ⟨live, -, rfl⟩ := dropped
    rfl

/-- A network leads to what it changes to. -/
lemma Change.leadsTo {s s' : Supergraph α} {params params' : Table (Int × String) (Params α)}
    (change : Change s params s' params') : s.LeadsTo s' := by
  cases change with
  | aside => exact .of_sublist (.refl _)
  | logits mem => exact .replace mem ⟨rfl, .refl _, Nat.le_refl _⟩
  | routes => exact .of_sublist (.refl _)
  | move mem moved => exact .replace mem (Position.leadsTo_transition moved)
  | drop mem _ _ removed =>
    obtain ⟨l, -, rfl⟩ := Position.remove_eq_ok removed
    exact .replace mem ⟨rfl, List.filter_sublist, Nat.le_refl _⟩
  | choose mem pruned =>
    refine .replace mem ⟨rfl, .refl _, ?_⟩
    rw [pruned]
    exact (by decide : PositionState.pruned.place ≤ PositionState.decoded.place)
  | exits _ removed dropped =>
    refine .of_sublist ?_
    rw [← Supergraph.positions_removeExits removed]
    exact (Supergraph.sublist_dropDead dropped).2.2

/-- The first run has begun: no position waits for it any more. -/
def Begun (r : Relaxation α) : Prop :=
  ∀ p ∈ r.graph.positions, p.state ≠ .masked

namespace Step

variable {r r' : Relaxation α}

/-- A step keeps ids different. -/
lemma distinct (step : Step r r') (distinct : r.graph.ids.Nodup) : r'.graph.ids.Nodup :=
  distinct.sublist step.change.leadsTo.ids

lemma harmless (step : Step r r') (harmless : r.Harmless) : r'.Harmless where
  positions q hq := by
    obtain ⟨p, hp, leads⟩ := step.change.leadsTo.positions q hq
    exact fun op mem => harmless.positions p hp op (leads.candidates.subset mem)
  settings := step.settings ▸ harmless.settings
  stop := step.stop harmless.stop
  weightRate := step.weightRate ▸ harmless.weightRate
  logitRate := step.logitRate ▸ harmless.logitRate

/-- A step keeps a search begun. -/
lemma begun (step : Step r r') (begun : r.Begun) : r'.Begun := by
  intro q hq masked
  obtain ⟨p, hp, leads⟩ := step.change.leadsTo.positions q hq
  have onward := leads.onward
  rw [masked] at onward
  refine begun p hp ?_
  -- no state but the first is not after it
  revert onward
  cases p.state <;> decide

end Step

/-- What every step keeps holds after any number of steps. -/
lemma Steps.keep {P : Relaxation α → Prop} {r r' : Relaxation α} (steps : Steps r r')
    (each : ∀ {r r'}, Step r r' → P r → P r') (start : P r) : P r' := by
  induction steps with
  | refl => exact start
  | tail _ step ih => exact each step ih

/-! ### Computations that go by steps -/

/-- What is known while a search goes on: ids are distinct and, where causes of faults matter, what
was handed in is harmless and the first run has begun. -/
structure Stands (calm : Prop) (r : Relaxation α) : Prop where
  distinct : r.graph.ids.Nodup
  harmless : calm → r.Harmless
  begun : calm → r.Begun

/-- What stands does so after some steps. -/
lemma Stands.after {calm : Prop} {r r' : Relaxation α} (stands : Stands calm r)
    (steps : Steps r r') : Stands calm r' where
  distinct := steps.keep Step.distinct stands.distinct
  harmless h := steps.keep Step.harmless (stands.harmless h)
  begun h := steps.keep Step.begun (stands.begun h)

/-- A computation goes by steps; where causes matter, it does not fail for one that tells how a
search goes. -/
def Acts (calm : Prop) (r : Relaxation α) (x : Relaxing α β) : Prop :=
  Ends x r (fun _ r' => Steps r r') fun f r' => Steps r r' ∧ (calm → ¬ f.cause.AboutSearch)

/-- Whatever it ends with, it has gone by steps. -/
lemma Acts.steps {calm : Prop} {r : Relaxation α} {x : Relaxing α β} (acts : Acts calm r x) :
    Steps r (x.run r).2 := by
  rcases run : x.run r with ⟨_ | _, r'⟩
  · exact (acts.of_error run).1
  · exact acts.of_ok run

section Rules

variable {calm : Prop} {r r' : Relaxation α} {x : Relaxing α β} {f : β → Relaxing α γ}

/-- A value does nothing. -/
lemma acts_pure {b : β} : Acts calm r (pure b : Relaxing α β) :=
  .refl

/-- A result that is lifted does nothing. -/
lemma acts_lift {y : Except Fault β} (quiet : calm → Unconcerned y) :
    Acts calm r (lift y : Relaxing α β) := by
  cases y with
  | ok b => exact .refl
  | error f => exact ⟨.refl, fun h => quiet h f rfl⟩

/-- What comes later may be looked at after some steps. -/
lemma Acts.after (steps : Steps r r') (acts : Acts calm r' x) :
    Ends x r' (fun _ r' => Steps r r') fun f r' => Steps r r' ∧ (calm → ¬ f.cause.AboutSearch) :=
  acts.mono (fun _ _ more => steps.trans more) fun _ _ ⟨more, quiet⟩ => ⟨steps.trans more, quiet⟩

/-- Two runs act by steps when each one does. -/
lemma acts_bind (stands : Stands calm r) (first : Acts calm r x)
    (next : ∀ b r', Stands calm r' → Acts calm r' (f b)) : Acts calm r (x >>= f) := by
  rw [Acts, ends_bind]
  exact first.mono (fun b r' steps => (next b r' (stands.after steps)).after steps) fun _ _ h => h

/-- A run that begins with a lifted result acts as it goes on. -/
lemma acts_lift_bind {y : Except Fault β} (quiet : calm → Unconcerned y)
    (next : ∀ b, y = .ok b → Acts calm r (f b)) : Acts calm r (lift y >>= f) := by
  rw [Acts, ends_bind]
  cases y with
  | ok b => exact next b rfl
  | error f => exact ⟨.refl, fun h => quiet h f rfl⟩

/-- A run that looks at the state first acts as it goes on. -/
lemma acts_get_bind {f : Relaxation α → Relaxing α γ} (next : Acts calm r (f r)) :
    Acts calm r (get >>= f) :=
  next

/-- Setting a state that a step leads to acts by it. -/
lemma acts_set (step : Step r r') : Acts calm r (set r' : Relaxing α PUnit) :=
  .single step

/-- A run that begins by setting such a state acts as it goes on. -/
lemma acts_set_bind {f : PUnit → Relaxing α γ} (step : Step r r') (next : Acts calm r' (f ⟨⟩)) :
    Acts calm r (set r' >>= f) := by
  rw [Acts, ends_bind, ends_set]
  exact next.after (.single step)

/-- A change that is a step acts by it. -/
lemma acts_modify {g : Relaxation α → Relaxation α} (step : Step r (g r)) :
    Acts calm r (modify g : Relaxing α PUnit) :=
  .single step

/-- A run that begins with such a change acts as it goes on. -/
lemma acts_modify_bind {g : Relaxation α → Relaxation α} {f : PUnit → Relaxing α γ}
    (step : Step r (g r)) (next : Acts calm (g r) (f ⟨⟩)) : Acts calm r (modify g >>= f) := by
  rw [Acts, ends_bind, ends_modify]
  exact next.after (.single step)

/-- A check in front of what is done. -/
lemma acts_check {c : Prop} [Decidable c] {y : Except Fault Unit} {f : Unit → Relaxing α γ}
    (quiet : calm → Unconcerned y) (next : Acts calm r (f ())) :
    Acts calm r (if c then lift y >>= f else f ()) := by
  split
  · exact acts_lift_bind quiet fun _ _ => next
  · exact next

/-- Something may be done before the rest. -/
lemma acts_when {c : Prop} [Decidable c] {x : Relaxing α Unit} {f : Unit → Relaxing α γ}
    (stands : Stands calm r) (first : Acts calm r x)
    (next : ∀ r', Stands calm r' → Acts calm r' (f ())) :
    Acts calm r (if c then x >>= f else f ()) := by
  split
  · exact acts_bind stands first fun _ r' stands => next r' stands
  · exact next r stands

/-- Runs for the elements of a list act by steps when each one does. -/
lemma acts_forM {f : β → Relaxing α PUnit} {xs : List β} (stands : Stands calm r)
    (each : ∀ b ∈ xs, ∀ r', Stands calm r' → Acts calm r' (f b)) : Acts calm r (xs.forM f) := by
  induction xs generalizing r with
  | nil => exact acts_pure
  | cons b rest ih =>
    rw [List.forall_mem_cons] at each
    exact acts_bind stands (each.1 r stands) fun _ r' stands => ih stands each.2

/-- Runs for the elements of a list with results act by steps when each one does. -/
lemma acts_mapM {f : β → Relaxing α γ} {xs : List β} (stands : Stands calm r)
    (each : ∀ b r', Stands calm r' → Acts calm r' (f b)) : Acts calm r (xs.mapM f) := by
  induction xs generalizing r with
  | nil => exact acts_pure
  | cons b rest ih =>
    rw [List.mapM_cons]
    refine acts_bind stands (each b r stands) fun _ r' stands => ?_
    exact acts_bind stands (ih stands) fun _ _ _ => acts_pure

/-- What changes nothing that matters is a step. -/
lemma step_same
    (same : (r'.graph, r'.params, r'.settings, r'.stop, r'.weightSteps.rate, r'.logitSteps.rate) =
      (r.graph, r.params, r.settings, r.stop, r.weightSteps.rate, r.logitSteps.rate)) :
      Step r r' := by
  simp only [Prod.mk.injEq] at same
  obtain ⟨graph, params, settings, stop, weightRate, logitRate⟩ := same
  exact ⟨graph ▸ params ▸ .aside fun _ mem => mem, settings, fun h => stop ▸ h, weightRate,
    logitRate⟩

/-- A step along weights that keeps their rate is a step. -/
lemma step_weightSteps {steps : KeyedOptimizer WeightKey α}
    (rate : steps.rate = r.weightSteps.rate) :
    Step r { r with weightSteps := steps } :=
  ⟨.aside fun _ mem => mem, rfl, fun h => h, rate, rfl⟩

/-- A step along logits that keeps their rate is a step. -/
lemma step_logitSteps {steps : KeyedOptimizer LogitKey α} (rate : steps.rate = r.logitSteps.rate) :
    Step r { r with logitSteps := steps } :=
  ⟨.aside fun _ mem => mem, rfl, fun h => h, rfl, rate⟩

lemma step_stop {stop : StopSignal α} (harmless : r.stop.Harmless → stop.Harmless) :
    Step r { r with stop } :=
  ⟨.aside fun _ mem => mem, rfl, harmless, rfl, rfl⟩

/-- New values of parameters are a step. -/
lemma step_params {params : Table (Int × String) (Params α)}
    (keys : ∀ k ∈ params.keys, k ∈ r.params.keys) : Step r { r with params } :=
  ⟨.aside keys, rfl, fun h => h, rfl, rfl⟩

/-- A change of the supergraph alone is a step. -/
lemma step_graph {s : Supergraph α} (change : Change r.graph r.params s r.params) :
    Step r { r with graph := s } :=
  ⟨change, rfl, fun h => h, rfl, rfl⟩

end Rules

end Relaxation

end OperatorNet
