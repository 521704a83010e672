import OperatorNet.Proofs.Search.Evolution
import OperatorNet.Proofs.Tables

/-!
# Soundness of relaxed searches

A relaxed search never prunes so much that its supergraph cannot be decoded any more. Each step
keeps the supergraph decodable and learned parameters to candidates, and what was there remains
(`Relaxation.Change.sound`).
-/

namespace OperatorNet

variable {α β : Type}

/-! ### What is left -/

/-- A longer list without repetitions has an element that a shorter one lacks. -/
lemma exists_notMem_of_length_lt {xs ys : List β} (distinct : xs.Nodup)
    (less : ys.length < xs.length) :
    ∃ x ∈ xs, x ∉ ys := by
  by_contra all
  push Not at all
  exact absurd (distinct.length_le_of_subset all) (Nat.not_le_of_lt less)

/-- What passes is the same with and without its index. -/
lemma map_fst_filter_zipIdx {xs : List β} {f : β → Bool} :
    (xs.zipIdx.filter fun c => f c.1).map Prod.fst = xs.filter f := by
  rw [← List.zipIdx_map_fst 0 xs, List.filter_map, List.zipIdx_map_fst]
  rfl

namespace Logits

variable {l l' : Logits α} {n m : Nat}

/-- A row has one length. -/
lemma IsRow.length_eq (row : l.IsRow n) (other : l.IsRow m) : m = n := by
  obtain ⟨xs, rfl, rfl⟩ := row
  obtain ⟨ys, same, rfl⟩ := other
  cases same
  rfl

/-- The logits of what is kept are a row with one logit for each. -/
lemma IsRow.take [Scalar α] (row : l.IsRow n) {xs : List β} {f : β → Bool}
    (taken : l.take ((xs.zipIdx.filter fun c => f c.1).map Prod.snd) = .ok l') :
    l'.IsRow (xs.filter f).length := by
  obtain ⟨entries, rfl, rfl⟩ := row
  unfold Logits.take at taken
  dsimp only at taken
  rw [map_eq_pure_bind, bind_eq_ok] at taken
  obtain ⟨ys, each, same⟩ := taken
  rw [mapM_eq_ok] at each
  cases same
  refine ⟨ys, rfl, ?_⟩
  rw [← each.length_eq, List.length_map, ← map_fst_filter_zipIdx (f := f), List.length_map]

end Logits

namespace Position

variable {p q : Position α}

/-- As long as some candidate that mixes is kept, a position stays what it is. -/
lemma Intact.remove [Scalar α] (intact : p.Intact) (undecoded : p.state ≠ .decoded)
    {names : List String} (less : names.length < p.mixing.length)
    (removed : p.remove names = .ok q) :
    q.Intact ∧ p.Remains q := by
  obtain ⟨l, taken, rfl⟩ := remove_eq_ok removed
  have unchosen : p.chosen = none := intact.settled.chosen_eq_none undecoded
  have distinct : (p.mixing.map (·.name)).Nodup :=
    intact.distinct.sublist (List.filter_sublist.map _)
  -- some candidate that mixes is left, as not all of their names are dropped
  obtain ⟨name, mixing, kept⟩ := exists_notMem_of_length_lt distinct
    (by rwa [List.length_map] : names.length < (p.mixing.map (·.name)).length)
  obtain ⟨op, mem, rfl⟩ := List.mem_map.1 mixing
  obtain ⟨candidate, mixes⟩ := List.mem_filter.1 mem
  have left : op ∈ p.candidates.filter fun op => !names.contains op.name :=
    List.mem_filter.2 ⟨candidate, by simpa using kept⟩
  refine ⟨⟨List.ne_nil_of_mem left, intact.distinct.sublist (List.filter_sublist.map _), ?_,
    settled_of_chosen_eq_none unchosen⟩,
    ⟨rfl, rfl, rfl, rfl, List.filter_sublist, ?_, Nat.le_refl _, fun _ h => h⟩⟩
  · rw [Position.mixing, List.filter_comm]
    exact intact.aligned.take (f := fun op : Operator α => !names.contains op.name) taken
  · have frozen : ∀ {r : Position α}, op ∈ r.mixing → r.isFrozen = false := fun mem =>
      List.isEmpty_eq_false_iff.2 (List.ne_nil_of_mem mem)
    rw [frozen mem, frozen (List.mem_filter.2 ⟨left, mixes⟩)]

/-- Where only logits differ, and are as many, a position stays what it is. -/
lemma Intact.redraw (intact : p.Intact) {l : Logits α} (row : ∀ n, p.logits.IsRow n → l.IsRow n) :
    Position.Intact { p with logits := l } ∧ p.Remains { p with logits := l } :=
  ⟨⟨intact.stocked, intact.distinct, row _ intact.aligned, intact.settled⟩,
    ⟨rfl, rfl, rfl, rfl, .refl _, rfl, Nat.le_refl _, fun _ h => h⟩⟩

/-- A position that goes on to another state stays intact. -/
lemma Intact.transition (intact : p.Intact) {state : PositionState}
    (moved : p.transition state = .ok q) : q.Intact ∧ p.Remains q := by
  have settled := (intact.settled.transition moved).1
  have onward := (leadsTo_transition moved).onward
  obtain ⟨-, rfl⟩ := transition_eq_ok.1 moved
  exact ⟨⟨intact.stocked, intact.distinct, intact.aligned, settled⟩,
    ⟨rfl, rfl, rfl, rfl, .refl _, rfl, onward, fun _ h => h⟩⟩

/-- A position that is left with one candidate stays intact when it is chosen. -/
lemma Intact.choose (intact : p.Intact) (pruned : p.state = .pruned) {op : Operator α}
    (single : p.candidates = [op]) :
    Position.Intact { p with chosen := some (.text op.name), state := .decoded } ∧
      p.Remains { p with chosen := some (.text op.name), state := .decoded } := by
  have unchosen : p.chosen = none := intact.settled.chosen_eq_none (by rw [pruned]; decide)
  refine ⟨⟨intact.stocked, intact.distinct, intact.aligned, fun c chosen => ?_⟩,
    ⟨rfl, rfl, rfl, rfl, .refl _, rfl, ?_, fun c chosen => ?_⟩⟩
  · exact ⟨rfl, op, single ▸ List.mem_singleton.2 rfl, (Option.some.inj chosen).symm⟩
  · rw [pruned]
    exact (by decide : PositionState.pruned.place ≤ PositionState.decoded.place)
  · rw [unchosen] at chosen
    cases chosen

end Position

/-! ### Exits -/

namespace Supergraph

variable [Scalar α] {s t : Supergraph α}

/-- As long as some exit is kept, a supergraph stays rooted. -/
lemma Rooted.removeExits (rooted : s.Rooted) {dropped : List Int}
    (less : dropped.length < s.exits.length) (removed : s.removeExits (dropped.map .id) = .ok t) :
    t.Rooted ∧ t.exits.Sublist s.exits ∧ t.positions = s.positions := by
  have ids : (dropped.map Ref.id).filterMap Ref.id? = dropped := by
    rw [List.filterMap_map]
    exact List.filterMap_some
  simp only [Supergraph.removeExits, bind_eq_ok, pure_eq_ok, ids] at removed
  obtain ⟨-, -, l, taken, rfl⟩ := removed
  rw [map_fst_filter_zipIdx (f := fun e => !dropped.contains e)]
  have sublist : (s.exits.filter fun e => !dropped.contains e).Sublist s.exits :=
    List.filter_sublist
  obtain ⟨e, exit, kept⟩ := exists_notMem_of_length_lt rooted.distinct less
  have left : e ∈ s.exits.filter fun e => !dropped.contains e :=
    List.mem_filter.2 ⟨exit, by simpa using kept⟩
  refine ⟨⟨rooted.ascending, ⟨rooted.closed.nonneg, rooted.closed.earlier⟩, List.ne_nil_of_mem left,
    rooted.distinct.sublist sublist, fun e he => rooted.placed e (sublist.subset he), ?_⟩,
    sublist, rfl⟩
  exact rooted.routes.take (f := fun e => !dropped.contains e) taken

omit [Scalar α] in
/-- Drawn logits leave a supergraph decodable. -/
lemma Decodable.redrawn (decodable : s.Decodable) (redrawn : s.Redrawn t) :
    t.Decodable ∧ s.Remains t := by
  have same : SamePlaces s t := redrawn.positions.imp fun p q ⟨l, eq, _⟩ => eq ▸ ⟨rfl, rfl⟩
  have each : ∀ q ∈ t.positions, ∃ p ∈ s.positions, q.Intact ∧ p.Remains q := by
    intro q hq
    obtain ⟨p, hp, l, rfl, row⟩ := exists_of_mem_forall₂ redrawn.positions hq
    exact ⟨p, hp, (decodable.intact p hp).redraw row⟩
  refine ⟨decodable.of_samePlaces same redrawn.exits (redrawn.routes _ decodable.routes)
    fun q hq => ?_, redrawn.exits ▸ .refl _, fun q hq => ?_⟩
  · obtain ⟨-, -, intact, -⟩ := each q hq
    exact intact
  · obtain ⟨p, hp, -, remains⟩ := each q hq
    exact ⟨p, hp, remains⟩

end Supergraph

/-! ### Parameters -/

/-- Parameters belong to candidates of positions that are there. -/
def Supergraph.Owns (s : Supergraph α) (params : Table (Int × String) (Params α)) : Prop :=
  ∀ k ∈ params.keys, ∃ p ∈ s.positions, p.id = k.1 ∧ ∃ op ∈ p.candidates, op.name = k.2

namespace Supergraph.Owns

variable {s t : Supergraph α} {p q : Position α} {params params' : Table (Int × String) (Params α)}

/-- A position may be replaced, as long as it keeps the candidates that have parameters. -/
lemma replace (owns : s.Owns params) (distinct : s.ids.Nodup) (mem : p ∈ s.positions)
    (id : q.id = p.id) (fewer : ∀ k ∈ params'.keys, k ∈ params.keys)
    (each : ∀ op ∈ p.candidates, (p.id, op.name) ∈ params'.keys → op ∈ q.candidates) :
    (s.replace q).Owns params' := by
  rintro ⟨own, name⟩ hk
  obtain ⟨r, hr, rfl, op, candidate, rfl⟩ := owns _ (fewer _ hk)
  by_cases here : r.id = p.id
  · obtain rfl := List.inj_on_of_nodup_map distinct hr mem here
    exact ⟨q, mem_replace_self mem id, id, op, each op candidate hk, rfl⟩
  · exact ⟨r, mem_replace_of_ne hr (id ▸ here), rfl, op, candidate, rfl⟩

/-- A position that has its candidates may take the place of another one. -/
lemma same (owns : s.Owns params) (distinct : s.ids.Nodup) (mem : p ∈ s.positions)
    (id : q.id = p.id) (candidates : q.candidates = p.candidates) : (s.replace q).Owns params :=
  owns.replace distinct mem id (fun _ hk => hk) fun _ candidate _ => candidates.symm ▸ candidate

/-- A position may lose candidates together with their parameters. -/
lemma drop (owns : s.Owns params) (distinct : s.ids.Nodup) (mem : p ∈ s.positions)
    {names : List String} (id : q.id = p.id)
    (candidates : q.candidates = p.candidates.filter fun op => !names.contains op.name) :
    (s.replace q).Owns (params.filter fun k _ => !(k.1 = p.id && names.contains k.2)) := by
  refine owns.replace distinct mem id (fun k hk => (Table.mem_keys_filter hk).1)
    fun op candidate hk => ?_
  rw [candidates]
  exact List.mem_filter.2 ⟨candidate, by simpa using (Table.mem_keys_filter hk).2⟩

/-- Positions may go together with their parameters. -/
lemma sublist (owns : s.Owns params) (distinct : s.ids.Nodup)
    (sublist : t.positions.Sublist s.positions) :
    t.Owns
      (params.filter fun k _ => !(s.ids.filter fun id => !t.ids.contains id).contains k.1) := by
  rintro ⟨own, name⟩ hk
  obtain ⟨there, kept⟩ := Table.mem_keys_filter hk
  obtain ⟨p, hp, rfl, candidate⟩ := owns _ there
  -- the position of a key that is kept is not one of those that are gone
  have left : p.id ∈ t.ids := by
    have known : p.id ∈ s.ids := List.mem_map_of_mem hp
    by_contra gone
    simp [known, gone] at kept
  obtain ⟨q, hq, same⟩ := List.mem_map.1 left
  obtain rfl := List.inj_on_of_nodup_map distinct (sublist.subset hq) hp same
  exact ⟨q, hq, rfl, candidate⟩

/-- Redrawing a network keeps its parameters its own. -/
lemma redrawn (owns : s.Owns params) (redrawn : s.Redrawn t) : t.Owns params := by
  intro k hk
  obtain ⟨p, hp, own, candidate⟩ := owns k hk
  obtain ⟨q, hq, l, rfl, -⟩ := exists_of_mem_forall₂ redrawn.positions.flip hp
  exact ⟨_, hq, own, candidate⟩

end Supergraph.Owns

/-- A network owns its trainable parameters. -/
lemma Supergraph.owns_trainableParams [Scalar α] {s : Supergraph α} :
    s.Owns (Relaxation.trainableParams s) := by
  intro k hk
  rcases Table.mem_keys_insertAll.1 hk with none | listed
  · exact absurd none List.not_mem_nil
  obtain ⟨⟨k', v⟩, entry, rfl⟩ := List.mem_map.1 listed
  obtain ⟨p, hp, own⟩ := List.mem_flatMap.1 entry
  obtain ⟨op, candidate, trains⟩ := List.mem_filterMap.1 own
  split at trains
  · cases trains
  · cases trains
    exact ⟨p, hp, rfl, op, candidate, rfl⟩

namespace Relaxation

variable [Scalar α] {r r' : Relaxation α}

/-- A relaxed search is sound: its supergraph can be decoded, and parameters belong to
candidates. -/
structure Sound (r : Relaxation α) : Prop where
  graph : r.graph.Decodable
  params : r.graph.Owns r.params

/-- What one step changes stays sound, and what was there remains. -/
lemma Change.sound {s s' : Supergraph α} {params params' : Table (Int × String) (Params α)}
    (change : Change s params s' params') (decodable : s.Decodable) (owns : s.Owns params) :
    (s'.Decodable ∧ s'.Owns params') ∧ s.Remains s' := by
  have distinct := decodable.nodup
  cases change with
  | aside keys => exact ⟨⟨decodable, fun k hk => owns k (keys k hk)⟩, .refl s⟩
  | logits mem row =>
    obtain ⟨intact, remains⟩ := (decodable.intact _ mem).redraw row
    exact ⟨⟨decodable.replace mem rfl rfl intact, owns.same distinct mem rfl rfl⟩,
      .replace mem remains⟩
  | routes row =>
    refine ⟨⟨?_, owns⟩, .refl _, fun p hp => ⟨p, hp, .refl p⟩⟩
    exact decodable.of_samePlaces (List.forall₂_same.2 fun _ _ => ⟨rfl, rfl⟩) rfl
      (row _ decodable.routes) decodable.intact
  | move mem moved =>
    obtain ⟨intact, remains⟩ := (decodable.intact _ mem).transition moved
    refine ⟨⟨decodable.replace mem remains.id remains.inputs intact,
      owns.same distinct mem remains.id ?_⟩, .replace mem remains⟩
    rw [(Position.transition_eq_ok.1 moved).2]
  | drop mem undecoded less removed =>
    obtain ⟨intact, remains⟩ := (decodable.intact _ mem).remove undecoded less removed
    refine ⟨⟨decodable.replace mem remains.id remains.inputs intact,
      owns.drop distinct mem remains.id ?_⟩, .replace mem remains⟩
    obtain ⟨l, -, rfl⟩ := Position.remove_eq_ok removed
    rfl
  | choose mem pruned single =>
    obtain ⟨intact, remains⟩ := (decodable.intact _ mem).choose pruned single
    exact ⟨⟨decodable.replace mem rfl rfl intact, owns.same distinct mem rfl rfl⟩,
      .replace mem remains⟩
  | exits less removed dropped =>
    obtain ⟨rooted, fewer, same⟩ := decodable.toRooted.removeExits less removed
    obtain ⟨rooted, exits, -, sublist, reached⟩ := rooted.dropDead dropped
    rw [same] at sublist
    refine ⟨⟨⟨rooted, reached, fun q hq => decodable.intact q (sublist.subset hq)⟩,
      owns.sublist distinct sublist⟩, exits ▸ fewer, fun q hq => ⟨q, sublist.subset hq, .refl q⟩⟩

/-- Steps keep a search sound, and its network remains of the one before. -/
lemma Steps.sound (steps : Steps r r') (sound : r.Sound) : r'.Sound ∧ r.graph.Remains r'.graph := by
  induction steps with
  | refl => exact ⟨sound, .refl _⟩
  | tail _ step ih =>
    obtain ⟨⟨graph, params⟩, remains⟩ := ih
    obtain ⟨⟨graph, params⟩, next⟩ := step.change.sound graph params
    exact ⟨⟨graph, params⟩, remains.trans next⟩

section Start

variable {s : Supergraph α} {objective : Objective α} {train val : Dataset α} {budget : Budget α}
  {settings : Settings α} {draws : Draws α} {optimizer : Optimizer α} {seed : Int}
  {stop : Option (StopSignal α)}

/-- A relaxed search of a decodable supergraph begins sound. -/
lemma sound_start (decodable : s.Decodable)
    (started : start s objective train val budget settings draws optimizer seed stop = .ok r) :
    r.Sound ∧ s.Remains r.graph := by
  have redrawn := redrawn_start started
  obtain ⟨graph, remains⟩ := decodable.redrawn redrawn
  refine ⟨⟨graph, ?_⟩, remains⟩
  simp only [start, bind_eq_ok, pure_eq_ok] at started
  obtain ⟨_, -, _, -, _, -, _, -, drawn, -, rfl⟩ := started
  exact Supergraph.owns_trainableParams.redrawn redrawn

/-- A relaxed search is harmless when what is handed to it is. -/
lemma harmless_start (positions : ∀ p ∈ s.positions, p.Harmless) (harmless : settings.Harmless)
    (stops : ∀ signal, stop = some signal → signal.Harmless)
    (started : start s objective train val budget settings draws optimizer seed stop = .ok r) :
    r.Harmless := by
  have redrawn := redrawn_start started
  simp only [start, bind_eq_ok, pure_eq_ok] at started
  obtain ⟨_, -, _, -, _, -, _, -, drawn, -, rfl⟩ := started
  refine ⟨fun q hq => ?_, harmless, ?_, harmless.weightRate, harmless.logitRate⟩
  · obtain ⟨p, hp, l, rfl, -⟩ := exists_of_mem_forall₂ redrawn.positions hq
    exact positions p hp
  · cases stop with
    | none =>
      exact ⟨fun _ same => absurd same (Option.some_ne_none _).symm, harmless.maxSeconds,
        unconcerned_ok⟩
    | some signal => exact stops signal rfl

end Start

/-- What may happen to a relaxed search: a run, whole or up to any of its steps, pruning, and
learning that gives logits any values whatever. -/
inductive Move : Relaxation α → Relaxation α → Prop
  | run {r : Relaxation α} (clock : Int → α) (cancels : Int → Bool) :
      Move r ((run clock cancels).run r).2
  | runFor {r : Relaxation α} (clock : Int → α) (cancels : Int → Bool) (steps : Nat) :
      Move r ((runFor clock cancels steps).run r).2
  | prune {r : Relaxation α} : Move r (prune.run r).2
  | logits {r : Relaxation α} {p : Position α} {l : Logits α} : p ∈ r.graph.positions →
      l.IsRow p.mixing.length → Move r { r with graph := r.graph.replace { p with logits := l } }
  | routes {r : Relaxation α} {l : Logits α} : l.IsRow r.graph.exits.length →
      Move r { r with graph := { r.graph with routeLogits := l } }

/-- A move acts by steps. -/
lemma Move.steps (move : Move r r') (sound : r.Sound) : Steps r r' := by
  have distinct := sound.graph.nodup
  cases move with
  | run => exact (acts_run distinct False.elim).steps
  | runFor => exact (acts_runFor distinct False.elim).steps
  | prune => exact (acts_prune ⟨distinct, False.elim, False.elim⟩).steps
  | logits mem row =>
    refine .single (step_graph (.logits mem fun n aligned => ?_))
    rwa [(sound.graph.intact _ mem).aligned.length_eq aligned]
  | routes row =>
    refine .single (step_graph (.routes fun n aligned => ?_))
    rwa [sound.graph.routes.length_eq aligned]

/-- Moves act by steps. -/
lemma steps_of_moves (moves : Relation.ReflTransGen Move r r') (sound : r.Sound) : Steps r r' := by
  induction moves with
  | refl => exact .refl
  | tail _ move ih => exact ih.trans (move.steps (ih.sound sound).1)

section Build

variable {c : Catalog α} {excluded : Exclusion α} {maxFanIn : Number α} {input output : PortType}
  {depth : StageBound} {s : Supergraph α} {objective : Objective α} {train val : Dataset α}
  {budget : Budget α} {settings : Settings α} {draws : Draws α} {optimizer : Optimizer α}
  {seed : Int} {stop : Option (StopSignal α)}
  {r₀ : Relaxation α}

/-- However a relaxed search goes, its supergraph stays one that can be decoded: it remains of the
one that was built, with candidates in catalog order, and whatever happens next, it remains of what
it is. No position is ever asked to go on to a state that cannot follow its own. -/
theorem sound_of_moves
    (built : Supergraph.build c input output depth maxFanIn excluded = .ok s)
    (started : start s objective train val budget settings draws optimizer seed stop = .ok r₀)
    (moves : Relation.ReflTransGen Move r₀ r) :
    r.Sound ∧ s.Remains r.graph ∧
      (∀ q ∈ r.graph.positions, ∃ ops, ops.Sublist c.operators ∧
        q.candidates.Sublist (c.inOrder ops) ∧
        (Scalar.Sortable α → (∀ op ∈ c.registered, op.Ranked c.sortMetric) →
          q.candidates.Sublist c.operators)) ∧
      (∀ r', Relation.ReflTransGen Move r r' → r.graph.Remains r'.graph) ∧
      (r₀.Harmless → ∀ clock cancels f r', (run clock cancels).run r = (.error f, r') →
        ∀ node source target, f.cause ≠ .transition node source target) := by
  obtain ⟨decodable, candidates⟩ := Supergraph.decodable_build built
  obtain ⟨begins, first⟩ := sound_start decodable started
  have steps := steps_of_moves moves begins
  obtain ⟨sound, later⟩ := steps.sound begins
  have remains := first.trans later
  refine ⟨sound, remains, fun q hq => ?_, fun r' next => ?_, ?_⟩
  · obtain ⟨p, hp, kept⟩ := remains.positions q hq
    obtain ⟨ops, sublist, eq⟩ := candidates p hp
    have ordered : q.candidates.Sublist (c.inOrder ops) := eq ▸ kept.candidates
    refine ⟨ops, sublist, ordered, fun _ ranked => ordered.trans ?_⟩
    rwa [Catalog.inOrder_of_sublist ranked sublist]
  · exact ((steps_of_moves next sound).sound sound).2
  · intro harmless clock cancels f r' failed node source target cause
    have calm : True → r.Harmless := fun _ => steps.keep Step.harmless harmless
    have ends : Acts True r (run clock cancels) := acts_run sound.graph.nodup calm
    exact (ends.of_error failed).2 trivial (.inr ⟨node, source, target, cause⟩)

end Build

end Relaxation

/-! ### Too high a threshold -/

namespace Decoder.Sample

/-- Settings by which weights of a half are too light. -/
def strict : Settings ℚ :=
  { settings with pruneThreshold := 3 / 5 }

/-- One example, of nothing. -/
def blank : Dataset ℚ :=
  ⟨.reals (.full [1, 1] 0), .reals (.full [1, 1] 0)⟩

/-- No limits. -/
def unlimited : Budget ℚ :=
  ⟨.empty, fun _ mem => absurd mem List.not_mem_nil⟩

/-- All that operators of the sample fail with is a wrong form. -/
lemma harmless_graph : ∀ p ∈ graph.positions, p.Harmless := by
  have harmless : ∀ name width cost flops, (feature name width cost flops).Harmless :=
    fun name width cost flops => ⟨fun _ _ => by simp [Operator.evaluate, feature, idle],
      fun _ _ _ _ => by simp [Operator.pullback, feature, idle],
      fun _ => by simp [Operator.lipschitz, feature, idle]⟩
  intro p hp op mem
  simp only [graph, List.mem_cons, List.not_mem_nil, or_false] at hp
  rcases hp with rfl | rfl
  · simp only [wide, List.mem_cons, List.not_mem_nil, or_false] at mem
    rcases mem with rfl | rfl <;> exact harmless ..
  · rw [List.mem_singleton.1 mem]
    exact harmless ..

end Decoder.Sample

open Decoder.Sample in
/-- Where all candidates and all exits are too light, one exit with one candidate is left. -/
theorem Relaxation.sound_of_moves_strict :
    Supergraph.build catalog (typeOf "path" (.ofNat 3)) (typeOf "feature" (.symbol "K")) (.whole 1)
        (.whole 3) (fun _ => .ok false) = .ok Decoder.Sample.graph ∧
      ∃ r₀ r, start Decoder.Sample.graph .regression blank blank unlimited strict .congruential
        .adam 0 none = .ok r₀ ∧
        Relation.ReflTransGen Move r₀ r ∧
        (r.graph.exits = [0] ∧
          r.graph.positions.map (fun p => (p.state, p.candidates.map (·.name))) =
          [(.decoded, ["b"])]) ∧
        r₀.Harmless ∧ r.Sound ∧ Decoder.Sample.graph.Remains r.graph ∧
        (∀ q ∈ r.graph.positions, q.candidates.Sublist catalog.operators) ∧
        ∀ clock cancels f r', (run clock cancels).run r = (.error f, r') →
          ∀ node source target, f.cause ≠ .transition node source target := by
  -- one evaluation for the whole course; the start is kept abstract from here on
  have shown : ∃ r₀,
      (start Decoder.Sample.graph .regression blank blank unlimited strict .congruential .adam 0
        none).toOption = some r₀ ∧
      decide ((prune.run ((runFor (fun _ => 0) (fun _ => false) 0).run r₀).2).2.graph.exits = [0] ∧
        (prune.run ((runFor (fun _ => 0) (fun _ => false) 0).run r₀).2).2.graph.positions.map
          (fun p => (p.state, p.candidates.map (·.name))) = [(.decoded, ["b"])]) := by
    rw [← Option.any_eq_true]
    decide +kernel
  obtain ⟨r₀, started, shown⟩ := shown
  have started := toOption_eq_some.1 started
  obtain ⟨r, moves, left⟩ : ∃ r, Relation.ReflTransGen Move r₀ r ∧
      (r.graph.exits = [0] ∧ r.graph.positions.map (fun p => (p.state, p.candidates.map (·.name))) =
        [(.decoded, ["b"])]) :=
    ⟨_, (Relation.ReflTransGen.single (.runFor (fun _ => 0) (fun _ => false) 0)).tail .prune,
      of_decide_eq_true shown⟩
  have harmless : r₀.Harmless := by
    refine harmless_start harmless_graph ?_ ?_ started
    · exact ⟨unconcerned_ok, unconcerned_ok, unconcerned_ok, unconcerned_ok, unconcerned_ok,
        fun _ same => absurd same nofun⟩
    · exact fun _ same => absurd same nofun
  obtain ⟨sound, remains, ordered, -, calm⟩ := sound_of_moves build_graph started moves
  refine ⟨build_graph, r₀, r, started, moves, left, harmless, sound, remains, fun q hq => ?_,
    calm harmless⟩
  obtain ⟨-, -, -, sublist⟩ := ordered q hq
  exact sublist (Scalar.sortable_ofField elementary) fun op _ =>
    le_refl (op.costOf catalog.sortMetric)

end OperatorNet
