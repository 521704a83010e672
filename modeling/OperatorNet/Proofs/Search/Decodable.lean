import OperatorNet.Proofs.Search.Enumeration

/-!
# Decodable supergraphs

A supergraph can be decoded as long as it has exits, all of its positions are needed by one of them,
every position has what it reads, and there is a candidate for every position
(`Supergraph.Decodable`). Supergraphs are built in this way (`Supergraph.decodable_build`).
Positions may change in place as long as they stay intact, and exits may be given up together with
what only they needed (`Supergraph.Rooted.dropDead`). What remains of a supergraph is told by
`Supergraph.Remains`.
-/

namespace OperatorNet

/-- The place of a state in the life of a position. -/
def PositionState.place : PositionState → Nat
  | masked => 0
  | mixing => 1
  | annealed => 2
  | pruned => 3
  | decoded => 4

/-- A position goes on to no earlier state. -/
lemma PositionState.place_le_of_mem_following {a b : PositionState} (follows : b ∈ a.following) :
    a.place ≤ b.place := by
  revert follows
  cases a <;> cases b <;> decide

variable {α : Type}

/-- Logits are a row of a given length. -/
def Logits.IsRow (n : Nat) (l : Logits α) : Prop :=
  ∃ xs, l = .row xs ∧ xs.length = n

/-- Zero logits have one value for each alternative. -/
lemma Logits.isRow_zeros [Scalar α] {β : Type} (alternatives : List β) :
    (Logits.zeros alternatives : Logits α).IsRow alternatives.length :=
  ⟨_, rfl, List.length_map _⟩

/-! ### Positions -/

/-- A position has candidates with different names, as many logits as candidates that mix, and
nothing but a candidate is chosen for it. -/
structure Position.Intact (p : Position α) : Prop where
  stocked : p.candidates ≠ []
  distinct : (p.candidates.map (·.name)).Nodup
  aligned : p.logits.IsRow p.mixing.length
  settled : p.Settled

/-- What becomes of a position: it may lose candidates and move on to later states, but whether it
is frozen and what was once chosen for it does not change. -/
structure Position.Remains (p q : Position α) : Prop where
  id : q.id = p.id
  stage : q.stage = p.stage
  inputs : q.inputs = p.inputs
  outType : q.outType = p.outType
  candidates : q.candidates.Sublist p.candidates
  frozen : q.isFrozen = p.isFrozen
  onward : p.state.place ≤ q.state.place
  chosen : ∀ c, p.chosen = some c → q.chosen = some c

namespace Position.Remains

variable {p q r : Position α}

protected lemma refl (p : Position α) : p.Remains p :=
  ⟨rfl, rfl, rfl, rfl, .refl _, rfl, Nat.le_refl _, fun _ h => h⟩

lemma trans (first : p.Remains q) (second : q.Remains r) : p.Remains r where
  id := second.id.trans first.id
  stage := second.stage.trans first.stage
  inputs := second.inputs.trans first.inputs
  outType := second.outType.trans first.outType
  candidates := second.candidates.trans first.candidates
  frozen := second.frozen.trans first.frozen
  onward := Nat.le_trans first.onward second.onward
  chosen c h := second.chosen c (first.chosen c h)

end Position.Remains

namespace Supergraph

variable {s t u : Supergraph α} {p q : Position α}

/-- What becomes of a supergraph: it may lose exits and positions. -/
structure Remains (s t : Supergraph α) : Prop where
  exits : t.exits.Sublist s.exits
  positions : ∀ q ∈ t.positions, ∃ p ∈ s.positions, p.Remains q

namespace Remains

protected lemma refl (s : Supergraph α) : s.Remains s :=
  ⟨.refl _, fun p hp => ⟨p, hp, .refl p⟩⟩

lemma trans (first : s.Remains t) (second : t.Remains u) : s.Remains u where
  exits := second.exits.trans first.exits
  positions r hr := by
    obtain ⟨q, hq, later⟩ := second.positions r hr
    obtain ⟨p, hp, earlier⟩ := first.positions q hq
    exact ⟨p, hp, earlier.trans later⟩

end Remains

/-- A supergraph has exits, each once and with a logit, and its positions are in ascending order and
have what they read before them. -/
structure Rooted (s : Supergraph α) : Prop where
  ascending : s.ids.Pairwise (· < ·)
  closed : s.Closed
  answered : s.exits ≠ []
  distinct : s.exits.Nodup
  placed : ∀ e ∈ s.exits, e ∈ s.ids
  routes : s.routeLogits.IsRow s.exits.length

/-- Every position is intact and needed for an exit. -/
structure Decodable (s : Supergraph α) : Prop extends Rooted s where
  reached : ∀ p ∈ s.positions, ∃ e ∈ s.exits, Relation.ReflTransGen s.Reads e p.id
  intact : ∀ p ∈ s.positions, p.Intact

/-- The ids of a rooted network are different. -/
lemma Rooted.nodup (rooted : s.Rooted) : s.ids.Nodup :=
  rooted.ascending.imp fun less => Int.ne_of_lt less

/-- A decodable network is orderly. -/
lemma Decodable.orderly (decodable : s.Decodable) : s.Orderly :=
  ⟨decodable.ascending, fun p hp => (decodable.intact p hp).settled⟩

/-! ### Changes in place -/

/-- Positions have the same ids and read the same. -/
abbrev SamePlaces (s t : Supergraph α) : Prop :=
  List.Forall₂ (fun p q => q.id = p.id ∧ q.inputs = p.inputs) s.positions t.positions

/-- Networks with the same places have the same ids. -/
lemma SamePlaces.ids (same : SamePlaces s t) : t.ids = s.ids := by
  have each : List.Forall₂ (· = ·) s.ids t.ids := by
    rw [Supergraph.ids, Supergraph.ids, List.forall₂_map_left_iff, List.forall₂_map_right_iff]
    exact same.imp fun _ _ both => both.1.symm
  rw [List.forall₂_eq_eq_eq] at each
  exact each.symm

/-- Networks with the same places have the same positions upstream. -/
lemma SamePlaces.upstream (same : SamePlaces s t) {a b : Int} (reads : Upstream s.positions a b) :
    Upstream t.positions a b := by
  obtain ⟨p, hp, rfl, read⟩ := reads
  obtain ⟨q, hq, id, inputs⟩ := exists_of_mem_forall₂ same.flip hp
  exact ⟨q, hq, id, inputs.symm ▸ read⟩

/-- Positions and logits of routes may change in place. -/
lemma Rooted.of_samePlaces (rooted : s.Rooted) (same : SamePlaces s t) (exits : t.exits = s.exits)
    (routes : t.routeLogits.IsRow s.exits.length) : t.Rooted where
  ascending := same.ids ▸ rooted.ascending
  closed := by
    constructor
    · intro q hq
      obtain ⟨p, hp, id, -⟩ := exists_of_mem_forall₂ same hq
      exact id ▸ rooted.closed.nonneg p hp
    · intro q hq id read
      obtain ⟨p, hp, eq, inputs⟩ := exists_of_mem_forall₂ same hq
      obtain ⟨p', hp', rfl, less⟩ := rooted.closed.earlier p hp id (inputs ▸ read)
      obtain ⟨q', hq', eq', -⟩ := exists_of_mem_forall₂ same.flip hp'
      exact ⟨q', hq', eq', eq.symm ▸ less⟩
  answered := exits.symm ▸ rooted.answered
  distinct := exits.symm ▸ rooted.distinct
  placed := by
    rw [exits, same.ids]
    exact rooted.placed
  routes := exits.symm ▸ routes

/-- What is needed for an exit is needed as well when positions have changed in place. -/
lemma SamePlaces.reached (same : SamePlaces s t) (distinct : s.ids.Nodup)
    (exits : t.exits = s.exits)
    (reached : ∀ p ∈ s.positions, ∃ e ∈ s.exits, Relation.ReflTransGen s.Reads e p.id) :
    ∀ q ∈ t.positions, ∃ e ∈ t.exits, Relation.ReflTransGen t.Reads e q.id := by
  intro q hq
  obtain ⟨p, hp, id, -⟩ := exists_of_mem_forall₂ same hq
  obtain ⟨e, he, path⟩ := reached p hp
  refine ⟨e, exits.symm ▸ he, ?_⟩
  rw [id]
  refine Relation.ReflTransGen.mono (fun a b reads => ?_) _ _ path
  exact (reads_iff (same.ids.symm ▸ distinct)).2 (same.upstream ((reads_iff distinct).1 reads))

/-- A supergraph can still be decoded when positions that are intact were changed in place. -/
lemma Decodable.of_samePlaces (decodable : s.Decodable) (same : SamePlaces s t)
    (exits : t.exits = s.exits) (routes : t.routeLogits.IsRow s.exits.length)
    (intact : ∀ q ∈ t.positions, q.Intact) : t.Decodable where
  toRooted := decodable.toRooted.of_samePlaces same exits routes
  reached := same.reached decodable.nodup exits decodable.reached
  intact := intact

/-- A position replaced in its place keeps the places. -/
lemma samePlaces_replace (distinct : s.ids.Nodup) (mem : p ∈ s.positions) (id : q.id = p.id)
    (inputs : q.inputs = p.inputs) : SamePlaces s (s.replace q) := by
  rw [SamePlaces, replace, List.forall₂_map_right_iff]
  refine List.forall₂_same.2 fun r hr => ?_
  split
  next here =>
    obtain rfl := List.inj_on_of_nodup_map distinct hr mem (here.trans id)
    exact ⟨id, inputs⟩
  next => exact ⟨rfl, rfl⟩

/-- After a replacement the positions are the new one and the others. -/
lemma mem_replace {r : Position α} (mem : r ∈ (s.replace q).positions) :
    r = q ∨ r ∈ s.positions ∧ r.id ≠ q.id := by
  obtain ⟨p, hp, rfl⟩ := List.mem_map.1 mem
  split
  next => exact .inl rfl
  next other => exact .inr ⟨hp, other⟩

/-- An intact position may be put in the place of another one. -/
lemma Decodable.replace (decodable : s.Decodable) (mem : p ∈ s.positions) (id : q.id = p.id)
    (inputs : q.inputs = p.inputs) (intact : q.Intact) : (s.replace q).Decodable := by
  refine decodable.of_samePlaces (samePlaces_replace decodable.nodup mem id inputs) rfl
    decodable.routes fun r hr => ?_
  rcases mem_replace hr with rfl | ⟨there, -⟩
  · exact intact
  · exact decodable.intact r there

/-- What a position remains, the network remains when it is replaced. -/
lemma Remains.replace (mem : p ∈ s.positions) (remains : p.Remains q) :
    s.Remains (s.replace q) := by
  refine ⟨.refl _, fun r hr => ?_⟩
  rcases mem_replace hr with rfl | ⟨there, -⟩
  · exact ⟨p, mem, remains⟩
  · exact ⟨r, there, .refl r⟩

/-! ### Dropping what is not needed -/

/-- What an exit needs stays, and it is needed also when the rest is gone. -/
lemma Rooted.dropDead (rooted : s.Rooted) (dropped : s.dropDead = .ok t) :
    t.Rooted ∧ t.exits = s.exits ∧ t.routeLogits = s.routeLogits ∧
      t.positions.Sublist s.positions ∧
      ∀ p ∈ t.positions, ∃ e ∈ t.exits, Relation.ReflTransGen t.Reads e p.id := by
  obtain ⟨live, rfl, reached⟩ := dropDead_eq_ok rooted.nodup dropped
  have sublist : (s.positions.filter fun p => live p.id).Sublist s.positions := List.filter_sublist
  have ascending := rooted.ascending.sublist (sublist.map (·.id))
  refine ⟨⟨ascending, ⟨?_, ?_⟩, rooted.answered, rooted.distinct, ?_, rooted.routes⟩, rfl,
    rfl, sublist, ?_⟩
  · exact fun p hp => rooted.closed.nonneg p (sublist.subset hp)
  · -- what a position reads is needed by the exit that needs the position
    intro p hp id read
    obtain ⟨there, alive⟩ := List.mem_filter.1 hp
    obtain ⟨q, hq, rfl, less⟩ := rooted.closed.earlier p there id read
    obtain ⟨e, he, path⟩ := (reached p.id).1 alive
    exact ⟨q, List.mem_filter.2 ⟨hq, (reached q.id).2 ⟨e, he, path.tail ⟨p, there, rfl, read⟩⟩⟩,
      rfl, less⟩
  · intro e he
    obtain ⟨p, hp, rfl⟩ := List.mem_map.1 (rooted.placed e he)
    exact List.mem_map_of_mem (List.mem_filter.2 ⟨hp, (reached p.id).2 ⟨p.id, he, .refl⟩⟩)
  · intro p hp
    obtain ⟨-, alive⟩ := List.mem_filter.1 hp
    obtain ⟨e, he, path⟩ := (reached p.id).1 alive
    refine ⟨e, he, ?_⟩
    -- every position on the way is needed itself
    clear alive
    generalize p.id = id at path
    induction path with
    | refl => exact .refl
    | tail path reads ih =>
      obtain ⟨q, hq, rfl, read⟩ := reads
      have needed : live q.id = true := (reached q.id).2 ⟨e, he, path⟩
      refine ih.tail ((reads_iff ?_).2 ⟨q, List.mem_filter.2 ⟨hq, needed⟩, rfl, read⟩)
      exact ascending.imp fun less => Int.ne_of_lt less

end Supergraph

/-! ### Building -/

variable [Scalar α]

/-- Positions are numbered, read from positions before them, and have some candidates each, in
catalog order. -/
structure Supplied (c : Catalog α) (positions : List (Position α)) : Prop where
  numbered : Numbered positions
  earlier : ∀ p ∈ positions, ∀ id, some id ∈ p.inputs → ∃ q ∈ positions, q.id = id ∧ id < p.id
  stocked : ∀ p ∈ positions, ∃ ops, ops ≠ [] ∧ ops.Sublist c.operators ∧
    p.candidates = c.inOrder ops

section Layout

variable {c : Catalog α} {excluded : Exclusion α} {maxFanIn : Number α} {input : PortType}
  {combinators : List (Operator α)} {positions all : List (Position α)} {stage suffix n : Nat}

/-- One more stage is supplied by those before. -/
lemma Supplied.succ (supplied : Supplied c positions) (before : ∀ p ∈ positions, p.stage < stage)
    (first : 1 ≤ stage) (combines : Combines c excluded maxFanIn combinators)
    {attempts : List (Operator α × List Source)} {groups : List (CandidateGroup α)}
    (done : stageAttempts c excluded combinators stage (sourcesOf input positions) = .ok attempts)
    (put : groupAttempts suffix [] attempts = .ok groups) :
    Supplied c (positions ++ newPositions c stage positions.length groups) := by
  have grouped := grouped_groupAttempts put
  have distinct : ((sourcesOf input positions).map (·.id)).Nodup :=
    nodup_ids_sourcesOf supplied.numbered
  -- every source stands at an earlier stage, so an attempt reads only what is there already
  have earlier : ∀ s ∈ sourcesOf input positions, s.stage < stage := by
    intro s hs
    rcases List.mem_cons.1 hs with rfl | there
    · exact first
    · obtain ⟨p, hp, rfl⟩ := List.mem_map.1 there
      exact before p hp
  refine ⟨supplied.numbered.append_newPositions stage _, fun p hp id read => ?_, fun p hp => ?_⟩
  · rcases List.mem_append.1 hp with old | new
    · obtain ⟨q, hq, found⟩ := supplied.earlier p old id read
      exact ⟨q, List.mem_append_left _ hq, found⟩
    · obtain ⟨i, g, hg, rfl⟩ := exists_of_mem_newPositions new
      obtain ⟨op, row, tried, inputs, -⟩ := grouped.exists_attempt hg
      obtain ⟨-, row_, -⟩ := (mem_stageAttempts_iff combines distinct.of_map earlier done).1 tried
      change some id ∈ g.inputs at read
      rw [inputs] at read
      obtain ⟨s, hs, named⟩ := List.mem_map.1 read
      rcases List.mem_cons.1 (row_.within s hs) with rfl | there
      · cases named
      · obtain ⟨q, hq, rfl⟩ := List.mem_map.1 there
        cases named
        have below := (supplied.numbered.bounds hq).2
        exact ⟨q, List.mem_append_left _ hq, rfl,
          Int.lt_of_lt_of_le below (Int.ofNat_le.2 (Nat.le_add_right ..))⟩
  · rcases List.mem_append.1 hp with old | new
    · exact supplied.stocked p old
    · obtain ⟨i, g, hg, rfl⟩ := exists_of_mem_newPositions new
      obtain ⟨op, -, -, -, inside⟩ := grouped.exists_attempt hg
      exact ⟨g.operators, List.ne_nil_of_mem inside,
        grouped.sublist_operators combines distinct done hg, rfl⟩

/-- What is laid out is supplied. -/
lemma Supplied.layOut (supplied : Supplied c positions) (before : ∀ p ∈ positions, p.stage < stage)
    (first : 1 ≤ stage) (combines : Combines c excluded maxFanIn combinators)
    (done : layOut c excluded combinators input stage suffix positions n = .ok all) :
    Supplied c all := by
  induction n generalizing stage suffix positions with
  | zero =>
    cases done
    exact supplied
  | succ n ih =>
    obtain ⟨attempts, groups, tried, put, ⟨-, -, rfl⟩ | ⟨-, done⟩⟩ := layOut_succ_eq_ok.1 done
    · exact supplied
    · refine ih (supplied.succ before first combines tried put) (fun p hp => ?_)
        (Nat.le_succ_of_le first) done
      rcases List.mem_append.1 hp with old | new
      · exact Nat.lt_succ_of_lt (before p old)
      · obtain ⟨i, g, -, rfl⟩ := exists_of_mem_newPositions new
        exact Nat.lt_succ_self stage

end Layout

namespace Supergraph

variable {c : Catalog α} {excluded : Exclusion α} {maxFanIn : Number α} {input output : PortType}
  {depth : StageBound} {s : Supergraph α}

/-- A supergraph can be decoded when it is built, and the candidates of its positions are in catalog
order. -/
theorem decodable_build (built : build c input output depth maxFanIn excluded = .ok s) :
    s.Decodable ∧ ∀ p ∈ s.positions, ∃ ops, ops.Sublist c.operators ∧
      p.candidates = c.inOrder ops := by
  obtain ⟨combinators, all, t, combines, laid, answered, dropped, rfl⟩ := build_eq_ok built
  -- nothing is laid out at first, which is supplied; the stages keep it, and dropping dead ends
  -- does
  have nothing : Supplied c ([] : List (Position α)) :=
    ⟨⟨rfl, fun _ mem => absurd mem List.not_mem_nil⟩, fun _ mem => absurd mem List.not_mem_nil,
      fun _ mem => absurd mem List.not_mem_nil⟩
  have supplied :=
    nothing.layOut (fun _ mem => absurd mem List.not_mem_nil) (Nat.le_refl 1) combines laid
  have ascending := supplied.numbered.pairwise
  have rooted : Rooted
      { catalog := c, inputType := input, outputType := output, depth, positions := all
        exits := (all.filter fun p => (Bindings.empty.unify? output p.outType).isSome).map (·.id)
        routeLogits := (.zeros
          ((all.filter fun p => (Bindings.empty.unify? output p.outType).isSome).map (·.id)) :
            Logits α) } := by
    have sublist := (List.filter_sublist (l := all)
      (p := fun p => (Bindings.empty.unify? output p.outType).isSome)).map (·.id)
    refine ⟨ascending, ⟨fun p hp => (supplied.numbered.bounds hp).1, supplied.earlier⟩,
      answered, ?_, fun e he => sublist.subset he, Logits.isRow_zeros _⟩
    exact (ascending.sublist sublist).imp fun less => Int.ne_of_lt less
  obtain ⟨rooted, -, -, sublist, reached⟩ := rooted.dropDead dropped
  -- the logits put in at the end change no place
  have same : SamePlaces t
      { t with positions := t.positions.map fun p => { p with logits := .zeros p.mixing } } := by
    rw [SamePlaces, List.forall₂_map_right_iff]
    exact List.forall₂_same.2 fun _ _ => ⟨rfl, rfl⟩
  have each : ∀ p ∈ t.positions, Position.Intact { p with logits := .zeros p.mixing } ∧
      ∃ ops, ops.Sublist c.operators ∧ p.candidates = c.inOrder ops := by
    intro p hp
    obtain ⟨ops, some, ordered, candidates⟩ := supplied.stocked p (sublist.subset hp)
    have perm : p.candidates.Perm ops := candidates ▸ perm_sortBy c.comesBefore ops
    exact ⟨⟨fun none => some (List.perm_nil.1 (none ▸ perm).symm),
      candidates ▸ Catalog.nodup_inOrder ordered,
      Logits.isRow_zeros _,
      Position.settled_of_chosen_eq_none (supplied.numbered.unchosen p (sublist.subset hp))⟩,
      ops, ordered, candidates⟩
  refine ⟨⟨rooted.of_samePlaces same rfl rooted.routes, same.reached rooted.nodup rfl reached, ?_⟩,
    ?_⟩
  · exact List.forall_mem_map.2 fun p hp => (each p hp).1
  · exact List.forall_mem_map.2 fun p hp => (each p hp).2

end Supergraph

end OperatorNet
