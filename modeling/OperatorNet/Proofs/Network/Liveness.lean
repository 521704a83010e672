import OperatorNet.Proofs.Network.Acyclic

/-!
# Live nodes

A node is live when the output depends on it (`Lives`). The nodes that are found to be live are
these, and with them is all that they read from (`live_eq_ok`). References are put in order as the
ids are that they equal (`orderOf_eq`). So in a network without cycles the live nodes can be put in
order, and then every one comes after what it reads (`exists_liveOrder`).
-/

namespace OperatorNet

/-- References to ids can be sorted. -/
lemma exists_sortedRefs {rs : List Ref} {ids : List Int} (known : rs.map Ref.id? = ids.map some) :
    ∃ sorted : List Int, (sortedRefs rs).map Ref.id? = sorted.map some ∧ sorted.Perm ids := by
  refine ⟨(sortedRefs rs).filterMap Ref.id?, Ref.map_id?_of_isSome fun r hr => ?_,
    Ref.filterMap_id? known ▸ Supergraph.perm_filterMap_sortedRefs rs⟩
  have mem : r.id? ∈ ids.map some := known ▸ List.mem_map_of_mem ((perm_sortBy _ rs).mem_iff.1 hr)
  obtain ⟨n, -, id⟩ := List.mem_map.1 mem
  exact Option.isSome_iff_exists.2 ⟨n, id.symm⟩

namespace Network

variable {α : Type} {g : Network α} {rs : List Ref} {ids order : List Int} {n : Node α}

/-- The output depends on a node. -/
def Lives (g : Network α) (i : Int) : Prop :=
  ∃ out, g.output = .ok out ∧ Relation.ReflTransGen (Leads g.inputs) out.id i

/-- What is found to be live is what the output depends on, and all that it reads from is there. -/
lemma live_eq_ok (distinct : g.ids.Nodup) (done : g.live = .ok rs) :
    ∃ ids : List Int, rs.map Ref.id? = ids.map some ∧ ids.Nodup ∧ (∀ i, i ∈ ids ↔ g.Lives i) ∧
      ∀ i ∈ ids, i ∈ g.ids ∧ ∀ r ∈ g.inputs i, ∃ m ∈ ids, r.id? = some m := by
  rw [live, bind_eq_ok] at done
  obtain ⟨out, output, reached⟩ := done
  obtain ⟨ids, known, explores⟩ := explores_reachable distinct reached
  refine ⟨ids, known, explores.distinct, fun i => ?_,
    fun i hi => ⟨explores.within i hi, fun r hr => explores.exists_of_mem hi hr⟩⟩
  rw [explores.mem_iff]
  refine ⟨fun path => ⟨out, output, path⟩, ?_⟩
  rintro ⟨out', output', path⟩
  exact Except.ok.inj (output'.symm.trans output) ▸ path

/-- What an id reads is what its node reads. -/
lemma inputs_id (distinct : g.ids.Nodup) (mem : n ∈ g.nodes) : g.inputs n.id = n.inputs := by
  rw [inputs, (find?_eq_some_iff distinct).2 ⟨mem, rfl⟩]
  rfl

/-- The sources of an id are those of its node. -/
lemma sources_id (distinct : g.ids.Nodup) (mem : n ∈ g.nodes) : g.sources n.id = n.sources := by
  rw [sources, inputs_id distinct mem]
  rfl

/-- A reference to a node gets it. -/
lemma nodeAt_of_id? {r : Ref} (distinct : g.ids.Nodup) (mem : n ∈ g.nodes)
    (id : r.id? = some n.id) :
    g.nodeAt r = .ok n :=
  Ref.find_of_id? id ((find?_eq_some_iff distinct).2 ⟨mem, rfl⟩)

/-- An id of the network finds a node. -/
lemma exists_find? {i : Int} (mem : i ∈ g.ids) : ∃ n, g.find? i = some n ∧ n.id = i := by
  cases found : g.find? i with
  | none =>
    obtain ⟨n, hn, id⟩ := List.mem_map.1 mem
    exact absurd (decide_eq_true id) (List.find?_eq_none.1 found n hn)
  | some n => exact ⟨n, rfl, (mem_of_find? found).2⟩

/-- References to ids of the network get their nodes. -/
lemma exists_mapM_nodeAt (known : rs.map Ref.id? = ids.map some) (within : ∀ i ∈ ids, i ∈ g.ids) :
    ∃ nodes, rs.mapM g.nodeAt = .ok nodes ∧ nodes.map (·.id) = ids ∧
      ∀ n ∈ nodes, g.find? n.id = some n := by
  induction rs generalizing ids with
  | nil =>
    obtain rfl := List.map_eq_nil_iff.1 known.symm
    exact ⟨[], rfl, rfl, fun _ mem => absurd mem List.not_mem_nil⟩
  | cons r rest ih =>
    obtain _ | ⟨i, ids⟩ := ids
    · cases known
    obtain ⟨id, known⟩ := List.cons.inj known
    rw [List.forall_mem_cons] at within
    obtain ⟨nodes, found, same, all⟩ := ih known within.2
    obtain ⟨n, there, rfl⟩ := exists_find? within.1
    refine ⟨n :: nodes, ?_, by rw [List.map_cons, same], List.forall_mem_cons.2 ⟨there, all⟩⟩
    have first : g.nodeAt r = .ok n := Ref.find_of_id? id there
    rw [List.mapM_cons, first, found]
    rfl

/-- References to nodes that read from what can be looked up. -/
def Findable (g : Network α) (rs : List Ref) : Prop :=
  ∀ r ∈ rs, ∃ i ∈ g.ids, r.id? = some i ∧ ∀ s ∈ g.inputs i, s.key?.isSome

/-- Findable references are to ids. -/
lemma Findable.map_id? (known : g.Findable rs) :
    (Ref.distinct rs).map Ref.id? = ((Ref.distinct rs).filterMap Ref.id?).map some := by
  refine Ref.map_id?_of_isSome fun r hr => ?_
  obtain ⟨i, -, id, -⟩ := known r (Ref.mem_of_mem_distinct hr)
  exact Option.isSome_iff_exists.2 ⟨i, id⟩

/-- Findable references are to ids of the network, which read from keys. -/
lemma Findable.mem_ids (known : g.Findable rs) {i : Int}
    (mem : i ∈ (Ref.distinct rs).filterMap Ref.id?) :
    i ∈ g.ids ∧ ∀ s ∈ g.inputs i, s.key?.isSome := by
  obtain ⟨r, hr, id⟩ := List.mem_filterMap.1 mem
  obtain ⟨i', here, id', inputs⟩ := known r (Ref.mem_of_mem_distinct hr)
  obtain rfl := Option.some.inj (id.symm.trans id')
  exact ⟨here, inputs⟩

/-- References are put in order as the ids are that they equal, and each id is spelled as it was. -/
lemma orderOf_eq (known : g.Findable rs) :
    g.orderOf rs = (g.orderOfIds ((Ref.distinct rs).filterMap Ref.id?)).map
      (·.map (Ref.spelling (sortedRefs (Ref.distinct rs)))) := by
  have checked : rs.forM Ref.check = .ok ⟨⟩ := forM_eq_ok fun r hr => by
    obtain ⟨i, -, id, -⟩ := known r hr
    exact Ref.check_of_id? id
  obtain ⟨sorted, spelled, perm⟩ := exists_sortedRefs known.map_id?
  obtain ⟨nodes, found, same, all⟩ := exists_mapM_nodeAt spelled fun i hi =>
    (known.mem_ids (perm.mem_iff.1 hi)).1
  have read : (nodes.forM fun n => n.inputs.forM Ref.check) = .ok ⟨⟩ := by
    refine forM_eq_ok fun n hn => forM_eq_ok fun r hr => ?_
    have mem : n.id ∈ sorted := same ▸ List.mem_map_of_mem hn
    have inputs : g.inputs n.id = n.inputs := by rw [Network.inputs, all n hn]; rfl
    exact if_pos ((known.mem_ids (perm.mem_iff.1 mem)).2 r (inputs ▸ hr))
  have sorts : g.orderOfIds sorted = g.orderOfIds ((Ref.distinct rs).filterMap Ref.id?) := by
    simp only [orderOfIds, sortedIds_of_perm perm]
  rw [orderOf, checked]
  simp only [found, same, read, sorts, bind, Except.bind, pure, Except.pure]
  cases g.orderOfIds _ with
  | ok order => rfl
  | error f => rfl

/-- References to nodes that read from nodes are put in order, where there are no cycles. -/
lemma exists_orderOf (acyclic : g.Acyclic) (known : rs.map Ref.id? = ids.map some)
    (nodup : ids.Nodup)
    (within : ∀ i ∈ ids, i ∈ g.ids ∧ ∀ r ∈ g.inputs i, ∃ m ∈ ids, r.id? = some m) :
    ∃ order, g.orderOf rs = .ok (order.map (Ref.spelling (sortedRefs rs))) ∧
      Ordered g.sources ids order := by
  have distinct := Ref.distinct_eq known nodup
  have findable : g.Findable rs := by
    intro r hr
    obtain ⟨i, hi, id⟩ := List.mem_map.1 (known ▸ List.mem_map_of_mem hr : r.id? ∈ ids.map some)
    refine ⟨i, (within i hi).1, id.symm, fun s hs => ?_⟩
    obtain ⟨m, -, id⟩ := (within i hi).2 s hs
    rw [Ref.id?_eq_some_iff.1 id, Option.isSome_some]
  obtain ⟨order, done⟩ := acyclic.exists_orderOfIds ids
  refine ⟨order, ?_, ordered_of_orderOfIds done⟩
  rw [orderOf_eq findable, distinct, Ref.filterMap_id? known, done]
  rfl

/-- Nodes with distinct ids, each of which reads from earlier ones. -/
structure Sourced (nodes : List (Node α)) : Prop where
  distinct : (nodes.map (·.id)).Nodup
  earlier : ∀ before n after, nodes = before ++ n :: after →
    ∀ s ∈ n.sources, s ∈ before.map (·.id)

/-- Nodes in an order of their ids read from earlier ones, if they read from these only. -/
lemma sourced_of_ordered {nodes : List (Node α)} (distinct : g.ids.Nodup)
    (ordered : Ordered g.sources ids order) (nodup : ids.Nodup)
    (closed : ∀ i ∈ ids, ∀ s ∈ g.sources i, s ∈ ids) (same : nodes.map (·.id) = order)
    (all : ∀ n ∈ nodes, n ∈ g.nodes) : Sourced nodes := by
  refine ⟨same ▸ ordered.perm.nodup_iff.2 nodup, fun before n after split s read => ?_⟩
  have here : n ∈ nodes := split ▸ List.mem_append_right _ (List.mem_cons_self ..)
  have mem : n.id ∈ order := same ▸ List.mem_map_of_mem here
  rw [← sources_id distinct (all n here)] at read
  have there : s ∈ order := ordered.perm.mem_iff.2 (closed n.id (ordered.perm.mem_iff.1 mem) s read)
  have later := ordered.later
  rw [← same, split, List.map_append, List.map_cons] at there later
  rcases List.mem_append.1 there with before | after
  · exact before
  rcases List.mem_cons.1 after with rfl | after
  · exact absurd read (ordered.own _ mem)
  · exact absurd read ((List.pairwise_cons.1 (List.pairwise_append.1 later).2.1).1 s after)

/-- The first part of nodes after their sources is so too. -/
lemma Sourced.of_append {nodes more : List (Node α)} (sourced : Sourced (nodes ++ more)) :
    Sourced nodes := by
  have distinct := sourced.distinct
  rw [List.map_append] at distinct
  exact ⟨(List.nodup_append.1 distinct).1, fun before n after split =>
    sourced.earlier before n (after ++ more) (by rw [split]; simp)⟩

/-- Nodes after their sources have these among them. -/
lemma Sourced.mem_of_read {nodes : List (Node α)} (sourced : Sourced nodes) (mem : n ∈ nodes)
    {s : Int} (read : s ∈ n.sources) : s ∈ nodes.map (·.id) := by
  obtain ⟨before, after, rfl⟩ := List.append_of_mem mem
  rw [List.map_append]
  exact List.mem_append_left _ (sourced.earlier before n after rfl s read)

/-- What holds of every node when it holds of those that it reads from holds of all nodes. -/
lemma Sourced.induction {nodes : List (Node α)} (sourced : Sourced nodes) {P : Node α → Prop}
    (step : ∀ n ∈ nodes, (∀ m ∈ nodes, m.id ∈ n.sources → P m) → P n) : ∀ n ∈ nodes, P n := by
  -- by induction on how much of the order has been done
  have each : ∀ before after, nodes = before ++ after → ∀ n ∈ before, P n := by
    intro before
    induction before using List.reverseRecOn with
    | nil => exact fun _ _ _ mem => absurd mem List.not_mem_nil
    | append_singleton before n ih =>
      intro after split
      rw [List.append_assoc, List.singleton_append] at split
      have earlier := ih (n :: after) split
      refine List.forall_mem_append.2 ⟨earlier, List.forall_mem_singleton.2 (step n ?_ ?_)⟩
      · exact split ▸ List.mem_append_right _ (List.mem_cons_self ..)
      · intro m hm read
        obtain ⟨m', hm', id⟩ := List.mem_map.1 (sourced.earlier before n after split m.id read)
        have mem : m' ∈ nodes := split ▸ List.mem_append_left _ hm'
        exact List.inj_on_of_nodup_map sourced.distinct mem hm id ▸ earlier m' hm'
  exact each nodes [] (List.append_nil nodes).symm

/-- References to the live nodes of a network without cycles are put in an order of these nodes. -/
lemma exists_orderOf_live (acyclic : g.Acyclic) (distinct : g.ids.Nodup) (done : g.live = .ok rs) :
    ∃ nodes, g.orderOf rs = .ok (nodes.map fun n => Ref.spelling (sortedRefs rs) n.id) ∧
      Sourced nodes ∧ ∀ n, n ∈ nodes ↔ n ∈ g.nodes ∧ g.Lives n.id := by
  obtain ⟨ids, known, nodup, lives, within⟩ := live_eq_ok distinct done
  obtain ⟨order, ordered, isOrder⟩ := exists_orderOf acyclic known nodup within
  have spelled : (order.map (Ref.spelling (sortedRefs rs))).map Ref.id? = order.map some := by
    rw [List.map_map]
    exact List.map_congr_left fun i _ => Ref.id?_spelling _ i
  obtain ⟨nodes, -, same, found⟩ := exists_mapM_nodeAt spelled fun i hi =>
    (within i (isOrder.perm.mem_iff.1 hi)).1
  have all : ∀ n ∈ nodes, n ∈ g.nodes := fun n hn => (mem_of_find? (found n hn)).1
  have closed : ∀ i ∈ ids, ∀ s ∈ g.sources i, s ∈ ids := by
    intro i hi s hs
    obtain ⟨r, hr, id⟩ := mem_sources_iff.1 hs
    obtain ⟨m, hm, id'⟩ := (within i hi).2 r hr
    rw [id, Option.some_inj] at id'
    exact id' ▸ hm
  refine ⟨nodes, ?_, sourced_of_ordered distinct isOrder nodup closed same all, fun n => ?_⟩
  · rw [ordered, ← same, List.map_map]
    rfl
  · have live : n.id ∈ nodes.map (·.id) ↔ g.Lives n.id := by
      rw [same, isOrder.perm.mem_iff, lives]
    refine ⟨fun mem => ⟨all n mem, live.1 (List.mem_map_of_mem mem)⟩, fun ⟨mem, lives⟩ => ?_⟩
    obtain ⟨m, hm, id⟩ := List.mem_map.1 (live.2 lives)
    exact List.inj_on_of_nodup_map distinct (all m hm) mem id ▸ hm

/-- The live nodes of a network without cycles have an order. -/
lemma exists_liveOrder (acyclic : g.Acyclic) (distinct : g.ids.Nodup) (done : g.live = .ok rs) :
    ∃ nodes, g.liveOrder = .ok nodes ∧ Sourced nodes ∧
      ∀ n, n ∈ nodes ↔ n ∈ g.nodes ∧ g.Lives n.id := by
  obtain ⟨nodes, ordered, sourced, isLive⟩ := exists_orderOf_live acyclic distinct done
  refine ⟨nodes, ?_, sourced, isLive⟩
  rw [liveOrder, done]
  simp only [ordered, bind, Except.bind]
  rw [mapM_eq_ok, List.forall₂_map_left_iff, List.forall₂_same]
  exact fun n hn => nodeAt_of_id? distinct ((isLive n).1 hn).1 (Ref.id?_spelling _ n.id)

end Network

end OperatorNet
