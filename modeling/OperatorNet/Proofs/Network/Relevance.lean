import OperatorNet.Proofs.Network.Liveness

/-!
# What does not matter to the output

In a network without cycles whose live nodes read from nodes (`Standing`) the live nodes are found
and put in order. The search looks at live nodes only, and so does the order: networks with the same
live nodes (`Agrees`) have the same order, whatever else stands in them (`Standing.exists_order`).
-/

namespace OperatorNet

section

variable {inputs inputs' : Int → List Ref} {all all' fresh fresh' remaining : List Int}
  {above rest stack : List Ref} {r : Ref} {n : Int} {P : Int → Prop}

/-- When all references have been visited, none is fresh. -/
lemma firstFresh_of_visited (visited : ∀ r ∈ stack, ∃ n, Known all r n ∧ n ∉ fresh) :
    firstFresh all fresh stack = .ok none := by
  induction stack with
  | nil => rfl
  | cons r rest ih =>
    rw [List.forall_mem_cons] at visited
    obtain ⟨⟨n, ⟨id, there⟩, old⟩, below⟩ := visited
    have found : r.find (fun n => if n ∈ all then some n else none) = .ok n :=
      Ref.find_of_id? id (if_pos there)
    rw [firstFresh, found]
    dsimp only
    rw [dif_neg old, ih below]

/-- The first fresh reference is the one after those visited. -/
lemma firstFresh_append (visited : ∀ q ∈ above, ∃ m, Known all q m ∧ m ∉ fresh)
    (known : Known all r n) (mem : n ∈ fresh) :
    firstFresh all fresh (above ++ r :: rest) = .ok (some (r, ⟨n, mem⟩, rest)) := by
  induction above with
  | nil =>
    have found : r.find (fun n => if n ∈ all then some n else none) = .ok n :=
      Ref.find_of_id? known.1 (if_pos known.2)
    rw [List.nil_append, firstFresh, found]
    dsimp only
    rw [dif_pos mem]
  | cons q above ih =>
    rw [List.forall_mem_cons] at visited
    obtain ⟨⟨m, ⟨id, there⟩, old⟩, below⟩ := visited
    have found : q.find (fun n => if n ∈ all then some n else none) = .ok m :=
      Ref.find_of_id? id (if_pos there)
    rw [List.cons_append, firstFresh, found]
    dsimp only
    rw [dif_neg old, ih below]

/-- Ids to which a search keeps that starts at some of them, and which are read by some of them only
from others of them. -/
structure Closes (P : Int → Prop) (inputs : Int → List Ref) (all : List Int) (stack : List Ref) :
    Prop where
  start : ∀ r ∈ stack, ∃ n, r.id? = some n ∧ P n
  reads : ∀ n, P n → ∀ r ∈ inputs n, ∃ m, r.id? = some m ∧ P m
  there : ∀ n, P n → n ∈ all

/-- A search keeps to its ids when it goes on with what one of them reads. -/
lemma Closes.next (closes : Closes P inputs all (above ++ r :: rest)) (here : P n) :
    Closes P inputs all ((inputs n).reverse ++ rest) where
  start q hq := by
    rcases List.mem_append.1 hq with read | below
    · exact closes.reads n here q (List.mem_reverse.1 read)
    · exact closes.start q (List.mem_append_right _ (List.mem_cons_of_mem _ below))
  reads := closes.reads
  there := closes.there

/-- What one search knows to be visited another one does, if the same ids are fresh. -/
lemma visited_congr (there' : ∀ n, P n → n ∈ all') (alike : ∀ n, P n → (n ∈ fresh' ↔ n ∈ fresh))
    (holds : ∃ n, r.id? = some n ∧ P n) (old : ∃ n, Known all r n ∧ n ∉ fresh) :
    ∃ n, Known all' r n ∧ n ∉ fresh' := by
  obtain ⟨n, id, holds⟩ := holds
  obtain ⟨m, ⟨id', -⟩, old⟩ := old
  obtain rfl := Option.some.inj (id.symm.trans id')
  exact ⟨n, ⟨id, there' n holds⟩, fun mem => old ((alike n holds).1 mem)⟩

/-- A search that keeps to some ids comes to an end, and depends on nothing but what is read by
them. -/
lemma exists_reachable_congr (closes : Closes P inputs all stack) (there' : ∀ n, P n → n ∈ all')
    (same : ∀ n, P n → inputs' n = inputs n) (distinct : fresh.Nodup) (distinct' : fresh'.Nodup)
    (alike : ∀ n, P n → (n ∈ fresh' ↔ n ∈ fresh)) :
    ∃ rs, reachable inputs all fresh stack = .ok rs ∧
      reachable inputs' all' fresh' stack = .ok rs := by
  -- induction along the search of the first graph; the second one is shown to take the same step
  induction fresh, stack using reachable.induct inputs all generalizing fresh' with
  | case1 fresh stack f failed =>
    obtain ⟨first, done⟩ : ∃ first, firstFresh all fresh stack = .ok first := by
      refine exists_firstFresh fun r hr => ?_
      obtain ⟨n, id, holds⟩ := closes.start r hr
      exact ⟨n, id, closes.there n holds⟩
    rw [failed] at done
    cases done
  | case2 fresh stack none =>
    have old := firstFresh_eq_none none
    have none' : firstFresh all' fresh' stack = .ok .none :=
      firstFresh_of_visited fun q hq => visited_congr there' alike (closes.start q hq) (old q hq)
    exact ⟨[], by rw [reachable, none], by rw [reachable, none']⟩
  | case3 fresh stack r n rest first ih =>
    obtain ⟨⟨id, -⟩, above, rfl, old⟩ := firstFresh_eq_some first
    obtain ⟨m, id', here⟩ := closes.start r (List.mem_append_right _ (List.mem_cons_self ..))
    obtain rfl := Option.some.inj (id.symm.trans id')
    have first' : firstFresh all' fresh' (above ++ r :: rest) =
        .ok (some (r, ⟨n, (alike n here).2 n.2⟩, rest)) :=
      firstFresh_append (fun q hq => visited_congr there' alike
        (closes.start q (List.mem_append_left _ hq)) (old q hq)) ⟨id, there' n here⟩ _
    obtain ⟨rs, left, right⟩ :=
      ih (closes.next here) (distinct.erase _) (distinct'.erase _) fun i holds => by
      rw [distinct'.mem_erase_iff, distinct.mem_erase_iff, alike i holds]
    refine ⟨r :: rs, ?_, ?_⟩
    · rw [reachable, first]
      dsimp only
      rw [left]
      rfl
    · rw [reachable, first']
      dsimp only
      rw [same n here, right]
      rfl

/-- The order depends on the sources of the ids only. -/
lemma readyOrder_congr {sources sources' : Int → List Int}
    (same : ∀ n ∈ remaining, sources' n = sources n) :
    readyOrder sources' remaining = readyOrder sources remaining := by
  induction remaining using readyOrder.induct sources with
  | case1 remaining none =>
    have none' : (remaining.find? fun n => (sources' n).all fun s => !remaining.contains s) =
        .none := by
      rw [List.find?_eq_none] at none ⊢
      exact fun n hn => same n hn ▸ none n hn
    rw [readyOrder_of_none none, readyOrder_of_none none']
  | case2 remaining n next ih =>
    have next' : (remaining.find? fun n => (sources' n).all fun s => !remaining.contains s) =
        some n := by
      rw [List.find?_eq_some_iff_append] at next ⊢
      obtain ⟨ready, before, after, rfl, notReady⟩ := next
      refine ⟨?_, before, after, rfl, fun m hm => ?_⟩
      · rwa [same n (List.mem_append_right _ (List.mem_cons_self ..))]
      · rw [same m (List.mem_append_left _ hm)]
        exact notReady m hm
    rw [readyOrder_of_some next, readyOrder_of_some next',
      ih fun m hm => same m (List.mem_of_mem_erase hm)]

end

namespace Network

variable {α : Type} {g g' : Network α} {out n : Node α} {rs order : List Ref} {ids : List Int}

/-- A network without cycles and with an output, in which what the output depends on reads from
nodes. -/
structure Standing (g : Network α) (out : Node α) : Prop where
  distinct : g.ids.Nodup
  acyclic : g.Acyclic
  output : g.output = .ok out
  reads : ∀ n ∈ g.nodes, g.Lives n.id → ∀ r ∈ n.inputs, ∃ m ∈ g.nodes, r.id? = some m.id

/-- One network has the live nodes of the other one, and the same output. -/
structure Agrees (g g' : Network α) : Prop where
  distinct : g'.ids.Nodup
  outputId : g'.outputId = g.outputId
  same : ∀ i, g.Lives i → g'.find? i = g.find? i

/-- A network agrees with itself. -/
lemma Agrees.refl (distinct : g.ids.Nodup) : g.Agrees g :=
  ⟨distinct, rfl, fun _ _ => rfl⟩

/-- Networks that agree have live nodes that read the same. -/
lemma Agrees.inputs_eq (agrees : g.Agrees g') {i : Int} (lives : g.Lives i) :
    g'.inputs i = g.inputs i := by
  rw [inputs, inputs, agrees.same i lives]

/-- What a live node reads is live. -/
lemma Lives.tail {i j : Int} (lives : g.Lives i) (leads : Leads g.inputs i j) : g.Lives j := by
  obtain ⟨out, output, path⟩ := lives
  exact ⟨out, output, path.tail leads⟩

namespace Standing

/-- The output of a standing network is one of its nodes. -/
lemma out_mem (standing : g.Standing out) : out ∈ g.nodes := by
  have output := standing.output
  rw [Network.output] at output
  split at output
  next id _ => exact (mem_of_find? (node_eq_ok.1 output)).1
  next => exact absurd output fail_ne_ok

/-- The output of a standing network is live. -/
lemma lives_out (standing : g.Standing out) : g.Lives out.id :=
  ⟨out, standing.output, .refl⟩

/-- A live id of a standing network is that of a node. -/
lemma exists_of_lives (standing : g.Standing out) {i : Int} (lives : g.Lives i) :
    ∃ n ∈ g.nodes, n.id = i := by
  obtain ⟨out', output, path⟩ := lives
  obtain rfl := Except.ok.inj (standing.output.symm.trans output)
  induction path with
  | refl => exact ⟨out, standing.out_mem, rfl⟩
  | tail path leads ih =>
    obtain ⟨n, hn, rfl⟩ := ih
    obtain ⟨r, hr, id⟩ := leads
    rw [inputs_id standing.distinct hn] at hr
    obtain ⟨m, hm, id'⟩ := standing.reads n hn ⟨out, output, path⟩ r hr
    exact ⟨m, hm, Option.some.inj (id'.symm.trans id)⟩

/-- What a live node of a standing network reads is a live node. -/
lemma exists_of_read (standing : g.Standing out) {i : Int} (lives : g.Lives i) {r : Ref}
    (read : r ∈ g.inputs i) : ∃ m ∈ g.nodes, r.id? = some m.id ∧ g.Lives m.id := by
  obtain ⟨n, hn, rfl⟩ := standing.exists_of_lives lives
  obtain ⟨m, hm, id⟩ := standing.reads n hn lives r (inputs_id standing.distinct hn ▸ read)
  exact ⟨m, hm, id, lives.tail ⟨r, read, id⟩⟩

/-- The sources of a live node are live. -/
lemma source_lives (standing : g.Standing out) (mem : n ∈ g.nodes) (lives : g.Lives n.id) {s : Int}
    (read : s ∈ n.sources) : g.Lives s := by
  rw [← sources_id standing.distinct mem] at read
  exact lives.tail (mem_sources_iff.1 read)

/-- A network with the same live nodes has the same output. -/
lemma output_eq (standing : g.Standing out) (agrees : g.Agrees g') : g'.output = .ok out := by
  have output := standing.output
  rw [Network.output] at output ⊢
  rw [agrees.outputId]
  split at output
  next id _ =>
    obtain ⟨mem, rfl⟩ := mem_of_find? (node_eq_ok.1 output)
    refine node_eq_ok.2 ?_
    rw [agrees.same _ standing.lives_out]
    exact node_eq_ok.1 output
  next => exact absurd output fail_ne_ok

/-- The live nodes are found, and they are the same ones in a network that has the same live
nodes. -/
lemma exists_live (standing : g.Standing out) (agrees : g.Agrees g') :
    ∃ rs, g.live = .ok rs ∧ g'.live = .ok rs := by
  have there : ∀ i, g.Lives i → i ∈ g.ids := fun i lives =>
    let ⟨n, hn, id⟩ := standing.exists_of_lives lives
    id ▸ List.mem_map_of_mem hn
  have there' : ∀ i, g.Lives i → i ∈ g'.ids := fun i lives => by
    obtain ⟨n, hn, id⟩ := standing.exists_of_lives lives
    have found := agrees.same i lives
    rw [(find?_eq_some_iff standing.distinct).2 ⟨hn, id⟩] at found
    obtain ⟨hn', id'⟩ := mem_of_find? found
    exact id' ▸ List.mem_map_of_mem hn'
  have closes : Closes g.Lives g.inputs g.ids [.id out.id] := by
    constructor
    case start => exact List.forall_mem_singleton.2 ⟨out.id, rfl, standing.lives_out⟩
    case reads =>
      intro i lives r read
      obtain ⟨m, -, id, onward⟩ := standing.exists_of_read lives read
      exact ⟨m.id, id, onward⟩
    case there => exact there
  obtain ⟨rs, found, found'⟩ := exists_reachable_congr closes there' (fun i => agrees.inputs_eq)
    standing.distinct agrees.distinct fun i lives => iff_of_true (there' i lives) (there i lives)
  exact ⟨rs, by rw [live, standing.output]; exact found, by
    rw [live, standing.output_eq agrees]; exact found'⟩

end Standing

/-- A reference gets the same node where its id finds the same. -/
lemma nodeAt_congr {r : Ref} (same : ∀ i, r.id? = some i → g'.find? i = g.find? i) :
    g'.nodeAt r = g.nodeAt r := by
  have look : r.id?.bind g'.find? = r.id?.bind g.find? := by
    cases id : r.id? with
    | none => rfl
    | some i => exact same i id
  rw [nodeAt, nodeAt, Ref.find, Ref.find, look]

/-- The order of some nodes is that in a network which has the same ones. -/
lemma orderOf_congr (known : rs.map Ref.id? = ids.map some) (nodup : ids.Nodup)
    (same : ∀ i ∈ ids, g'.find? i = g.find? i) (done : g.orderOf rs = .ok order) :
    g'.orderOf rs = .ok order := by
  have mem_ids : ∀ r ∈ sortedRefs rs, ∀ i, r.id? = some i → i ∈ ids := fun r hr i id => by
    have mem : r.id? ∈ ids.map some := known ▸ List.mem_map_of_mem ((perm_sortBy _ rs).mem_iff.1 hr)
    obtain ⟨j, hj, id'⟩ := List.mem_map.1 mem
    exact Option.some.inj (id'.trans id) ▸ hj
  simp only [orderOf, Ref.distinct_eq known nodup, bind_eq_ok, pure_eq_ok] at done ⊢
  obtain ⟨_, checked, nodes, found, _, read, spelled, ordered, rfl⟩ := done
  have found' : (sortedRefs rs).mapM g'.nodeAt = .ok nodes := by
    have alike : ∀ r ∈ sortedRefs rs, g'.nodeAt r = g.nodeAt r := fun r hr =>
      nodeAt_congr fun i id => same i (mem_ids r hr i id)
    exact mapM_congr alike ▸ found
  refine ⟨_, checked, nodes, found', _, read, spelled, ?_, rfl⟩
  have within : ∀ i ∈ sortedIds (nodes.map (·.id)), i ∈ ids := by
    intro i hi
    obtain ⟨n, hn, rfl⟩ := List.mem_map.1 ((perm_sortBy _ _).mem_iff.1 hi)
    obtain ⟨r, hr, there⟩ := exists_of_mem_forall₂ (mapM_eq_ok.1 found) hn
    obtain ⟨j, id, stored⟩ := Ref.exists_of_find there
    exact (mem_of_find? stored).2 ▸ mem_ids r hr j id
  have sources_eq : ∀ i ∈ sortedIds (nodes.map (·.id)), g'.sources i = g.sources i := fun i hi => by
    rw [sources, sources, inputs, inputs, same i (within i hi)]
  simp only [orderOfIds, readyOrder_congr sources_eq] at ordered ⊢
  split at ordered
  next all =>
    rw [if_pos all]
    exact ordered
  next => exact absurd ordered fail_ne_ok

/-- The live nodes are found and put in order, in the same way in every network that has the same
ones. -/
lemma Standing.exists_order (standing : g.Standing out) : ∃ rs nodes, Sourced nodes ∧
    (∀ n, n ∈ nodes ↔ n ∈ g.nodes ∧ g.Lives n.id) ∧ ∀ g', g.Agrees g' →
      g'.live = .ok rs ∧ g'.orderOf rs =
        .ok (nodes.map fun n => Ref.spelling (sortedRefs rs) n.id) ∧
        g'.liveOrder = .ok nodes := by
  obtain ⟨rs, done, -⟩ := standing.exists_live (.refl standing.distinct)
  obtain ⟨ids, known, nodup, lives, -⟩ := live_eq_ok standing.distinct done
  obtain ⟨nodes, ordered, sourced, isLive⟩ :=
    exists_orderOf_live standing.acyclic standing.distinct done
  refine ⟨rs, nodes, sourced, isLive, fun g' agrees => ?_⟩
  obtain ⟨rs', done', there⟩ := standing.exists_live agrees
  obtain rfl := Except.ok.inj (done.symm.trans done')
  have ordered' := orderOf_congr known nodup (fun i hi => agrees.same i ((lives i).1 hi)) ordered
  refine ⟨there, ordered', ?_⟩
  rw [liveOrder, there]
  simp only [ordered', bind, Except.bind]
  rw [mapM_eq_ok, List.forall₂_map_left_iff, List.forall₂_same]
  intro n hn
  obtain ⟨mem, live⟩ := (isLive n).1 hn
  refine Ref.find_of_id? (Ref.id?_spelling _ n.id) ?_
  rw [agrees.same n.id live, (find?_eq_some_iff standing.distinct).2 ⟨mem, rfl⟩]

end Network

end OperatorNet
