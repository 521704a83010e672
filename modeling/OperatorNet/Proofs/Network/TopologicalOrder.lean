import OperatorNet.Proofs.Network.Edits
import OperatorNet.Proofs.Network.Kahn
import OperatorNet.Proofs.Network.Liveness

/-!
# Topological orders

References to nodes are put in an order in which each node comes after those of them that it reads
from (`Network.Arranges`), unless one of these depends on itself through the others. The order is
the one of Kahn's algorithm, and of all such orders it is the first
(`Network.topologicalOrder_spec`): the least id that may come next cannot be put off
(`readyOrder_eq_or_lex`). In a network that is built by calls nodes read from nodes with smaller
ids, so the order is ascending.
-/

namespace OperatorNet

/-- No other order in which ids come after their sources is earlier. -/
lemma readyOrder_eq_or_lex {sources : Int → List Int} {remaining order : List Int}
    (ascending : remaining.Pairwise (· < ·)) (ordered : Ordered sources remaining order) :
    readyOrder sources remaining = order ∨
      List.Lex (· < ·) (readyOrder sources remaining) order := by
  induction remaining using readyOrder.induct sources generalizing order with
  | case1 remaining none =>
    rw [readyOrder_of_none none]
    cases order with
    | nil => exact .inl rfl
    | cons m rest => exact .inr .nil
  | case2 remaining n next ih =>
    have here := List.mem_of_find?_eq_some next
    rw [readyOrder_of_some next]
    obtain _ | ⟨m, rest⟩ := order
    · exact absurd (ordered.perm.mem_iff.2 here) List.not_mem_nil
    obtain ⟨later, laterRest⟩ := List.pairwise_cons.1 ordered.later
    obtain ⟨own, ownRest⟩ := List.forall_mem_cons.1 ordered.own
    -- the other order begins with an id that reads from none of them, so not with an earlier one
    have first : m ∈ remaining := ordered.perm.subset (List.mem_cons_self ..)
    have ready : ∀ s ∈ remaining, s ∉ sources m := fun s hs =>
      (List.mem_cons.1 (ordered.perm.mem_iff.2 hs)).elim (fun eq => eq ▸ own) (later s)
    rcases Int.lt_or_eq_of_le
      (find?_least ascending next m first (ready_iff.2 ready)) with less | rfl
    · exact .inr (.rel less)
    · have perm : rest.Perm (remaining.erase n) :=
        (ordered.perm.trans (List.perm_cons_erase here)).cons_inv
      have onward := ih (ascending.sublist List.erase_sublist) ⟨perm, laterRest, ownRest⟩
      exact onward.imp (congrArg _) .cons

namespace Network

variable {α : Type} {g : Network α} {rs : List Ref} {ids : List Int}

/-- Ids with a cycle are not put in order. -/
lemma orderOfIds_of_cyclic (cyclic : Cyclic g.sources ids) :
    (readyOrder g.sources (sortedIds ids)).length < ids.length ∧
      g.orderOfIds ids = fail (.slot {
        slot := -1, expected := none, actual := none, node := none,
        reason := .cycle g.id (readyOrder g.sources (sortedIds ids)).length ids.length }) := by
  have length : (sortedIds ids).length = ids.length := (perm_sortedIds ids).length_eq
  have short : (readyOrder g.sources (sortedIds ids)).length ≠ (sortedIds ids).length := fun all =>
    length_readyOrder_eq_iff.1 all (cyclic.mono (perm_sortedIds ids).symm.subset)
  have le := (subperm_readyOrder g.sources (sortedIds ids)).length_le
  refine ⟨by omega, ?_⟩
  rw [orderOfIds, if_neg short, length]

/-- Ids without a cycle are put in order. -/
lemma orderOfIds_of_not_cyclic (acyclic : ¬ Cyclic g.sources ids) :
    g.orderOfIds ids = .ok (readyOrder g.sources (sortedIds ids)) := by
  have all : (readyOrder g.sources (sortedIds ids)).length = (sortedIds ids).length :=
    length_readyOrder_eq_iff.2 fun cyclic => acyclic (cyclic.mono (perm_sortedIds ids).subset)
  simp only [orderOfIds, if_pos all]

/-- Ids that references equal are spelled as the references. -/
lemma Findable.map_spelling (findable : g.Findable rs) :
    ((Ref.distinct rs).filterMap Ref.id?).map (Ref.spelling (sortedRefs (Ref.distinct rs))) =
      Ref.distinct rs := by
  have perm : (sortedRefs (Ref.distinct rs)).Perm (Ref.distinct rs) := perm_sortBy _ _
  have nodup := (perm.filterMap Ref.id?).nodup_iff.2 (Ref.nodup_filterMap_distinct rs)
  have each : ∀ r ∈ Ref.distinct rs,
      r.id?.map (Ref.spelling (sortedRefs (Ref.distinct rs))) = some r := by
    intro r hr
    obtain ⟨i, -, id, -⟩ := findable r (Ref.mem_of_mem_distinct hr)
    rw [id, Option.map_some, Ref.spelling_of_mem nodup (perm.mem_iff.2 hr) id]
  rw [List.map_filterMap, List.filterMap_congr each, List.filterMap_some]

/-- References in an order in which each node comes after those of them that it reads from. -/
structure Arranges (g : Network α) (rs out : List Ref) : Prop where
  perm : out.Perm rs
  ordered : Ordered g.sources (rs.filterMap Ref.id?) (out.filterMap Ref.id?)

/-- References are put in the order of Kahn's algorithm. -/
lemma Findable.exists_arranged (findable : g.Findable rs)
    (acyclic : ¬ Cyclic g.sources ((Ref.distinct rs).filterMap Ref.id?)) :
    ∃ out, g.orderOf rs = .ok out ∧
      out.filterMap Ref.id? =
        readyOrder g.sources (sortedIds ((Ref.distinct rs).filterMap Ref.id?)) ∧
      g.Arranges (Ref.distinct rs) out := by
  generalize eq : (Ref.distinct rs).filterMap Ref.id? = ids at acyclic ⊢
  have done := orderOfIds_of_not_cyclic acyclic
  have ordered := ordered_of_orderOfIds done
  have equals :=
    Ref.filterMap_map_spelling (sortedRefs (Ref.distinct rs)) (readyOrder g.sources (sortedIds ids))
  refine ⟨(readyOrder g.sources (sortedIds ids)).map (Ref.spelling (sortedRefs (Ref.distinct rs))),
    ?_, equals, ?_, ?_⟩
  · rw [orderOf_eq findable, eq, done]
    rfl
  · have perm := ordered.perm.map (Ref.spelling (sortedRefs (Ref.distinct rs)))
    rwa [← eq, findable.map_spelling, eq] at perm
  · rw [equals, eq]
    exact ordered

/-- Nodes that read from nodes with smaller ids come in ascending order. -/
lemma Wired.readyOrder_eq (wired : g.Wired) (nodup : ids.Nodup) (within : ∀ i ∈ ids, i ∈ g.ids) :
    readyOrder g.sources (sortedIds ids) = sortedIds ids := by
  refine readyOrder_of_ascending (ascending_sortedIds nodup) fun i hi s read => ?_
  exact wired.source_lt (within i ((perm_sortedIds ids).mem_iff.1 hi)) read

/-- The nodes that are given, or all nodes, are put in the order of Kahn's algorithm. It fails
exactly when the wires among these nodes have a cycle. Otherwise no other order in which each node
comes after those of them that it reads from has earlier ids, and in a network that is built by
calls the ids ascend. -/
theorem topologicalOrder_spec [Scalar α] {rs : Option (List Ref)}
    (findable : g.Findable (rs.getD (g.ids.map .id))) :
    let nodes := Ref.distinct (rs.getD (g.ids.map .id))
    let ids := nodes.filterMap Ref.id?
    ∃ order, Kahn.run g.sources ids = some order ∧
      (Cyclic g.sources ids → order.length < ids.length ∧
        g.topologicalOrder rs = fail (.slot {
          slot := -1, expected := none, actual := none, node := none,
          reason := .cycle g.id order.length ids.length })) ∧
      (¬ Cyclic g.sources ids → ∃ out, g.topologicalOrder rs = .ok out ∧
        out.filterMap Ref.id? = order ∧ g.Arranges nodes out ∧
        ∀ other, g.Arranges nodes other → order = other.filterMap Ref.id? ∨
          List.Lex (· < ·) order (other.filterMap Ref.id?)) ∧
      ∀ (c : Catalog α) (id : String) (calls : List (Call α)), c.Reachable →
        g = (performAll c (empty id) calls).2 →
        ¬ Cyclic g.sources ids ∧ order.Pairwise (· < ·) := by
  intro nodes ids
  have nodup : ids.Nodup := Ref.nodup_filterMap_distinct _
  have sorted := perm_sortedIds ids
  refine ⟨readyOrder g.sources (sortedIds ids), Kahn.run_eq g.sources nodup, fun cyclic => ?_,
    fun acyclic => ?_, fun c id calls reachable built => ?_⟩
  · obtain ⟨short, failed⟩ := orderOfIds_of_cyclic cyclic
    refine ⟨short, ?_⟩
    rw [topologicalOrder, orderOf_eq findable, failed]
    rfl
  · obtain ⟨out, done, equals, arranged⟩ := findable.exists_arranged acyclic
    refine ⟨out, done, equals, arranged, fun other arranged => ?_⟩
    exact readyOrder_eq_or_lex (ascending_sortedIds nodup) (arranged.ordered.of_perm sorted.symm)
  · obtain ⟨κ, assembled⟩ := assembled_performAll reachable id calls
    rw [← built] at assembled
    have order := assembled.wired.readyOrder_eq nodup fun i hi => (findable.mem_ids hi).1
    rw [order]
    refine ⟨fun cyclic => ?_, ascending_sortedIds nodup⟩
    exact length_readyOrder_eq_iff.1 (congrArg List.length order) (cyclic.mono sorted.symm.subset)

namespace Sample

/-- An input behind which three uses stand in a row. -/
def row : List (Call Float) :=
  [.input "x" (typeOf "feature" [.symbol "B"]), .node (.given double) [0] .empty,
    .node (.given double) [1] .empty, .node (.given double) [2] .empty]

/-- The first use reads twice from the second, and this from the third as well. -/
def tangled : Network Float :=
  ((performAll bare (empty "graph") row).2.modify 1 fun n =>
    { n with inputs := [.id 2, .id 2] }).modify 2
    fun n => { n with inputs := [.id 0, .id 3] }

end Sample

open Sample in
/-- The second and the third use depend on each other, which does not matter where the third is left
out. -/
theorem topologicalOrder_spec_tangled :
    (∃ out, tangled.topologicalOrder (some [.id 2, .id 1, .id 0]) = .ok out ∧
      out.filterMap Ref.id? = [0, 2, 1] ∧
      ∀ other, tangled.Arranges [.id 2, .id 1, .id 0] other → [0, 2, 1] = other.filterMap Ref.id? ∨
        List.Lex (· < ·) [0, 2, 1] (other.filterMap Ref.id?)) ∧
    tangled.topologicalOrder none = fail (.slot {
      slot := -1, expected := none, actual := none, node := none,
        reason := .cycle "graph" 1 4 }) := by
  -- all that is read off the graph is evaluated here; then the graph is made opaque
  have known : tangled.id = "graph" ∧ tangled.ids = [0, 1, 2, 3] := by decide +kernel
  have findable : ∀ r ∈ [0, 1, 2, 3].map Ref.id, ∃ i ∈ tangled.ids, r.id? = some i ∧
      ∀ s ∈ tangled.inputs i, s.key?.isSome := by
    decide +kernel
  have order : readyOrder tangled.sources (sortedIds [2, 1, 0]) = [0, 2, 1] := by decide +kernel
  have start : readyOrder tangled.sources (sortedIds [0, 1, 2, 3]) = [0] := by decide +kernel
  have acyclic : ¬ Cyclic tangled.sources [2, 1, 0] :=
    length_readyOrder_eq_iff.1 (by decide +kernel)
  have cyclic : Cyclic tangled.sources [0, 1, 2, 3] := by
    by_contra acyclic
    exact absurd (length_readyOrder_eq_iff.2 acyclic) (by decide +kernel)
  obtain ⟨name, ids⟩ := known
  generalize tangled = g at *
  constructor
  · have apart : ([2, 1, 0] : List Int).Nodup := by decide
    have within : ∀ r ∈ [Ref.id 2, .id 1, .id 0], r ∈ [0, 1, 2, 3].map Ref.id := by simp
    have here : g.Findable ((some [Ref.id 2, .id 1, .id 0]).getD (g.ids.map .id)) := fun r hr =>
      findable r (within r hr)
    obtain ⟨_, run, -, least, -⟩ := topologicalOrder_spec here
    -- the run that the theorem speaks of is the one that was evaluated
    obtain rfl := Option.some.inj (run.symm.trans (Kahn.run_eq g.sources apart))
    obtain ⟨out, done, equals, -, first⟩ := least acyclic
    exact ⟨out, done, equals.trans order, order ▸ first⟩
  · have apart : ([0, 1, 2, 3] : List Int).Nodup := by decide
    have same : (Ref.distinct ([0, 1, 2, 3].map Ref.id)).filterMap Ref.id? =
        [0, 1, 2, 3] := by decide
    have here : g.Findable ((none : Option (List Ref)).getD (g.ids.map .id)) := ids ▸ findable
    have spec := topologicalOrder_spec here
    rw [Option.getD_none, ids] at spec
    obtain ⟨_, run, fails, -⟩ := spec
    rw [same] at run fails
    obtain rfl := Option.some.inj (run.symm.trans (Kahn.run_eq g.sources apart))
    rw [(fails cyclic).2, start, name]
    rfl

end Network

end OperatorNet
