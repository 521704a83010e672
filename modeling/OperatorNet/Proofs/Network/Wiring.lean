import OperatorNet.Network.Basic
import OperatorNet.Network.Order
import OperatorNet.Proofs.PortType.Agreement
import OperatorNet.Proofs.Sorting

/-!
# Wired networks

A network is wired (`Network.Wired`) when its nodes are numbered from zero, every operator has as
many inputs as it takes, and nodes read from earlier nodes only. Once every use of an operator has a
suffix for its symbols, such a network has a list of slots, each a type together with the type of
what is wired into it (`Network.slots`); nodes that are added at the end only add slots.

Nodes that read from earlier nodes only come in the order of their ids. So a wired network is
checked from its first node to its last (`Wired.order_eq`).
-/

namespace OperatorNet

variable {α : Type}

namespace Node

/-- The type of the value of a node when the symbols of each operator have the suffix of its use. -/
def typeUnder (names : Int → String) (n : Node α) : PortType :=
  match n.operator with
  | none => n.template
  | some op => op.outType.freshen (names n.id)

/-- The types that a node takes. -/
def takes (names : Int → String) (n : Node α) : List PortType :=
  match n.operator with
  | none => []
  | some op => op.inTypes.map (·.freshen (names n.id))

/-- A node that has as many inputs as its operator takes, reads from earlier nodes, and records its
parameters. -/
structure Wired (n : Node α) : Prop where
  arity : n.inputs.length = (n.operator.map (·.arity)).getD 0
  earlier : ∀ r ∈ n.inputs, ∃ i : Nat, r = .id i ∧ (i : Int) < n.id
  recorded : n.params.isSome

/-- A change that keeps what a node is, what it uses and what it reads from. -/
structure Keeps (f : Node α → Node α) : Prop where
  id : ∀ n, (f n).id = n.id
  operator : ∀ n, (f n).operator = n.operator
  inputs : ∀ n, (f n).inputs = n.inputs

/-- Bringing the known type up to date is such a change. -/
lemma keeps_refresh (b : Bindings) : Keeps (Node.refresh b : Node α → Node α) :=
  ⟨fun _ => rfl, fun _ => rfl, fun _ => rfl⟩

/-- The type of a node depends on its own suffix only. -/
lemma typeUnder_congr {names names' : Int → String} {n : Node α}
    (same : names n.id = names' n.id) : n.typeUnder names = n.typeUnder names' := by
  unfold typeUnder
  rw [same]

/-- Only the suffix of the node itself matters. -/
lemma takes_congr {names names' : Int → String} {n : Node α}
    (same : names n.id = names' n.id) : n.takes names = n.takes names' := by
  unfold takes
  rw [same]

end Node

namespace Network

/-- The type of the value that a reference stands for. -/
def typeAt (g : Network α) (names : Int → String) (r : Ref) : PortType :=
  ((r.id?.bind g.find?).map (·.typeUnder names)).getD default

/-- The slots of a node: what it takes, and what is wired in. -/
def slotsOf (g : Network α) (names : Int → String) (n : Node α) : List (PortType × PortType) :=
  (n.takes names).zip (n.inputs.map (g.typeAt names))

/-- An input has no slots. -/
lemma slotsOf_input {g : Network α} {n : Node α} (names : Int → String) (uses : n.operator = none) :
    g.slotsOf names n = [] := by
  rw [slotsOf, Node.takes, uses, List.zip_nil_left]

/-- The slots of a use are its input types against what it reads. -/
lemma slotsOf_use {g : Network α} {n : Node α} {op : Operator α} (names : Int → String)
    (uses : n.operator = some op) : g.slotsOf names n =
      ((op.inTypes.map (·.freshen (names n.id))).zip n.inputs).map
        fun p => (p.1, g.typeAt names p.2) := by
  rw [slotsOf, Node.takes, uses, List.zip_map_right]
  rfl

/-- Each input of a use makes a slot. -/
lemma mem_slotsOf_use {g : Network α} {n : Node α} {op : Operator α} (names : Int → String)
    (uses : n.operator = some op) {t : PortType} {r : Ref}
    (slot : (t, r) ∈ op.inTypes.zip n.inputs) :
    (t.freshen (names n.id), g.typeAt names r) ∈ g.slotsOf names n := by
  rw [slotsOf, Node.takes, uses, List.zip_map]
  exact List.mem_map.2 ⟨(t, r), slot, rfl⟩

/-- The slots of all nodes. -/
def slots (g : Network α) (names : Int → String) : List (PortType × PortType) :=
  g.nodes.flatMap (g.slotsOf names)

/-- Nodes are numbered from zero and read from earlier nodes. -/
structure Wired (g : Network α) : Prop where
  ids : ∀ (i : Nat) n, g.nodes[i]? = some n → n.id = i
  next : g.nextId = g.nodes.length
  nodes : ∀ n ∈ g.nodes, n.Wired

/-- The network with one more node. -/
def append (g : Network α) (n : Node α) : Network α :=
  { g with nodes := g.nodes ++ [n], nextId := g.nextId + 1 }

/-- A node is added last. -/
@[simp] lemma nodes_append (g : Network α) (n : Node α) : (g.append n).nodes = g.nodes ++ [n] :=
  rfl

/-- What is found is found again after a node is added. -/
lemma find?_append {g : Network α} {n m : Node α} {i : Int} (found : g.find? i = some m) :
    (g.append n).find? i = some m := by
  unfold find? at found ⊢
  rw [nodes_append, List.find?_append, found]
  rfl

/-- The network without nodes is wired. -/
lemma Wired.empty (id : String) : (empty id : Network α).Wired := by
  have none : (Network.empty id : Network α).nodes = [] := rfl
  refine ⟨fun i n there => ?_, rfl, fun n mem => ?_⟩
  · rw [none, List.getElem?_nil] at there
    cases there
  · rw [none] at mem
    cases mem

namespace Wired

variable {g : Network α} (wired : g.Wired)

include wired

/-- Nodes are found by their place. -/
lemma find?_eq (i : Nat) : g.find? i = g.nodes[i]? := by
  unfold find?
  cases there : g.nodes[i]? with
  | none =>
    refine List.find?_eq_none.2 fun n hn => ?_
    obtain ⟨j, hj⟩ := List.mem_iff_getElem?.1 hn
    have bound := (List.getElem?_eq_some_iff.1 hj).1
    have beyond := List.getElem?_eq_none_iff.1 there
    rw [wired.ids j n hj, decide_eq_true_eq]
    omega
  | some n =>
    obtain ⟨bound, value⟩ := List.getElem?_eq_some_iff.1 there
    refine List.find?_eq_some_iff_getElem.2 ⟨?_, i, bound, value, fun j before => ?_⟩
    · rw [wired.ids i n there]
      exact decide_eq_true rfl
    · have id := wired.ids j _ (List.getElem?_eq_getElem (Nat.lt_trans before bound))
      rw [id, Bool.not_eq_true', decide_eq_false_iff_not]
      omega

/-- The id of a node is its place. -/
lemma exists_place {n : Node α} (mem : n ∈ g.nodes) :
    ∃ i : Nat, n.id = i ∧ i < g.nodes.length ∧ g.nodes[i]? = some n := by
  obtain ⟨i, hi⟩ := List.mem_iff_getElem?.1 mem
  exact ⟨i, wired.ids i n hi, (List.getElem?_eq_some_iff.1 hi).1, hi⟩

/-- A node is found by its id. -/
lemma find?_id {n : Node α} (mem : n ∈ g.nodes) : g.find? n.id = some n := by
  obtain ⟨i, id, -, there⟩ := wired.exists_place mem
  rw [id, wired.find?_eq, there]

/-- Nodes with the same id are the same. -/
lemma eq_of_id_eq {m n : Node α} (hm : m ∈ g.nodes) (hn : n ∈ g.nodes) (same : m.id = n.id) :
    m = n := by
  have found := wired.find?_id hm
  rw [same, wired.find?_id hn] at found
  exact (Option.some.inj found).symm

/-- A node reads from nodes that are there. -/
lemma exists_source {n : Node α} (mem : n ∈ g.nodes) {r : Ref} (read : r ∈ n.inputs) :
    ∃ m ∈ g.nodes, r = .id m.id ∧ m.id < n.id := by
  obtain ⟨i, rfl, before⟩ := (wired.nodes n mem).earlier r read
  obtain ⟨j, id, bound, -⟩ := wired.exists_place mem
  have inside : i < g.nodes.length := by omega
  have there := wired.ids i _ (List.getElem?_eq_getElem inside)
  exact ⟨g.nodes[i], List.getElem_mem inside, by rw [there], by rw [there]; exact before⟩

/-- One more node, which reads from nodes that are there, leaves a network wired. -/
lemma append {n : Node α} (new : n.Wired) (id : n.id = g.nextId) : (g.append n).Wired := by
  refine ⟨fun i m there => ?_, ?_, fun m mem => ?_⟩
  · rw [nodes_append, List.getElem?_append] at there
    split at there
    next => exact wired.ids i m there
    next bound =>
      rw [List.getElem?_singleton] at there
      split at there
      next last =>
        obtain rfl := Option.some.inj there
        rw [id, wired.next]
        omega
      next => cases there
  · simp [Network.append, wired.next]
  · rcases List.mem_append.1 mem with old | last
    · exact wired.nodes m old
    · rw [List.mem_singleton] at last
      subst last
      exact new

/-- What a node reads from has the same type after a node is added, and under all suffixes that are
the same for the nodes that were there. -/
lemma typeAt_append {names names' : Int → String} (new : Node α)
    (same : ∀ n ∈ g.nodes, names' n.id = names n.id) {n : Node α} (mem : n ∈ g.nodes) :
    (g.append new).typeAt names' (.id n.id) = g.typeAt names (.id n.id) := by
  have found := wired.find?_id mem
  simp only [typeAt, Ref.id?_id, Option.bind_some, found, find?_append found, Option.map_some,
    Option.getD_some]
  exact Node.typeUnder_congr (same n mem)

/-- A node that is added brings its own slots and leaves the others as they are. -/
lemma slots_append (names names' : Int → String) (new : Node α)
    (same : ∀ n ∈ g.nodes, names' n.id = names n.id)
    (reads : ∀ r ∈ new.inputs, ∃ m ∈ g.nodes, r = .id m.id) :
    (g.append new).slots names' =
      g.slots names ++ (new.takes names').zip (new.inputs.map (g.typeAt names)) := by
  have types : ∀ l : List Ref, (∀ r ∈ l, ∃ m ∈ g.nodes, r = .id m.id) →
      l.map ((g.append new).typeAt names') = l.map (g.typeAt names) := by
    intro l known
    refine List.map_congr_left fun r hr => ?_
    obtain ⟨m, mem, rfl⟩ := known r hr
    exact wired.typeAt_append new same mem
  have old : ∀ n ∈ g.nodes, (g.append new).slotsOf names' n = g.slotsOf names n := by
    intro n mem
    rw [slotsOf, slotsOf, Node.takes_congr (same n mem), types n.inputs fun r hr => ?_]
    obtain ⟨m, there, eq, -⟩ := wired.exists_source mem hr
    exact ⟨m, there, eq⟩
  rw [slots, slots, nodes_append, List.flatMap_append, List.flatMap_singleton,
    List.flatMap_congr old, slotsOf, types new.inputs reads]

end Wired

section MapNodes

/-- The network with every node changed. -/
def mapNodes (g : Network α) (f : Node α → Node α) : Network α :=
  { g with nodes := g.nodes.map f }

variable {g : Network α} {f : Node α → Node α} (keeps : Node.Keeps f)

include keeps

/-- A map of the nodes keeps where they are found. -/
lemma find?_mapNodes (i : Int) : (g.mapNodes f).find? i = (g.find? i).map f := by
  unfold find? mapNodes
  have same : (fun n : Node α => decide (n.id = i)) ∘ f = fun n => decide (n.id = i) :=
    funext fun n => congrArg (decide <| · = i) (keeps.id n)
  rw [List.find?_map, same]

/-- The type that a reference stands for is that of the changed node. -/
lemma typeAt_mapNodes (names : Int → String) (r : Ref) :
    (g.mapNodes f).typeAt names r =
      ((r.id?.bind g.find?).map fun n => (f n).typeUnder names).getD default := by
  unfold typeAt
  cases r.id? with
  | none => rfl
  | some i =>
    simp only [Option.bind_some, find?_mapNodes keeps]
    cases g.find? i <;> rfl

/-- A map that keeps what nodes take does so under all suffixes. -/
lemma takes_mapNodes (names : Int → String) (n : Node α) : (f n).takes names = n.takes names := by
  unfold Node.takes
  rw [keeps.operator, keeps.id]

/-- Slots stay where the types of nodes do. -/
lemma slots_mapNodes {names : Int → String}
    (same : ∀ n ∈ g.nodes, (f n).typeUnder names = n.typeUnder names) :
    (g.mapNodes f).slots names = g.slots names := by
  have types : ∀ r, (g.mapNodes f).typeAt names r = g.typeAt names r := by
    intro r
    rw [typeAt_mapNodes keeps, typeAt]
    cases found : r.id?.bind g.find? with
    | none => rfl
    | some n =>
      obtain ⟨i, -, there⟩ := Option.bind_eq_some_iff.1 found
      exact same n (List.mem_of_find?_eq_some there)
  rw [slots, slots, mapNodes, List.flatMap_map]
  refine List.flatMap_congr fun n _ => ?_
  change ((f n).takes names).zip ((f n).inputs.map ((g.mapNodes f).typeAt names)) = _
  rw [takes_mapNodes keeps, keeps.inputs, slotsOf]
  exact congrArg _ (List.map_congr_left fun r _ => types r)

/-- A map that keeps what nodes read keeps a network wired. -/
lemma Wired.mapNodes (wired : g.Wired) (recorded : ∀ n ∈ g.nodes, (f n).params.isSome) :
    (g.mapNodes f).Wired := by
  refine ⟨fun i n there => ?_, ?_, fun n mem => ?_⟩
  · rw [Network.mapNodes, List.getElem?_map, Option.map_eq_some_iff] at there
    obtain ⟨m, hm, rfl⟩ := there
    rw [keeps.id]
    exact wired.ids i m hm
  · rw [Network.mapNodes, List.length_map]
    exact wired.next
  · obtain ⟨m, hm, rfl⟩ := List.mem_map.1 mem
    refine ⟨?_, ?_, recorded m hm⟩
    · rw [keeps.inputs, keeps.operator]
      exact (wired.nodes m hm).arity
    · rw [keeps.inputs, keeps.id]
      exact (wired.nodes m hm).earlier

end MapNodes

/-- Bringing known types up to date keeps slots. -/
@[simp] lemma slots_refresh (g : Network α) (names : Int → String) :
    g.refresh.slots names = g.slots names :=
  slots_mapNodes (Node.keeps_refresh g.bindings) fun _ _ => rfl

/-- A network stays wired when known types are brought up to date. -/
lemma Wired.refresh {g : Network α} (wired : g.Wired) : g.refresh.Wired :=
  have mapped := wired.mapNodes (Node.keeps_refresh g.bindings) fun n hn =>
    (wired.nodes n hn).recorded
  ⟨mapped.ids, mapped.next, mapped.nodes⟩

end Network

end OperatorNet

/-! ### The order of wired networks -/

namespace OperatorNet

/-- Ascending ids whose sources are smaller may come one after the other. -/
lemma readyOrder_of_ascending {sources : Int → List Int} {ids : List Int}
    (ascending : ids.Pairwise (· < ·)) (earlier : ∀ n ∈ ids, ∀ s ∈ sources n, s < n) :
    readyOrder sources ids = ids := by
  induction ids with
  | nil =>
    rw [readyOrder]
    rfl
  | cons n rest ih =>
    rw [List.pairwise_cons] at ascending
    have ready : (sources n).all (fun s => !(n :: rest).contains s) = true := by
      rw [List.all_eq_true]
      intro s hs
      have before := earlier n (by simp) s hs
      have absent : s ∉ n :: rest := by
        intro mem
        rcases List.mem_cons.1 mem with rfl | later
        · exact Int.lt_irrefl s before
        · exact Int.lt_asymm before (ascending.1 s later)
      simpa using absent
    have first : (n :: rest).find? (fun m => (sources m).all fun s => !(n :: rest).contains s) =
        some n :=
      List.find?_cons_of_pos ready
    rw [readyOrder]
    split
    next none => rw [first] at none; cases none
    next m found =>
      rw [first] at found
      obtain rfl := Option.some.inj found
      rw [List.erase_cons_head, ih ascending.2 fun m hm => earlier m (by simp [hm])]

namespace Network

variable {α : Type} {g : Network α}

/-- Ids that are places are in ascending order. -/
lemma Wired.ascending (wired : g.Wired) : g.ids.Pairwise (· < ·) := by
  rw [List.pairwise_iff_getElem]
  intro i j hi hj before
  rw [Network.ids, List.length_map] at hi hj
  have first := wired.ids i _ (List.getElem?_eq_getElem hi)
  have second := wired.ids j _ (List.getElem?_eq_getElem hj)
  simp only [Network.ids, List.getElem_map, first, second]
  omega

/-- The ids of a wired network are different. -/
lemma Wired.nodup (wired : g.Wired) : g.ids.Nodup :=
  wired.ascending.imp fun less => Int.ne_of_lt less

/-- Nodes read from nodes with smaller ids. -/
lemma Wired.source_lt (wired : g.Wired) {i s : Int} (mem : i ∈ g.ids) (read : s ∈ g.sources i) :
    s < i := by
  obtain ⟨n, hn, rfl⟩ := List.mem_map.1 mem
  rw [sources, inputs, wired.find?_id hn] at read
  obtain ⟨r, hr, equals⟩ := List.mem_filterMap.1 read
  obtain ⟨m, -, rfl, before⟩ := wired.exists_source hn hr
  cases equals
  exact before

/-- A wired network lists its nodes in order. -/
lemma Wired.order_eq (wired : g.Wired) : g.order = .ok g.ids := by
  have sorted : sortedIds g.ids = g.ids := by
    refine sortBy_of_pairwise (wired.ascending.imp fun before => ?_)
    rw [decide_eq_false_iff_not]
    omega
  have ready : readyOrder g.sources g.ids = g.ids :=
    readyOrder_of_ascending wired.ascending fun id mem s read => wired.source_lt mem read
  rw [order, orderOfIds, sorted, ready]
  simp only [if_true]

/-- The ids of a wired network find its nodes in their order. -/
lemma Wired.filterMap_find? (wired : g.Wired) : g.ids.filterMap g.find? = g.nodes := by
  rw [Network.ids, List.filterMap_map]
  have all : ∀ n ∈ g.nodes, (g.find? ∘ fun n => n.id) n = some n := fun n hn => wired.find?_id hn
  rw [List.filterMap_congr all, List.filterMap_some]

end Network

end OperatorNet
