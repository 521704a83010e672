import OperatorNet.Network.Spec
import OperatorNet.Proofs.Catalog.Reachable
import OperatorNet.Proofs.Network.Settled
import OperatorNet.Proofs.PortType.Document
import OperatorNet.Proofs.Validation.Acceptance

/-!
# Specifications of networks

The document of a specification whose types are normal is read as that specification again, unless a
dimension cannot be written or an id refers to nothing (`Spec.ofData_toData_iff`).

A wired network with an output has a specification where its bindings can be written
(`Wired.toSpec_eq`). A catalog that has all of its operators makes a network of the specification
again exactly when the parameters can be restored, the slots of the settled network unify, and the
types that come out can be written; that network is known then (`Wired.ofSpec_eq_ok_iff`).
-/

namespace OperatorNet

/-- A list of ids is accepted as it is. -/
lemma Check.list_whole (ids : List Int) :
    Check.list Check.whole (.list (ids.map .int)) = .accepted ids := by
  rw [Check.list_eq_accepted, List.forall₂_map_left_iff, List.forall₂_same]
  exact fun _ _ => rfl

/-- A text that may be missing is accepted as it is. -/
lemma Check.optional_text (name : Option String) :
    Check.optional Check.text ((name.map Data.text).getD .null) = .accepted name := by
  cases name <;> rfl

/-- A node of normal type is read as it was written, unless a dimension cannot be written. -/
lemma NodeSpec.ofData_toData_iff {n m : NodeSpec Float} (normal : n.type.Normal) :
    NodeSpec.ofData n.toData = .accepted m ↔ n.type.Writable ∧ m = n := by
  have others := fun id name operator inputs type params inserted => Check.noOthers_of_keys
    [("node_id", id), ("name", name), ("operator", operator), ("inputs", inputs),
      ("resolved_type", type), ("params", params), ("inserted_adapter", inserted)] rfl
  simp only [List.map_cons, List.map_nil] at others
  refine Iff.trans ?_ (and_congr_right fun _ => eq_comm)
  simp [toData, ofData, Check.record, Check.required, Check.withDefault, others, Check.whole,
    Check.text, Check.truth, Check.optional_text, Check.list_whole,
    PortType.read_toData_iff normal]

/-- An edge that was written is read again. -/
lemma EdgeSpec.ofData_toData (e : EdgeSpec) : EdgeSpec.ofData e.toData = .accepted e := by
  have others := fun source target slot => Check.noOthers_of_keys
    [("source", source), ("target", target), ("slot", slot)] rfl
  simp only [List.map_cons, List.map_nil] at others
  simp [toData, ofData, Check.record, Check.required, Check.withDefault, others, Check.whole]

/-- A specification is accepted when it has no flaws. -/
lemma Spec.check_eq_accepted_iff {s s' : Spec Float} :
    s.check = .accepted s' ↔ s.flaw? = none ∧ s' = s := by
  unfold check
  cases s.flaw? with
  | some f => exact ⟨fun eq => absurd eq Check.flawed_ne_accepted, nofun⟩
  | none => exact ⟨fun eq => ⟨rfl, (Check.accepted.inj eq).symm⟩, fun ⟨_, eq⟩ => eq ▸ rfl⟩

/-- A specification with normal types is read as it was written, unless a dimension cannot be
written or an id refers to nothing. -/
theorem Spec.ofData_toData_iff {s s' : Spec Float} (normal : ∀ n ∈ s.nodes, n.type.Normal) :
    Spec.ofData s.toData = .accepted s' ↔
      (∀ n ∈ s.nodes, n.type.Writable) ∧ s.flaw? = none ∧ s' = s := by
  have nodes : ∀ nodes', Check.list NodeSpec.ofData (.list (s.nodes.map NodeSpec.toData)) =
      .accepted nodes' ↔ (∀ n ∈ s.nodes, n.type.Writable) ∧ nodes' = s.nodes := by
    intro nodes'
    have each : ∀ n ∈ s.nodes, ∀ m, NodeSpec.ofData n.toData = .accepted m ↔
        n.type.Writable ∧ m = n := fun n hn m => NodeSpec.ofData_toData_iff (normal n hn)
    rw [Check.list_eq_accepted, List.forall₂_map_left_iff, forall₂_iff_map each, List.map_id']
  have edges : Check.list EdgeSpec.ofData (.list (s.edges.map EdgeSpec.toData)) =
      .accepted s.edges := by
    rw [Check.list_eq_accepted, List.forall₂_map_left_iff, List.forall₂_same]
    exact fun e _ => e.ofData_toData
  have others := fun id nodes edges inputs output bindings metadata => Check.noOthers_of_keys
    [("graph_id", id), ("nodes", nodes), ("edges", edges), ("input_ids", inputs),
      ("output_id", output), ("bindings", bindings), ("metadata", metadata)] rfl
  simp only [List.map_cons, List.map_nil] at others
  refine Iff.trans ?_ (and_congr_right fun _ => check_eq_accepted_iff)
  simp [toData, ofData, Check.record, Check.required, Check.withDefault, others, Check.whole,
    Check.text, Check.list_whole, nodes, edges]

end OperatorNet

/-! ### Networks made of specifications -/

namespace OperatorNet

variable {α : Type}

/-- A node that is called and wired as its specification says, with an operator where one is
named. -/
structure NodeSpec.Describes (s : NodeSpec α) (n : Node α) : Prop where
  id : n.id = s.id
  name : n.name = s.name
  operator : n.operator = none ↔ s.operator = none
  inputs : n.inputs = s.inputs.map .id

namespace Node

/-- A node with its operator named. -/
def spec (n : Node α) : NodeSpec α :=
  { id := n.id, name := n.name, operator := n.operator.map (·.name), inputs := n.sources,
    type := n.resolved, params := n.overrides.entries.map fun p => (p.1, p.2.toData),
    inserted := n.inserted }

/-- A wired node reads references to its sources. -/
lemma Wired.map_id_sources {n : Node α} (wired : n.Wired) : n.sources.map Ref.id = n.inputs := by
  rw [sources, List.map_filterMap]
  have own : ∀ r ∈ n.inputs, r.id?.map Ref.id = some r := by
    intro r hr
    obtain ⟨i, rfl, -⟩ := wired.earlier r hr
    rfl
  rw [List.filterMap_congr own, List.filterMap_some]

/-- A wired node has a specification. -/
lemma Wired.toSpec_eq {n : Node α} (wired : n.Wired) : n.toSpec = .accepted n.spec := by
  have inputs : Check.list Check.whole (.list (n.inputs.map Ref.toData)) = .accepted n.sources := by
    rw [Check.list_eq_accepted, ← wired.map_id_sources, List.map_map, List.forall₂_map_left_iff,
      List.forall₂_same]
    exact fun _ _ => rfl
  obtain ⟨params, recorded⟩ := Option.isSome_iff_exists.1 wired.recorded
  rw [toSpec, inputs, paramsSpec, recorded, spec, overrides, recorded]
  rfl

/-- The parameters that come out when a node is read again. -/
def restore [Scalar α] (n : Node α) : Except Fault (Params α) :=
  match n.operator with
  | none => .ok .empty
  | some op => Network.restoreParams op n.spec.params

/-- The node with its parameters as they come out when it is read again. -/
def restored [Scalar α] (n : Node α) : Node α :=
  { n with params := some (n.restore.toOption.getD .empty) }

/-- Restoring parameters keeps wires. -/
lemma keeps_restored [Scalar α] : Keeps (restored : Node α → Node α) :=
  ⟨fun _ => rfl, fun _ => rfl, fun _ => rfl⟩

/-- A named node with a registered operator is read as the settled node with its parameters
restored. -/
lemma nodeOfSpec_eq_ok_iff [Scalar α] {c : Catalog α} {n n' : Node α} (wired : n.Wired)
    (registered : ∀ op, n.operator = some op → op ∈ c.registered) :
    Network.nodeOfSpec c n.spec = .ok n' ↔
      (∃ params, n.restore = .ok params) ∧ n' = n.settle.restored := by
  have inputs : n.spec.inputs.map Ref.id = n.inputs := wired.map_id_sources
  have again : n.settle.restore = n.restore := rfl
  unfold Network.nodeOfSpec
  rw [inputs, restored, again]
  cases op : n.operator with
  | none =>
    have named : n.spec.operator = none := by rw [spec, op]; rfl
    have restores : n.restore = .ok .empty := by rw [restore, op]
    have operator : n.settle.operator = none := op
    rw [named, restores, operator]
    exact ⟨fun eq => ⟨⟨_, rfl⟩, (Except.ok.inj eq).symm⟩, fun ⟨_, eq⟩ => congrArg _ eq.symm⟩
  | some o =>
    have named : n.spec.operator = some o.name := by rw [spec, op]; rfl
    have found : c.get o.name = .ok o := by
      rw [Catalog.get, Catalog.find?_name (registered o op)]
    have looked : (some o.name).mapM c.get = .ok (some o) := by
      rw [Option.mapM_some, found]
      rfl
    have restores : Network.restoreParams o n.spec.params = n.restore := by rw [restore, op]
    have operator : n.settle.operator = some o := op
    rw [named, looked, operator]
    simp only [bind_eq_ok, pure_eq_ok, Except.ok.injEq, exists_eq_left', restores]
    constructor
    · rintro ⟨params, restored, rfl⟩
      rw [restored]
      exact ⟨⟨params, rfl⟩, rfl⟩
    · rintro ⟨⟨params, restored⟩, rfl⟩
      rw [restored]
      exact ⟨params, rfl, rfl⟩

end Node

namespace Network

/-- A network with its operators named and a given output. -/
def spec (g : Network α) (out : Int) : Spec α :=
  { id := g.id, nodes := g.nodes.map Node.spec,
    edges := g.nodes.flatMap fun n => n.sources.mapIdx fun slot source => ⟨source, n.id, slot⟩
    inputIds := g.inputIds, outputId := out,
    bindings := g.bindings.solution.map fun p => (p.1, p.2.toData), metadata := g.metadata.entries }

/-- Among different ids none is repeated. -/
lemma firstRepeated_eq_none {seen ids : List Int} (distinct : ids.Nodup)
    (new : ∀ i ∈ ids, i ∉ seen) : Spec.firstRepeated seen ids = none := by
  induction ids generalizing seen with
  | nil => rfl
  | cons n rest ih =>
    rw [List.nodup_cons] at distinct
    rw [Spec.firstRepeated, if_neg (new n (List.mem_cons_self ..))]
    refine ih distinct.2 fun i hi mem => ?_
    rcases List.mem_cons.1 mem with rfl | old
    · exact distinct.1 hi
    · exact new i (List.mem_cons_of_mem _ hi) old

/-- The sources in a wired network are ids of it. -/
lemma Wired.mem_ids_of_mem_sources {g : Network α} (wired : g.Wired) {n : Node α}
    (mem : n ∈ g.nodes) {i : Int} (source : i ∈ n.sources) : i ∈ g.ids := by
  obtain ⟨r, hr, equals⟩ := List.mem_filterMap.1 source
  obtain ⟨m, hm, rfl, -⟩ := wired.exists_source mem hr
  obtain rfl := Option.some.inj equals
  exact List.mem_map_of_mem hm

/-- The specification of a wired network has no flaws. -/
lemma Wired.flaw?_spec {g : Network α} (wired : g.Wired) (inputIds : ∀ i ∈ g.inputIds, i ∈ g.ids)
    {out : Int} (there : out ∈ g.ids) : (g.spec out).flaw? = none := by
  have ids : (g.spec out).nodes.map (·.id) = g.ids := List.map_map ..
  have present : ∀ i ∈ g.ids, (!g.ids.contains i) = false := fun i hi => by
    rw [List.contains_iff_mem.2 hi]
    rfl
  have distinct : g.ids.Nodup := wired.ascending.imp Int.ne_of_lt
  have repeated : Spec.firstRepeated [] g.ids = none :=
    firstRepeated_eq_none distinct fun _ _ => List.not_mem_nil
  have sources : ((g.spec out).nodes.findSome? fun n =>
      (n.inputs.find? fun i => !g.ids.contains i).map fun i =>
        Flaw.missingSource n.id i (sortedIds g.ids)) = none := by
    refine List.findSome?_eq_none_iff.2 fun s hs => ?_
    obtain ⟨n, hn, rfl⟩ := List.mem_map.1 hs
    have none : n.spec.inputs.find? (fun i => !g.ids.contains i) = none :=
      List.find?_eq_none.2 fun i hi => by
        rw [present i (wired.mem_ids_of_mem_sources hn hi)]
        exact Bool.false_ne_true
    rw [none]
    rfl
  have edges : (g.spec out).edges.find?
      (fun e => !g.ids.contains e.source || !g.ids.contains e.target) = none := by
    refine List.find?_eq_none.2 fun e he => ?_
    obtain ⟨n, hn, mem⟩ := List.mem_flatMap.1 he
    obtain ⟨slot, bound, rfl⟩ := List.mem_mapIdx.1 mem
    simp only [present _ (wired.mem_ids_of_mem_sources hn (List.getElem_mem bound)),
      present n.id (List.mem_map_of_mem hn), Bool.or_self]
    exact Bool.false_ne_true
  have inputs : (g.spec out).inputIds.find? (fun i => !g.ids.contains i) = none :=
    List.find?_eq_none.2 fun i hi => by
      rw [present i (inputIds i hi)]
      exact Bool.false_ne_true
  have output : (!g.ids.contains (g.spec out).outputId) = false := present out there
  unfold Spec.flaw?
  simp only [ids, repeated, sources, edges, inputs, output]
  rfl

/-- A wired network with an output has a specification where its bindings can be written. -/
theorem Wired.toSpec_eq {g : Network α} (wired : g.Wired) (inputIds : ∀ i ∈ g.inputIds, i ∈ g.ids)
    {out : Int} (chosen : g.outputId = some out) (there : out ∈ g.ids) :
    g.toSpec = if g.bindings.hasTerms then .ok (g.spec out) else .error .unwritable := by
  have nodes : (g.nodes.mapM fun n => n.toSpec.toExcept) = .ok (g.nodes.map Node.spec) := by
    rw [mapM_eq_ok, List.forall₂_map_right_iff, List.forall₂_same]
    intro n hn
    rw [(wired.nodes n hn).toSpec_eq]
    rfl
  obtain ⟨n, hn, rfl⟩ := List.mem_map.1 there
  have output : g.output = .ok n := by
    rw [Network.output, chosen]
    exact node_eq_ok.2 (wired.find?_id hn)
  have flaw := wired.flaw?_spec inputIds there
  rw [toSpec, nodes, output]
  simp only [bind, Except.bind, List.flatMap_map]
  cases g.bindings.hasTerms with
  | false => rfl
  | true =>
    change (g.spec n.id).check.toExcept = _
    rw [Spec.check, flaw]
    rfl

variable [Scalar α] {c : Catalog α} {g g' : Network α}

/-- The network of a specification with given nodes, before it is checked. -/
def unchecked (s : Spec α) (nodes : List (Node α)) : Network α :=
  { id := s.id, metadata := .ofList s.metadata, nodes, bindings := .empty,
    nextId := (match nodes.getLast? with
      | some n => n.id
      | none => -1) + 1,
    suffixes := 0, inputIds := s.inputIds, outputId := some s.outputId }

/-- The network with given templates and bindings, and with its known types up to date. -/
def renewed (g : Network α) (template : Node α → PortType) (b : Bindings) (suffixes : Nat) :
    Network α :=
  Network.refresh
    { g with
      nodes := g.nodes.map fun n => { n with template := template n }, bindings := b, suffixes }

/-- The network with what a check derives, which must not find errors. -/
def checked (g : Network α) : Except Fault (Network α) := do
  requireWritable (g.derive.errors.all SlotError.isWritable)
  match g.derive.errors with
  | e :: _ => fail (.slot e)
  | [] =>
    let g' := g.renewed (fun n => (fetch n.id g.derive.templates).getD n.template) g.derive.bindings
      g.derive.templates.length
    requireWritable (g'.nodes.all (·.resolved.hasTerms))
    return g'

omit [Scalar α] in
/-- All known types have terms when the network can be written. -/
lemma all_hasTerms_iff : (g.nodes.all (·.resolved.hasTerms)) = true ↔ g.Writable := by
  rw [List.all_eq_true]
  exact forall₂_congr fun _ _ => PortType.hasTerms_iff

omit [Scalar α] in
/-- A check is passed without errors, and with known types that can be written. -/
lemma checked_eq_ok_iff : g.checked = .ok g' ↔ g.derive.errors = [] ∧ g'.Writable ∧
    g' = g.renewed (fun n => (fetch n.id g.derive.templates).getD n.template) g.derive.bindings
      g.derive.templates.length := by
  rw [checked, requireWritable_bind_eq_ok]
  cases g.derive.errors with
  | cons e rest => exact ⟨fun ⟨_, failed⟩ => absurd failed fail_ne_ok, nofun⟩
  | nil =>
    simp only [requireWritable_bind_eq_ok, pure_eq_ok, all_hasTerms_iff, true_and]
    constructor
    · rintro ⟨-, can, rfl⟩
      exact ⟨can, rfl⟩
    · rintro ⟨can, rfl⟩
      exact ⟨rfl, can, rfl⟩

/-- A specification is read node by node and then checked. -/
lemma ofSpec_eq (s : Spec α) :
    ofSpec c s = (sortBy (fun a b => decide (a.id < b.id)) s.nodes).mapM (nodeOfSpec c) >>=
      fun nodes => (unchecked s nodes).checked :=
  rfl

omit [Scalar α] in
/-- A check of a wired network gives it the names of places where its slots unify. -/
lemma Wired.checked_eq_ok_iff (wired : g.Wired) (output : g.outputId.isSome) :
    g.checked = .ok g' ↔ ∃ b, Bindings.empty.unifySlots? (g.slots places) = some b ∧ g'.Writable ∧
      g' = g.renewed (·.typeUnder places) b g.nodes.length := by
  have derived := wired.derive_checked output
  have length : (placed g.nodes).length = g.nodes.length := List.length_map ..
  have types : g.nodes.map (fun n => { n with
        template := (fetch n.id (placed g.nodes)).getD n.template }) =
      g.nodes.map fun n => { n with template := n.typeUnder places } := by
    refine List.map_congr_left fun n hn => ?_
    rw [placed, fetch_map_of_mem (wired.ascending.imp Int.ne_of_lt) hn]
    rfl
  rw [Network.checked_eq_ok_iff]
  revert derived
  generalize g.derive = d
  cases Bindings.empty.unifySlots? (g.slots places) <;> intro derived <;> cases derived
  case none.refused errors =>
    refine ⟨fun passes => absurd passes.1 errors, ?_⟩
    rintro ⟨b, same, -⟩
    cases same
  case some.accepted b =>
    simp only [renewed, types, length, Option.some.injEq, exists_eq_left', true_and]

/-- The network of the specification of a network, before it is checked: all nodes are settled, with
their parameters restored. -/
def candidate (g : Network α) (out : Int) : Network α :=
  unchecked (g.spec out) (g.settled.nodes.map Node.restored)

/-- What a network becomes when it is read again. -/
def reread (g : Network α) (out : Int) (b : Bindings) : Network α :=
  (g.candidate out).renewed (·.typeUnder places) b g.nodes.length

/-- The specification of a wired network has wired nodes. -/
lemma Wired.candidate (wired : g.Wired) (out : Int) : (g.candidate out).Wired := by
  have mapped := wired.settled.mapNodes Node.keeps_restored fun _ _ => rfl
  refine ⟨mapped.ids, ?_, mapped.nodes⟩
  change (match (g.settled.mapNodes Node.restored).nodes.getLast? with
    | some n => n.id
    | none => -1) + 1 = ((g.settled.mapNodes Node.restored).nodes.length : Int)
  cases last : (g.settled.mapNodes Node.restored).nodes.getLast? with
  | none =>
    rw [List.getLast?_eq_none_iff.1 last]
    rfl
  | some n =>
    have nonempty : (g.settled.mapNodes Node.restored).nodes ≠ [] := fun none => by
      rw [none] at last
      cases last
    have positive := List.length_pos_iff.2 nonempty
    rw [List.getLast?_eq_getElem?] at last
    simp only [mapped.ids _ n last]
    omega

/-- The specification of a network has the slots of the settled network. -/
lemma slots_candidate (out : Int) (names : Int → String) :
    (g.candidate out).slots names = g.settled.slots names :=
  slots_mapNodes (g := g.settled) Node.keeps_restored fun _ _ => rfl

/-- A catalog with all operators of a network reads its specification exactly when the parameters
can be restored, the slots of the settled network unify, and the types that come out can be
written. -/
theorem Wired.ofSpec_eq_ok_iff (wired : g.Wired) (out : Int)
    (registered : ∀ n ∈ g.nodes, ∀ op, n.operator = some op → op ∈ c.registered) :
    ofSpec c (g.spec out) = .ok g' ↔ (∀ n ∈ g.nodes, ∃ params, n.restore = .ok params) ∧
      ∃ b, Bindings.empty.unifySlots? (g.settled.slots places) = some b ∧ g'.Writable ∧
        g' = g.reread out b := by
  have sorted : sortBy (fun a b => decide (a.id < b.id)) (g.spec out).nodes =
      g.nodes.map Node.spec := by
    refine sortBy_of_pairwise (List.pairwise_map.2 ((List.pairwise_map.1 wired.ascending).imp ?_))
    intro m n before
    rw [decide_eq_false_iff_not]
    exact Int.not_lt.2 (Int.le_of_lt before)
  have read : ∀ nodes, (g.nodes.map Node.spec).mapM (nodeOfSpec c) = .ok nodes ↔
      (∀ n ∈ g.nodes, ∃ params, n.restore = .ok params) ∧
        nodes = g.settled.nodes.map Node.restored := by
    intro nodes
    rw [List.mapM_map, Network.settled, Network.mapNodes, List.map_map]
    exact mapM_eq_ok_iff fun n hn _ =>
      Node.nodeOfSpec_eq_ok_iff (wired.nodes n hn) (registered n hn)
  have checked : (g.candidate out).checked = .ok g' ↔ _ :=
    (wired.candidate out).checked_eq_ok_iff rfl
  have length : (g.candidate out).nodes.length = g.nodes.length := by
    rw [Network.candidate, unchecked, List.length_map, Network.settled, Network.mapNodes,
      List.length_map]
  rw [slots_candidate, length] at checked
  rw [ofSpec_eq, sorted, bind_eq_ok]
  constructor
  · rintro ⟨nodes, done, passed⟩
    obtain ⟨restores, rfl⟩ := (read nodes).1 done
    exact ⟨restores, checked.1 passed⟩
  · rintro ⟨restores, unified⟩
    exact ⟨_, (read _).2 ⟨restores, rfl⟩, checked.2 unified⟩

end Network

end OperatorNet
