import OperatorNet.Proofs.Network.Edits
import OperatorNet.Proofs.Network.Exchange
import OperatorNet.Proofs.Network.Validation
import OperatorNet.Proofs.Sorting

/-!
# Inputs of networks

A network is grounded (`Network.Grounded`) when its nodes without operator are the inputs that it
lists, each once, under different names and without inputs of their own, when its operators read
from nodes that are there, and when the next id is a new one. Networks that are built by calls are
grounded. A network that is read from a specification reads from nodes that are there and has a new
next id, but what it lists as inputs is taken as it is: it is grounded exactly when the
specification designates its inputs (`Spec.Designates`, `grounded_ofSpec_iff`), as the specification
of a network that was built by calls does.
-/

namespace OperatorNet

variable {α : Type}

/-- A specification whose nodes without operator are the inputs that it lists, each once, under
different names and without inputs of their own. -/
structure Spec.Designates (s : Spec α) : Prop where
  listed : ∀ i, i ∈ s.inputIds ↔ ∃ n ∈ s.nodes, n.id = i ∧ n.operator = none
  once : s.inputIds.Nodup
  sourceless : ∀ n ∈ s.nodes, n.operator = none → n.inputs = []
  named : ∀ m ∈ s.nodes, ∀ n ∈ s.nodes, m.operator = none → n.operator = none → m.name = n.name →
    m.id = n.id

/-- In a specification without flaws all sources are listed. -/
lemma Spec.sources_of_flaw? {s : Spec α} (flawless : s.flaw? = none) {n : NodeSpec α}
    (mem : n ∈ s.nodes) {i : Int} (source : i ∈ n.inputs) : ∃ m ∈ s.nodes, m.id = i := by
  simp only [Spec.flaw?, Option.orElse_eq_none, Option.map_eq_none_iff] at flawless
  have present := List.find?_eq_none.1
    (Option.map_eq_none_iff.1 (List.findSome?_eq_none_iff.1 flawless.2.1 n mem)) i source
  rw [Bool.not_eq_true, Bool.not_eq_false', List.contains_iff_mem] at present
  exact List.mem_map.1 present

namespace Network

/-- Inputs are told apart by their names. -/
def NamesInputs (g : Network α) : Prop :=
  ∀ m ∈ g.nodes, ∀ n ∈ g.nodes, m.operator = none → n.operator = none → m.name = n.name →
    m.id = n.id

/-- The nodes without operator are the inputs that are listed, operators read from nodes that are
there, and the next id is new. -/
structure Grounded (g : Network α) : Prop where
  listed : ∀ i, i ∈ g.inputIds ↔ ∃ n ∈ g.nodes, n.id = i ∧ n.operator = none
  once : g.inputIds.Nodup
  sourceless : ∀ n ∈ g.nodes, n.operator = none → n.inputs = []
  named : g.NamesInputs
  sources : ∀ n ∈ g.nodes, n.operator.isSome → ∀ r ∈ n.inputs, ∃ m ∈ g.nodes, r = .id m.id
  next : ∀ n ∈ g.nodes, n.id < g.nextId

variable {g g' : Network α} {κ : Int → Nat}

section Built

/-- The listed inputs are the nodes without an operator. -/
lemma Assembled.mem_inputIds_iff (built : Assembled g κ) {i : Int} :
    i ∈ g.inputIds ↔ ∃ n ∈ g.nodes, n.id = i ∧ n.operator = none := by
  rw [built.inputIds, List.mem_map]
  simp only [List.mem_filter, Node.isInput, Option.isNone_iff_eq_none]
  exact exists_congr fun n => and_assoc.trans (and_congr_right fun _ => and_comm)

/-- A well built network with different names for its inputs is grounded. -/
lemma Assembled.grounded (built : Assembled g κ) (named : g.NamesInputs) : g.Grounded := by
  refine ⟨fun i => built.mem_inputIds_iff, ?once, ?sourceless, named, ?sources,
    fun n hn => built.id_lt hn⟩
  case once =>
    rw [built.inputIds]
    exact built.wired.nodup.sublist (List.filter_sublist.map _)
  case sourceless =>
    intro n hn none
    have arity := (built.wired.nodes n hn).arity
    rw [none] at arity
    exact List.length_eq_zero_iff.1 arity
  case sources =>
    intro n hn _ r hr
    obtain ⟨m, hm, eq, -⟩ := built.wired.exists_source hn hr
    exact ⟨m, hm, eq⟩

/-- The name of an added input is new. -/
lemma Assembled.name_ne_of_addInput (built : Assembled g κ) {name : String} {type : PortType}
    {id : Int} (added : g.addInput name type = .ok (id, g')) {n : Node α} (mem : n ∈ g.nodes)
    (input : n.operator = none) : n.name ≠ name := by
  rw [Network.addInput] at added
  split at added
  next => exact absurd added fail_ne_ok
  next new =>
    intro same
    refine new (List.any_eq_true.2 ⟨n, List.mem_filter.2 ⟨mem, ?_⟩, decide_eq_true same⟩)
    exact decide_eq_true (built.mem_inputIds_iff.2 ⟨n, mem, rfl, input⟩)

variable [Scalar α] {c : Catalog α}

/-- Inputs keep names of their own by attempts that succeed. -/
lemma NamesInputs.attempt (names : g.NamesInputs) (built : Assembled g κ) (reachable : c.Reachable)
    {step : Call α} (done : g.attempt c step = .ok g') : g'.NamesInputs := by
  cases does_of_attempt done with
  | @input name _ _ _ added =>
    have new : ∀ n ∈ g.nodes, n.operator = none → n.name ≠ name := fun n =>
      built.name_ne_of_addInput added
    obtain ⟨b, -, -, rfl⟩ := addInput_eq_ok added
    intro m hm n hn none none' same
    rcases List.mem_append.1 hm with old | last <;> rcases List.mem_append.1 hn with old' | last'
    · exact names m old n old' none none' same
    · rw [List.mem_singleton.1 last'] at same
      exact absurd same (new m old none)
    · rw [List.mem_singleton.1 last] at same
      exact absurd same.symm (new n old' none')
    · rw [List.mem_singleton.1 last, List.mem_singleton.1 last']
  | node _ added =>
    obtain ⟨κ', -, -, -, -, -, -, adds⟩ := built.addNode (fun _ => reachable.adapter_arity) added
    -- the new nodes are uses of operators, and what is told apart are nodes without one
    have old : ∀ n ∈ g'.nodes, n.operator = none → ∃ m ∈ g.nodes, n = m.refresh g'.bindings := by
      intro n hn none
      refine (adds.fresh n hn).resolve_right fun ⟨uses, _⟩ => ?_
      rw [none] at uses
      cases uses
    intro m hm n hn none none' same
    obtain ⟨m₀, hm₀, rfl⟩ := old m hm none
    obtain ⟨n₀, hn₀, rfl⟩ := old n hn none'
    exact names m₀ hm₀ n₀ hn₀ none none' same
  | output set =>
    obtain ⟨-, rfl⟩ := setOutput_eq_ok set
    exact names

omit [Scalar α] in
/-- Inputs have names of their own when those of a network with the same outline do. -/
lemma NamesInputs.of_outline (names : g.NamesInputs) (same : g'.outline = g.outline) :
    g'.NamesInputs := by
  have outlined (h : Network α) : h.outline.NamesInputs ↔ h.NamesInputs := by
    refine List.forall_mem_map.trans (forall₂_congr fun m _ => ?_)
    exact List.forall_mem_map
  rw [← outlined, same, outlined]
  exact names

/-- Whatever the calls, the network is grounded. -/
lemma grounded_performAll (reachable : c.Reachable) (id : String) (calls : List (Call α)) :
    (performAll c (empty id) calls).2.Grounded := by
  have empty : WellBuilt (empty id : Network α) fun _ => 0 := .empty id
  obtain ⟨named, κ, built⟩ := performAll_induction reachable (P := NamesInputs)
    (fun _ _ _ _ stops _ names => names.of_outline stops.outline)
    (fun _ _ _ _ _ built names done => names.attempt built reachable done)
    empty.toAssembled fun m hm => absurd hm List.not_mem_nil
  exact built.grounded named

end Built

/-- The specification of a grounded network designates its inputs. -/
lemma Grounded.designates_spec (grounded : g.Grounded) (out : Int) : (g.spec out).Designates := by
  have inputs : ∀ n : Node α, n.spec.operator = none ↔ n.operator = none := fun n =>
    Option.map_eq_none_iff
  refine ⟨fun i => (grounded.listed i).trans ?_, grounded.once, ?_, ?_⟩
  · constructor
    · rintro ⟨n, hn, id, none⟩
      exact ⟨n.spec, List.mem_map_of_mem hn, id, (inputs n).2 none⟩
    · rintro ⟨_, mem, id, none⟩
      obtain ⟨n, hn, rfl⟩ := List.mem_map.1 mem
      exact ⟨n, hn, id, (inputs n).1 none⟩
  · refine List.forall_mem_map.2 fun n hn none => ?_
    change n.inputs.filterMap Ref.id? = []
    rw [grounded.sourceless n hn ((inputs n).1 none)]
    rfl
  · refine List.forall_mem_map.2 fun m hm => List.forall_mem_map.2 fun n hn none none' => ?_
    exact grounded.named m hm n hn ((inputs m).1 none) ((inputs n).1 none')

section Loaded

variable {s : Spec α}

/-- A network with the nodes of a specification and the inputs that it lists. -/
structure LoadedFrom (g : Network α) (s : Spec α) : Prop where
  nodes : ∀ n ∈ g.nodes, ∃ d ∈ s.nodes, d.Describes n
  described : ∀ d ∈ s.nodes, ∃ n ∈ g.nodes, d.Describes n
  inputIds : g.inputIds = s.inputIds
  next : ∀ n ∈ g.nodes, n.id < g.nextId

/-- The last of nodes in order has the largest id. -/
lemma id_le_getLast {nodes : List (Node α)} (ascending : nodes.Pairwise fun m n => m.id ≤ n.id)
    {n : Node α} (mem : n ∈ nodes) {last : Node α} (ends : nodes.getLast? = some last) :
    n.id ≤ last.id := by
  obtain ⟨front, rfl⟩ := List.getLast?_eq_some_iff.1 ends
  rcases List.mem_append.1 mem with before | same
  · exact (List.pairwise_append.1 ascending).2.2 n before last (List.mem_singleton_self last)
  · rw [List.mem_singleton.1 same]

/-- The next id of a network that is not checked yet is above the ids of its nodes. -/
lemma id_lt_nextId_unchecked {nodes : List (Node α)}
    (ascending : nodes.Pairwise fun m n => m.id ≤ n.id) {n : Node α} (mem : n ∈ nodes) :
    n.id < (unchecked s nodes).nextId := by
  cases ends : nodes.getLast? with
  | none =>
    rw [List.getLast?_eq_none_iff.1 ends] at mem
    exact absurd mem List.not_mem_nil
  | some last =>
    have next : (unchecked s nodes).nextId = last.id + 1 := by
      simp only [unchecked, ends]
    rw [next]
    exact Int.lt_add_one_of_le (id_le_getLast ascending mem ends)

/-- Nodes sorted by their ids ascend. -/
lemma ascending_sortBy_id (nodes : List (NodeSpec α)) :
    (sortBy (fun a b => decide (a.id < b.id)) nodes).Pairwise fun m n => m.id ≤ n.id := by
  have ranks : Ranks fun a b : NodeSpec α => decide (a.id < b.id) := by
    refine ⟨fun a b before => ?_, fun a b c later later' => ?_⟩
    · rw [decide_eq_true_eq] at before
      rw [decide_eq_false_iff_not]
      omega
    · rw [decide_eq_false_iff_not] at later later' ⊢
      omega
  exact (ranks.inOrder_sortBy nodes).imp fun later => Int.not_lt.1 (of_decide_eq_false later)

/-- A network that is read from a specification is loaded from it. -/
lemma loadedFrom_of_ofSpec [Scalar α] {c : Catalog α} (read : ofSpec c s = .ok g) :
    g.LoadedFrom s := by
  rw [ofSpec_eq, bind_eq_ok] at read
  obtain ⟨nodes, looked, passes⟩ := read
  rw [mapM_eq_ok] at looked
  have described := looked.imp fun _ _ own => describes_of_nodeOfSpec own
  have sorted := perm_sortBy (fun a b : NodeSpec α => decide (a.id < b.id)) s.nodes
  have ascending : nodes.Pairwise fun m n => m.id ≤ n.id := by
    rw [← List.pairwise_map (f := Node.id), map_id_of_describes described, List.pairwise_map]
    exact ascending_sortBy_id s.nodes
  obtain ⟨-, -, rfl⟩ := checked_eq_ok_iff.1 passes
  refine ⟨fun n hn => ?_, fun d hd => ?_, rfl, fun n hn => ?_⟩
  · obtain ⟨_, mem, rfl⟩ := List.mem_map.1 hn
    obtain ⟨m, hm, rfl⟩ := List.mem_map.1 mem
    obtain ⟨d, hd, own⟩ := exists_of_mem_forall₂ described hm
    exact ⟨d, sorted.mem_iff.1 hd, own.id, own.name, own.operator, own.inputs⟩
  · obtain ⟨m, hm, own⟩ := exists_of_mem_forall₂ described.flip (sorted.mem_iff.2 hd)
    exact ⟨_, List.mem_map_of_mem (List.mem_map_of_mem hm), own.id, own.name, own.operator,
      own.inputs⟩
  · obtain ⟨_, mem, rfl⟩ := List.mem_map.1 hn
    obtain ⟨m, hm, rfl⟩ := List.mem_map.1 mem
    have below : m.id < (unchecked s nodes).nextId := id_lt_nextId_unchecked ascending hm
    exact below

namespace LoadedFrom

variable (loaded : g.LoadedFrom s)

include loaded

/-- A loaded network has the inputs of the specification. -/
lemma exists_input_iff {i : Int} : (∃ n ∈ g.nodes, n.id = i ∧ n.operator = none) ↔
    ∃ d ∈ s.nodes, d.id = i ∧ d.operator = none := by
  constructor
  · rintro ⟨n, hn, rfl, none⟩
    obtain ⟨d, hd, own⟩ := loaded.nodes n hn
    exact ⟨d, hd, own.id.symm, own.operator.1 none⟩
  · rintro ⟨d, hd, rfl, none⟩
    obtain ⟨n, hn, own⟩ := loaded.described d hd
    exact ⟨n, hn, own.id, own.operator.2 none⟩

/-- The nodes of a loaded network read from nodes that are there. -/
lemma sources (flawless : s.flaw? = none) {n : Node α} (mem : n ∈ g.nodes) {r : Ref}
    (read : r ∈ n.inputs) : ∃ m ∈ g.nodes, r = .id m.id := by
  obtain ⟨d, hd, own⟩ := loaded.nodes n mem
  rw [own.inputs] at read
  obtain ⟨i, source, rfl⟩ := List.mem_map.1 read
  obtain ⟨e, he, rfl⟩ := Spec.sources_of_flaw? flawless hd source
  obtain ⟨m, hm, other⟩ := loaded.described e he
  exact ⟨m, hm, congrArg Ref.id other.id.symm⟩

/-- A loaded network is grounded exactly when its specification designates its inputs. -/
lemma grounded_iff (flawless : s.flaw? = none) : g.Grounded ↔ s.Designates := by
  constructor
  -- what the document says of an entry and what the graph says of its node is the same, both ways
  · intro grounded
    refine ⟨fun i => ?listed, loaded.inputIds ▸ grounded.once, ?sourceless, ?named⟩
    case listed => rw [← loaded.inputIds, grounded.listed, loaded.exists_input_iff]
    case sourceless =>
      intro d hd none
      obtain ⟨n, hn, own⟩ := loaded.described d hd
      have empty := grounded.sourceless n hn (own.operator.2 none)
      rwa [own.inputs, List.map_eq_nil_iff] at empty
    case named =>
      intro d hd e he none none' same
      obtain ⟨m, hm, own⟩ := loaded.described d hd
      obtain ⟨n, hn, own'⟩ := loaded.described e he
      rw [← own.id, ← own'.id]
      refine grounded.named m hm n hn (own.operator.2 none) (own'.operator.2 none') ?_
      rw [own.name, own'.name, same]
  · intro designates
    refine ⟨fun i => ?listed, loaded.inputIds ▸ designates.once, ?sourceless, ?named,
      fun n hn _ r hr => loaded.sources flawless hn hr, loaded.next⟩
    case listed => rw [loaded.inputIds, designates.listed, loaded.exists_input_iff]
    case sourceless =>
      intro n hn none
      obtain ⟨d, hd, own⟩ := loaded.nodes n hn
      rw [own.inputs, designates.sourceless d hd (own.operator.1 none)]
      rfl
    case named =>
      intro m hm n hn none none' same
      obtain ⟨d, hd, own⟩ := loaded.nodes m hm
      obtain ⟨e, he, own'⟩ := loaded.nodes n hn
      rw [own.id, own'.id]
      refine designates.named d hd e he (own.operator.1 none) (own'.operator.1 none') ?_
      rw [← own.name, ← own'.name, same]

end LoadedFrom

end Loaded

/-- A specification that is written has no flaws. -/
lemma Assembled.flaw?_of_toSpec (built : Assembled g κ) {s : Spec α} (written : g.toSpec = .ok s) :
    s.flaw? = none ∧ ∃ out, s = g.spec out := by
  cases chosen : g.outputId with
  | none =>
    simp only [toSpec, output, chosen, bind_eq_ok] at written
    obtain ⟨_, -, _, found, -⟩ := written
    exact absurd found fail_ne_ok
  | some out =>
    obtain ⟨-, rfl⟩ := (built.toSpec_eq_ok_iff chosen).1 written
    exact ⟨built.wired.flaw?_spec built.mem_ids_of_mem_inputIds
      (built.outputId out chosen), out, rfl⟩

/-- Networks that are built by calls are grounded. A network that is read from a specification
without flaws reads from nodes that are there, has a new next id, and is grounded exactly when the
specification designates its inputs; so it is grounded when the specification was written for a
network that was built by calls. -/
theorem grounded_ofSpec_iff [Scalar α] {c : Catalog α} (reachable : c.Reachable) :
    (∀ id calls, (performAll c (empty id) calls).2.Grounded) ∧
      (∀ s g, s.flaw? = none → ofSpec c s = .ok g →
        (∀ n ∈ g.nodes, ∀ r ∈ n.inputs, ∃ m ∈ g.nodes, r = .id m.id) ∧
          (∀ n ∈ g.nodes, n.id < g.nextId) ∧ (g.Grounded ↔ s.Designates)) ∧
      ∀ id calls s g, (performAll c (empty id) calls).2.toSpec = .ok s → ofSpec c s = .ok g →
        g.Grounded := by
  refine ⟨grounded_performAll reachable, fun s g flawless read => ?loaded,
    fun id calls s g written read => ?again⟩
  case loaded =>
    have loaded := loadedFrom_of_ofSpec read
    exact ⟨fun n hn r hr => loaded.sources flawless hn hr, loaded.next,
      loaded.grounded_iff flawless⟩
  case again =>
    obtain ⟨κ, built⟩ := assembled_performAll reachable id calls
    obtain ⟨flawless, out, rfl⟩ := built.flaw?_of_toSpec written
    have grounded := grounded_performAll reachable id calls
    exact ((loadedFrom_of_ofSpec read).grounded_iff flawless).2 (grounded.designates_spec out)

namespace Sample

/-- A node without operator that is no listed input. -/
def unlisted : Spec Float :=
  { id := "graph", nodes := [⟨0, "x", none, [], typeOf "path" [], [], false⟩], edges := [],
    inputIds := [], outputId := 0, bindings := [], metadata := [] }

end Sample

open Sample in
/-- A network is grounded, and so is what is read from its specification. -/
theorem grounded_lengthened :
    let g := (performAll sizing (empty "g") (sized lengthen)).2
    sizing.Reachable ∧ g.Grounded ∧
      ∃ s g', g.toSpec = .ok s ∧ s.flaw? = none ∧ ofSpec sizing s = .ok g' ∧ s.Designates ∧
        g'.Grounded := by
  intro g
  obtain ⟨κ, assembled⟩ := assembled_performAll reachable_sizing "g" (sized lengthen)
  have chosen : g.outputId = some 1 := by decide +kernel
  have written : g.toSpec = .ok (g.spec 1) :=
    (assembled.toSpec_eq_ok_iff chosen).2 ⟨by decide +kernel, rfl⟩
  have flawless : (g.spec 1).flaw? = none := Option.isNone_iff_eq_none.1 (by decide +kernel)
  have reads : (ofSpec sizing (g.spec 1)).toOption.isSome := by decide +kernel
  obtain ⟨g', read⟩ := Option.isSome_iff_exists.1 reads
  rw [toOption_eq_some] at read
  obtain ⟨built, loaded, again⟩ := grounded_ofSpec_iff reachable_sizing
  have grounded := again "g" (sized lengthen) _ g' written read
  exact ⟨reachable_sizing, built "g" (sized lengthen), _, g', written, flawless, read,
    (loaded _ g' flawless read).2.2.1 grounded, grounded⟩

open Sample in
/-- A specification that does not list its input is read, and the network does not list it
either. -/
theorem grounded_ofSpec_ne_unlisted :
    unlisted.flaw? = none ∧ ∃ g, ofSpec halving unlisted = .ok g ∧
      (∃ n ∈ g.nodes, n.operator = none) ∧ g.inputIds = [] ∧ ¬ g.Grounded := by
  have flawless : unlisted.flaw? = none := Option.isNone_iff_eq_none.1 (by decide +kernel)
  have reads : (ofSpec halving unlisted).toOption.isSome := by decide +kernel
  obtain ⟨g, read⟩ := Option.isSome_iff_exists.1 reads
  rw [toOption_eq_some] at read
  have loaded := loadedFrom_of_ofSpec read
  obtain ⟨n, hn, own⟩ := loaded.described _ (List.mem_singleton_self _)
  have none : n.operator = none := own.operator.2 rfl
  refine ⟨flawless, g, read, ⟨n, hn, none⟩, loaded.inputIds, fun grounded => ?_⟩
  have listed := (grounded.listed n.id).2 ⟨n, hn, rfl, none⟩
  rw [loaded.inputIds] at listed
  exact absurd listed List.not_mem_nil

end Network

end OperatorNet
