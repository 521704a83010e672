import OperatorNet.Proofs.Network.Placement

/-!
# Networks as they are built

A network is assembled (`Assembled`) when its uses are labelled and its bindings are satisfied by
exactly those assignments under which all of its slots agree, and well built (`WellBuilt`) when the
types of its nodes are up to date as well. The network without nodes is well built, and every call
that succeeds leaves a network assembled or well built as it was; a use of an operator adds the
slots of its adapters and then its own (`Assembled.addNode`), and brings all types up to date.
-/

namespace OperatorNet.Network

variable {α : Type} {g g' : Network α} {κ κ' : Int → Nat}

/-- The symbols of a labelled network: those of its inputs, and the local names of its uses. -/
def Mentions (g : Network α) (κ : Int → Nat) (s : String) : Prop :=
  (∃ n ∈ g.nodes, n.operator = none ∧ ∃ d ∈ n.template.shape, s ∈ d.symbols) ∨
    ∃ n ∈ g.nodes, n.operator.isSome ∧ ∃ base, s = freshName (toString (κ n.id)) base

/-- A labelled network with bindings that say what its slots say. -/
structure Assembled (g : Network α) (κ : Int → Nat) : Prop extends Labelled g κ where
  below : ∀ n ∈ g.nodes, n.operator.isSome → κ n.id < g.suffixes
  wellFormed : g.bindings.WellFormed
  satisfies_iff : ∀ σ, g.bindings.Satisfies σ ↔
    ∀ p ∈ g.slots (counted κ), PortType.Agree σ p.1 p.2
  within : g.bindings.Within (g.Mentions κ)
  inputIds : g.inputIds = (g.nodes.filter Node.isInput).map (·.id)
  outputId : ∀ id, g.outputId = some id → id ∈ g.ids

/-- All known types are up to date. -/
def UpToDate (g : Network α) : Prop :=
  ∀ n ∈ g.nodes, n.resolved = g.bindings.resolveType n.template

/-- An assembled network with types that are up to date. -/
structure WellBuilt (g : Network α) (κ : Int → Nat) : Prop extends Assembled g κ where
  resolved : g.UpToDate

/-- The local names of a use are mentioned. -/
lemma Mentions.of_use {n : Node α} (mem : n ∈ g.nodes) (uses : n.operator.isSome) (base : String) :
    g.Mentions κ (freshName (toString (κ n.id)) base) :=
  .inr ⟨n, mem, uses, base, rfl⟩

/-- A template has symbols that the network mentions. -/
lemma Labelled.template_within (lab : Labelled g κ) {n : Node α} (mem : n ∈ g.nodes) :
    n.template.Within (g.Mentions κ) := by
  cases op : n.operator with
  | none => exact fun d hd s hs => .inl ⟨n, mem, op, d, hd, hs⟩
  | some o =>
    rw [lab.template n mem, Node.typeUnder, op]
    exact o.outType.freshen_within fun base => .of_use mem (by rw [op]; rfl) base

/-- What a node mentions is mentioned when it is there under the same label. -/
lemma Mentions.mono (nodes : ∀ n ∈ g.nodes, ∃ m ∈ g'.nodes, m.operator = n.operator ∧
      m.template = n.template ∧ (n.operator.isSome → κ' m.id = κ n.id)) {s : String}
    (mentions : g.Mentions κ s) : g'.Mentions κ' s := by
  rcases mentions with ⟨n, hn, none, d, hd, hs⟩ | ⟨n, hn, uses, base, rfl⟩
  · obtain ⟨m, hm, op, template, -⟩ := nodes n hn
    exact .inl ⟨m, hm, op.trans none, d, template ▸ hd, hs⟩
  · obtain ⟨m, hm, op, -, label⟩ := nodes n hn
    rw [← label uses]
    exact .of_use hm (op ▸ uses) base

/-- What becomes of the nodes and their numbers when a use of an operator is added, which has the
given id. -/
structure Adds (g g' : Network α) (κ κ' : Int → Nat) (op : Operator α) (id : Int) : Prop where
  kept : ∀ n ∈ g.nodes, n.refresh g'.bindings ∈ g'.nodes ∧ κ' n.id = κ n.id
  fresh : ∀ n ∈ g'.nodes,
    (∃ m ∈ g.nodes, n = m.refresh g'.bindings) ∨ n.operator.isSome ∧ g.suffixes ≤ κ' n.id
  use : ∃ n ∈ g'.nodes, n.id = id ∧ n.operator = some op
  number : κ' id = g.suffixes

/-- An empty network is well built. -/
lemma WellBuilt.empty (id : String) : WellBuilt (empty id : Network α) κ := by
  have absent : ∀ n, n ∉ (Network.empty id : Network α).nodes := fun n => List.not_mem_nil
  refine ⟨⟨⟨.empty id, fun m hm => absurd hm (absent m), fun n hn => absurd hn (absent n)⟩,
    fun n hn => absurd hn (absent n), .empty, fun σ => ?_, .empty _, rfl, fun _ none =>
      nomatch none⟩, fun n hn => absurd hn (absent n)⟩
  exact ⟨fun _ p hp => absurd hp List.not_mem_nil, fun _ => Bindings.satisfies_empty σ⟩

/-- A new input has no slots. -/
lemma Assembled.addInput (built : Assembled g κ) {name : String} {type : PortType} {id : Int}
    (added : g.addInput name type = .ok (id, g')) :
    ∃ κ', Assembled g' κ' ∧ g'.slots (counted κ') = g.slots (counted κ) := by
  obtain ⟨b, met, rfl, rfl⟩ := addInput_eq_ok added
  let node : Node α := inputNode b g.nextId name type
  have wired : node.Wired := ⟨rfl, nofun, rfl⟩
  have lab : Labelled (g.append node) (Function.update κ g.nextId 0) :=
    built.append wired rfl rfl nofun
  have sameLabel : ∀ n ∈ g.nodes, Function.update κ g.nextId 0 n.id = κ n.id := fun n hn =>
    built.update_of_mem hn 0
  have slots := built.wired.slots_append (counted κ)
    (counted (Function.update κ g.nextId 0)) node
    (fun n hn => congrArg toString (sameLabel n hn)) nofun
  rw [show node.takes _ = [] from rfl, List.zip_nil_left, List.append_nil] at slots
  have old : ∀ n ∈ (g.append node).nodes, n ∈ g.nodes ∨ n = node := fun n hn =>
    (List.mem_append.1 hn).imp_right List.mem_singleton.1
  refine ⟨_, ⟨lab.of_nodes rfl rfl, ?_, ?_, ?_, ?_, ?_, ?_⟩, slots⟩
  · intro n hn uses
    rcases old n hn with there | rfl
    · rw [sameLabel n there]
      exact built.below n there uses
    · cases uses
  · rw [met]
    exact ⟨built.wellFormed.apart, built.wellFormed.proper⟩
  · intro σ
    change b.Satisfies σ ↔ ∀ p ∈ (g.append node).slots _, PortType.Agree σ p.1 p.2
    rw [slots, ← built.satisfies_iff σ, met]
    rfl
  · rw [met]
    refine built.within.mono fun s => Mentions.mono fun n hn => ?_
    exact ⟨n, List.mem_append_left _ hn, rfl, rfl, fun _ => sameLabel n hn⟩
  · change g.inputIds ++ [g.nextId] = ((g.nodes ++ [node]).filter Node.isInput).map (·.id)
    rw [List.filter_append, List.map_append, built.inputIds]
    rfl
  · intro out chosen
    have there := built.outputId out chosen
    exact List.map_subset _ (List.subset_append_left ..) there

/-- Choosing the output keeps a network assembled, with the same slots. -/
lemma Assembled.setOutput (built : Assembled g κ) {id : Int} (set : g.setOutput id = .ok g') :
    Assembled g' κ ∧ g'.slots (counted κ) = g.slots (counted κ) := by
  obtain ⟨mem, rfl⟩ := setOutput_eq_ok set
  refine ⟨⟨built.toLabelled.of_nodes rfl rfl, built.below, built.wellFormed, built.satisfies_iff,
    built.within, built.inputIds, fun out chosen => ?_⟩, rfl⟩
  cases chosen
  exact mem

/-- Choosing the output keeps types up to date. -/
lemma UpToDate.setOutput (current : g.UpToDate) {id : Int} (set : g.setOutput id = .ok g') :
    g'.UpToDate := by
  obtain ⟨-, rfl⟩ := setOutput_eq_ok set
  exact current

/-- An input that is added keeps types up to date. -/
lemma UpToDate.addInput (current : g.UpToDate) {name : String} {type : PortType} {id : Int}
    (added : g.addInput name type = .ok (id, g')) : g'.UpToDate := by
  obtain ⟨b, met, rfl, rfl⟩ := addInput_eq_ok added
  intro n hn
  rcases List.mem_append.1 hn with there | last
  · rw [current n there, met]
    rfl
  · rw [List.mem_singleton.1 last]
    rfl

/-- All known types are up to date after a use of an operator was added. -/
lemma upToDate_addNode [Scalar α] {c : Catalog α} {op : Operator α} {sources : List Int}
    {params : Params α} {id : Int} (added : g.addNode c op sources params = .ok (id, g')) :
    g'.UpToDate := by
  obtain ⟨feeds, b, k, -, -, -, rfl⟩ := addNode_eq_ok added
  intro n hn
  obtain ⟨m, -, rfl⟩ := List.mem_map.1 hn
  rfl

/-- The numbers of uses when one more use is added behind the adapters of feeds, with the number
that was kept for it. -/
def useLabels (g : Network α) (feeds : List (Feed α)) (κ : Int → Nat) : Int → Nat :=
  Function.update κ (g.place feeds).2.nextId g.suffixes

/-- The new use has the number that was kept for it. -/
lemma useLabels_self (g : Network α) (feeds : List (Feed α)) (κ : Int → Nat) :
    g.useLabels feeds κ (g.place feeds).2.nextId = g.suffixes :=
  Function.update_self ..

/-- The nodes after a use are those before, the adapters and the use. -/
lemma mem_nodes_withUse {op : Operator α} {feeds : List (Feed α)} {b : Bindings} {k : Nat}
    {params : Params α} {n : Node α} : n ∈ (g.withUse op feeds b k params).nodes ↔
      n ∈ (g.place feeds).2.nodes ∨
        n = useNode op (g.place feeds).2.nextId (g.place feeds).1 g.suffixes params :=
  List.mem_append.trans (or_congr_right List.mem_singleton)

/-! What a use is added behind are the adapters that are placed for it. -/

namespace Placement

variable {feeds : List (Feed α)} {b : Bindings} {k : Nat} {op : Operator α} {params : Params α}
  (placed : Placement g g κ feeds g.suffixes (g.suffixes + 1) k κ')

include placed

/-- The nodes before the use keep their numbers. -/
lemma useLabels_of_mem {n : Node α} (mem : n ∈ (g.place feeds).2.nodes) :
    g.useLabels feeds κ' n.id = κ' n.id :=
  placed.labelled.update_of_mem mem _

/-- The nodes before the feeds keep their numbers. -/
lemma useLabels_kept {n : Node α} (mem : n ∈ g.nodes) : g.useLabels feeds κ' n.id = κ n.id :=
  (placed.useLabels_of_mem (placed.kept n mem).1).trans (placed.kept n mem).2

/-- A use that is added keeps the nodes of before. -/
lemma kept_withUse {n : Node α} (mem : n ∈ g.nodes) : n ∈ (g.withUse op feeds b k params).nodes :=
  mem_nodes_withUse.2 (.inl (placed.kept n mem).1)

/-- The node of a use is wired, if it has a feed for each input. -/
lemma wired_useNode (arity : op.arity = feeds.length) (params : Params α) :
    (useNode op (g.place feeds).2.nextId (g.place feeds).1 g.suffixes params).Wired := by
  refine ⟨?_, fun r hr => ?_, rfl⟩
  · have types := congrArg List.length placed.types
    rw [List.length_map, List.length_map, ← arity] at types
    exact (List.length_map ..).trans types
  · obtain ⟨i, hi, rfl⟩ := List.mem_map.1 hr
    obtain ⟨n, hn, rfl⟩ := placed.sources i hi
    obtain ⟨j, place, -, -⟩ := placed.labelled.wired.exists_place hn
    exact ⟨j, by rw [place], by rw [← place]; exact placed.labelled.id_lt hn⟩

/-- A use that is added keeps a network labelled. -/
lemma labelled_withUse (arity : op.arity = feeds.length) :
    Labelled (g.withUse op feeds b k params) (g.useLabels feeds κ') := by
  have appended := placed.labelled.append (placed.wired_useNode arity params) rfl rfl
    fun _ m hm uses => (placed.below m hm uses).2
  exact appended.of_nodes rfl rfl

/-- A use adds the slots of the adapters and its own. -/
lemma slots_withUse (op : Operator α) (b : Bindings) (params : Params α) :
    (g.withUse op feeds b k params).slots (counted (g.useLabels feeds κ')) =
      g.slots (counted κ) ++
        (g.adapterSlots (g.suffixes + 1) feeds ++ g.operatorSlots op feeds) := by
  let h : Network α := (g.place feeds).2
  let node : Node α := useNode op h.nextId (g.place feeds).1 g.suffixes params
  have step := placed.labelled.wired.slots_append (counted κ') (counted (g.useLabels feeds κ')) node
    (fun n hn => congrArg toString (placed.useLabels_of_mem hn)) fun r hr => by
      obtain ⟨i, hi, rfl⟩ := List.mem_map.1 hr
      obtain ⟨n, hn, rfl⟩ := placed.sources i hi
      exact ⟨n, hn, rfl⟩
  have takes : node.takes (counted (g.useLabels feeds κ')) =
      op.inTypes.map (·.freshen (toString g.suffixes)) := by
    change op.inTypes.map (·.freshen (toString (g.useLabels feeds κ' h.nextId))) = _
    rw [useLabels_self]
  have reads : node.inputs.map (h.typeAt (counted κ')) = feeds.map g.feedType := by
    rw [← placed.types]
    exact List.map_map
  change (h.append node).slots _ = _
  rw [step, takes, reads, placed.slots, List.append_assoc]
  rfl

/-- A use that is added keeps what is mentioned. -/
lemma mentions_withUse {s : String} (mentions : g.Mentions κ s) :
    (g.withUse op feeds b k params).Mentions (g.useLabels feeds κ') s := by
  refine mentions.mono fun n hn => ?_
  exact ⟨n, placed.kept_withUse hn, rfl, rfl, fun _ => placed.useLabels_kept hn⟩

/-- The bindings mention what the network with the use mentions: its local names are those of the
slots that were fed, and each number in between is the number of an adapter. -/
lemma within_withUse (built : Assembled g κ) {adapters : List (Operator α)} {sources : List Int}
    (fed : Feeds g adapters g.bindings (g.suffixes + 1) (g.openSlots op sources) feeds b k)
    (params : Params α) :
    b.Within ((g.withUse op feeds b k params).Mentions (g.useLabels feeds κ')) := by
  refine fed.within (built.within.mono fun s => placed.mentions_withUse) ?_ ?_ ?_
  · intro p hp
    obtain ⟨t, -, eq⟩ := List.mem_map.1 (List.of_mem_zip hp).1
    rw [← eq]
    refine t.freshen_within fun base => ?_
    let node : Node α := useNode op (g.place feeds).2.nextId (g.place feeds).1 g.suffixes params
    have there : node ∈ (g.withUse op feeds b k params).nodes := mem_nodes_withUse.2 (.inr rfl)
    have own : (g.withUse op feeds b k params).Mentions (g.useLabels feeds κ') _ :=
      .of_use there rfl base
    rwa [show node.id = (g.place feeds).2.nextId from rfl, useLabels_self] at own
  · exact fun n hn d hd s hs => placed.mentions_withUse (built.template_within hn d hd s hs)
  · intro a _ t _ j low high
    obtain ⟨n, hn, uses, rfl⟩ := placed.numbers j low high
    rw [← placed.useLabels_of_mem hn]
    exact t.freshen_within (.of_use (mem_nodes_withUse.2 (.inl hn)) uses)

/-- The numbers stay below the next one. -/
lemma below_withUse (le : g.suffixes < k) : ∀ n ∈ (g.withUse op feeds b k params).nodes,
    n.operator.isSome → g.useLabels feeds κ' n.id < k := by
  intro n hn uses
  rcases mem_nodes_withUse.1 hn with there | rfl
  · rw [placed.useLabels_of_mem there]
    exact (placed.below n there uses).1
  · rw [useNode, useLabels_self]
    exact le

/-- After a use the listed inputs are still the nodes without an operator. -/
lemma inputIds_withUse (inputs : g.inputIds = (g.nodes.filter Node.isInput).map (·.id)) :
    (g.withUse op feeds b k params).refresh.inputIds =
      ((g.withUse op feeds b k params).refresh.nodes.filter Node.isInput).map (·.id) := by
  let node : Node α := useNode op (g.place feeds).2.nextId (g.place feeds).1 g.suffixes params
  have same : (g.withUse op feeds b k params).refresh.nodes.filter Node.isInput =
      (g.nodes.filter Node.isInput).map (Node.refresh b) := by
    rw [← placed.inputs]
    change (((g.place feeds).2.nodes ++ [node]).map (Node.refresh b)).filter Node.isInput = _
    rw [List.filter_map, List.filter_append]
    exact congrArg _ (List.append_nil _)
  rw [same, List.map_map]
  change (g.place feeds).2.inputIds = _
  rw [place_eq]
  exact inputs

/-- The output stays a node of the network. -/
lemma outputId_withUse {out : Int} (output : ∀ id, g.outputId = some id → id ∈ g.ids)
    (chosen : (g.withUse op feeds b k params).refresh.outputId = some out) :
    out ∈ (g.withUse op feeds b k params).refresh.ids := by
  change (g.place feeds).2.outputId = some out at chosen
  rw [place_eq] at chosen
  obtain ⟨n, hn, rfl⟩ := List.mem_map.1 (output out chosen)
  exact List.mem_map.2 ⟨n.refresh b, List.mem_map_of_mem (placed.kept_withUse hn), rfl⟩

/-- The network with a use adds the use to the one before. -/
lemma adds_withUse : Adds g (g.withUse op feeds b k params).refresh κ (g.useLabels feeds κ') op
    (g.place feeds).2.nextId := by
  refine ⟨fun n hn => ?_, fun n hn => ?_, ?_, useLabels_self ..⟩
  · exact ⟨List.mem_map_of_mem (placed.kept_withUse hn), placed.useLabels_kept hn⟩
  · obtain ⟨m, hm, rfl⟩ := List.mem_map.1 hn
    rcases mem_nodes_withUse.1 hm with there | rfl
    · refine (placed.fresh m there).imp (fun before => ⟨m, before, rfl⟩)
        (And.imp_right fun new => ?_)
      exact Nat.le_of_succ_le (new.trans_eq (placed.useLabels_of_mem there).symm)
    · exact .inr ⟨rfl, (useLabels_self g feeds κ').ge⟩
  · exact ⟨_, List.mem_map_of_mem (mem_nodes_withUse.2 (.inr rfl)), rfl, rfl⟩

end Placement

/-- A use of an operator adds the slots of the adapters that are put in and then its own. -/
lemma Assembled.addNode [Scalar α] {c : Catalog α} (built : Assembled g κ)
    (unary : ∀ a ∈ c.adapters, a.arity = 1) {op : Operator α} {sources : List Int}
    {params : Params α} {id : Int} (added : g.addNode c op sources params = .ok (id, g')) :
    ∃ κ' feeds b k, Assembled g' κ' ∧
      g.feed c.adapters 0 g.bindings (g.suffixes + 1) (g.openSlots op sources) = .ok (feeds, b, k) ∧
      g'.slots (counted κ') = g.slots (counted κ) ++
        (g.adapterSlots (g.suffixes + 1) feeds ++ g.operatorSlots op feeds) ∧
      Adds g g' κ κ' op id := by
  obtain ⟨feeds, b, k, arity, given, rfl, rfl⟩ := addNode_eq_ok added
  have fed := feeds_of_feed given
  obtain ⟨κ₁, placed⟩ := fed.placement built.wired unary built.toLabelled (fun _ hn => hn)
    (r := g.suffixes) (fun n hn uses => by have := built.below n hn uses; omega)
    (Nat.lt_succ_self _)
  have length : (op.inTypes.map (·.freshen (toString g.suffixes))).length = sources.length := by
    rw [List.length_map, arity]
    rfl
  have feedsLength : op.arity = feeds.length := by
    rw [fed.length_eq, openSlots, List.length_zip, length, Nat.min_self, arity]
  have refines := fed.refines built.wired built.wellFormed
  have openTypes : (g.openSlots op sources).map Prod.fst =
      op.inTypes.map (·.freshen (toString g.suffixes)) :=
    List.map_fst_zip (Nat.le_of_eq length)
  have slots := placed.slots_withUse op b params
  refine ⟨g.useLabels feeds κ₁, feeds, b, k, ⟨(placed.labelled_withUse feedsLength).refresh, ?_,
    ⟨refines.wellFormed.apart, refines.wellFormed.proper⟩, fun σ => ?_, ?_,
    placed.inputIds_withUse built.inputIds, fun _ => placed.outputId_withUse built.outputId⟩,
    given, ?_, placed.adds_withUse⟩
  · intro n hn uses
    obtain ⟨m, hm, rfl⟩ := List.mem_map.1 hn
    exact placed.below_withUse fed.le m hm uses
  · rw [slots_refresh, slots, List.forall_mem_append, List.forall_mem_append,
      ← built.satisfies_iff]
    change b.Satisfies σ ↔ _
    rw [refines.satisfies_iff, openTypes]
    rfl
  · refine (placed.within_withUse built fed params).mono fun s => Mentions.mono fun n hn => ?_
    exact ⟨n.refresh b, List.mem_map_of_mem hn, rfl, rfl, fun _ => rfl⟩
  · rw [slots_refresh, slots]

end OperatorNet.Network
