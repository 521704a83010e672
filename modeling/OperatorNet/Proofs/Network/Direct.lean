import OperatorNet.Proofs.Bindings.History
import OperatorNet.Proofs.Network.Construction
import OperatorNet.Proofs.PortType.Agreement
import OperatorNet.Proofs.Search.Values

/-!
# Networks without adapters

Where nothing is put in between, an operator of one input is added to a network just when it takes
what the source resolves to, and its node resolves to the type of its value
(`Direct.addNode_of_value`, `Direct.value_of_addNode`). So a network built in this way can be
followed node by node without its bindings.
-/

namespace OperatorNet.Network

open PortType

variable {α : Type}

/-- A symbol that was given, or a local name of one of the first uses. -/
def Introduced (given : String → Prop) (k : Nat) (s : String) : Prop :=
  given s ∨ ∃ j < k, ∃ base, s = freshName (toString j) base

/-- A network into which nothing was put in between, over given symbols and those of its uses. -/
structure Direct (given : String → Prop) (g : Network α) : Prop where
  wired : g.Wired
  bound : g.bindings.WellFormed
  within : g.bindings.Within (Introduced given g.suffixes)
  templates : ∀ n ∈ g.nodes, n.template.Within (Introduced given g.suffixes)
  direct : ∀ n ∈ g.nodes, n.inserted = false

/-- What a node resolves to. -/
def value (g : Network α) (n : Node α) : PortType :=
  g.bindings.resolveType n.template

/-- What a use of an operator that reads from one node makes of a network. -/
def withDirect (g : Network α) (op : Operator α) (n : Node α) (b : Bindings) (params : Params α) :
    Network α :=
  (g.withUse op [.direct n.id] b (g.suffixes + 1) params).refresh

/-- The node of such a use. -/
def directNode (g : Network α) (op : Operator α) (n : Node α) (b : Bindings) (params : Params α) :
    Node α :=
  (useNode op g.nextId [n.id] g.suffixes params).refresh b

section

variable {g g' : Network α} {given : String → Prop} {op : Operator α} {n : Node α} {b : Bindings}
  {params : Params α} {t : PortType} {id : Int}

/-- A direct use adds one node and brings the others up to date. -/
lemma nodes_withDirect : (g.withDirect op n b params).nodes =
    g.nodes.map (Node.refresh b) ++ [g.directNode op n b params] :=
  List.map_append ..

/-- Symbols that were introduced by some uses were so by more of them. -/
lemma Introduced.mono {k k' : Nat} (le : k ≤ k') {s : String} (introduced : Introduced given k s) :
    Introduced given k' s :=
  introduced.imp_right fun ⟨j, less, named⟩ => ⟨j, Nat.lt_of_lt_of_le less le, named⟩

/-- The symbols of a new use have not been introduced. -/
lemma not_introduced (plain : ∀ s, given s → '#' ∉ s.toList) {k : Nat} (base : String) :
    ¬ Introduced given k (freshName (toString k) base) := by
  rintro (known | ⟨j, less, base', same⟩)
  · exact plain _ known (numberSign_mem_freshName _ _)
  · have := toString_inj (freshName_inj (plainSuffix_toString k) (plainSuffix_toString j) same).1
    omega

/-- The network with one input only. -/
def onInput (id name : String) (t : PortType) : Network α :=
  let b := (Network.empty id : Network α).bindings.meet (t.shape.flatMap Dim.symbols)
  { (Network.empty id).append (inputNode b 0 name t) with bindings := b, inputIds := [0] }

/-- The node of the only input. -/
def soleInput (name : String) (t : PortType) : Node α :=
  inputNode (Bindings.empty.meet (t.shape.flatMap Dim.symbols)) 0 name t

/-- The first input of a network gets the id zero. -/
lemma addInput_empty (id name : String) (t : PortType) :
    (Network.empty id : Network α).addInput name t = .ok (0, onInput id name t) :=
  rfl

/-- A network on an input has one node. -/
lemma nodes_onInput (id name : String) (t : PortType) :
    (onInput id name t : Network α).nodes = [soleInput name t] :=
  rfl

/-- The sole input has the type that is given. -/
lemma value_soleInput (id name : String) (t : PortType) :
    (onInput id name t : Network α).value (soleInput name t) = t :=
  (mapDims_congr fun _ _ => rfl).trans (congrArg (fun shape => { t with shape }) (List.map_id' _))

/-- One slot is fed directly or through an adapter. -/
lemma feeds_singleton {adapters : List (Operator α)} {b' : Bindings} {k k' : Nat}
    {expected : PortType} {feeds : List (Feed α)}
    (fed : Feeds g adapters b k [(expected, id)] feeds b' k') :
    (∃ n ∈ g.nodes, n.id = id ∧ feeds = [.direct id] ∧ b.unify? expected n.template = some b' ∧
      k' = k) ∨ ∃ a type, feeds = [.adapted a id type] := by
  generalize eq : [(expected, id)] = slots at fed
  cases fed with
  | done => cases eq
  | direct mem unified rest =>
    cases eq
    cases rest
    exact .inl ⟨_, mem, rfl, rfl, unified, rfl⟩
  | adapted _ _ _ _ rest =>
    cases eq
    cases rest
    exact .inr ⟨_, _, rfl⟩

namespace Direct

/-- A network with one input needs no adapter. -/
lemma onInput (id name : String) (t : PortType) :
    (onInput id name t : Network α).Direct t.Mentions := by
  have wired : ((Network.empty id : Network α).append (soleInput name t)).Wired :=
    (Wired.empty id).append ⟨rfl, nofun, rfl⟩ rfl
  refine ⟨⟨wired.ids, wired.next, wired.nodes⟩, ⟨.nil, nofun⟩, nofun, ?_, ?_⟩
  · rw [nodes_onInput, List.forall_mem_singleton]
    exact within_iff.2 fun s mentions => .inl mentions
  · rw [nodes_onInput, List.forall_mem_singleton]
    rfl

variable (direct : g.Direct given)

include direct

/-- What a node resolves to has symbols that were introduced, and they stand for nothing else. -/
lemma introduced_of_mentions (there : n ∈ g.nodes) {s : String}
    (mentions : (g.value n).Mentions s) :
    Introduced given g.suffixes s := by
  obtain ⟨_, mem, hs⟩ := mentions
  obtain ⟨d, hd, rfl⟩ := List.mem_map.1 mem
  exact direct.within.resolve (direct.templates n there d hd) s hs

/-- What a network does not know of stays as it is when it is resolved. -/
lemma resolveType_eq_self (new : ∀ s, t.Mentions s → ¬ Introduced given g.suffixes s) :
    g.bindings.resolveType t = t := by
  have same : ∀ d ∈ t.shape, g.bindings.resolve d = d := by
    refine fun d hd => Bindings.resolve_of_free fun s hs solved => ?_
    obtain ⟨p, hp, rfl⟩ := List.mem_map.1 solved
    exact new p.1 ⟨d, hd, hs⟩ (direct.within p hp).1
  rw [Bindings.resolveType, mapDims_congr same, mapDims, List.map_id']

/-- What a node resolves to lacks the symbols of a new use. -/
lemma lacks (plain : ∀ s, given s → '#' ∉ s.toList) (there : n ∈ g.nodes) :
    (g.value n).Lacks (toString g.suffixes) :=
  fun base mentions => not_introduced plain base (direct.introduced_of_mentions there mentions)

/-- A type over other symbols unifies with a node just when it unifies with a type alike to what the
node resolves to. -/
lemma isSome_unify?_iff {output : PortType} (plain : ∀ s, output.Mentions s → '#' ∉ s.toList)
    (apart : ∀ s, output.Mentions s → ¬ given s) (apart' : ∀ s, output.Mentions s → ¬ t.Mentions s)
    (there : n ∈ g.nodes) (alike : Alike (g.value n) t) :
    (g.bindings.unify? output n.template).isSome ↔ (Bindings.empty.unify? output t).isSome := by
  have new : ∀ s, output.Mentions s → ¬ Introduced given g.suffixes s := by
    rintro s mentions (known | ⟨j, -, base, rfl⟩)
    · exact apart s mentions known
    · exact plain _ mentions (numberSign_mem_freshName _ _)
  have related := g.bindings.unify?_resolveType output n.template
  rw [direct.resolveType_eq_self new] at related
  rw [← Bindings.isSome_iff_of_rel related]
  exact alike.isSome_unify?_iff
    (fun s mentions known => new s mentions (direct.introduced_of_mentions there known)) apart'

/-- A type with names of the next use stays as it is when it is resolved. -/
lemma resolveType_freshen (plain : ∀ s, given s → '#' ∉ s.toList) (t : PortType) :
    g.bindings.resolveType (t.freshen (toString g.suffixes)) = t.freshen (toString g.suffixes) := by
  refine direct.resolveType_eq_self fun s mentions known => ?_
  obtain ⟨base, rfl⟩ := within_iff.1 (freshen_within (P := fun s => ∃ base, s = freshName _ base) t
    fun base => ⟨base, rfl⟩) s mentions
  exact not_introduced plain base known

/-- An operator of one input takes what a node resolves to just when its slot unifies with the node,
and then the bindings make the type of its value of its output. -/
lemma valueType?_eq_some_iff (plain : ∀ s, given s → '#' ∉ s.toList) {input : PortType}
    (unary : op.inTypes = [input]) :
    op.valueType? (toString g.suffixes) [g.value n] = some t ↔
      ∃ b, g.bindings.unify? (input.freshen (toString g.suffixes)) n.template = some b ∧
        b.resolveType (op.outType.freshen (toString g.suffixes)) = t := by
  have slots : op.slotsOn (toString g.suffixes) [g.value n] =
      [(input.freshen (toString g.suffixes), g.value n)] := by
    rw [Operator.slotsOn, unary]
    rfl
  have related := g.bindings.unify?_resolveType (input.freshen (toString g.suffixes)) n.template
  rw [direct.resolveType_freshen plain] at related
  rw [Operator.valueType?, slots, Bindings.unifySlots?_cons]
  change Option.Rel _ (Bindings.empty.unify? _ (g.value n)) _ at related
  revert related
  cases Bindings.empty.unify? (input.freshen (toString g.suffixes)) (g.value n) <;>
    cases g.bindings.unify? (input.freshen (toString g.suffixes)) n.template <;> intro related
  · simp
  · cases related
  · cases related
  next l b =>
    cases related with
    | some chains =>
      have out := chains.resolveType (op.outType.freshen (toString g.suffixes))
      rw [direct.resolveType_freshen plain] at out
      rw [Option.bind_some, Bindings.unifySlots?_nil, Option.map_some, Option.some_inj, ← out]
      constructor
      · exact fun eq => ⟨b, rfl, eq⟩
      · rintro ⟨b, same, eq⟩
        exact Option.some.inj same ▸ eq

/-- A use of an operator that reads from one node leaves a network without adapters. -/
lemma withDirect {input : PortType} (unary : op.inTypes = [input]) (there : n ∈ g.nodes)
    (unified : g.bindings.unify? (input.freshen (toString g.suffixes)) n.template = some b) :
    (g.withDirect op n b params).Direct given := by
  have more : ∀ s, Introduced given g.suffixes s → Introduced given (g.suffixes + 1) s := fun s =>
    Introduced.mono (Nat.le_succ _)
  have own : ∀ t : PortType, (t.freshen (toString g.suffixes)).Within
      (Introduced given (g.suffixes + 1)) := fun t =>
    freshen_within t fun base => .inr ⟨g.suffixes, Nat.lt_succ_self _, base, rfl⟩
  have refines := Bindings.Refines.of_unify direct.bound (Bindings.unify?_eq_some_iff.1 unified)
  have templates : ∀ m ∈ g.nodes, m.template.Within (Introduced given (g.suffixes + 1)) :=
    fun m hm d hd s hs => more s (direct.templates m hm d hd s hs)
  have nodes : (g.withDirect op n b params).nodes =
      g.nodes.map (Node.refresh b) ++ [g.directNode op n b params] := nodes_withDirect
  have within := (direct.within.mono more).unify (own input) (templates n there) unified
  exact
    { wired := direct.wired.withUse_direct (congrArg List.length unary).symm
        (List.forall_mem_singleton.2 (List.mem_map_of_mem there)) b (g.suffixes + 1) params
      bound := ⟨refines.wellFormed.apart, refines.wellFormed.proper⟩
      within := within
      templates := fun m hm => by
        rw [nodes] at hm
        rcases List.mem_append.1 hm with old | new
        · obtain ⟨m', hm', rfl⟩ := List.mem_map.1 old
          exact templates m' hm'
        · rw [List.mem_singleton.1 new]
          exact own op.outType
      direct := fun m hm => by
        rw [nodes] at hm
        rcases List.mem_append.1 hm with old | new
        · obtain ⟨m', hm', rfl⟩ := List.mem_map.1 old
          exact direct.direct m' hm'
        · rw [List.mem_singleton.1 new]
          rfl }

variable [Scalar α] {c : Catalog α}

/-- Where an operator takes what a node resolves to, it is added without an adapter. -/
lemma addNode_of_value (plain : ∀ s, given s → '#' ∉ s.toList) (unary : op.arity = 1)
    (there : n ∈ g.nodes) (params : Params α)
    (takes : op.valueType? (toString g.suffixes) [g.value n] = some t) :
    ∃ b, g.addNode c op [n.id] params = .ok (g.nextId, g.withDirect op n b params) ∧
      (g.withDirect op n b params).Direct given ∧
      (g.withDirect op n b params).value (g.directNode op n b params) = t := by
  obtain ⟨input, types⟩ := List.length_eq_one_iff.1 unary
  obtain ⟨b, unified, value⟩ := (direct.valueType?_eq_some_iff plain types).1 takes
  refine ⟨b, ?_, direct.withDirect types there unified, value⟩
  have located : [n.id].mapM g.locate = .ok [n.id] :=
    mapM_eq_ok.2 (.cons (locate_eq_ok.2 ⟨List.mem_map_of_mem there, rfl⟩) .nil)
  have found : g.node n.id = .ok n := node_eq_ok.2 (direct.wired.find?_id there)
  have slots : (op.inTypes.map (·.freshen (toString g.suffixes))).zip [n.id] =
      [(input.freshen (toString g.suffixes), n.id)] := by
    rw [types]
    rfl
  have fed : g.feed c.adapters 0 g.bindings (g.suffixes + 1)
      [(input.freshen (toString g.suffixes), n.id)] = .ok ([.direct n.id], b, g.suffixes + 1) := by
    simp only [feed, found, bind, Except.bind, Bindings.unify?_eq_some_iff.1 unified, pure,
      Except.pure]
  have fits : ¬ [n.id].length ≠ op.arity := not_not.2 unary.symm
  unfold addNode
  simp only [located, bind, Except.bind, if_neg fits, slots, fed]
  rfl

/-- An operator that is added without an adapter takes what the node resolves to. -/
lemma value_of_addNode (plain : ∀ s, given s → '#' ∉ s.toList) (unary : op.arity = 1)
    (there : n ∈ g.nodes) (added : g.addNode c op [n.id] params = .ok (id, g'))
    (nothing : ∀ m ∈ g'.nodes, m.inserted = false) :
    ∃ b t, id = g.nextId ∧ g' = g.withDirect op n b params ∧
      op.valueType? (toString g.suffixes) [g.value n] = some t ∧ g'.Direct given ∧
      g'.value (g.directNode op n b params) = t := by
  obtain ⟨input, types⟩ := List.length_eq_one_iff.1 unary
  obtain ⟨feeds, b, k, -, fed, rfl, rfl⟩ := addNode_eq_ok added
  have slots : g.openSlots op [n.id] = [(input.freshen (toString g.suffixes), n.id)] := by
    rw [openSlots, types]
    rfl
  rw [slots] at fed
  rcases feeds_singleton (feeds_of_feed fed) with ⟨m, mem, same, rfl, unified, rfl⟩ | ⟨a, type, rfl⟩
  · obtain rfl := direct.wired.eq_of_id_eq mem there same
    obtain ⟨t, value⟩ : ∃ t, b.resolveType (op.outType.freshen (toString g.suffixes)) =
        t := ⟨_, rfl⟩
    exact ⟨b, t, rfl, rfl, (direct.valueType?_eq_some_iff plain types).2 ⟨b, unified, value⟩,
      direct.withDirect types there unified, value⟩
  · -- an adapter would have been put in
    let adapter := (adapterNode a g.nextId n.id type).refresh b
    have mem : adapter ∈ ((g.withUse op [.adapted a n.id type] b k params).refresh).nodes :=
      List.mem_map_of_mem
        (List.mem_append_left _ (List.mem_append_right _ (List.mem_singleton.2 rfl)))
    cases nothing adapter mem

end Direct

end

end OperatorNet.Network
