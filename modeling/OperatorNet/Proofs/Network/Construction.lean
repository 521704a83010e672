import Mathlib.Data.Set.List
import OperatorNet.Network.Construction
import OperatorNet.Proofs.Bindings.Unification
import OperatorNet.Proofs.Network.Wiring
import OperatorNet.Proofs.Results

/-!
# What a call that builds does

Each function by which networks are built is inverted once: what must have happened for the call to
succeed, and what the new network is (`addInput_eq_ok`, `addNode_eq_ok`, `setOutput_eq_ok`). How
slots are fed is the relation `Feeds`, with one case for a slot that is fed directly and one for a
slot that is fed through an adapter.
-/

namespace OperatorNet.Network

variable {α : Type} {g g' : Network α}

/-- The type of the value of the node with a given id, over the symbols of the network. -/
def templateAt (g : Network α) (id : Int) : PortType :=
  ((g.find? id).map (·.template)).getD default

/-- The type that reaches a slot from its feed. -/
def feedType (g : Network α) : Feed α → PortType
  | .direct source => g.templateAt source
  | .adapted _ _ type => type

/-- The slots of the adapters of feeds, whose suffixes are counted from `suffix`. -/
def adapterSlots (g : Network α) (suffix : Nat) : List (Feed α) → List (PortType × PortType)
  | [] => []
  | .direct _ :: rest => g.adapterSlots suffix rest
  | .adapted a source _ :: rest =>
    (a.inTypes.map (·.freshen (toString suffix))).zip [g.templateAt source] ++
      g.adapterSlots (suffix + 1) rest

/-- Slots with the nodes that are wired into them can be fed, from given bindings and the first
unused suffix to other bindings and the first suffix that is unused then. -/
inductive Feeds (g : Network α) (adapters : List (Operator α)) :
    Bindings → Nat → List (PortType × Int) → List (Feed α) → Bindings → Nat → Prop where
  | done {b k} : Feeds g adapters b k [] [] b k
  | direct {b b₁ b' k k' expected n slots feeds} :
    n ∈ g.nodes →
    b.unify? expected n.template = some b₁ →
    Feeds g adapters b₁ k slots feeds b' k' →
    Feeds g adapters b k ((expected, n.id) :: slots) (.direct n.id :: feeds) b' k'
  | adapted {b b₁ b' k k' expected n a input more slots feeds} :
    n ∈ g.nodes →
    a ∈ adapters →
    a.inTypes = input :: more →
    b.unifySlots? [(input.freshen (toString k), n.template),
      (expected, a.outType.freshen (toString k))] = some b₁ →
    Feeds g adapters b₁ (k + 1) slots feeds b' k' →
    Feeds g adapters b k ((expected, n.id) :: slots)
      (.adapted a n.id (a.outType.freshen (toString k)) :: feeds) b' k'

/-- What is found is a node with the id. -/
lemma mem_of_find? {n : Node α} {id : Int} (found : g.find? id = some n) :
    n ∈ g.nodes ∧ n.id = id := by
  unfold find? at found
  have passed := List.find?_some found
  exact ⟨List.mem_of_find?_eq_some found, of_decide_eq_true passed⟩

/-- A node is got when it is found. -/
lemma node_eq_ok {n : Node α} {id : Int} : g.node id = .ok n ↔ g.find? id = some n := by
  unfold node
  cases g.find? id with
  | none => exact ⟨fun eq => absurd eq fail_ne_ok, nofun⟩
  | some m =>
    exact ⟨fun eq => congrArg some (Except.ok.inj eq), fun eq => congrArg _ (Option.some.inj eq)⟩

/-- An id is located when it is one of the network. -/
lemma locate_eq_ok {id found : Int} : g.locate id = .ok found ↔ id ∈ g.ids ∧ found = id := by
  unfold locate
  split
  next there =>
    exact ⟨fun eq => ⟨there, (Except.ok.inj eq).symm⟩, fun ⟨_, eq⟩ => congrArg _ eq.symm⟩
  next absent => exact ⟨fun eq => absurd eq fail_ne_ok, fun ⟨there, _⟩ => absurd there absent⟩

/-- An adapter that is found fits on both sides. -/
lemma findAdapter_eq_ok {suffix : String} {b b' : Bindings} {actual expected type : PortType}
    {adapters : List (Operator α)} {a : Operator α}
    (found : findAdapter suffix b actual expected adapters = .ok (some (a, type, b'))) :
    a ∈ adapters ∧ type = a.outType.freshen suffix ∧ ∃ input more, a.inTypes = input :: more ∧
      b.unifySlots? [(input.freshen suffix, actual), (expected, type)] = some b' := by
  induction adapters with
  | nil => cases found
  | cons c rest ih =>
    rw [findAdapter] at found
    simp only [bind_eq_ok] at found
    obtain ⟨input, first, found⟩ := found
    split at found
    next b₁ fits =>
      rw [pure_eq_ok] at found
      unfold Operator.firstInput at first
      split at first
      next t more types =>
        cases first
        cases found
        exact ⟨List.mem_cons_self .., rfl, input, more, types, fits⟩
      next => exact absurd first fail_ne_ok
    next =>
      obtain ⟨mem, rest⟩ := ih found
      exact ⟨List.mem_cons_of_mem c mem, rest⟩

/-- Feeding succeeds as the relation says. -/
lemma feeds_of_feed {adapters : List (Operator α)} {slot k k' : Nat} {b b' : Bindings}
    {slots : List (PortType × Int)} {feeds : List (Feed α)}
    (fed : g.feed adapters slot b k slots = .ok (feeds, b', k')) :
    Feeds g adapters b k slots feeds b' k' := by
  induction slots generalizing slot b k feeds with
  | nil =>
    cases fed
    exact .done
  | cons p rest ih =>
    obtain ⟨expected, source⟩ := p
    rw [feed] at fed
    simp only [bind_eq_ok] at fed
    obtain ⟨n, there, fed⟩ := fed
    obtain ⟨mem, rfl⟩ := mem_of_find? (node_eq_ok.1 there)
    split at fed
    next b₁ unified =>
      simp only [bind_eq_ok, pure_eq_ok] at fed
      obtain ⟨⟨feeds', b'', k''⟩, others, eq⟩ := fed
      cases eq
      exact .direct mem (Bindings.unify?_eq_some_iff.2 unified) (ih others)
    next =>
      rw [bind_eq_ok] at fed
      obtain ⟨choice, found, fed⟩ := fed
      split at fed
      next a type b₁ =>
        simp only [bind_eq_ok, pure_eq_ok] at fed
        obtain ⟨⟨feeds', b'', k''⟩, others, eq⟩ := fed
        cases eq
        obtain ⟨member, rfl, input, more, types, fits⟩ := findAdapter_eq_ok found
        exact .adapted mem member types fits (ih others)
      next => exact absurd fed fail_ne_ok

section

variable {adapters : List (Operator α)} {slot k : Nat} {b b' : Bindings}
    {t type : PortType} {i : Int} {n : Node α} {a : Operator α}

/-- A slot is fed directly where its source unifies with it. -/
lemma feed_direct (found : g.find? i = some n) (unified : b.unify? t n.template = some b')
    (rest : List (PortType × Int)) : g.feed adapters slot b k ((t, i) :: rest) =
      g.feed adapters (slot + 1) b' k rest >>= fun fed =>
        pure (.direct i :: fed.1, fed.2.1, fed.2.2) := by
  rw [feed, node_eq_ok.2 found]
  simp only [bind, Except.bind, Bindings.unify?_eq_some_iff.1 unified]

/-- A slot that its source does not unify with is fed by the adapter that is found. -/
lemma feed_adapted (found : g.find? i = some n) (refused : b.unify? t n.template = none)
    (adapter : findAdapter (toString k) b n.template t adapters = .ok (some (a, type, b')))
    (rest : List (PortType × Int)) : g.feed adapters slot b k ((t, i) :: rest) =
      g.feed adapters (slot + 1) b' (k + 1) rest >>= fun fed =>
        pure (.adapted a i type :: fed.1, fed.2.1, fed.2.2) := by
  obtain ⟨reason, fails⟩ := Bindings.unify?_eq_none_iff.1 refused
  rw [feed, node_eq_ok.2 found]
  simp only [bind, Except.bind, fails, adapter]

/-- A slot that its source does not unify with is refused when no adapter is found. -/
lemma exists_feed_refused (found : g.find? i = some n) (refused : b.unify? t n.template = none)
    (nothing : findAdapter (toString k) b n.template t adapters = .ok none) (slot : Nat)
    (rest : List (PortType × Int)) :
    ∃ f e, g.feed adapters slot b k ((t, i) :: rest) = .error f ∧ f.cause = .slot e := by
  obtain ⟨reason, fails⟩ := Bindings.unify?_eq_none_iff.1 refused
  rw [feed, node_eq_ok.2 found]
  simp only [bind, Except.bind, fails, nothing]
  exact ⟨_, _, rfl, rfl⟩

end

/-- An adapter in front of a slot. -/
def adapterNode (a : Operator α) (id source : Int) (type : PortType) : Node α :=
  { id, name := a.name, operator := some a, inputs := [.id source], template := type,
    resolved := type, params := some .empty, inserted := true }

/-- A use of an operator, before what is known about its type is put in. -/
def useNode (op : Operator α) (id : Int) (inputs : List Int) (suffix : Nat) (params : Params α) :
    Node α :=
  { id, name := op.name, operator := some op, inputs := inputs.map .id,
    template := op.outType.freshen (toString suffix),
    resolved := op.outType.freshen (toString suffix), params := some params, inserted := false }

/-- An input, with its type as far as it is known. -/
def inputNode (b : Bindings) (id : Int) (name : String) (type : PortType) : Node α :=
  { id, name, operator := none, inputs := [], template := type, resolved := b.resolveType type,
    params := some .empty, inserted := false }

/-- An input is added at the end. -/
lemma addInput_eq_ok {name : String} {type : PortType} {id : Int}
    (added : g.addInput name type = .ok (id, g')) :
    ∃ b, b = g.bindings.meet (type.shape.flatMap Dim.symbols) ∧ id = g.nextId ∧
      g' = { g.append (inputNode b g.nextId name type) with
        bindings := b, inputIds := g.inputIds ++ [g.nextId] } := by
  unfold addInput at added
  split at added
  next => exact absurd added fail_ne_ok
  next =>
    cases added
    exact ⟨_, rfl, rfl, rfl⟩

/-- A slot that is fed directly needs no node of its own. -/
lemma place_direct (source : Int) (rest : List (Feed α)) :
    g.place (.direct source :: rest) = (source :: (g.place rest).1, (g.place rest).2) :=
  rfl

/-- An adapter is put in at the end, before the adapters that come after it. -/
lemma place_adapted (a : Operator α) (source : Int) (type : PortType) (rest : List (Feed α)) :
    g.place (.adapted a source type :: rest) =
      (g.nextId :: ((g.append (adapterNode a g.nextId source type)).place rest).1,
        ((g.append (adapterNode a g.nextId source type)).place rest).2) :=
  rfl

/-- Adapters change the nodes and the next id only. -/
lemma place_eq (g : Network α) (feeds : List (Feed α)) :
    (g.place feeds).2 =
      { g with nodes := (g.place feeds).2.nodes, nextId := (g.place feeds).2.nextId } := by
  induction feeds generalizing g with
  | nil => rfl
  | cons feed rest ih =>
    cases feed with
    | direct source => exact ih g
    | adapted a source type => exact ih (g.append (adapterNode a g.nextId source type))

/-- The network after a use of an operator, before known types are brought up to date. -/
def withUse (g : Network α) (op : Operator α) (feeds : List (Feed α)) (b : Bindings) (k : Nat)
    (params : Params α) : Network α :=
  { (g.place feeds).2.append
      (useNode op (g.place feeds).2.nextId (g.place feeds).1 g.suffixes params) with
    suffixes := k, bindings := b }

/-- The slots of a new use of an operator with what is to be wired into them. -/
def openSlots (g : Network α) (op : Operator α) (sources : List Int) : List (PortType × Int) :=
  (op.inTypes.map (·.freshen (toString g.suffixes))).zip sources

/-- The slots of a new use of an operator with the types that reach them. -/
def operatorSlots (g : Network α) (op : Operator α) (feeds : List (Feed α)) :
    List (PortType × PortType) :=
  (op.inTypes.map (·.freshen (toString g.suffixes))).zip (feeds.map g.feedType)

/-- A use of an operator is added behind the adapters that it needs, and what has become known is
put into all types. -/
lemma addNode_eq_ok [Scalar α] {c : Catalog α} {op : Operator α} {sources : List Int}
    {params : Params α} {id : Int} (added : g.addNode c op sources params = .ok (id, g')) :
    ∃ feeds b k, sources.length = op.arity ∧
      g.feed c.adapters 0 g.bindings (g.suffixes + 1) (g.openSlots op sources) = .ok (feeds, b, k) ∧
      id = (g.place feeds).2.nextId ∧ g' = (g.withUse op feeds b k params).refresh := by
  unfold addNode at added
  simp only [bind_eq_ok] at added
  obtain ⟨located, there, added⟩ := added
  have same : located = sources := by
    rw [mapM_eq_ok] at there
    refine (List.forall₂_eq_eq_eq ▸ there.imp fun i j found => ?_ : _ = _).symm
    exact (locate_eq_ok.1 found).2.symm
  subst same
  split at added
  next => exact absurd added (by rw [bind_eq_ok]; exact fun ⟨_, eq, _⟩ => fail_ne_ok eq)
  next arity =>
    simp only [bind_eq_ok, pure_eq_ok] at added
    obtain ⟨⟨feeds, b, k⟩, fed, eq⟩ := added
    cases eq
    exact ⟨feeds, b, k, not_not.1 arity, fed, rfl, rfl⟩

/-- A use of an operator with as many sources as it takes is added when its slots are fed, and fails
as that fails. -/
lemma addNode_eq [Scalar α] {c : Catalog α} {op : Operator α} {sources : List Int}
    (there : ∀ i ∈ sources, i ∈ g.ids) (arity : sources.length = op.arity) (params : Params α) :
    g.addNode c op sources params =
      (g.feed c.adapters 0 g.bindings (g.suffixes + 1) (g.openSlots op sources)).map fun fed =>
        ((g.place fed.1).2.nextId, (g.withUse op fed.1 fed.2.1 fed.2.2 params).refresh) := by
  have located : sources.mapM g.locate = .ok sources := by
    rw [mapM_eq_ok, List.forall₂_same]
    exact fun i hi => locate_eq_ok.2 ⟨there i hi, rfl⟩
  unfold addNode
  rw [located]
  simp only [bind, Except.bind, arity, ne_eq, not_true_eq_false, if_false, openSlots]
  cases g.feed c.adapters 0 g.bindings (g.suffixes + 1)
    ((op.inTypes.map (·.freshen (toString g.suffixes))).zip sources) <;> rfl

/-- Feeds without adapters place no nodes. -/
lemma place_map_direct (g : Network α) (sources : List Int) :
    g.place (sources.map .direct) = (sources, g) := by
  induction sources with
  | nil => rfl
  | cons source rest ih => rw [List.map_cons, place_direct, ih]

/-- Placing adapters adds adapters, and none where all slots are fed directly. -/
lemma place_nodes (g : Network α) (feeds : List (Feed α)) :
    ∃ new, (g.place feeds).2.nodes = g.nodes ++ new ∧ (∀ n ∈ new, n.inserted) ∧
      (new = [] → ∀ feed ∈ feeds, ∃ source, feed = .direct source) := by
  induction feeds generalizing g with
  | nil =>
    exact ⟨[], (List.append_nil _).symm, fun _ mem => absurd mem List.not_mem_nil,
      fun _ _ mem => absurd mem List.not_mem_nil⟩
  | cons feed rest ih =>
    cases feed with
    | direct source =>
      obtain ⟨new, nodes, inserted, direct⟩ := ih g
      refine ⟨new, nodes, inserted, fun none feed hf => ?_⟩
      rcases List.mem_cons.1 hf with rfl | later
      · exact ⟨source, rfl⟩
      · exact direct none feed later
    | adapted a source type =>
      obtain ⟨new, nodes, inserted, -⟩ := ih (g.append (adapterNode a g.nextId source type))
      refine ⟨adapterNode a g.nextId source type :: new, ?_, fun n hn => ?_,
        fun none => absurd none (List.cons_ne_nil _ _)⟩
      · rw [place_adapted, nodes, nodes_append, List.append_assoc]
        rfl
      · rcases List.mem_cons.1 hn with rfl | later
        · rfl
        · exact inserted n later

/-- The nodes that are put in are adapters. -/
lemma cases_of_mem_place {feeds : List (Feed α)} {n : Node α} (mem : n ∈ (g.place feeds).2.nodes) :
    n ∈ g.nodes ∨ ∃ a id source type, .adapted a source type ∈ feeds ∧
      n = adapterNode a id source type := by
  induction feeds generalizing g with
  | nil => exact .inl mem
  | cons feed rest ih =>
    cases feed with
    | direct source =>
      rcases ih (g := g) mem with old | ⟨a, id, source, type, later, eq⟩
      · exact .inl old
      · exact .inr ⟨a, id, source, type, List.mem_cons_of_mem _ later, eq⟩
    | adapted a source type =>
      rcases ih (g := g.append (adapterNode a g.nextId source type)) mem with
        there | ⟨a, id, source, type, later, eq⟩
      · rcases List.mem_append.1 there with old | new
        · exact .inl old
        · exact .inr ⟨a, _, source, type, List.mem_cons_self .., List.mem_singleton.1 new⟩
      · exact .inr ⟨a, id, source, type, List.mem_cons_of_mem _ later, eq⟩

/-- There are no adapters after a use is added when there were none and all slots are fed
directly. -/
lemma adapterNodes_withUse {op : Operator α} {feeds : List (Feed α)} {b : Bindings} {k : Nat}
    {params : Params α} : (g.withUse op feeds b k params).refresh.adapterNodes = [] ↔
      g.adapterNodes = [] ∧ ∀ feed ∈ feeds, ∃ source, feed = .direct source := by
  obtain ⟨new, nodes, inserted, all⟩ := place_nodes g feeds
  have same : (g.withUse op feeds b k params).refresh.adapterNodes = [] ↔
      g.adapterNodes = [] ∧ new = [] := by
    change (((g.place feeds).2.nodes ++ [_]).map (Node.refresh _)).filter Node.inserted = [] ↔ _
    rw [List.filter_map, List.map_eq_nil_iff, nodes, List.filter_append, List.filter_append,
      List.append_eq_nil_iff, List.append_eq_nil_iff]
    change (g.adapterNodes = [] ∧ new.filter Node.inserted = []) ∧ _ ↔ _
    rw [List.filter_eq_self.2 inserted]
    exact ⟨fun h => h.1, fun h => ⟨h, rfl⟩⟩
  rw [same]
  refine and_congr_right fun _ => ⟨all, fun direct => ?_⟩
  have ids : feeds ∈ Set.range (List.map (Feed.direct : Int → Feed α)) := by
    rw [Set.range_list_map]
    exact fun feed hf => (direct feed hf).imp fun _ => Eq.symm
  obtain ⟨sources, rfl⟩ := ids
  rw [place_map_direct] at nodes
  exact List.append_cancel_left (nodes.symm.trans (List.append_nil _).symm)

/-- Slots that are all fed directly are fed by what is wired into them. -/
lemma Feeds.eq_map_direct {adapters : List (Operator α)} {b b' : Bindings} {k k' : Nat}
    {slots : List (PortType × Int)} {feeds : List (Feed α)}
    (fed : Feeds g adapters b k slots feeds b' k')
    (direct : ∀ feed ∈ feeds, ∃ source, feed = .direct source) :
    feeds = slots.map fun p => .direct p.2 := by
  induction fed with
  | done => rfl
  | direct _ _ _ ih =>
    rw [List.map_cons, ← ih fun feed hf => direct feed (List.mem_cons_of_mem _ hf)]
  | adapted =>
    obtain ⟨source, eq⟩ := direct _ (List.mem_cons_self ..)
    cases eq

/-- A use that is added without an adapter reads from the nodes that it was given. -/
lemma addNode_directly [Scalar α] {c : Catalog α} {op : Operator α} {sources : List Int}
    {params : Params α} {id : Int} (added : g.addNode c op sources params = .ok (id, g'))
    (nothing : g'.adapterNodes = []) :
    sources.length = op.arity ∧ g.adapterNodes = [] ∧ id = g.nextId ∧
      ∃ b k, g' = (g.withUse op (sources.map .direct) b k params).refresh := by
  obtain ⟨feeds, b, k, arity, fed, rfl, rfl⟩ := addNode_eq_ok added
  obtain ⟨before, direct⟩ := adapterNodes_withUse.1 nothing
  have same : feeds = sources.map .direct := by
    have length : sources.length ≤ (op.inTypes.map (·.freshen (toString g.suffixes))).length := by
      rw [List.length_map, arity]
      exact Nat.le_refl _
    rw [(feeds_of_feed fed).eq_map_direct direct, openSlots, ← List.map_snd_zip length,
      List.map_map, List.map_snd_zip length]
    rfl
  subst same
  exact ⟨arity, before, by rw [place_map_direct], b, k, rfl⟩

/-- The nodes after a use is added that reads from given nodes. -/
lemma nodes_withUse_direct (g : Network α) (op : Operator α) (sources : List Int) (b : Bindings)
    (k : Nat) (params : Params α) : (g.withUse op (sources.map .direct) b k params).refresh.nodes =
      (g.nodes ++ [useNode op g.nextId sources g.suffixes params]).map (Node.refresh b) := by
  rw [withUse, place_map_direct]
  rfl

/-- A use that reads from given nodes leaves a network wired. -/
lemma Wired.withUse_direct (wired : g.Wired) {op : Operator α} {sources : List Int}
    (arity : sources.length = op.arity) (there : ∀ i ∈ sources, i ∈ g.ids) (b : Bindings) (k : Nat)
    (params : Params α) : (g.withUse op (sources.map .direct) b k params).refresh.Wired := by
  have new : (useNode op g.nextId sources g.suffixes params).Wired := by
    refine ⟨(List.length_map _).trans arity, fun r hr => ?_, rfl⟩
    obtain ⟨s, hs, rfl⟩ := List.mem_map.1 hr
    obtain ⟨n, hn, rfl⟩ := List.mem_map.1 (there s hs)
    obtain ⟨i, id, bound, -⟩ := wired.exists_place hn
    refine ⟨i, by rw [id], ?_⟩
    change (i : Int) < g.nextId
    rw [wired.next]
    omega
  have appended := wired.append new rfl
  have used : (g.withUse op (sources.map .direct) b k params).Wired := by
    rw [withUse, place_map_direct]
    exact ⟨appended.ids, appended.next, appended.nodes⟩
  exact used.refresh

/-- Slots that unify one after the other are all fed directly. -/
lemma feed_of_unifySlots {adapters : List (Operator α)} {reads : List (PortType × Node α)}
    {slot k : Nat} {b b' : Bindings} (there : ∀ p ∈ reads, g.find? p.2.id = some p.2)
    (unified : b.unifySlots? (reads.map fun p => (p.1, p.2.template)) = some b') :
    g.feed adapters slot b k (reads.map fun p => (p.1, p.2.id)) =
      .ok ((reads.map fun p => p.2.id).map .direct, b', k) := by
  induction reads generalizing slot b with
  | nil =>
    cases unified
    rfl
  | cons p rest ih =>
    obtain ⟨here, later⟩ := List.forall_mem_cons.1 there
    rw [List.map_cons, Bindings.unifySlots?_cons, Option.bind_eq_some_iff] at unified
    obtain ⟨b₁, first, others⟩ := unified
    rw [List.map_cons, feed_direct here first, ih later others]
    rfl

/-- A node that is there can be made the output. -/
lemma setOutput_eq_ok {id : Int} (set : g.setOutput id = .ok g') :
    id ∈ g.ids ∧ g' = { g with outputId := some id } := by
  unfold setOutput at set
  simp only [bind_eq_ok, pure_eq_ok] at set
  obtain ⟨found, there, rfl⟩ := set
  obtain ⟨mem, rfl⟩ := locate_eq_ok.1 there
  exact ⟨mem, rfl⟩

/-! ## Ids -/

/-- Ids have been given out in ascending order, and the next one is larger. -/
structure Numbered (g : Network α) : Prop where
  ascending : g.ids.Pairwise (· < ·)
  below : ∀ i ∈ g.ids, i < g.nextId

/-- A wired network is numbered. -/
lemma Wired.numbered (wired : g.Wired) : g.Numbered := by
  refine ⟨wired.ascending, List.forall_mem_map.2 fun n hn => ?_⟩
  obtain ⟨i, id, bound, -⟩ := wired.exists_place hn
  rw [id, wired.next]
  omega

namespace Numbered

variable (numbered : g.Numbered)

include numbered

/-- The ids of a numbered network are different. -/
lemma nodup : g.ids.Nodup :=
  numbered.ascending.imp fun less => Int.ne_of_lt less

/-- A node with the next id keeps a network numbered. -/
lemma append {n : Node α} (id : n.id = g.nextId) : (g.append n).Numbered := by
  have ids : (g.append n).ids = g.ids ++ [g.nextId] := by
    rw [Network.ids, nodes_append, List.map_append, List.map_singleton, id]
    rfl
  constructor
  · rw [ids, List.pairwise_append]
    refine ⟨numbered.ascending, List.pairwise_singleton _ _, fun i hi j hj => ?_⟩
    exact List.mem_singleton.1 hj ▸ numbered.below i hi
  · rw [ids, List.forall_mem_append, List.forall_mem_singleton]
    exact ⟨fun i hi => Int.lt_trans (numbered.below i hi) (Int.lt_succ _), Int.lt_succ _⟩

/-- Adapters that are placed keep a network numbered. -/
lemma place (feeds : List (Feed α)) : (g.place feeds).2.Numbered := by
  induction feeds generalizing g with
  | nil => exact numbered
  | cons feed rest ih =>
    cases feed with
    | direct source => exact ih numbered
    | adapted a source type => exact ih (numbered.append rfl)

/-- A use that is added keeps a network numbered. -/
lemma withUse (op : Operator α) (feeds : List (Feed α)) (b : Bindings) (k : Nat)
    (params : Params α) :
    (g.withUse op feeds b k params).refresh.Numbered := by
  have appended := (numbered.place feeds).append
    (n := useNode op (g.place feeds).2.nextId (g.place feeds).1 g.suffixes params) rfl
  have ids : (g.withUse op feeds b k params).refresh.ids = ((g.place feeds).2.append
      (useNode op (g.place feeds).2.nextId (g.place feeds).1 g.suffixes params)).ids :=
    List.map_map ..
  exact ⟨ids ▸ appended.ascending, ids ▸ appended.below⟩

/-- A node that is added keeps a network numbered. -/
lemma addNode [Scalar α] {c : Catalog α} {op : Operator α} {sources : List Int} {params : Params α}
    {id : Int} (added : g.addNode c op sources params = .ok (id, g')) : g'.Numbered := by
  obtain ⟨feeds, b, k, -, -, -, rfl⟩ := addNode_eq_ok added
  exact numbered.withUse op feeds b k params

end Numbered

end OperatorNet.Network
