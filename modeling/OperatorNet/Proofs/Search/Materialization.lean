import OperatorNet.Proofs.Network.Direct
import OperatorNet.Proofs.Network.Edits
import OperatorNet.Proofs.Network.Evaluation
import OperatorNet.Proofs.Search.Routes
import OperatorNet.Proofs.Tables

/-!
# Networks of selections

Where no adapter is put in, the network of a selection has one node for the input and one for each
choice, in their order. The node of a choice uses the operator that was chosen with the parameters
for its position, and reads from the nodes that stand for what the position reads (`Stands`). One
more choice keeps this so (`depicts_sketchChoice`), and so do all choices of a selection
(`depicts_materialize`). The nodes of positions on which the exit depends are live
(`Depicts.lives`).
-/

namespace OperatorNet.Decoder

open Network

variable {α : Type} {s : Supergraph α} {refs refs' : Refs} {g g' : Network α}
  {choice : Ref × Data Float} {ids : List Int} {ops : List (Ref × Data Float)} {id i : Int}

/-- A source refers to the node that stands for it. -/
lemma ref_eq_ok {source : Option Int} :
    ref refs (source.map .id) = .ok i ↔ fetch source refs = some i := by
  cases source with
  | none =>
    simp only [ref, Option.map_none]
    cases fetch none refs with
    | none => exact iff_of_false fail_ne_ok (Option.some_ne_none i).symm
    | some n =>
      exact ⟨fun eq => congrArg some (Except.ok.inj eq), fun eq => congrArg _ (Option.some.inj eq)⟩
  | some n =>
    constructor
    · intro found
      obtain ⟨m, same, there⟩ := Ref.exists_of_find found
      rw [Ref.id?_id, Option.some_inj] at same
      exact same ▸ there
    · exact fun there => Ref.find_id there

variable [Scalar α] {d : Decoder α}

/-- `addChoice`, whatever numbers there are in the network. -/
def sketchChoice (d : Decoder α) (s : Supergraph α) (acc : Refs × Network α)
    (choice : Ref × Data Float) : Except Fault (Refs × Network α) := do
  let (p, op, sources, params) ← d.useOf s acc.1 choice
  let (id, g) ← acc.2.addNode s.catalog op sources params
  return (put (some p.id) id acc.1, g)

/-- `wire`, whatever numbers there are in the network. -/
def sketch (d : Decoder α) (s : Supergraph α) (choices : List (Ref × Data Float)) :
    Except Fault (Refs × Network α) :=
  choices.foldlM (d.sketchChoice s) ([(none, 0)], onInput d.networkId "x" s.inputType)

/-- What is selected is an operator of the catalog, which reads from the nodes of its sources. -/
lemma useOf_eq_ok {p : Position α} {op : Operator α} {sources : List Int} {params : Params α}
    (used : d.useOf s refs choice = .ok (p, op, sources, params)) :
    s.positionAt choice.1 = .ok p ∧ d.params choice.1 choice.2 = .ok params ∧
      List.Forall₂ (fun source i => fetch source refs = some i) p.inputs sources ∧
      ∃ name, choice.2 = .text name ∧ s.catalog.get name = .ok op := by
  simp only [useOf, bind_eq_ok, pure_eq_ok] at used
  obtain ⟨p, there, params, trained, sources, found, name, named, op, registered, eq⟩ := used
  cases eq
  rw [mapM_eq_ok] at found
  refine ⟨there, trained, found.imp fun _ _ => ref_eq_ok.1, name, ?_, registered⟩
  unfold chosenName at named
  split at named
  next text eq => rw [eq, Except.ok.inj named]
  next => exact absurd named fail_ne_ok

/-- A choice adds a use of the operator that it names, which reads from the nodes of its sources. -/
lemma sketchChoice_eq_ok : d.sketchChoice s (refs, g) choice = .ok (refs', g') ↔
    ∃ p op sources params id, d.useOf s refs choice = .ok (p, op, sources, params) ∧
      g.addNode s.catalog op sources params = .ok (id, g') ∧ refs' = put (some p.id) id refs := by
  simp only [sketchChoice, bind_eq_ok, pure_eq_ok]
  constructor
  · rintro ⟨⟨p, op, sources, params⟩, used, ⟨id, g₁⟩, added, eq⟩
    cases eq
    exact ⟨p, op, sources, params, id, used, added, rfl⟩
  · rintro ⟨p, op, sources, params, id, used, added, rfl⟩
    exact ⟨(p, op, sources, params), used, (id, g'), added, rfl⟩

/-- A sketch is made choice by choice. -/
lemma sketch_append (choices : List (Ref × Data Float)) :
    d.sketch s (choices ++ [choice]) = d.sketch s choices >>= fun acc =>
      d.sketchChoice s acc choice := by
  simp only [sketch, List.foldlM_append, List.foldlM_cons, List.foldlM_nil, bind_pure]

/-- A network is wired choice by choice. -/
lemma wire_append (choices : List (Ref × Data Float)) :
    d.wire s (choices ++ [choice]) = d.wire s choices >>= fun acc => d.addChoice s acc choice := by
  simp only [wire, List.foldlM_append, List.foldlM_cons, List.foldlM_nil, bind_assoc, bind_pure]

/-- A sketch is numbered. -/
lemma numbered_sketch {choices : List (Ref × Data Float)}
    (sketched : d.sketch s choices = .ok (refs, g)) :
    g.Numbered := by
  induction choices using List.reverseRecOn generalizing refs g with
  | nil =>
    cases sketched
    exact ⟨List.pairwise_singleton _ _, List.forall_mem_singleton.2 Int.zero_lt_one⟩
  | append_singleton choices choice ih =>
    rw [sketch_append, bind_eq_ok] at sketched
    obtain ⟨⟨refs₀, g₀⟩, before, sketched⟩ := sketched
    obtain ⟨_, _, _, _, _, -, added, -⟩ := sketchChoice_eq_ok.1 sketched
    exact (ih before).addNode added

/-- The network that is wired is the one that is sketched, unless a number is too long. -/
lemma words_wire (choices : List (Ref × Data Float)) :
    Words (d.wire s choices) (d.sketch s choices) := by
  induction choices using List.reverseRecOn with
  | nil =>
    have start := Edit.words_addInput (g := (Network.empty d.networkId : Network α)) "x" s.inputType
    exact start.bind fun _ _ => .refl _
  | append_singleton choices choice ih =>
    rw [wire_append, sketch_append]
    refine ih.bind fun acc before => (Words.refl _).bind fun u _ => ?_
    exact (Edit.words_addNode (numbered_sketch before) ..).bind fun _ _ => .refl _

/-- A network without adapters is wired as it is sketched when the known types can be written after
the input and after each choice; if once they cannot, there is no network. -/
lemma wire_of_sketch {choices : List (Ref × Data Float)}
    (sketched : d.sketch s choices = .ok (refs, g)) (nothing : g.adapterNodes = []) :
    (∀ before, before <+: choices → ∃ refs g, d.sketch s before = .ok (refs, g) ∧ g.Writable) ∧
        d.wire s choices = .ok (refs, g) ∨
      (∃ before, before <+: choices ∧ ∃ refs g, d.sketch s before = .ok (refs, g) ∧ ¬ g.Writable) ∧
        d.wire s choices = .error .unwritable := by
  -- induction from the end: the last choice is added to what the earlier ones have left
  induction choices using List.reverseRecOn generalizing refs g with
  | nil =>
    cases sketched
    have added := addInput_empty (α := α) d.networkId "x" s.inputType
    have same : (onInput d.networkId "x" s.inputType : Network α).Writable ↔
        ((Network.empty d.networkId : Network α).bindings.resolveType s.inputType).Writable :=
      List.forall_mem_singleton
    rcases Edit.on_addInput added with ⟨can, run⟩ | ⟨cannot, run⟩
    · refine .inl ⟨fun before none => ?_, by rw [wire, run]; rfl⟩
      rw [List.prefix_nil.1 none]
      exact ⟨_, _, rfl, same.2 can⟩
    · refine .inr ⟨⟨[], List.nil_prefix, _, _, rfl, fun can => cannot (same.1 can)⟩, ?_⟩
      rw [wire, run]
      rfl
  | append_singleton choices choice ih =>
    have whole := sketched
    rw [sketch_append, bind_eq_ok] at sketched
    obtain ⟨⟨refs₀, g₀⟩, before, last⟩ := sketched
    obtain ⟨p, op, sources, params, id, used, added, rfl⟩ := sketchChoice_eq_ok.1 last
    rw [wire_append]
    rcases ih before (addNode_directly added nothing).2.1 with ⟨all, wired⟩
      | ⟨⟨early, sub, long⟩, failed⟩
    -- both runs stand before the same network; only the writing of the new types can tell them
    -- apart
    · simp only [wired, addChoice, bind, Except.bind, used]
      rcases Edit.on_addNode (numbered_sketch before) added nothing with ⟨can, run⟩ | ⟨cannot, run⟩
      · refine .inl ⟨fun front sub => ?_, by rw [run]; rfl⟩
        rcases List.prefix_concat_iff.1 sub with rfl | sub
        · exact ⟨_, g, whole, can⟩
        · exact all front sub
      · refine .inr ⟨⟨_, List.prefix_rfl, _, g, whole, cannot⟩, ?_⟩
        rw [run]
    · refine .inr ⟨⟨early, sub.trans (List.prefix_append ..), long⟩, ?_⟩
      rw [failed]
      rfl

/-- A node that stands for the input, or for a choice. -/
inductive Stands (d : Decoder α) (s : Supergraph α) (refs : Refs) :
    Option (Ref × Data Float) → Node α → Prop
  | input {n : Node α} : fetch none refs = some n.id → n.operator = none → n.name = "x" →
      Stands d s refs none n
  | use {n : Node α} {r : Ref} {name : String} {p : Position α} {op : Operator α} :
      s.positionAt r = .ok p → s.catalog.get name = .ok op → fetch (some p.id) refs = some n.id →
      n.operator = some op → d.params r (.text name) = .ok n.overrides →
      List.Forall₂ (fun source q => ∃ i, fetch source refs = some i ∧ q = .id i) p.inputs n.inputs →
      Stands d s refs (some (r, .text name)) n

/-- What a node stands for stays when more is listed and when known types are brought up to date. -/
lemma Stands.mono {o : Option (Ref × Data Float)} {n : Node α} (stands : d.Stands s refs o n)
    (more : Refs) (b : Bindings) : d.Stands s (refs ++ more) o (n.refresh b) := by
  cases stands with
  | input there nothing name => exact .input (fetch_append_of_eq_some there) nothing name
  | use there registered own uses trained reads =>
    refine .use there registered (fetch_append_of_eq_some own) uses trained (reads.imp ?_)
    rintro source q ⟨i, found, rfl⟩
    exact ⟨i, fetch_append_of_eq_some found, rfl⟩

/-- A network of the input and of choices for some positions, without adapters. -/
structure Depicts (d : Decoder α) (s : Supergraph α) (ids : List Int)
    (ops : List (Ref × Data Float)) (refs : Refs) (g : Network α) : Prop where
  wired : g.Wired
  inputIds : g.inputIds = [0]
  keys : refs.map Prod.fst = none :: ids.map some
  places : refs.map Prod.snd = g.ids
  nodes : List.Forall₂ (d.Stands s refs) (none :: ops.map some) g.nodes

/-- The network on the input depicts no choice. -/
lemma depicts_onInput (d : Decoder α) (s : Supergraph α) :
    d.Depicts s [] [] [(none, 0)] (onInput d.networkId "x" s.inputType) :=
  ⟨(Direct.onInput d.networkId "x" s.inputType).wired, rfl, rfl, rfl,
    .cons (.input rfl rfl rfl) .nil⟩

/-- What stands for a source is a node. -/
lemma Depicts.mem_ids (depicts : d.Depicts s ids ops refs g) {source : Option Int}
    (found : fetch source refs = some i) : i ∈ g.ids :=
  depicts.places ▸ List.mem_map_of_mem (mem_of_fetch found)

/-- One more choice that needs no adapter has its own node, and there were no adapters before. -/
lemma depicts_sketchChoice (distinct : s.ids.Nodup)
    (depicts : g.adapterNodes = [] → d.Depicts s ids ops refs g) (isId : choice.1 = .id id)
    (new : id ∉ ids) (chosen : d.sketchChoice s (refs, g) choice = .ok (refs', g'))
    (nothing : g'.adapterNodes = []) :
    d.Depicts s (ids ++ [id]) (ops ++ [choice]) refs' g' := by
  obtain ⟨p, op, sources, params, i, used, added, rfl⟩ := sketchChoice_eq_ok.1 chosen
  obtain ⟨there, trained, found, name, named, registered⟩ := useOf_eq_ok used
  obtain ⟨arity, before, rfl, b, k, rfl⟩ := addNode_directly added nothing
  obtain ⟨wired, inputIds, keys, places, nodes⟩ := depicts before
  obtain ⟨r, choice⟩ := choice
  obtain rfl : r = .id id := isId
  obtain rfl : choice = .text name := named
  obtain rfl : p.id = id :=
    ((Supergraph.find?_eq_some_iff distinct).1 (Supergraph.positionAt_id.1 there)).2
  -- a position that is chosen once has no place yet, so that its place is put last
  have absent : some p.id ∉ refs.map Prod.fst := by
    rw [keys, List.mem_cons, List.mem_map]
    rintro (same | ⟨j, old, same⟩)
    · cases same
    · exact new (Option.some.inj same ▸ old)
  have reads : ∀ j ∈ sources, j ∈ g.ids := by
    intro j hj
    obtain ⟨source, -, place⟩ := exists_of_mem_forall₂ found hj
    exact (depicts before).mem_ids place
  rw [put_of_notMem absent]
  have own : fetch (some p.id) (refs ++ [(some p.id, g.nextId)]) = some g.nextId :=
    (fetch_append_of_notMem absent).trans (if_pos rfl)
  have all := nodes_withUse_direct g op sources b k params
  refine ⟨wired.withUse_direct arity reads b k params, ?_, ?_, ?_, ?_⟩
  · rw [← inputIds, withUse, place_map_direct]
    rfl
  · rw [List.map_append, keys, List.map_append]
    rfl
  · rw [List.map_append, places, Network.ids, Network.ids, all, List.map_map, List.map_append]
    rfl
  · -- earlier nodes stand for what they stood for, though known types were brought up to date
    rw [all, List.map_append, List.map_append, ← List.cons_append]
    have older : List.Forall₂ (d.Stands s (refs ++ [(some p.id, g.nextId)])) (none :: ops.map some)
        (g.nodes.map (Node.refresh b)) := by
      rw [List.forall₂_map_right_iff]
      exact nodes.imp fun o n stands => stands.mono _ b
    refine List.rel_append older (.cons (.use there registered own rfl trained ?_) .nil)
    change List.Forall₂ _ p.inputs (sources.map Ref.id)
    rw [List.forall₂_map_right_iff]
    exact found.imp fun source j place => ⟨j, fetch_append_of_eq_some place, rfl⟩

/-- Choices for different positions that need no adapters have a node each. -/
lemma depicts_sketch (distinct : s.ids.Nodup) (route : ops.map Prod.fst = ids.map .id)
    (nodup : ids.Nodup) (built : d.sketch s ops = .ok (refs, g)) (nothing : g.adapterNodes = []) :
    d.Depicts s ids ops refs g := by
  -- adapters are never taken away: if there are none at the end, there were none before the last
  -- choice
  induction ops using List.reverseRecOn generalizing ids refs g with
  | nil =>
    obtain rfl := List.map_eq_nil_iff.1 route.symm
    cases built
    exact depicts_onInput d s
  | append_singleton ops choice ih =>
    rw [List.map_append, List.map_singleton] at route
    obtain ⟨front, last, rfl, earlier, own⟩ := List.map_eq_append_iff.1 route.symm
    obtain ⟨id, rfl, isId⟩ := List.map_eq_singleton_iff.1 own
    rw [sketch_append, bind_eq_ok] at built
    obtain ⟨⟨refs₁, g₁⟩, first, added⟩ := built
    obtain ⟨before, -, apart⟩ := List.nodup_append.1 nodup
    have new : id ∉ front := fun old => apart id old id (List.mem_singleton.2 rfl) rfl
    exact depicts_sketchChoice distinct (ih earlier.symm before first) isId.symm new added nothing

/-- What has to be done to make the network of a selection. -/
lemma materialize_eq_ok {x : Selection} (made : d.materialize s x = .ok g) :
    ∃ refs g₀ out metadata, d.sketch s x.ops = .ok (refs, g₀) ∧ ref refs x.exit = .ok out ∧
      out ∈ g₀.ids ∧ g = { g₀ with outputId := some out, metadata } := by
  simp only [materialize, bind_eq_ok] at made
  obtain ⟨⟨refs, g₀⟩, wired, out, target, g₂, set, n, -, said, -, made⟩ := made
  have sketched : d.sketch s x.ops = .ok (refs, g₀) := by
    rcases words_wire (d := d) (s := s) x.ops with same | long
    · exact same.symm.trans wired
    · cases wired.symm.trans long
  obtain ⟨there, rfl⟩ := setOutput_eq_ok set
  cases said with
  | error => cases made
  | ok b => exact ⟨refs, g₀, out, _, sketched, target, there, (Except.ok.inj made).symm⟩

/-- The network of a selection that needs no adapters has a node for the input and one for each
choice. -/
lemma depicts_materialize {x : Selection} (distinct : s.ids.Nodup)
    (route : x.ops.map Prod.fst = ids.map .id) (nodup : ids.Nodup)
    (made : d.materialize s x = .ok g) (nothing : g.adapterNodes = []) :
    ∃ refs out, d.Depicts s ids x.ops refs g ∧ ref refs x.exit = .ok out ∧
      g.outputId = some out := by
  obtain ⟨refs, g₀, out, metadata, built, target, -, rfl⟩ := materialize_eq_ok made
  obtain ⟨wired, inputIds, keys, places, nodes⟩ := depicts_sketch distinct route nodup built nothing
  exact ⟨refs, out, ⟨⟨wired.ids, wired.next, wired.nodes⟩, inputIds, keys, places, nodes⟩,
    target, rfl⟩

/-- The nodes of the positions on which the exit depends are live. -/
lemma Depicts.lives (depicts : d.Depicts s ids ops refs g) (distinct : s.ids.Nodup)
    (route : ops.map Prod.fst = ids.map .id) {e out : Int} (exit : fetch (some e) refs = some out)
    (output : g.outputId = some out)
    (reached : ∀ id, id ∈ ids ↔ Relation.ReflTransGen s.Reads e id) (mem : id ∈ ids)
    (place : fetch (some id) refs = some i) : g.Lives i := by
  obtain ⟨last, there, rfl⟩ := List.mem_map.1 (depicts.mem_ids exit)
  have found := depicts.wired.output_eq there output
  have path := (reached id).1 mem
  clear mem
  -- the exit is live, and what a live node reads is live
  induction path generalizing i with
  | refl =>
    rw [place, Option.some_inj] at exit
    exact ⟨last, found, exit ▸ .refl⟩
  | @tail a b path leads ih =>
    have listed : Ref.id a ∈ ops.map Prod.fst := route ▸ List.mem_map_of_mem ((reached a).2 path)
    obtain ⟨choice, chosen, isId⟩ := List.mem_map.1 listed
    obtain ⟨n, hn, stands⟩ :=
      exists_of_mem_forall₂ depicts.nodes.flip (List.mem_cons_of_mem _ (List.mem_map_of_mem chosen))
    cases stands with
    | @use _ r name p op placed _ own _ _ reads =>
      obtain rfl : r = .id a := isId
      have located := Supergraph.positionAt_id.1 placed
      obtain rfl := ((Supergraph.find?_eq_some_iff distinct).1 located).2
      obtain ⟨p', located', read⟩ := leads
      rw [located, Option.some_inj] at located'
      subst located'
      obtain ⟨q, hq, j, place', rfl⟩ := exists_of_mem_forall₂ reads.flip read
      rw [place, Option.some_inj] at place'
      subst place'
      obtain ⟨out, found, onward⟩ := ih own
      refine ⟨out, found, onward.tail ⟨.id i, ?_, rfl⟩⟩
      rw [inputs_id depicts.wired.nodup hn]
      exact hq

end OperatorNet.Decoder
