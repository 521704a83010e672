import OperatorNet.Network.Edit
import OperatorNet.Proofs.Bindings.Representation
import OperatorNet.Proofs.Faults
import OperatorNet.Proofs.Network.Calls
import OperatorNet.Proofs.Network.Wiring
import OperatorNet.Proofs.PortType.Document
import OperatorNet.Proofs.Runs

/-!
# Calls that fail on a network at hand

A call that is made in place either does what the same call does that gives a new network, or it
ends with a fault. The fault is the one of the other call, and then nothing has changed, or it is
about a number that is too long to be written; then the old network or the new one is left, but for
what is known about types (`Call.perform_ends`). So calls that fail can be left out, as long as no
fault is of the latter sort (`performAll_succeeded`), and the network is the one that is built by
calls that give new networks (`performAll_eq_build`). In any case the network is assembled
(`assembled_performAll`).
-/

namespace OperatorNet

variable {α : Type}

namespace Network

/-! ## Feeding slots in words -/

variable {g : Network α}

/-- The trial of adapters words their search. -/
lemma words_tryAdapters (suffix : String) (b : Bindings) (actual expected : PortType)
    (adapters : List (Operator α)) :
    Words (tryAdapters suffix b actual expected adapters)
      (findAdapter suffix b actual expected adapters) := by
  induction adapters with
  | nil => exact .refl _
  | cons a rest ih =>
    rw [tryAdapters, findAdapter]
    refine (Words.refl a.firstInput).bind fun input _ => .worded ?_
    simp only [Bindings.unifySlots?]
    cases b.unifySlots [(input.freshen suffix, actual), (expected, a.outType.freshen suffix)] with
    | ok b' => exact .refl _
    | error reason => exact ih

/-- Slots are fed alike when the reasons why one cannot be fed directly are put into words. -/
lemma words_stage (g : Network α) (adapters : List (Operator α)) (slot : Nat) (b : Bindings)
    (suffixes : Nat) (slots : List (PortType × Int)) :
    Words (g.stage adapters slot b suffixes slots) (g.feed adapters slot b suffixes slots) := by
  induction slots generalizing slot b suffixes with
  | nil => exact .refl _
  | cons p rest ih =>
    obtain ⟨expected, source⟩ := p
    rw [stage, feed]
    refine (Words.refl (g.node source)).bind fun n _ => .worded ?_
    dsimp only
    cases b.unify expected n.template with
    | ok b' => exact (ih (slot + 1) b' suffixes).bind fun _ _ => .refl _
    | error reason =>
      refine (words_tryAdapters _ b n.template expected adapters).bind fun found _ => ?_
      cases found with
      | none =>
        dsimp only
        rw [SlotError.fault]
        split
        next => exact .refl _
        next => exact .inr rfl
      | some choice => exact (ih (slot + 1) choice.2.2 (suffixes + 1)).bind fun _ _ => .refl _

/-- Slots that are all fed directly are fed alike, since nothing is put into words. -/
lemma stage_of_feed {adapters : List (Operator α)} {slot k k' : Nat} {b b' : Bindings}
    {slots : List (PortType × Int)} {feeds : List (Feed α)}
    (fed : g.feed adapters slot b k slots = .ok (feeds, b', k'))
    (direct : ∀ feed ∈ feeds, ∃ source, feed = .direct source) :
    g.stage adapters slot b k slots = .ok (feeds, b', k') := by
  induction slots generalizing slot b k feeds with
  | nil => exact fed
  | cons p rest ih =>
    obtain ⟨expected, source⟩ := p
    rw [feed] at fed
    rw [stage]
    simp only [bind_eq_ok] at fed ⊢
    obtain ⟨n, there, fed⟩ := fed
    refine ⟨n, there, ?_⟩
    split at fed
    next b₁ unified =>
      simp only [bind_eq_ok, pure_eq_ok] at fed
      obtain ⟨⟨feeds', b'', k''⟩, others, eq⟩ := fed
      cases eq
      refine ⟨.ok b₁, worded_eq_ok.2 unified, ?_⟩
      simp only [bind_eq_ok, pure_eq_ok]
      exact ⟨_, ih others fun feed hf => direct feed (List.mem_cons_of_mem _ hf), rfl⟩
    next =>
      -- an adapter would not be a direct feed
      rw [bind_eq_ok] at fed
      obtain ⟨choice, -, fed⟩ := fed
      split at fed
      next =>
        simp only [bind_eq_ok, pure_eq_ok] at fed
        obtain ⟨others, -, eq⟩ := fed
        cases eq
        obtain ⟨source, eq⟩ := direct _ (List.mem_cons_self ..)
        cases eq
      next => exact absurd fed fail_ne_ok

/-- Ids are located when they are all in the network. -/
lemma mapM_locate_eq_ok {sources located : List Int} :
    sources.mapM g.locate = .ok located ↔ (∀ i ∈ sources, i ∈ g.ids) ∧ located = sources := by
  rw [mapM_eq_ok_iff fun i _ _ => locate_eq_ok, List.map_id']

/-- A node is added on ids of the network only. -/
lemma mem_ids_of_addNode [Scalar α] {c : Catalog α} {op : Operator α} {sources : List Int}
    {params : Params α} {r : Int × Network α} (added : g.addNode c op sources params = .ok r) :
    ∀ i ∈ sources, i ∈ g.ids := by
  rw [addNode, bind_eq_ok] at added
  obtain ⟨located, found, -⟩ := added
  exact (mapM_locate_eq_ok.1 found).1

end Network

/-! ## Outlines -/

/-- The node without what is known about its type. -/
def Node.outline (n : Node α) : Node α :=
  { n with resolved := n.template }

/-- Outlines keep what a network is built from. -/
lemma Node.keeps_outline : Keeps (outline : Node α → Node α) :=
  ⟨fun _ => rfl, fun _ => rfl, fun _ => rfl⟩

namespace Network

variable {g g' : Network α} {κ : Int → Nat}

/-- The network without the known types of its nodes, and with no symbols noted. -/
def outline (g : Network α) : Network α :=
  { g.mapNodes Node.outline with bindings := { g.bindings with known := [] } }

/-- An outline has the ids of the network. -/
lemma ids_outline (g : Network α) : g.outline.ids = g.ids :=
  List.map_map ..

/-- Bringing types up to date keeps the outline. -/
lemma outline_refresh (g : Network α) : g.refresh.outline = g.outline := by
  simp only [outline, mapNodes, refresh, List.map_map]
  rfl

/-- Writing down a known type keeps the outline. -/
lemma outline_modify (g : Network α) (id : Int) (resolved : PortType) :
    (g.modify id fun n => { n with resolved }).outline = g.outline := by
  have nodes : (g.nodes.map fun n => if n.id = id then { n with resolved } else n).map
      Node.outline = g.nodes.map Node.outline := by
    rw [List.map_map]
    refine List.map_congr_left fun n _ => ?_
    rw [Function.comp_apply]
    split
    · rfl
    · rfl
  simp only [outline, mapNodes, modify, nodes]

/-- The outlines of the nodes are those of the outline. -/
lemma mem_outline {n : Node α} (mem : n ∈ g.nodes) : n.outline ∈ g.outline.nodes :=
  List.mem_map_of_mem mem

/-- An outline has the slots of the network. -/
lemma slots_outline (g : Network α) (names : Int → String) :
    g.outline.slots names = g.slots names :=
  slots_mapNodes Node.keeps_outline fun _ _ => rfl

/-- A network is labelled when its outline is. -/
lemma labelled_outline_iff : Labelled g.outline κ ↔ Labelled g κ := by
  constructor
  · intro lab
    refine ⟨⟨fun i n there => ?_, ?_, fun n hn => ?_⟩, fun m hm n hn => ?_, fun n hn => ?_⟩
    · exact lab.wired.ids i n.outline (List.getElem?_map .. ▸ congrArg _ there)
    · exact lab.wired.next.trans (congrArg Nat.cast (List.length_map ..))
    · have wired := lab.wired.nodes _ (mem_outline hn)
      exact ⟨wired.arity, wired.earlier, wired.recorded⟩
    · exact lab.apart m.outline (mem_outline hm) n.outline (mem_outline hn)
    · exact lab.template n.outline (mem_outline hn)
  · intro lab
    have mapped := lab.wired.mapNodes Node.keeps_outline fun n hn => (lab.wired.nodes n hn).recorded
    refine ⟨⟨mapped.ids, mapped.next, mapped.nodes⟩, ?_, List.forall_mem_map.2 lab.template⟩
    exact List.forall_mem_map.2 fun m hm => List.forall_mem_map.2 fun n hn => lab.apart m hm n hn

/-- A network mentions what its outline does. -/
lemma mentions_outline_iff {s : String} : g.outline.Mentions κ s ↔ g.Mentions κ s := by
  constructor
  · refine Mentions.mono fun n hn => ?_
    obtain ⟨m, hm, rfl⟩ := List.mem_map.1 hn
    exact ⟨m, hm, rfl, rfl, fun _ => rfl⟩
  · exact Mentions.mono fun n hn => ⟨n.outline, mem_outline hn, rfl, rfl, fun _ => rfl⟩

/-- A network is assembled when its outline is. -/
lemma assembled_outline_iff : Assembled g.outline κ ↔ Assembled g κ := by
  have ids := g.ids_outline
  have inputs : (g.outline.nodes.filter Node.isInput).map (·.id) =
      (g.nodes.filter Node.isInput).map (·.id) := by
    change ((g.nodes.map Node.outline).filter Node.isInput).map _ = _
    rw [List.filter_map, List.map_map]
    rfl
  constructor
  · intro built
    refine ⟨labelled_outline_iff.1 built.toLabelled, fun n hn =>
      built.below n.outline (mem_outline hn),
      ⟨built.wellFormed.apart, built.wellFormed.proper⟩, fun σ => ?_, ?_, inputs ▸ built.inputIds,
      fun out chosen => ids ▸ built.outputId out chosen⟩
    · rw [← slots_outline]
      exact built.satisfies_iff σ
    · exact built.within.mono fun s => mentions_outline_iff.1
  · intro built
    refine ⟨labelled_outline_iff.2 built.toLabelled, List.forall_mem_map.2 built.below,
      ⟨built.wellFormed.apart, built.wellFormed.proper⟩, fun σ => ?_, ?_,
      built.inputIds.trans inputs.symm, fun out chosen => ids ▸ built.outputId out chosen⟩
    · rw [slots_outline]
      exact built.satisfies_iff σ
    · exact Bindings.Within.mono (b := g.bindings) built.within fun s => mentions_outline_iff.2

/-- A network with the outline of an assembled one is assembled. -/
lemma Assembled.of_outline (assembled : Assembled g κ) (same : g'.outline = g.outline) :
    Assembled g' κ := by
  rw [← assembled_outline_iff, same, assembled_outline_iff]
  exact assembled

/-- All known types can be written. -/
def Writable (g : Network α) : Prop :=
  ∀ n ∈ g.nodes, n.resolved.Writable

/-- A type that is known of a node, or its template. -/
def Holds (g : Network α) (t : PortType) : Prop :=
  ∃ n ∈ g.nodes, t = n.resolved ∨ t = n.template

/-- What a use is put in with is held by the network before it, or when types are up to date
again. -/
lemma holds_withUse {op : Operator α} {feeds : List (Feed α)} {b : Bindings} {k : Nat}
    {params : Params α} {t : PortType} (held : (g.withUse op feeds b k params).Holds t) :
    g.Holds t ∨ (g.withUse op feeds b k params).refresh.Holds t := by
  obtain ⟨n, hn, same⟩ := held
  have template (eq : t = n.template) : (g.withUse op feeds b k params).refresh.Holds t :=
    ⟨n.refresh b, List.mem_map_of_mem hn, .inr eq⟩
  rcases List.mem_append.1 hn with placed | new
  · rcases cases_of_mem_place placed with old | ⟨a, _, source, type, -, rfl⟩
    · exact .inl ⟨n, old, same⟩
    · exact .inr (template (or_self_iff.1 same))
  · obtain rfl := List.mem_singleton.1 new
    exact .inr (template (or_self_iff.1 same))

end Network

/-! ## Calls -/

namespace Edit

variable {g g' : Network α}

/-- A result that is lifted ends as it is, in the network at hand. -/
lemma ends_lift {β : Type} {x : Except Fault β} {good : β → Network α → Prop}
    {bad : Fault → Network α → Prop} :
    Ends (lift x) g good bad ↔
      match x with
      | .ok b => good b g
      | .error f => bad f g := by
  cases x <;> rfl

/-- The network with more symbols noted. -/
def noting (g : Network α) (dims : List Dim) : Network α :=
  { g with bindings := g.bindings.meet (dims.flatMap Dim.symbols) }

/-- Symbols noted one after the other are noted together. -/
lemma noting_append (g : Network α) (dims more : List Dim) :
    noting (noting g dims) more = noting g (dims ++ more) := by
  rw [noting, noting, noting, List.flatMap_append, Bindings.meet_append]

/-- A dimension is as it was when it is written, unless a number is too long. -/
lemma written_eq (d : Dim) : d.written = .ok d ∨ d.written = .error .unwritable := by
  rw [Dim.written]
  split
  · exact .inl rfl
  · exact .inr rfl

/-- What types stand for depends on what is solved. -/
lemma resolveType_of_solved {b b' : Bindings} (same : b'.solved = b.solved) (t : PortType) :
    b'.resolveType t = b.resolveType t :=
  PortType.mapDims_congr fun d _ => by rw [Bindings.resolve, Bindings.resolve, same]

/-- What is left when a number in a type is too long: more symbols are noted. -/
def Halts (g : Network α) (f : Fault) (g' : Network α) : Prop :=
  f = .unwritable ∧ ∃ dims, g' = noting g dims

/-- What is left when a number is too long on the way from one network to the next: the outline of
the latter, with known types from both of them. -/
structure Stops (g g₁ : Network α) (f : Fault) (g' : Network α) : Prop where
  unwritable : f = .unwritable
  outline : g'.outline = g₁.outline
  known : ∀ n ∈ g'.nodes, g.Holds n.resolved ∨ g₁.Holds n.resolved

/-- A number that is too long may stop an edit where it is. -/
lemma Stops.refl (g : Network α) : Stops g g .unwritable g :=
  ⟨rfl, rfl, fun n hn => .inl ⟨n, hn, .inl rfl⟩⟩

/-- What halts while symbols are noted stops the edit. -/
lemma Halts.stops {f : Fault} (halts : Halts g f g') : Stops g g f g' := by
  obtain ⟨rfl, dims, rfl⟩ := halts
  exact ⟨rfl, rfl, fun n hn => .inl ⟨n, hn, .inl rfl⟩⟩

/-- A dimension stands for what it stands for in the bindings, unless a number is too long. -/
lemma resolveDim_ends (d : Dim) :
    Ends (resolveDim d) g (fun r g' => r = g.bindings.resolve d ∧ g' = noting g [d]) (Halts g) := by
  have noted : { g with bindings := g.bindings.meet d.symbols } = noting g [d] := by
    rw [noting, List.flatMap_singleton]
  rw [resolveDim, ends_bind, ends_modify, ends_bind, ends_get, ends_lift, noted]
  rcases written_eq ((noting g [d]).bindings.resolve d) with same | long
  · rw [same]
    exact ⟨rfl, rfl⟩
  · rw [long]
    exact ⟨rfl, [d], rfl⟩

/-- A type is resolved by its bindings, and its symbols are noted, unless a number is too long. -/
lemma resolveType_ends (t : PortType) :
    Ends (resolveType t) g
      (fun r g' => r = g.bindings.resolveType t ∧ g' = noting g t.shape) (Halts g) := by
  have axes (dims : List Dim) :
      Ends (dims.mapM resolveDim) g
        (fun rs g' => rs = dims.map g.bindings.resolve ∧ g' = noting g dims) (Halts g) := by
    induction dims generalizing g with
    | nil => exact ⟨rfl, rfl⟩
    | cons d rest ih =>
      rw [List.mapM_cons]
      simp only [ends_bind, ends_pure]
      refine (resolveDim_ends d).mono (fun r g₁ done => ?_) fun _ _ h => h
      obtain ⟨rfl, rfl⟩ := done
      apply (ih (g := noting g [d])).mono
      case weaker =>
        rintro rs g₂ ⟨rfl, rfl⟩
        exact ⟨rfl, noting_append g [d] rest⟩
      case worse =>
        rintro f g₂ ⟨rfl, dims, rfl⟩
        exact ⟨rfl, d :: dims, noting_append g [d] dims⟩
  rw [resolveType, ends_bind]
  refine (axes t.shape).mono (fun rs g' done => ?_) fun _ _ h => h
  obtain ⟨rfl, rfl⟩ := done
  exact ⟨rfl, rfl⟩

/-- A change of the node in one place changes nothing else, where the nodes have different ids. -/
lemma modify_middle {before after : List (Node α)} {n : Node α} (f : Node α → Node α)
    (nodes : g.nodes = before ++ n :: after) (distinct : g.ids.Nodup) :
    g.modify n.id f = { g with nodes := before ++ f n :: after } := by
  have others (m : Node α) (mem : m ∈ before ++ after) : m.id ≠ n.id := by
    rw [Network.ids, nodes, List.map_append, List.map_cons, List.nodup_middle, List.nodup_cons,
      ← List.map_append] at distinct
    exact fun same => distinct.1 (same ▸ List.mem_map_of_mem mem)
  have kept (part : List (Node α)) (sub : ∀ m ∈ part, m ∈ before ++ after) :
      part.map (fun m => if m.id = n.id then f m else m) = part := by
    conv_rhs => rw [← List.map_id part]
    exact List.map_congr_left fun m mem => if_neg (others m (sub m mem))
  rw [Network.modify, nodes, List.map_append, List.map_cons, if_pos rfl,
    kept before fun m mem => List.mem_append_left _ mem,
    kept after fun m mem => List.mem_append_right _ mem]

/-- Bringing types up to date keeps the outline, and only a number that is too long ends it. -/
lemma refresh_keeps :
    Ends refresh g (fun _ g' => g'.outline = g.outline) (Stops g g.refresh) := by
  have each (nodes : List (Node α)) (sub : ∀ n ∈ nodes, n ∈ g.nodes) (g₁ : Network α)
      (same : g₁.outline = g.outline)
      (known : ∀ n ∈ g₁.nodes, g.Holds n.resolved ∨ g.refresh.Holds n.resolved) :
      Ends (nodes.forM fun n => do
          let resolved ← resolveType n.template
          modify fun g => g.modify n.id fun n => { n with resolved }) g₁
        (fun _ g' => g'.outline = g.outline) (Stops g g.refresh) := by
    induction nodes generalizing g₁ with
    | nil => exact same
    | cons n rest ih =>
      obtain ⟨mem, sub⟩ := List.forall_mem_cons.1 sub
      rw [List.forM, ends_bind, ends_bind]
      apply (resolveType_ends n.template).mono
      case worse =>
        rintro f g' ⟨rfl, dims, rfl⟩
        exact ⟨rfl, same.trans (Network.outline_refresh g).symm, known⟩
      case weaker =>
        rintro r g₂ ⟨rfl, rfl⟩
        refine ih sub _ ((Network.outline_modify _ _ _).trans same)
          (List.forall_mem_map.2 fun m hm => ?_)
        split
        · -- the known type of this node is the one that it has when all types are up to date
          have solved : g₁.bindings.solved = g.bindings.solved :=
            congrArg (fun h => h.bindings.solved) same
          exact .inr ⟨n.refresh g.bindings, List.mem_map_of_mem mem,
            .inl (resolveType_of_solved solved n.template)⟩
        · exact known m hm
  rw [refresh, ends_bind, ends_get]
  exact each g.nodes (fun _ h => h) g rfl fun n hn => .inl ⟨n, hn, .inl rfl⟩

/-- All types are brought up to date, unless a number is too long. -/
lemma refresh_ends (distinct : g.ids.Nodup) :
    Ends refresh g (fun _ g' => g' = g.refresh) fun _ _ => True := by
  -- symbols are noted on the way, but what they stand for stays: every type resolves as in `g`
  have each (before rest : List (Node α)) (nodes : g.nodes = before ++ rest) :
      Ends (rest.forM fun n => do
          let resolved ← resolveType n.template
          modify fun g => g.modify n.id fun n => { n with resolved }) g
        (fun _ g' => g' = { noting g (rest.flatMap fun n => n.template.shape) with
          nodes := before ++ rest.map (Node.refresh g.bindings) })
        fun _ _ => True := by
    induction rest generalizing before g with
    | nil =>
      rw [List.map_nil, ← nodes]
      rfl
    | cons n rest ih =>
      rw [List.forM, ends_bind, ends_bind]
      apply (resolveType_ends n.template).mono
      case worse => exact fun _ _ _ => trivial
      case weaker =>
        rintro r g₁ ⟨rfl, rfl⟩
        rw [ends_modify, modify_middle (g := noting g n.template.shape) _ nodes distinct]
        have ids : ((before ++ n.refresh g.bindings :: rest).map (·.id)).Nodup := by
          rw [Network.ids, nodes, List.map_append] at distinct
          rw [List.map_append]
          exact distinct
        let g₁ : Network α :=
          { noting g n.template.shape with nodes := before ++ n.refresh g.bindings :: rest }
        apply (ih (g := g₁) ids (before ++ [n.refresh g.bindings]) (List.append_cons ..)).mono
        case worse => exact fun _ _ h => h
        case weaker =>
          rintro - g' rfl
          rw [List.append_assoc, List.map_cons, List.flatMap_cons, ← noting_append]
          rfl
  rw [refresh, ends_bind, ends_get]
  refine (each [] g.nodes rfl).mono (fun _ g' done => ?_) fun _ _ h => h
  rw [done, Network.refresh, noting, List.flatMap_assoc]
  rfl

/-- A dimension is told when what it stands for can be written. -/
lemma resolveDim_writes (d : Dim) :
    Ends (resolveDim d) g
      (fun _ _ => (g.bindings.resolve d).isConcrete ∨
        (g.bindings.resolve d).const < Text.unwritable)
      fun _ _ =>
        ¬ ((g.bindings.resolve d).isConcrete ∨ (g.bindings.resolve d).const < Text.unwritable) := by
  have same : ({ g with bindings := g.bindings.meet d.symbols } : Network α).bindings.resolve d =
    g.bindings.resolve d := rfl
  rw [resolveDim, ends_bind, ends_modify, ends_bind, ends_get, ends_lift, same]
  cases written : (g.bindings.resolve d).written with
  | ok e => exact (Dim.written_eq_ok_iff.1 written).1
  | error f =>
    intro short
    rw [Dim.written_eq_ok_iff.2 ⟨short, rfl⟩] at written
    cases written

/-- A type is resolved when the result can be written. -/
lemma resolveType_writes (t : PortType) :
    Ends (resolveType t) g (fun _ _ => (g.bindings.resolveType t).Writable)
      fun _ _ => ¬ (g.bindings.resolveType t).Writable := by
  have axes (dims : List Dim) :
      Ends (dims.mapM resolveDim) g
        (fun _ _ => ∀ d ∈ dims.map g.bindings.resolve, d.isConcrete ∨ d.const < Text.unwritable)
        fun _ _ => ¬ ∀ d ∈ dims.map g.bindings.resolve, d.isConcrete ∨
          d.const < Text.unwritable := by
    induction dims generalizing g with
    | nil => exact fun d mem => absurd mem List.not_mem_nil
    | cons d rest ih =>
      rw [List.mapM_cons]
      simp only [ends_bind, ends_pure, List.map_cons, List.forall_mem_cons]
      refine ((resolveDim_ends d).and (resolveDim_writes d)).mono (fun r g₁ done => ?_)
        fun _ _ failed all => failed.2 all.1
      obtain ⟨⟨-, rfl⟩, here⟩ := done
      exact ih.mono (fun _ _ later => ⟨here, later⟩) fun _ _ failed all => failed all.2
  rw [resolveType, ends_bind]
  exact (axes t.shape).mono (fun _ _ h => h) fun _ _ h => h

/-- Types are brought up to date when all of them can be written. -/
lemma refresh_writes :
    Ends refresh g (fun _ _ => ∀ n ∈ g.nodes, (g.bindings.resolveType n.template).Writable)
      fun _ _ => ¬ ∀ n ∈ g.nodes, (g.bindings.resolveType n.template).Writable := by
  have each (nodes : List (Node α)) (g₁ : Network α)
      (same : g₁.bindings.solved = g.bindings.solved) :
      Ends (nodes.forM fun n => do
          let resolved ← resolveType n.template
          modify fun g => g.modify n.id fun n => { n with resolved }) g₁
        (fun _ _ => ∀ n ∈ nodes, (g.bindings.resolveType n.template).Writable)
        fun _ _ => ¬ ∀ n ∈ nodes, (g.bindings.resolveType n.template).Writable := by
    induction nodes generalizing g₁ with
    | nil => exact fun n mem => absurd mem List.not_mem_nil
    | cons n rest ih =>
      have here : g₁.bindings.resolveType n.template = g.bindings.resolveType n.template :=
        resolveType_of_solved same n.template
      rw [List.forM, ends_bind, ends_bind]
      simp only [List.forall_mem_cons]
      refine ((resolveType_ends n.template).and (resolveType_writes n.template)).mono
        (fun r g₂ done => ?_) fun _ _ failed all => failed.2 (here ▸ all.1)
      obtain ⟨⟨-, rfl⟩, can⟩ := done
      rw [ends_modify]
      apply (ih ((noting g₁ n.template.shape).modify n.id fun n => { n with resolved := r })
        same).mono
      case weaker => exact fun _ _ later => ⟨here ▸ can, later⟩
      case worse => exact fun _ _ failed all => failed all.2
  rw [refresh, ends_bind, ends_get]
  exact each g.nodes g rfl

/-- An input is added as by the call that gives a new network. -/
lemma addInput_ends (name : String) (type : PortType) :
    Ends (addInput name type) g (fun id g' => g.addInput name type = .ok (id, g'))
      fun f g' => Stops g g f g' ∨ g' = g ∧ g.addInput name type = .error f := by
  rw [addInput, ends_bind, ends_get, Network.addInput]
  split
  next => exact .inr ⟨rfl, rfl⟩
  next =>
    rw [ends_bind]
    refine (resolveType_ends type).mono (fun r g' done => ?_) fun _ _ long => .inl long.stops
    obtain ⟨rfl, rfl⟩ := done
    rfl

/-- An input is added when its type can be written. -/
lemma addInput_writes (name : String) (type : PortType) :
    Ends (addInput name type) g (fun _ _ => (g.bindings.resolveType type).Writable)
      fun f _ => (∃ f, g.addInput name type = .error f) ∨
        f = .unwritable ∧ ¬ (g.bindings.resolveType type).Writable := by
  rw [addInput, ends_bind, ends_get, Network.addInput]
  split
  next => exact .inl ⟨_, rfl⟩
  next =>
    rw [ends_bind]
    apply ((resolveType_ends type).and (resolveType_writes type)).mono
    case weaker => exact fun _ _ done => done.2
    case worse => exact fun _ _ failed => .inr ⟨failed.1.1, failed.2⟩

/-- A use is put in, and then all types are brought up to date. -/
lemma ends_commit {op : Operator α} {feeds : List (Network.Feed α)} {b : Bindings} {k : Nat}
    {params : Params α} {good : Int → Network α → Prop} {bad : Fault → Network α → Prop} :
    Ends (commit op feeds b k params) g good bad ↔
      Ends refresh (g.withUse op feeds b k params)
        (fun _ => good (g.place feeds).2.nextId) bad := by
  rw [commit, ends_bind, ends_get, ends_bind]
  change Ends _ (g.place feeds).2 _ _ ↔ _
  rw [ends_bind, ends_get, ends_bind, ends_modify, ends_bind]
  rfl

/-- A use is put in and all types are brought up to date, unless a number is too long. -/
lemma commit_ends (op : Operator α) (feeds : List (Network.Feed α)) (b : Bindings) (k : Nat)
    (params : Params α) :
    Ends (commit op feeds b k params) g
      (fun id g' => id = (g.place feeds).2.nextId ∧
        ((g.withUse op feeds b k params).ids.Nodup → g' = (g.withUse op feeds b k params).refresh))
      (Stops g (g.withUse op feeds b k params).refresh) := by
  have placed : Ends refresh (g.withUse op feeds b k params)
      (fun _ g' => (g.withUse op feeds b k params).ids.Nodup →
        g' = (g.withUse op feeds b k params).refresh)
          (Stops g (g.withUse op feeds b k params).refresh) := by
    refine ends_iff.2 ⟨fun _ g' run distinct => (refresh_ends distinct).of_ok run,
      fun f g' run => ?_⟩
    obtain ⟨rfl, same, known⟩ := refresh_keeps.of_error run
    exact ⟨rfl, same, fun n hn => (known n hn).elim Network.holds_withUse .inr⟩
  exact ends_commit.2 (placed.mono (fun _ _ done => ⟨rfl, done⟩) fun _ _ h => h)

/-- A use is put in when all types can be written then. -/
lemma commit_writes (op : Operator α) (feeds : List (Network.Feed α)) (b : Bindings) (k : Nat)
    (params : Params α) (distinct : (g.withUse op feeds b k params).ids.Nodup) :
    Ends (commit op feeds b k params) g
      (fun id g' => (id, g') = ((g.place feeds).2.nextId, (g.withUse op feeds b k params).refresh) ∧
        (g.withUse op feeds b k params).refresh.Writable)
      fun f _ => f = .unwritable ∧ ¬ (g.withUse op feeds b k params).refresh.Writable := by
  have placed := ((refresh_ends distinct).and refresh_keeps).and refresh_writes
  rw [ends_commit]
  apply placed.mono
  case weaker =>
    rintro _ g' ⟨⟨rfl, -⟩, can⟩
    exact ⟨rfl, List.forall_mem_map.2 can⟩
  case worse =>
    rintro f g' ⟨⟨-, long, -⟩, cannot⟩
    exact ⟨long, fun all => cannot fun n hn => all (n.refresh b) (List.mem_map_of_mem hn)⟩

/-- What a use leaves that is put in is left when it is added. -/
lemma addNode_of_commit [Scalar α] {c : Catalog α} {op : Operator α} {refs : List (Data Float)}
    {params : Params α} {good : Int → Network α → Prop}
    (commits : ∀ feeds b k, Ends (commit op feeds b k params) g good fun _ _ => True) :
    Ends (addNode c op refs params) g good fun _ _ => True := by
  rw [addNode, ends_bind, ends_get, ends_bind, ends_lift]
  cases refs.mapM g.locateRef with
  | error f => trivial
  | ok sources =>
    dsimp only
    split
    next => trivial
    next =>
      rw [ends_bind, ends_lift]
      split
      next => exact commits _ _ _
      next => trivial

/-- All known types can be written after a use was added. -/
lemma writable_addNode [Scalar α] {c : Catalog α} {op : Operator α} {refs : List (Data Float)}
    {params : Params α} :
    Ends (addNode c op refs params) g (fun _ g' => g'.ids.Nodup → g'.Writable) fun _ _ => True := by
  refine addNode_of_commit fun feeds b k => ?_
  have placed : Ends refresh (g.withUse op feeds b k params)
      (fun _ g' => g'.ids.Nodup → g'.Writable)
      fun _ _ => True := by
    refine ends_iff.2 ⟨fun _ g' run distinct => ?_, fun _ _ _ => trivial⟩
    have can := refresh_writes.of_ok run
    have ids : g'.ids = (g.withUse op feeds b k params).ids := by
      have same := congrArg Network.ids (refresh_keeps.of_ok run)
      rwa [Network.ids_outline, Network.ids_outline] at same
    obtain rfl := (refresh_ends (ids ▸ distinct)).of_ok run
    exact List.forall_mem_map.2 can
  exact ends_commit.2 placed

/-- So is a use of an operator, where the nodes of the new network have different ids. -/
lemma addNode_ends [Scalar α] (c : Catalog α) (op : Operator α) (sources : List Int)
    (params : Params α) :
    Ends (addNode c op (sources.map .int) params) g
      (fun id g' => ∃ g₁, g.addNode c op sources params = .ok (id, g₁) ∧ (g₁.ids.Nodup → g' = g₁))
      fun f g' =>
        (∃ g₁, (g₁ = g ∨ ∃ id, g.addNode c op sources params = .ok (id, g₁)) ∧ Stops g g₁ f g') ∨
        g' = g ∧ g.addNode c op sources params = .error f := by
  have refs : (sources.map Data.int).mapM g.locateRef = sources.mapM g.locate := by
    rw [List.mapM_map]
    rfl
  rw [addNode, ends_bind, ends_get, ends_bind, ends_lift, refs]
  -- references, arity and adapters are looked at before anything is put into the network
  cases found : sources.mapM g.locate with
  | error f =>
    refine .inr ⟨rfl, ?_⟩
    rw [Network.addNode, found]
    rfl
  | ok located =>
    obtain ⟨there, rfl⟩ := Network.mapM_locate_eq_ok.1 found
    dsimp only
    split
    next other =>
      refine .inr ⟨rfl, ?_⟩
      rw [Network.addNode, found]
      simp only [bind, Except.bind, if_pos other]
      rfl
    next arity =>
      have slots : (op.inTypes.map (·.freshen (toString g.suffixes))).zip located =
        g.openSlots op located := rfl
      rw [Network.addNode_eq there (not_not.1 arity), ends_bind, ends_lift, slots]
      rcases Network.words_stage g c.adapters 0 g.bindings (g.suffixes + 1) (g.openSlots op located)
        with same | long
      · rw [same]
        cases g.feed c.adapters 0 g.bindings (g.suffixes + 1) (g.openSlots op located) with
        | error f => exact .inr ⟨rfl, rfl⟩
        | ok fed =>
          apply (commit_ends op fed.1 fed.2.1 fed.2.2 params).mono
          case worse =>
            exact fun f g' stops => .inl ⟨_, .inr ⟨_, rfl⟩, stops⟩
          case weaker =>
            rintro id g' ⟨rfl, done⟩
            refine ⟨_, rfl, fun distinct => done ?_⟩
            rw [Network.ids, Network.refresh, List.map_map] at distinct
            exact distinct
      · -- nothing has been put into the network yet
        rw [long]
        exact .inl ⟨g, .inl rfl, .refl g⟩

/-- A use that reads from nodes directly is added when all types can be written then. -/
lemma addNode_writes [Scalar α] {c : Catalog α} {op : Operator α} {sources : List Int}
    {params : Params α} {feeds : List (Network.Feed α)} {b : Bindings} {k : Nat}
    (there : ∀ i ∈ sources, i ∈ g.ids) (arity : sources.length = op.arity)
    (fed : g.feed c.adapters 0 g.bindings (g.suffixes + 1) (g.openSlots op sources) =
      .ok (feeds, b, k)) (direct : ∀ feed ∈ feeds, ∃ source, feed = .direct source)
    (distinct : (g.withUse op feeds b k params).refresh.ids.Nodup) :
    Ends (addNode c op (sources.map .int) params) g
      (fun id g' => (id, g') = ((g.place feeds).2.nextId, (g.withUse op feeds b k params).refresh) ∧
        (g.withUse op feeds b k params).refresh.Writable)
      fun f _ => f = .unwritable ∧ ¬ (g.withUse op feeds b k params).refresh.Writable := by
  have located : (sources.map Data.int).mapM g.locateRef = .ok sources := by
    rw [List.mapM_map]
    exact Network.mapM_locate_eq_ok.2 ⟨there, rfl⟩
  have slots : (op.inTypes.map (·.freshen (toString g.suffixes))).zip sources =
      g.openSlots op sources := rfl
  rw [Network.ids, Network.refresh, List.map_map] at distinct
  rw [addNode, ends_bind, ends_get, ends_bind, ends_lift, located]
  dsimp only
  rw [if_neg (not_not.2 arity), ends_bind, ends_lift, slots, Network.stage_of_feed fed direct]
  exact commit_writes op feeds b k params distinct

/-! ### Edits that are given up with a fault -/

/-- An edit words a plain one that it ends like. -/
lemma words_on {β : Type} {x : Edit α β} {y : Except Fault (β × Network α)}
    (ends : Ends x g (fun b g' => y = .ok (b, g')) fun f _ => f = .unwritable ∨ y = .error f) :
    Words (x.on g) y := by
  rw [on]
  split
  next eq => exact .inl (ends.of_ok eq).symm
  next eq =>
    rcases ends.of_error eq with rfl | same
    · exact .inr rfl
    · exact .inl same.symm

/-- The edit that adds an input words the plain one. -/
lemma words_addInput (name : String) (type : PortType) :
    Words ((addInput name type).on g) (g.addInput name type) :=
  words_on <| (addInput_ends name type).mono (fun _ _ done => done) fun _ _ =>
    Or.imp Stops.unwritable And.right

/-- The edit that adds a node words the plain one. -/
lemma words_addNode [Scalar α] (numbered : g.Numbered) (c : Catalog α) (op : Operator α)
    (sources : List Int) (params : Params α) :
    Words ((addNode c op (sources.map .int) params).on g) (g.addNode c op sources params) := by
  refine words_on ((addNode_ends c op sources params).mono ?_ ?_)
  · rintro id g' ⟨g₁, added, same⟩
    obtain rfl := same (numbered.addNode added).nodup
    exact added
  · rintro f g' (⟨g₁, -, long⟩ | ⟨-, failed⟩)
    · exact .inl long.1
    · exact .inr failed

/-- An edit that ends well where something holds gives the one result, and else it is given up. -/
lemma on_of_ends {β : Type} {x : Edit α β} {r : β × Network α} {P : Prop}
    (ends : Ends x g (fun b g' => (b, g') = r ∧ P) fun f _ => f = .unwritable ∧ ¬ P) :
    P ∧ x.on g = .ok r ∨ ¬ P ∧ x.on g = .error .unwritable := by
  rw [on]
  split
  next eq =>
    obtain ⟨same, holds⟩ := ends.of_ok eq
    exact .inl ⟨holds, congrArg _ same⟩
  next eq =>
    obtain ⟨rfl, fails⟩ := ends.of_error eq
    exact .inr ⟨fails, rfl⟩

/-- An input is added by the edit as by the plain one, if its type can be written. -/
lemma on_addInput {name : String} {type : PortType} {id : Int}
    (added : g.addInput name type = .ok (id, g')) :
    (g.bindings.resolveType type).Writable ∧ (addInput name type).on g = .ok (id, g') ∨
      ¬ (g.bindings.resolveType type).Writable ∧ (addInput name type).on g =
        .error .unwritable := by
  refine on_of_ends (((addInput_ends name type).and (addInput_writes name type)).mono ?_ ?_)
  · rintro id₁ g₁ ⟨same, can⟩
    exact ⟨Except.ok.inj (same.symm.trans added), can⟩
  · rintro f g₁ ⟨-, ⟨f', failed⟩ | long⟩
    · cases added.symm.trans failed
    · exact long

/-- A use without adapters is added when all known types can be written then. -/
lemma on_addNode [Scalar α] (numbered : g.Numbered) {c : Catalog α} {op : Operator α}
    {sources : List Int} {params : Params α} {id : Int}
    (added : g.addNode c op sources params = .ok (id, g')) (nothing : g'.adapterNodes = []) :
    g'.Writable ∧ (addNode c op (sources.map .int) params).on g = .ok (id, g') ∨
      ¬ g'.Writable ∧ (addNode c op (sources.map .int) params).on g = .error .unwritable := by
  have there := Network.mem_ids_of_addNode added
  have distinct := (numbered.addNode added).nodup
  obtain ⟨feeds, b, k, arity, fed, rfl, rfl⟩ := Network.addNode_eq_ok added
  exact on_of_ends
    (addNode_writes there arity fed (Network.adapterNodes_withUse.1 nothing).2 distinct)

/-- The edit that chooses the output does what the plain one does. -/
lemma setOutput_ends (id : Int) :
    Ends (setOutput (.int id)) g (fun _ g' => g.setOutput id = .ok g')
      fun f g' => g' = g ∧ g.setOutput id = .error f := by
  have found : g.locateRef (.int id) = g.locate id := rfl
  rw [setOutput, ends_bind, ends_get, ends_bind, ends_lift, found, Network.setOutput]
  cases g.locate id with
  | ok id => rfl
  | error f => exact ⟨rfl, rfl⟩

end Edit

namespace Network

variable [Scalar α] {c : Catalog α} {g : Network α}

/-- A call on the network at hand, which gives the id of the node that it is about. -/
def Call.perform (c : Catalog α) : Call α → Edit α Int
  | .input name type => Edit.addInput name type
  | .node op sources params => do
    Edit.addNode c (← Edit.lift (op.lookup c)) (sources.map .int) params
  | .output id => Edit.setOutput (.int id)

/-- A call does what the call does that gives a new network, unless a number is too long; then the
outline of the old network or of the new one is left. -/
lemma Call.perform_ends (step : Call α) :
    Ends (step.perform c) g
      (fun _ g' => ∃ g₁, g.attempt c step = .ok g₁ ∧ (g₁.ids.Nodup → g' = g₁))
      fun f g' => (∃ g₁, (g₁ = g ∨ g.attempt c step = .ok g₁) ∧ Edit.Stops g g₁ f g') ∨
        g' = g ∧ g.attempt c step = .error f := by
  cases step with
  | input name type =>
    rw [Call.perform, attempt]
    apply (Edit.addInput_ends name type).mono
    case weaker =>
      intro id g' added
      rw [added]
      exact ⟨g', rfl, fun _ => rfl⟩
    case worse =>
      rintro f g' (long | ⟨same, failed⟩)
      · exact .inl ⟨g, .inl rfl, long⟩
      · rw [failed]
        exact .inr ⟨same, rfl⟩
  | node op sources params =>
    rw [Call.perform, attempt, ends_bind, Edit.ends_lift]
    cases op.lookup c with
    | error f => exact .inr ⟨rfl, rfl⟩
    | ok op =>
      -- the look-up of the operator comes first in both, so it can be left out of the comparison
      have attempted {id : Int} {g₁ : Network α}
          (added : g.addNode c op sources params = .ok (id, g₁)) :
          (do return (← g.addNode c (← (.ok op : Except Fault (Operator α))) sources params).2) =
            Except.ok g₁ := by
        simp only [bind, Except.bind, added]
        rfl
      apply (Edit.addNode_ends c op sources params).mono
      case weaker =>
        rintro id g' ⟨g₁, added, same⟩
        exact ⟨g₁, attempted added, same⟩
      case worse =>
        rintro f g' (⟨g₁, same | ⟨id, added⟩, long⟩ | ⟨same, failed⟩)
        · exact .inl ⟨g₁, .inl same, long⟩
        · exact .inl ⟨g₁, .inr (attempted added), long⟩
        · refine .inr ⟨same, ?_⟩
          simp only [bind, Except.bind, failed]
  | output id =>
    rw [Call.perform, attempt]
    exact (Edit.setOutput_ends id).mono (fun _ g' set => ⟨g', set, fun _ => rfl⟩)
      fun _ _ failed => .inr failed

/-- What a call has given. -/
abbrev Outcome (α : Type) :=
  Call α × Except Fault Int

/-- Calls one after the other, with what each of them gives; a fault does not end the sequence. -/
def performAll (c : Catalog α) (g : Network α) : List (Call α) → List (Outcome α) × Network α
  | [] => ([], g)
  | step :: rest =>
    let (result, g') := (step.perform c).run g
    let (outcomes, last) := performAll c g' rest
    ((step, result) :: outcomes, last)

/-- The calls that have given a result. -/
def succeeded (outcomes : List (Outcome α)) : List (Outcome α) :=
  outcomes.filter (·.2.isOk)

/-- Whether a call has failed because of a number that is too long to be written. -/
def Outcome.tooLong (o : Outcome α) : Bool :=
  match o.2 with
  | .error f =>
    match f.cause with
    | .dimension .unwritable => true
    | _ => false
  | .ok _ => false

/-- Calls are made one after the other. -/
lemma performAll_cons {step : Call α} {result : Except Fault Int} {g' : Network α}
    (run : (step.perform c).run g = (result, g')) (rest : List (Call α)) :
    performAll c g (step :: rest) =
      ((step, result) :: (performAll c g' rest).1, (performAll c g' rest).2) := by
  rw [performAll, run]

/-- Calls that fail can be left out: the others give the same results, and the network is the
same. -/
theorem performAll_succeeded {calls : List (Call α)}
    (short : ∀ o ∈ (performAll c g calls).1, ¬ o.tooLong) :
    performAll c g ((succeeded (performAll c g calls).1).map (·.1)) =
      (succeeded (performAll c g calls).1, (performAll c g calls).2) := by
  induction calls generalizing g with
  | nil => rfl
  | cons step rest ih =>
    cases run : (step.perform c).run g with
    | mk result g' =>
      rw [performAll_cons run] at short ⊢
      obtain ⟨here, later⟩ := List.forall_mem_cons.1 short
      cases result with
      | ok id =>
        change performAll c g (step :: (succeeded (performAll c g' rest).1).map (·.1)) = _
        rw [performAll_cons run, ih later]
        rfl
      | error f =>
        rcases step.perform_ends.of_error run with ⟨_, -, rfl, -⟩ | ⟨rfl, -⟩
        · exact absurd rfl here
        · exact ih later

/-- What is kept by every call that succeeds on an assembled network, and holds of what is left
where a number is too long, is kept by calls that are made in place, whether they fail or not. -/
lemma performAll_induction (reachable : c.Reachable) {P : Network α → Prop}
    {calls : List (Call α)}
    (stops : ∀ g g₁ f g', Edit.Stops g g₁ f g' → P g → P g₁ → P g')
    (attempt : ∀ g g' κ, ∀ step ∈ calls, Assembled g κ → P g → g.attempt c step = .ok g' → P g')
    {κ : Int → Nat} (built : Assembled g κ) (start : P g) :
    P (performAll c g calls).2 ∧ ∃ κ', Assembled (performAll c g calls).2 κ' := by
  induction calls generalizing g κ with
  | nil => exact ⟨start, κ, built⟩
  | cons step rest ih =>
    have onward {h : Network α} {κ : Int → Nat} := ih (g := h) (κ := κ)
      fun g g' κ s hs => attempt g g' κ s (List.mem_cons_of_mem _ hs)
    have here {g' : Network α} := attempt g g' κ step (List.mem_cons_self ..) built start
    cases run : (step.perform c).run g with
    | mk result g' =>
      rw [performAll_cons run]
      cases result with
      | ok id =>
        obtain ⟨g₁, done, same⟩ := step.perform_ends.of_ok run
        obtain ⟨κ₁, built₁, -⟩ := built.attempt reachable done
        obtain rfl := same built₁.wired.nodup
        exact onward built₁ (here done)
      | error f =>
        -- what is left has the outline of the network before the call, or of the one after it
        rcases step.perform_ends.of_error run with ⟨g₁, rfl | done, long⟩ | ⟨rfl, -⟩
        · exact onward (built.of_outline long.outline) (stops g₁ g₁ f g' long start start)
        · obtain ⟨κ₁, built₁, -⟩ := built.attempt reachable done
          exact onward (built₁.of_outline long.outline) (stops g g₁ f g' long start (here done))
        · exact onward built start

/-- Whatever the calls, the network is assembled. -/
lemma assembled_performAll (reachable : c.Reachable) (id : String) (calls : List (Call α)) :
    ∃ κ, Assembled (performAll c (empty id) calls).2 κ := by
  have empty : WellBuilt (empty id : Network α) fun _ => 0 := .empty id
  exact (performAll_induction reachable (P := fun _ => True) (fun _ _ _ _ _ _ _ => trivial)
    (fun _ _ _ _ _ _ _ _ => trivial) empty.toAssembled trivial).2

/-- A network that is built in place is the one that is built by calls that give new networks. -/
theorem performAll_eq_build (reachable : c.Reachable) {id : String} {calls : List (Call α)}
    (short : ∀ o ∈ (performAll c (empty id) calls).1, ¬ o.tooLong) :
    (performAll c (empty id) calls).2 = build c id calls := by
  have onward (calls : List (Call α)) {g : Network α} {κ : Int → Nat} (built : WellBuilt g κ)
      (short : ∀ o ∈ (performAll c g calls).1, ¬ o.tooLong) :
      (performAll c g calls).2 = calls.foldl (call c) g := by
    induction calls generalizing g κ with
    | nil => rfl
    | cons step rest ih =>
      cases run : (step.perform c).run g with
      | mk result g' =>
        rw [performAll_cons run] at short ⊢
        obtain ⟨here, later⟩ := List.forall_mem_cons.1 short
        rw [List.foldl_cons, call]
        cases result with
        | ok id =>
          obtain ⟨g₁, attempted, same⟩ := step.perform_ends.of_ok run
          obtain ⟨κ', built', -⟩ := built.attempt reachable attempted
          obtain rfl := same built'.wired.nodup
          rw [attempted]
          exact ih built' later
        | error f =>
          rcases step.perform_ends.of_error run with ⟨_, -, rfl, -⟩ | ⟨rfl, failed⟩
          · exact absurd rfl here
          · rw [failed]
            exact ih built later
  exact onward calls (κ := fun _ => 0) (.empty id) short

namespace Sample

/-- An operator that doubles an axis. -/
def double : Operator Float :=
  typed "Double" [typeOf "feature" [.symbol "A"]] (typeOf "feature" [twice "A"]) false

/-- An input whose only axis is a symbol and a number, which is doubled. -/
def doubling (n : Nat) : List (Call Float) :=
  [.input "x" (typeOf "feature" [.symbol "B" + .ofNat n]), .node (.given double) [0] .empty,
    .node (.given double) [0, 0] .empty, .input "x" (typeOf "feature" [.ofNat n])]

end Sample

open Sample

/-- Two calls that fail are left out. -/
theorem performAll_succeeded_doubling :
    (succeeded (performAll bare (empty "graph") (doubling 3)).1).length = 2 ∧
      performAll bare (empty "graph")
          ((succeeded (performAll bare (empty "graph") (doubling 3)).1).map (·.1)) =
        (succeeded (performAll bare (empty "graph") (doubling 3)).1,
          (performAll bare (empty "graph") (doubling 3)).2) :=
  ⟨by decide +kernel, performAll_succeeded (by decide +kernel)⟩

/-- Twice the longest number is too long to be written, and then the use stays. -/
theorem performAll_succeeded_ne_doubling :
    (performAll bare (empty "graph") ((succeeded (performAll bare (empty "graph")
        (doubling (Text.unwritable - 1))).1).map (·.1))).2.ids = [0] ∧
      (performAll bare (empty "graph") (doubling (Text.unwritable - 1))).2.ids = [0, 1] := by
  decide +kernel

end Network

end OperatorNet
