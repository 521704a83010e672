import OperatorNet.Proofs.Network.Edits
import OperatorNet.Proofs.PortType.Document

/-!
# Joining features

An operator that joins the axes of two features can be used on any nodes of a network whose nodes
are features over symbols without a number sign: no adapter is needed, the new node is known to be a
feature with the sum of the two dimensions, and nothing else changes (`Stands.addNode_ends`). So a
tree of such uses gives the sum of its leaves, however these are bracketed and ordered. It can be
built exactly when that sum can be written (`Gathered.build_iff`, `build_lengthened_ne_ok`).
-/

namespace OperatorNet

variable {α : Type}

namespace Dim

/-- A substitution in a sum is made in both parts. -/
lemma add_substitute (d e : Dim) (f : String → Dim) :
    (d + e).substitute f = d.substitute f + e.substitute f :=
  eval_ext fun σ => by simp only [eval_substitute, eval_add]

/-- The sum of dimensions. -/
def total (dims : List Dim) : Dim :=
  dims.foldr (· + ·) (ofNat 0)

/-- The total has the sum of the values. -/
lemma eval_total (σ : String → Nat) (dims : List Dim) :
    (total dims).eval σ = (dims.map (eval σ)).sum := by
  induction dims with
  | nil => exact eval_ofNat σ 0
  | cons d rest ih =>
    rw [total, List.foldr_cons, eval_add, ← total, ih, List.map_cons, List.sum_cons]

/-- The total of one dimension is it. -/
lemma total_singleton (d : Dim) : total [d] = d :=
  eval_ext fun σ => (eval_total σ [d]).trans (Nat.add_zero _)

/-- The total of two lists is the sum of their totals. -/
lemma total_append (dims more : List Dim) : total (dims ++ more) = total dims + total more :=
  eval_ext fun σ => by
    rw [eval_add, eval_total, eval_total, eval_total, List.map_append, List.sum_append]

/-- The order of the summands does not matter. -/
lemma total_perm {dims dims' : List Dim} (perm : dims.Perm dims') : total dims = total dims' :=
  eval_ext fun σ => by rw [eval_total, eval_total, (perm.map (eval σ)).sum_nat]

end Dim

/-- A feature with one axis. -/
def featureOf (d : Dim) : PortType :=
  ⟨"feature", [d], "l2", .empty⟩

/-- A feature type can be written when its dimension can. -/
lemma writable_feature {d : Dim} :
    (featureOf d).Writable ↔ d.isConcrete ∨ d.const < Text.unwritable :=
  List.forall_mem_singleton

/-- The parts of a sum can be written when the sum can. -/
lemma writable_of_add {d e : Dim} (writable : (featureOf (d + e)).Writable) :
    (featureOf d).Writable ∧ (featureOf e).Writable := by
  rw [writable_feature] at writable ⊢
  rw [writable_feature]
  rcases writable with concrete | short
  · have none : ∀ s, s ∉ d.symbols ∧ s ∉ e.symbols := fun s => by
      rw [← not_or, ← Dim.mem_symbols_add, Dim.isConcrete_iff.1 concrete]
      exact List.not_mem_nil
    exact ⟨.inl (Dim.isConcrete_iff.2 (List.eq_nil_iff_forall_not_mem.2 fun s => (none s).1)),
      .inl (Dim.isConcrete_iff.2 (List.eq_nil_iff_forall_not_mem.2 fun s => (none s).2))⟩
  · rw [Dim.const_add] at short
    exact ⟨.inr (Nat.lt_of_le_of_lt (Nat.le_add_right _ _) short),
      .inr (Nat.lt_of_le_of_lt (Nat.le_add_left _ _) short)⟩

namespace Bindings

variable {b b' : Bindings} {s : String} {d : Dim}

/-- One more solved symbol is replaced after all others. -/
lemma resolve_of_solved_append (more : b'.solved = b.solved ++ [(s, d)]) (e : Dim) :
    b'.resolve e = (b.resolve e).substitute (onlySymbol s d) := by
  rw [resolve, more, List.foldl_append]
  rfl

/-- Solving a symbol changes nothing where it does not occur. -/
lemma resolve_eq_of_solved_append (more : b'.solved = b.solved ++ [(s, d)]) {e : Dim}
    (absent : s ∉ (b.resolve e).symbols) : b'.resolve e = b.resolve e := by
  rw [resolve_of_solved_append more, Dim.substitute_onlySymbol absent]

/-- A type resolves to a feature type when it is one. -/
lemma resolveType_eq_feature_iff {t : PortType} :
    b.resolveType t = featureOf d ↔ ∃ e, t = featureOf e ∧ b.resolve e = d := by
  obtain ⟨kind, shape, metric, group⟩ := t
  simp only [resolveType, PortType.mapDims, featureOf, PortType.mk.injEq, List.map_eq_singleton_iff]
  constructor
  · rintro ⟨rfl, ⟨e, rfl, rfl⟩, rfl, rfl⟩
    exact ⟨e, ⟨rfl, rfl, rfl, rfl⟩, rfl⟩
  · rintro ⟨e, ⟨rfl, rfl, rfl, rfl⟩, rfl⟩
    exact ⟨rfl, ⟨e, rfl, rfl⟩, rfl, rfl⟩

/-- A symbol that stands for nothing else is matched with what the axis of a feature stands for. -/
lemma unify_feature {e : Dim} (free : b.Free s) (absent : s ∉ (b.resolve e).symbols) :
    ∃ b', b.unify (featureOf (.symbol s)) (featureOf e) = .ok b' ∧
      b'.solved = b.solved ++ [(s, b.resolve e)] := by
  let after := (b.meetBoth (.symbol s) e).solving s (b.resolve e)
  have differ : Dim.symbol s ≠ b.resolve e := fun same => absent (by rw [← same]; simp)
  have solves : b.unifyDim (.symbol s) e = some after := by
    rw [unifyDim, resolve_symbol_of_free free, solve, if_neg differ]
    exact if_neg absent
  refine ⟨after, ?_, rfl⟩
  simp only [unify, featureOf, ne_eq, not_true_eq_false, if_false]
  rw [List.zip_cons_cons, unifyAxes, solves]
  rfl

end Bindings

/-- An operator that joins the axes of two features. -/
structure Operator.Joins (op : Operator α) (a b : String) : Prop where
  inTypes : op.inTypes = [featureOf (.symbol a), featureOf (.symbol b)]
  outType : op.outType = featureOf (.symbol a + .symbol b)
  apart : a ≠ b

namespace Network

variable {g g' : Network α} {dims : List Dim}

/-- A node that is known to be a feature with a given dimension, as the bindings say, and is no
adapter. -/
structure Features (b : Bindings) (d : Dim) (n : Node α) : Prop where
  resolved : n.resolved = featureOf d
  template : ∃ e, n.template = featureOf e ∧ b.resolve e = d
  direct : n.inserted = false

/-- A network of features with given dimensions over symbols without a number sign, in which only
symbols of uses stand for something else. -/
structure Stands (g : Network α) (dims : List Dim) : Prop where
  wired : g.Wired
  nodes : List.Forall₂ (Features g.bindings) dims g.nodes
  plain : ∀ d ∈ dims, d.Within fun s => '#' ∉ s.toList
  writable : ∀ d ∈ dims, (featureOf d).Writable
  keys : ∀ s ∈ g.bindings.solvedSymbols, ∃ j < g.suffixes, ∃ base, s = freshName (toString j) base

/-- A node with a feature of a dimension has that feature type. -/
lemma Features.resolveType {b : Bindings} {d : Dim} {n : Node α} (features : Features b d n) :
    b.resolveType n.template = featureOf d :=
  Bindings.resolveType_eq_feature_iff.2 features.template

/-- A node with a feature of a dimension is up to date. -/
lemma Features.refresh_eq {b : Bindings} {d : Dim} {n : Node α} (features : Features b d n) :
    n.refresh b = n := by
  rw [Node.refresh, features.resolveType, ← features.resolved]

namespace Stands

/-- An empty network stands without dimensions. -/
lemma empty (id : String) : (Network.empty id : Network α).Stands [] :=
  ⟨.empty id, .nil, fun _ mem => absurd mem List.not_mem_nil,
    fun _ mem => absurd mem List.not_mem_nil, fun _ mem => absurd mem List.not_mem_nil⟩

variable (stands : g.Stands dims)

include stands

/-- What has no number sign stands for itself. -/
lemma resolve_eq {d : Dim} (plain : d.Within fun s => '#' ∉ s.toList) :
    g.bindings.resolve d = d := by
  refine Bindings.resolve_of_free fun s mem solved => ?_
  obtain ⟨j, -, base, rfl⟩ := stands.keys s solved
  exact plain _ mem (numberSign_mem_freshName _ base)

/-- The symbols of a new use stand for themselves. -/
lemma free_freshName (base : String) : g.bindings.Free (freshName (toString g.suffixes) base) := by
  intro solved
  obtain ⟨j, less, other, same⟩ := stands.keys _ solved
  have := toString_inj (freshName_inj (plainSuffix_toString _) (plainSuffix_toString j) same).1
  omega

/-- The symbols of a new use occur nowhere. -/
lemma freshName_notMem {d : Dim} (mem : d ∈ dims) (suffix base : String) :
    freshName suffix base ∉ d.symbols :=
  fun occurs => stands.plain d mem _ occurs (numberSign_mem_freshName suffix base)

/-- The node with a given dimension is found. -/
lemma exists_node {i : Nat} {d : Dim} (there : dims[i]? = some d) :
    ∃ n ∈ g.nodes, n.id = i ∧ Features g.bindings d n := by
  obtain ⟨n, found, features⟩ := exists_getElem?_of_forall₂ stands.nodes there
  exact ⟨n, List.mem_of_getElem? found, stands.wired.ids i n found, features⟩

/-- An input of a type whose symbols have no number sign is a feature like the others. -/
lemma addInput_ends {name : String} {d : Dim} (plain : d.Within fun s => '#' ∉ s.toList) :
    Ends (Edit.addInput name (featureOf d)) g (fun _ g' => g'.Stands (dims ++ [d])) fun _ _ =>
      True := by
  refine ((Edit.addInput_ends name (featureOf d)).and
    (Edit.addInput_writes name (featureOf d))).mono
    (fun id g' done => ?_) fun _ _ _ => trivial
  have known : g.bindings.resolveType (featureOf d) = featureOf d :=
    Bindings.resolveType_eq_feature_iff.2 ⟨d, rfl, stands.resolve_eq plain⟩
  rw [known] at done
  obtain ⟨b, rfl, rfl, rfl⟩ := addInput_eq_ok done.1
  let b := g.bindings.meet ((featureOf d).shape.flatMap Dim.symbols)
  have features : Features b d (inputNode b g.nextId name (featureOf d) : Node α) := by
    have known : b.resolve d = d := stands.resolve_eq plain
    exact ⟨Bindings.resolveType_eq_feature_iff.2 ⟨d, rfl, known⟩, ⟨d, rfl, known⟩, rfl⟩
  have wired :=
    stands.wired.append (n := inputNode b g.nextId name (featureOf d)) ⟨rfl, nofun, rfl⟩ rfl
  refine ⟨⟨wired.ids, wired.next, wired.nodes⟩, ?_, ?_, ?_, stands.keys⟩
  · refine List.rel_append (stands.nodes.imp fun d n old => ?_) (.cons features .nil)
    exact ⟨old.resolved, old.template, old.direct⟩
  · exact List.forall_mem_append.2 ⟨stands.plain, List.forall_mem_singleton.2 plain⟩
  · exact List.forall_mem_append.2 ⟨stands.writable, List.forall_mem_singleton.2 done.2⟩

variable {op : Operator α} {a b : String} (joins : op.Joins a b) {d e : Dim} (left : d ∈ dims)
  (right : e ∈ dims)

include joins left right in
/-- The slots of a new use are matched with any two features. -/
lemma unifySlots?_joins {m n : Node α} (first : Features g.bindings d m)
    (second : Features g.bindings e n) :
    ∃ after, g.bindings.unifySlots?
        [(featureOf (.symbol (freshName (toString g.suffixes) a)), m.template),
          (featureOf (.symbol (freshName (toString g.suffixes) b)), n.template)] = some after ∧
      after.solved = (g.bindings.solved ++ [(freshName (toString g.suffixes) a, d)]) ++
        [(freshName (toString g.suffixes) b, e)] := by
  obtain ⟨x, typeX, rfl⟩ := first.template
  obtain ⟨y, typeY, rfl⟩ := second.template
  obtain ⟨b₁, unified, solved⟩ := Bindings.unify_feature (stands.free_freshName a)
    (stands.freshName_notMem left (toString g.suffixes) a)
  have same : b₁.resolve y = g.bindings.resolve y :=
    Bindings.resolve_eq_of_solved_append solved (stands.freshName_notMem right _ _)
  have free : b₁.Free (freshName (toString g.suffixes) b) := by
    rw [Bindings.Free, Bindings.solvedSymbols, solved, List.map_append, List.mem_append, not_or,
      List.map_singleton, List.mem_singleton]
    refine ⟨stands.free_freshName b, fun eq => joins.apart ?_⟩
    exact (freshName_inj (plainSuffix_toString _) (plainSuffix_toString _) eq).2.symm
  obtain ⟨b₂, unified₂, solved₂⟩ := Bindings.unify_feature free
    (by rw [same]; exact stands.freshName_notMem right _ _)
  refine ⟨b₂, ?_, by rw [solved₂, solved, same]⟩
  rw [typeX, typeY]
  simp only [Bindings.unifySlots?_cons, Bindings.unify?_eq_some_iff.2 unified, Option.bind_some,
    Bindings.unify?_eq_some_iff.2 unified₂, Bindings.unifySlots?_nil]

include joins left in
/-- With the slots of a new use matched, what was known stays, and its value is known to be the
sum. -/
lemma resolve_of_joins {after : Bindings}
    (solved : after.solved = (g.bindings.solved ++ [(freshName (toString g.suffixes) a, d)]) ++
      [(freshName (toString g.suffixes) b, e)]) :
    (∀ x, g.bindings.resolve x ∈ dims → after.resolve x = g.bindings.resolve x) ∧
      after.resolveType (op.outType.freshen (toString g.suffixes)) = featureOf (d + e) := by
  -- the solver has put in exactly two more equations, one for each slot of the join
  have twice (x : Dim) : after.resolve x =
      ((g.bindings.resolve x).substitute
        (onlySymbol (freshName (toString g.suffixes) a) d)).substitute
        (onlySymbol (freshName (toString g.suffixes) b) e) := by
    rw [Bindings.resolve, solved, List.foldl_append, List.foldl_append]
    rfl
  constructor
  · intro x known
    rw [twice, Dim.substitute_onlySymbol (stands.freshName_notMem known _ _),
      Dim.substitute_onlySymbol (stands.freshName_notMem known _ _)]
  · have apart : freshName (toString g.suffixes) b ≠ freshName (toString g.suffixes) a := fun eq =>
      joins.apart (freshName_inj (plainSuffix_toString _) (plainSuffix_toString _) eq).2.symm
    -- the fresh symbols were free before, so the old solution leaves them
    have own : g.bindings.resolve (.symbol (freshName (toString g.suffixes) a) +
        .symbol (freshName (toString g.suffixes) b)) =
        .symbol (freshName (toString g.suffixes) a) + .symbol
          (freshName (toString g.suffixes) b) := by
      refine Bindings.resolve_of_free fun s mem => ?_
      rcases Dim.mem_symbols_add.1 mem with first | second
      · rw [List.mem_singleton.1 first]
        exact stands.free_freshName a
      · rw [List.mem_singleton.1 second]
        exact stands.free_freshName b
    have type : op.outType.freshen (toString g.suffixes) =
        featureOf (.symbol (freshName (toString g.suffixes) a) +
          .symbol (freshName (toString g.suffixes) b)) := by
      rw [joins.outType]
      change featureOf (Dim.substitute _ _) = _
      rw [Dim.add_substitute, Dim.symbol_substitute, Dim.symbol_substitute]
    rw [type, Bindings.resolveType_eq_feature_iff]
    refine ⟨_, rfl, ?_⟩
    rw [twice, own, Dim.add_substitute, Dim.add_substitute, Dim.symbol_substitute,
      Dim.symbol_substitute, onlySymbol, if_pos rfl, onlySymbol, if_neg apart,
        Dim.symbol_substitute,
      onlySymbol, if_pos rfl, Dim.substitute_onlySymbol (stands.freshName_notMem left _ _)]

include joins left in
/-- With the slots of a new use matched, the nodes that were there are the same features. -/
lemma features_of_joins {after : Bindings}
    (solved : after.solved = (g.bindings.solved ++ [(freshName (toString g.suffixes) a, d)]) ++
      [(freshName (toString g.suffixes) b, e)]) : List.Forall₂ (Features after) dims g.nodes := by
  have kept := (stands.resolve_of_joins joins left solved).1
  have inside := (List.forall₂_and_left dims g.nodes).2 ⟨fun _ mem => mem, stands.nodes⟩
  refine inside.imp fun d n ⟨mem, features⟩ => ?_
  obtain ⟨x, type, rfl⟩ := features.template
  exact ⟨features.resolved, ⟨x, type, kept x mem⟩, features.direct⟩

include joins left in
/-- With the slots of a new use matched, all types can be written when that of the use can. -/
lemma writable_withUse_iff {after : Bindings}
    (solved : after.solved = (g.bindings.solved ++ [(freshName (toString g.suffixes) a, d)]) ++
      [(freshName (toString g.suffixes) b, e)]) (sources : List Int) (k : Nat) (params : Params α) :
    (g.withUse op (sources.map .direct) after k params).refresh.Writable ↔
      (featureOf (d + e)).Writable := by
  have type : ((useNode op g.nextId sources g.suffixes params).refresh after).resolved =
      featureOf (d + e) :=
    (stands.resolve_of_joins joins left solved).2
  rw [Network.Writable, nodes_withUse_direct, List.forall_mem_map, List.forall_mem_append,
    List.forall_mem_singleton, type]
  refine and_iff_right fun n mem => ?_
  obtain ⟨x, known, features⟩ :=
    exists_of_mem_forall₂ (stands.features_of_joins joins left solved) mem
  rw [Node.refresh, features.resolveType]
  exact stands.writable x known

include joins left in
/-- A use that is put in with its slots matched is one more feature. -/
lemma withUse_joins {after : Bindings}
    (solved : after.solved = (g.bindings.solved ++ [(freshName (toString g.suffixes) a, d)]) ++
      [(freshName (toString g.suffixes) b, e)]) (right : e ∈ dims) {sources : List Int}
    (arity : sources.length = op.arity) (there : ∀ i ∈ sources, i ∈ g.ids) (params : Params α)
    (writable : (featureOf (d + e)).Writable) :
    (g.withUse op (sources.map .direct) after (g.suffixes + 1) params).refresh.Stands
      (dims ++ [d + e]) ∧
      g.nodes <+:
        (g.withUse op (sources.map .direct) after (g.suffixes + 1) params).refresh.nodes := by
  have old := stands.features_of_joins joins left solved
  have type := (stands.resolve_of_joins joins left solved).2
  have new : Features after (d + e)
      ((useNode op g.nextId sources g.suffixes params).refresh after) :=
    ⟨type, Bindings.resolveType_eq_feature_iff.1 type, rfl⟩
  -- what is known of the older nodes does not change, so that they stay as they are
  have nodes : (g.withUse op (sources.map .direct) after (g.suffixes + 1) params).refresh.nodes =
      g.nodes ++ [(useNode op g.nextId sources g.suffixes params).refresh after] := by
    have same : g.nodes.map (Node.refresh after) = g.nodes := by
      conv_rhs => rw [← List.map_id g.nodes]
      refine List.map_congr_left fun n mem => ?_
      obtain ⟨_, -, features⟩ := exists_of_mem_forall₂ old mem
      exact features.refresh_eq
    rw [nodes_withUse_direct, List.map_append, same]
    rfl
  have known : ∃ l,
      (g.withUse op (sources.map .direct) after (g.suffixes + 1) params).refresh.bindings =
      after.meet l :=
    ⟨_, rfl⟩
  refine ⟨⟨stands.wired.withUse_direct arity there after _ params, ?_, ?_, ?_, ?_⟩,
    nodes ▸ List.prefix_append _ _⟩
  · obtain ⟨l, bindings⟩ := known
    rw [bindings, nodes]
    refine (List.rel_append old (.cons new .nil)).imp fun d n features => ?_
    exact ⟨features.resolved, features.template, features.direct⟩
  · refine List.forall_mem_append.2 ⟨stands.plain, List.forall_mem_singleton.2 fun s mem => ?_⟩
    exact (Dim.mem_symbols_add.1 mem).elim (stands.plain d left s) (stands.plain e right s)
  · exact List.forall_mem_append.2 ⟨stands.writable, List.forall_mem_singleton.2 writable⟩
  · obtain ⟨l, bindings⟩ := known
    rw [bindings]
    change ∀ s ∈ after.solved.map Prod.fst, ∃ j < g.suffixes + 1, _
    rw [solved, List.map_append, List.map_append]
    refine List.forall_mem_append.2 ⟨List.forall_mem_append.2 ⟨fun s known => ?_, ?_⟩, ?_⟩
    · obtain ⟨j, less, base, named⟩ := stands.keys s known
      exact ⟨j, Nat.lt_succ_of_lt less, base, named⟩
    · exact List.forall_mem_singleton.2 ⟨_, Nat.lt_succ_self _, a, rfl⟩
    · exact List.forall_mem_singleton.2 ⟨_, Nat.lt_succ_self _, b, rfl⟩

include stands in
/-- The joining operator is put in on any two nodes, unless the sum of their dimensions cannot be
written. The new node is known to be that sum, and the nodes that were there stay as they are. -/
theorem addNode_ends [Scalar α] (joins : op.Joins a b) (c : Catalog α) {i j : Nat}
    (left : dims[i]? = some d) (right : dims[j]? = some e) (params : Params α) :
    Ends (Edit.addNode c op [.int i, .int j] params) g
      (fun id g' => id = dims.length ∧ g'.Stands (dims ++ [d + e]) ∧ g.nodes <+: g'.nodes)
      (fun f _ => f = .unwritable ∧ ¬ (featureOf (d + e)).Writable) := by
  obtain ⟨m, hm, idM, first⟩ := stands.exists_node left
  obtain ⟨n, hn, idN, second⟩ := stands.exists_node right
  have memD := List.mem_of_getElem? left
  have memE := List.mem_of_getElem? right
  obtain ⟨after, unified, solved⟩ := stands.unifySlots?_joins joins memD memE first second
  -- both slots fit without adapters, so that the edit adds the join and nothing else
  let sources : List Int := [i, j]
  let reads : List (PortType × Node α) :=
    [(featureOf (.symbol (freshName (toString g.suffixes) a)), m),
      (featureOf (.symbol (freshName (toString g.suffixes) b)), n)]
  have there : ∀ i ∈ sources, i ∈ g.ids := by
    rw [List.forall_mem_cons, List.forall_mem_singleton, ← idM, ← idN]
    exact ⟨List.mem_map_of_mem hm, List.mem_map_of_mem hn⟩
  have arity : sources.length = op.arity := by
    rw [Operator.arity, joins.inTypes]
    rfl
  have slots : g.openSlots op sources = reads.map fun p => (p.1, p.2.id) := by
    rw [openSlots, joins.inTypes]
    simp only [sources, reads, List.map_cons, List.map_nil, idM, idN]
    change [(featureOf (Dim.substitute _ _), _), (featureOf (Dim.substitute _ _), _)] = _
    rw [Dim.symbol_substitute, Dim.symbol_substitute]
  have ids : reads.map (fun p => p.2.id) = sources := by
    simp only [sources, reads, List.map_cons, List.map_nil, idM, idN]
  have fed : g.feed c.adapters 0 g.bindings (g.suffixes + 1) (g.openSlots op sources) =
      .ok (sources.map .direct, after, g.suffixes + 1) := by
    rw [slots, ← ids]
    exact feed_of_unifySlots (List.forall_mem_cons.2
      ⟨stands.wired.find?_id hm, List.forall_mem_singleton.2 (stands.wired.find?_id hn)⟩) unified
  have direct : ∀ feed ∈ sources.map (Feed.direct : Int → Feed α), ∃ source,
      feed = .direct source :=
    List.forall_mem_map.2 fun source _ => ⟨source, rfl⟩
  have writes := stands.writable_withUse_iff joins memD solved sources (g.suffixes + 1) params
  have distinct := (stands.wired.withUse_direct arity there after (g.suffixes + 1) params).nodup
  refine (Edit.addNode_writes there arity fed direct distinct).mono (fun id g' done => ?_)
    fun f g' failed => ⟨failed.1, fun can => failed.2 (writes.2 can)⟩
  obtain ⟨same, can⟩ := done
  cases same
  refine ⟨?_, stands.withUse_joins joins memD solved memE arity there params (writes.1 can)⟩
  rw [place_map_direct, stands.wired.next, stands.nodes.length_eq]

end Stands

/-! ## Trees of uses -/

/-- The networks to which inputs are added whose symbols have no number sign, and uses of a joining
operator, in any order, with the dimension that each node stands for. -/
inductive Gathered [Scalar α] (c : Catalog α) (op : Operator α) : Network α → List Dim → Prop where
  | empty (id : String) : Gathered c op (Network.empty id) []
  | input {g g' : Network α} {dims : List Dim} {name : String} {d : Dim} {id : Int} :
    Gathered c op g dims → d.Within (fun s => '#' ∉ s.toList) →
    (Edit.addInput name (featureOf d)).run g = (.ok id, g') → Gathered c op g' (dims ++ [d])
  | use {g g' : Network α} {dims : List Dim} {i j : Nat} {d e : Dim} {params : Params α}
    {id : Int} :
    Gathered c op g dims → dims[i]? = some d → dims[j]? = some e →
    (Edit.addNode c op [.int i, .int j] params).run g = (.ok id, g') →
      Gathered c op g' (dims ++ [d + e])

/-- A network that was gathered stands. -/
lemma Gathered.stands [Scalar α] {c : Catalog α} {op : Operator α} {a b : String}
    (joins : op.Joins a b) (gathered : Gathered c op g dims) : g.Stands dims := by
  induction gathered with
  | empty id => exact .empty id
  | input _ plain run ih => exact (ih.addInput_ends plain).of_ok run
  | use _ left right run ih => exact ((ih.addNode_ends joins c left right _).of_ok run).2.1

/-- A bracketing of nodes, which may be taken in any order and more than once. -/
inductive Tree where
  | leaf (node : Nat)
  | join (left right : Tree)

namespace Tree

/-- The nodes at the leaves. -/
def leaves : Tree → List Nat
  | leaf i => [i]
  | join l r => l.leaves ++ r.leaves

/-- The sum of the leaves. -/
def total (dims : List Dim) (t : Tree) : Dim :=
  Dim.total (t.leaves.map (dims.getD · default))

/-- Puts in the uses of a tree, those on the left first; the id of the last one is given. -/
def build [Scalar α] (c : Catalog α) (op : Operator α) : Tree → Edit α Int
  | leaf i => pure i
  | join l r => do
    let first ← l.build c op
    let second ← r.build c op
    Edit.addNode c op [.int first, .int second] .empty

/-- A join has the total of both sides. -/
lemma total_join (dims : List Dim) (l r : Tree) :
    (join l r).total dims = l.total dims + r.total dims := by
  rw [total, leaves, List.map_append, Dim.total_append]
  rfl

/-- The sum stays when nodes are added. -/
lemma total_append {dims : List Dim} {t : Tree} (known : ∀ i ∈ t.leaves, i < dims.length)
    (more : List Dim) : t.total (dims ++ more) = t.total dims := by
  have same : t.leaves.map ((dims ++ more).getD · default) = t.leaves.map (dims.getD · default) :=
    List.map_congr_left fun i mem => by
      rw [List.getD_eq_getElem?_getD, List.getElem?_append_left (known i mem),
        List.getD_eq_getElem?_getD]
  rw [total, same, total]

/-- Trees with the same leaves have the same total. -/
lemma total_perm {t u : Tree} (perm : t.leaves.Perm u.leaves) (dims : List Dim) :
    t.total dims = u.total dims :=
  Dim.total_perm (perm.map _)

end Tree

/-- A tree is built unless its sum cannot be written; then its last node is that sum. -/
lemma Stands.build_ends [Scalar α] (stands : g.Stands dims) {op : Operator α} {a b : String}
    (joins : op.Joins a b) (c : Catalog α) {t : Tree} (known : ∀ i ∈ t.leaves, i < dims.length) :
    Ends (t.build c op) g
      (fun id g' => ∃ more, g'.Stands (dims ++ more) ∧ g.nodes <+: g'.nodes ∧
        ∃ i : Nat, id = i ∧ (dims ++ more)[i]? = some (t.total dims))
      (fun f _ => f = .unwritable ∧ ¬ (featureOf (t.total dims)).Writable) := by
  -- induction on the tree; what has been built so far is kept as an initial segment, so the
  -- dimensions of the left branch are still in their places after the right one
  induction t generalizing g dims with
  | leaf i =>
    have bound := known i (List.mem_singleton_self i)
    refine ⟨[], (List.append_nil dims).symm ▸ stands, List.prefix_refl _, i, rfl, ?_⟩
    rw [List.append_nil, Tree.total, Tree.leaves, List.map_singleton, Dim.total_singleton,
      List.getD_eq_getElem?_getD, List.getElem?_eq_getElem bound, Option.getD_some]
  | join l r ihL ihR =>
    obtain ⟨knownL, knownR⟩ := List.forall_mem_append.1 known
    rw [Tree.build, Tree.total_join, ends_bind]
    apply (ihL stands knownL).mono
    case worse => exact fun f g' failed => ⟨failed.1, fun can => failed.2 (writable_of_add can).1⟩
    case weaker =>
      rintro first g₁ ⟨more, stands₁, kept, i, rfl, there⟩
      have bound : ∀ i ∈ r.leaves, i < (dims ++ more).length := fun i mem =>
        Nat.lt_of_lt_of_le (knownR i mem) (by rw [List.length_append]; exact Nat.le_add_right _ _)
      have second := ihR stands₁ bound
      rw [Tree.total_append knownR] at second
      rw [ends_bind]
      apply second.mono
      case worse => exact fun f g' failed => ⟨failed.1, fun can => failed.2 (writable_of_add can).2⟩
      case weaker =>
        rintro second g₂ ⟨more₂, stands₂, kept₂, j, rfl, there₂⟩
        -- the node of the left branch, found again among the longer list
        have early : (dims ++ more ++ more₂)[i]? = some (l.total dims) := by
          rw [List.getElem?_append_left (List.getElem?_eq_some_iff.1 there).1]
          exact there
        apply (stands₂.addNode_ends joins c early there₂ .empty).mono
        case worse => exact fun _ _ failed => failed
        case weaker =>
          rintro id g₃ ⟨rfl, stands₃, kept₃⟩
          refine ⟨more ++ more₂ ++ [l.total dims + r.total dims], ?_,
            kept.trans (kept₂.trans kept₃), (dims ++ more ++ more₂).length, rfl, ?_⟩
          · rw [← List.append_assoc, ← List.append_assoc]
            exact stands₃
          · rw [← List.append_assoc, ← List.append_assoc,
              List.getElem?_append_right (Nat.le_refl _),
              Nat.sub_self]
            rfl

/-- What is built can be written. -/
lemma Stands.writable_of_build [Scalar α] (stands : g.Stands dims) {op : Operator α} {a b : String}
    (joins : op.Joins a b) {c : Catalog α} {t : Tree} (known : ∀ i ∈ t.leaves, i < dims.length)
    {id : Int} (run : (t.build c op).run g = (.ok id, g')) :
    (featureOf (t.total dims)).Writable := by
  obtain ⟨more, stands', -, i, -, there⟩ := (stands.build_ends joins c known).of_ok run
  exact stands'.writable _ (List.mem_of_getElem? there)

/-- In a network of features, each node has the type it stands for. A tree of uses is built exactly
when the sum of its leaves can be written, and nothing but a number that is too long ends it. Then
there is no adapter, the nodes that were there stay as they are, the last use has the sum as its
type, and so has every other tree of the same leaves. -/
theorem Gathered.build_iff [Scalar α] {c : Catalog α} {op : Operator α} {a b : String}
    (joins : op.Joins a b) (gathered : Gathered c op g dims) {t : Tree}
    (known : ∀ i ∈ t.leaves, i < dims.length) :
    (∀ (i : Nat) d, dims[i]? = some d → ∃ n ∈ g.nodes, n.id = i ∧ n.resolved = featureOf d) ∧
    ((∃ id g', (t.build c op).run g = (.ok id, g')) ↔
      (t.total dims).isConcrete ∨ (t.total dims).const < Text.unwritable) ∧
    (∀ f g', (t.build c op).run g = (.error f, g') → f = .unwritable) ∧
    (∀ id g', (t.build c op).run g = (.ok id, g') →
      g.nodes <+: g'.nodes ∧ g'.adapterNodes = [] ∧
      ∃ n ∈ g'.nodes, n.id = id ∧ n.resolved = featureOf (t.total dims)) ∧
    ∀ u : Tree, t.leaves.Perm u.leaves → u.total dims = t.total dims := by
  have stands := gathered.stands joins
  have ends := stands.build_ends joins c known
  refine ⟨fun i d there => ?_, ⟨?_, fun writable => ?_⟩, fun f g' run => (ends.of_error run).1,
    fun id g' run => ?_, fun u perm => (Tree.total_perm perm dims).symm⟩
  · obtain ⟨n, mem, id, features⟩ := stands.exists_node there
    exact ⟨n, mem, id, features.resolved⟩
  · rintro ⟨id, g', run⟩
    exact writable_feature.1 (stands.writable_of_build joins known run)
  · cases run : (t.build c op).run g with
    | mk result g' =>
      cases result with
      | ok id => exact ⟨id, g', rfl⟩
      | error f => exact absurd (writable_feature.2 writable) (ends.of_error run).2
  · obtain ⟨more, stands', kept, i, rfl, there⟩ := ends.of_ok run
    obtain ⟨n, mem, id, features⟩ := stands'.exists_node there
    refine ⟨kept, List.filter_eq_nil_iff.2 fun m hm inserted => ?_, n, mem, id, features.resolved⟩
    obtain ⟨_, -, features⟩ := exists_of_mem_forall₂ stands'.nodes hm
    rw [features.direct] at inserted
    cases inserted

namespace Sample

/-- An operator that puts two features side by side. -/
def concat : Operator Float :=
  typed "Concat" [featureOf (.symbol "A"), featureOf (.symbol "B")]
    (featureOf (.symbol "A" + .symbol "B")) false

/-- A symbol and a number. -/
def lengthened (n : Nat) : Dim :=
  .symbol "A" + .ofNat n

/-- The operator joins two features. -/
lemma joins_concat : concat.Joins "A" "B" :=
  ⟨rfl, rfl, by decide⟩

/-- The network with one input. -/
def oneInput (n : Nat) : Network Float :=
  ((Edit.addInput "x" (featureOf (lengthened n))).run (Network.empty "g")).2

/-- The network with two inputs. -/
def bothInputs : Network Float :=
  ((Edit.addInput "y" (featureOf (lengthened 1))).run (oneInput 2)).2

/-- The dimension has a plain symbol. -/
lemma within_lengthened (n : Nat) : (lengthened n).Within fun s => '#' ∉ s.toList := by
  intro s mem
  rw [lengthened, Dim.mem_symbols_add, Dim.symbols_symbol, List.mem_singleton, Dim.symbols_ofNat,
    or_iff_left List.not_mem_nil] at mem
  rw [mem]
  decide

/-- An input is gathered behind the others. -/
lemma gathered_addInput {g : Network Float} {dims : List Dim}
    (gathered : Gathered bare concat g dims) {name : String} {n : Nat} {i : Int}
    (added : ((Edit.addInput name (featureOf (lengthened n))).run g).1.toOption = some i) :
    Gathered bare concat ((Edit.addInput name (featureOf (lengthened n))).run g).2
      (dims ++ [lengthened n]) :=
  .input gathered (within_lengthened n) (Prod.ext (toOption_eq_some.1 added) rfl)

/-- The network with one input was gathered. -/
lemma gathered_oneInput {n : Nat}
    (added : ((Edit.addInput "x" (featureOf (lengthened n))).run
      (Network.empty "g" : Network Float)).1.toOption = some 0) :
    Gathered bare concat (oneInput n) [lengthened n] :=
  gathered_addInput (.empty "g") added

end Sample

open Sample

/-- Two bracketings of a feature that is taken twice and another one. -/
theorem build_bracketed :
    concat.Joins "A" "B" ∧ Gathered bare concat bothInputs [lengthened 2, lengthened 1] ∧
      (∃ id g', ((Tree.join (.leaf 0) (.join (.leaf 1) (.leaf 0))).build bare concat).run
        bothInputs = (.ok id, g')) ∧
      ∃ id g', ((Tree.join (.join (.leaf 0) (.leaf 0)) (.leaf 1)).build bare concat).run
        bothInputs = (.ok id, g') := by
  have both : Gathered bare concat bothInputs [lengthened 2, lengthened 1] :=
    gathered_addInput (i := 1) (gathered_oneInput (by decide +kernel)) (by decide +kernel)
  have built (t : Tree) (known : ∀ i ∈ t.leaves, i < 2)
      (short : (t.total [lengthened 2, lengthened 1]).const < Text.unwritable) :
      ∃ id g', (t.build bare concat).run bothInputs = (.ok id, g') :=
    (both.build_iff joins_concat known).2.1.2 (.inr short)
  exact ⟨joins_concat, both, built _ (by decide) (by decide +kernel), built _ (by decide)
    (by decide +kernel)⟩

/-- The join of the input with itself is not built when the sum of the numbers is too long. -/
lemma build_oneInput_ne_ok {n : Nat}
    (added : ((Edit.addInput "x" (featureOf (lengthened n))).run
      (Network.empty "g" : Network Float)).1.toOption = some 0)
    (long : Text.unwritable ≤ n + n) :
    Gathered bare concat (oneInput n) [lengthened n] ∧
      ∀ id g', ((Tree.join (.leaf 0) (.leaf 0)).build bare concat).run (oneInput n) ≠
        (.ok id, g') := by
  have gathered := gathered_oneInput added
  have known : ∀ i ∈ (Tree.join (.leaf 0) (.leaf 0)).leaves, i < [lengthened n].length :=
    show ∀ i ∈ [0, 0], i < 1 by decide
  have total : (Tree.join (.leaf 0) (.leaf 0)).total [lengthened n] =
      lengthened n + lengthened n := by
    rw [Tree.total_join, Tree.total, Tree.leaves, List.map_singleton, Dim.total_singleton]
    rfl
  refine ⟨gathered, fun id g' run => ?_⟩
  have writable := (gathered.stands joins_concat).writable_of_build joins_concat known run
  rw [total, writable_feature, Dim.isConcrete_iff, Dim.const_add, lengthened,
    Dim.const_add] at writable
  rcases writable with concrete | short
  · exact absurd (concrete ▸ Dim.mem_symbols_add.2 (.inl (Dim.mem_symbols_add.2 (.inl
      (List.mem_singleton_self "A"))))) List.not_mem_nil
  · change 0 + n + (0 + n) < _ at short
    rw [Nat.zero_add] at short
    exact absurd long (Nat.not_le.2 short)

/-- The sum of a feature with itself can be too long to be written, and then it is not built. -/
theorem build_lengthened_ne_ok :
    Gathered bare concat (oneInput (Text.unwritable - 1)) [lengthened (Text.unwritable - 1)] ∧
      ∀ id g', ((Tree.join (.leaf 0) (.leaf 0)).build bare concat).run
        (oneInput (Text.unwritable - 1)) ≠ (.ok id, g') :=
  build_oneInput_ne_ok (by decide +kernel) (by decide +kernel)

end Network

end OperatorNet
