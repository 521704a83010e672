import OperatorNet.Proofs.Network.Edits

/-!
# Networks over a catalog

Where calls use operators of a catalog only, and all types are as types are read, every node of the
network that is built uses an operator of the catalog, and its types are as types are read again
(`declared_performAll`). Adapters come from the catalog as well.
-/

namespace OperatorNet

variable {α : Type}

/-- A freshened name is a name. -/
lemma IsName.freshName {s : String} (name : IsName s) (n : Nat) :
    IsName (freshName (toString n) s) := by
  unfold IsName at name ⊢
  have list : (OperatorNet.freshName (toString n) s).toList = s.toList ++
      '#' :: (toString n).toList := by
    simp only [OperatorNet.freshName, String.toList_append, List.append_assoc]
    rfl
  rw [list]
  cases characters : s.toList with
  | nil =>
    rw [characters] at name
    cases name
  | cons c rest =>
    rw [characters, isSymbolName, Bool.and_eq_true, List.all_eq_true] at name
    rw [List.cons_append, isSymbolName, Bool.and_eq_true, List.all_eq_true]
    refine ⟨name.1, fun x hx => ?_⟩
    rcases List.mem_append.1 hx with old | new
    · exact name.2 x old
    · rcases List.mem_cons.1 new with rfl | digit
      · decide
      · rw [isSymbolRest, Char.isAlphanum, isDigit_of_mem_toString digit, Bool.or_true]
        rfl

/-- A normal type stays normal when it is freshened. -/
lemma PortType.Normal.freshen {t : PortType} (normal : t.Normal) (n : Nat) :
    (t.freshen (toString n)).Normal := by
  refine normal.of_within rfl rfl ?_
  rw [freshen_eq_rename]
  exact rename_within fun d hd s hs => (normal.names d hd s hs).freshName n

/-- All operators of a catalog have types as types are read. -/
def Catalog.Normal (c : Catalog α) : Prop :=
  ∀ op ∈ c.registered, ∀ t ∈ op.outType :: op.inTypes, t.Normal

namespace Network

/-- A call that uses operators of a catalog, and types as they are read. -/
def Call.Declared (c : Catalog α) : Call α → Prop
  | .input _ type => type.Normal
  | .node (.given op) _ _ => op ∈ c.registered
  | .node (.named _) _ _ => True
  | .output _ => True

/-- A network of operators of a catalog over types as they are read. -/
structure Declared (c : Catalog α) (g : Network α) : Prop where
  operators : ∀ n ∈ g.nodes, ∀ op, n.operator = some op → op ∈ c.registered
  templates : ∀ n ∈ g.nodes, n.template.Normal
  known : ∀ n ∈ g.nodes, n.resolved.Normal
  names : g.bindings.Within IsName

variable {c : Catalog α} {g g' : Network α}

/-- Feeds are adapted by the adapters, under names of their own. -/
lemma Feeds.of_mem_adapted {adapters : List (Operator α)} {b b' : Bindings} {k k' : Nat}
    {slots : List (PortType × Int)} {feeds : List (Feed α)}
    (fed : Feeds g adapters b k slots feeds b' k') {a : Operator α} {source : Int} {type : PortType}
    (mem : .adapted a source type ∈ feeds) :
    a ∈ adapters ∧ ∃ j : Nat, type = a.outType.freshen (toString j) := by
  induction fed with
  | done => cases mem
  | direct _ _ _ ih => exact ih ((List.mem_cons.1 mem).resolve_left nofun)
  | adapted _ member _ _ _ ih =>
    rcases List.mem_cons.1 mem with same | later
    · cases same
      exact ⟨member, _, rfl⟩
    · exact ih later

/-- A normal type stays normal when it is resolved. -/
lemma normal_resolveType {b : Bindings} (names : b.Within IsName) {t : PortType}
    (normal : t.Normal) :
    (b.resolveType t).Normal := by
  refine normal.of_within rfl rfl fun d hd => ?_
  obtain ⟨e, he, rfl⟩ := List.mem_map.1 hd
  exact names.resolve (normal.names e he)

/-- A network without nodes keeps to every catalog. -/
lemma Declared.empty (id : String) : Declared c (Network.empty id) :=
  ⟨fun _ hn => absurd hn List.not_mem_nil, fun _ hn => absurd hn List.not_mem_nil,
    fun _ hn => absurd hn List.not_mem_nil, .empty _⟩

/-- What is left where a number is too long keeps to the catalog. -/
lemma Declared.of_stops {g₁ : Network α} {f : Fault} (stops : Edit.Stops g g₁ f g')
    (declared : Declared c g) (next : Declared c g₁) : Declared c g' := by
  have alike {P : Node α → Prop} (outlined : ∀ n, P n.outline ↔ P n) :
      (∀ n ∈ g₁.nodes, P n) → ∀ n ∈ g'.nodes, P n := by
    intro all n hn
    have mem := mem_outline hn
    rw [stops.outline] at mem
    obtain ⟨m, hm, same⟩ := List.mem_map.1 mem
    exact (outlined n).1 (same ▸ (outlined m).2 (all m hm))
  have held {h : Network α} (declared : Declared c h) {t : PortType} (holds : h.Holds t) :
      t.Normal := by
    obtain ⟨n, hn, rfl | rfl⟩ := holds
    · exact declared.known n hn
    · exact declared.templates n hn
  have solved : g'.bindings.solved = g₁.bindings.solved :=
    congrArg (fun h => h.bindings.solved) stops.outline
  refine ⟨alike (fun _ => Iff.rfl) next.operators, alike (fun _ => Iff.rfl) next.templates,
    fun n hn => (stops.known n hn).elim (held declared) (held next), fun p hp => ?_⟩
  exact next.names p (solved ▸ hp)

variable [Scalar α]

/-- A use of an operator of a catalog keeps to the catalog. -/
lemma Declared.addNode (declared : Declared c g) (normal : c.Normal) {op : Operator α}
    (registered : op ∈ c.registered) {sources : List Int} {params : Params α} {id : Int}
    (added : g.addNode c op sources params = .ok (id, g')) : Declared c g' := by
  obtain ⟨feeds, b, k, -, given, rfl, rfl⟩ := addNode_eq_ok added
  have fed := feeds_of_feed given
  have adapter : ∀ a ∈ c.adapters, a ∈ c.registered := fun a ha =>
    (Catalog.mem_registered_of_mem_adapters ha).1
  have used : ∀ o ∈ c.registered, ∀ t ∈ o.outType :: o.inTypes, ∀ j : Nat,
      (t.freshen (toString j)).Normal := fun o ho t ht j => (normal o ho t ht).freshen j
  have each : ∀ n ∈ (g.withUse op feeds b k params).nodes,
      (∀ o, n.operator = some o → o ∈ c.registered) ∧ n.template.Normal := by
    intro n hn
    rcases List.mem_append.1 hn with placed | new
    · rcases cases_of_mem_place placed with old | ⟨a, _, source, type, mem, rfl⟩
      · exact ⟨declared.operators n old, declared.templates n old⟩
      · obtain ⟨member, j, rfl⟩ := fed.of_mem_adapted mem
        refine ⟨fun o same => ?_, used a (adapter a member) _ (List.mem_cons_self ..) j⟩
        cases same
        exact adapter a member
    · obtain rfl := List.mem_singleton.1 new
      refine ⟨fun o same => ?_, used op registered _ (List.mem_cons_self ..) _⟩
      cases same
      exact registered
  have names : b.Within IsName := by
    refine fed.within declared.names (fun p hp => ?_) (fun n hn => (declared.templates n hn).names)
      fun a ha t ht j _ _ => (used a (adapter a ha) t ht j).names
    obtain ⟨t, ht, eq⟩ := List.mem_map.1 (List.of_mem_zip hp).1
    rw [← eq]
    exact (used op registered t (List.mem_cons_of_mem _ ht) _).names
  exact ⟨List.forall_mem_map.2 fun m hm => (each m hm).1,
    List.forall_mem_map.2 fun m hm => (each m hm).2,
    List.forall_mem_map.2 fun m hm => normal_resolveType names (each m hm).2, names⟩

/-- A call of a catalog keeps to the catalog. -/
lemma Declared.attempt (declared : Declared c g) (normal : c.Normal) {step : Call α}
    (own : step.Declared c) (done : g.attempt c step = .ok g') : Declared c g' := by
  cases does_of_attempt done with
  | input added =>
    obtain ⟨b, met, rfl, rfl⟩ := addInput_eq_ok added
    have names : b.Within IsName := met ▸ declared.names
    refine ⟨fun n hn op same => ?_, fun n hn => ?_, fun n hn => ?_, names⟩
    · rcases List.mem_append.1 hn with old | new
      · exact declared.operators n old op same
      · obtain rfl := List.mem_singleton.1 new
        cases same
    · rcases List.mem_append.1 hn with old | new
      · exact declared.templates n old
      · obtain rfl := List.mem_singleton.1 new
        exact own
    · rcases List.mem_append.1 hn with old | new
      · exact declared.known n old
      · obtain rfl := List.mem_singleton.1 new
        exact normal_resolveType names own
  | @node op _ _ _ _ _ found added =>
    refine declared.addNode normal ?_ added
    cases op with
    | given op =>
      cases found
      exact own
    | named name => exact Catalog.mem_of_get found
  | output set =>
    obtain ⟨-, rfl⟩ := setOutput_eq_ok set
    exact ⟨declared.operators, declared.templates, declared.known, declared.names⟩

/-- A network on which calls of a catalog are made keeps to the catalog, whether they fail or
not. -/
lemma declared_performAll (reachable : c.Reachable) (normal : c.Normal) (id : String)
    {calls : List (Call α)} (own : ∀ step ∈ calls, step.Declared c) :
    Declared c (performAll c (Network.empty id) calls).2 := by
  have start : WellBuilt (Network.empty id : Network α) fun _ => 0 := .empty id
  exact (performAll_induction reachable
    (fun _ _ _ _ stops declared next => declared.of_stops stops next)
    (fun _ _ _ step mem _ declared done => declared.attempt normal (own step mem) done)
    start.toAssembled (.empty id)).1

/-- So does a network that is built by calls of a catalog. -/
theorem declared_build (normal : c.Normal) (id : String) {calls : List (Call α)}
    (own : ∀ step ∈ calls, step.Declared c) : Declared c (build c id calls) := by
  induction calls using List.reverseRecOn with
  | nil => exact .empty id
  | append_singleton calls step ih =>
    have declared := ih fun s hs => own s (List.mem_append_left _ hs)
    rw [build_append, call]
    cases done : (build c id calls).attempt c step with
    | ok g' => exact declared.attempt normal (own step (by simp)) done
    | error f => exact declared

end Network

end OperatorNet
