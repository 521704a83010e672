import OperatorNet.Network.Execution
import OperatorNet.Proofs.Network.Liveness
import OperatorNet.Proofs.Network.Wiring

/-!
# Values of nodes

Values that satisfy the equation of every live node (`Solves`) are those that a network without
cycles is evaluated to: each node is evaluated after all that it reads, and later values do not
disturb earlier ones (`exists_evaluateNodes`). In a wired network with an output the live nodes can
be found (`Wired.exists_live`), and there are no cycles.
-/

namespace OperatorNet.Network

variable {α : Type} {g : Network α} {inputs : List (String × Signal α)} {value : Int → Signal α}
  {rs : List Ref} {n : Node α}

/-- The equation of a node: its value is what is fed in under its name, or what its operator makes
of the values that it reads. -/
def Solves (inputs : List (String × Signal α)) (value : Int → Signal α) (n : Node α) : Prop :=
  match n.operator with
  | none => fetch n.name inputs = some (value n.id)
  | some op => op.evaluate (n.sources.map value) n.overrides = .ok (value n.id)

/-- The values of nodes, under what their ids are spelled as. -/
def valuesOf (rs : List Ref) (value : Int → Signal α) (nodes : List (Node α)) : Values α :=
  nodes.map fun n => (Ref.spelling rs n.id, value n.id)

/-- A reference gets the value of the node that it is to. -/
lemma get?_valuesOf {nodes : List (Node α)} {r : Ref} {i : Int} (id : r.id? = some i)
    (mem : i ∈ nodes.map (·.id)) : (valuesOf rs value nodes).get? r = some (value i) := by
  induction nodes with
  | nil => cases mem
  | cons n rest ih =>
    rw [valuesOf, List.map_cons, Values.get?, List.find?_cons,
      Ref.same_eq_decide (Ref.id?_spelling rs n.id) id]
    by_cases same : n.id = i
    · rw [decide_eq_true same, ← same]
      rfl
    · rw [decide_eq_false same]
      exact ih ((List.mem_cons.1 mem).resolve_left (Ne.symm same))

/-- A use whose sources have their values is what its operator makes of these. -/
lemma evaluateNode_of_use {values : Values α} {op : Operator α} (uses : n.operator = some op)
    (known : ∀ s ∈ n.inputs, ∃ i, s.id? = some i ∧ values.get? s = some (value i)) (r : Ref) :
    g.evaluateNode inputs values r n = (op.evaluate (n.sources.map value) n.overrides).mapError
      fun f => (f.noted (g.executionNote r n)).locate r := by
  have run : ∀ args : Except Fault (List (Signal α)), args = .ok (n.sources.map value) →
      (args >>= fun args => (op.evaluate args n.overrides).mapError
        fun f => (f.noted (g.executionNote r n)).locate r) =
      (op.evaluate (n.sources.map value) n.overrides).mapError
        fun f => (f.noted (g.executionNote r n)).locate r := by
    rintro _ rfl
    rfl
  rw [evaluateNode, uses]
  refine run _ (mapM_eq_ok.2 ?_)
  rw [Node.sources]
  generalize n.inputs = reads at known
  induction reads with
  | nil => exact .nil
  | cons s rest ih =>
    rw [List.forall_mem_cons] at known
    obtain ⟨⟨i, id, there⟩, later⟩ := known
    rw [List.filterMap_cons_some id]
    exact .cons (by rw [there]) (ih later)

/-- A node whose sources have their values has its own. -/
lemma evaluateNode_of_solves {values : Values α} (solves : Solves inputs value n)
    (known : ∀ s ∈ n.inputs, ∃ i, s.id? = some i ∧ values.get? s = some (value i)) (r : Ref) :
    g.evaluateNode inputs values r n = .ok (value n.id) := by
  rw [Solves] at solves
  cases uses : n.operator with
  | none =>
    rw [uses] at solves
    dsimp only at solves
    rw [evaluateNode, uses]
    dsimp only
    rw [solves]
  | some op =>
    rw [uses] at solves
    dsimp only at solves
    rw [evaluateNode_of_use uses known, solves]
    rfl

/-- Nodes that read from earlier ones get their values one after the other. -/
lemma evaluateFrom_of_solves {before after : List (Node α)} (distinct : g.ids.Nodup)
    (there : ∀ n ∈ after, n ∈ g.nodes) (sourced : Sourced (before ++ after))
    (known : ∀ n ∈ after, ∀ s ∈ n.inputs, s.id?.isSome)
    (solves : ∀ n ∈ after, Solves inputs value n) :
    g.evaluateFrom inputs (valuesOf rs value before) (after.map fun n => Ref.spelling rs n.id) =
      .ok (valuesOf rs value (before ++ after)) := by
  -- what has been found at any time are the values of the nodes before those that are left
  induction after generalizing before with
  | nil =>
    rw [List.append_nil]
    rfl
  | cons n rest ih =>
    rw [List.forall_mem_cons] at there known solves
    have reads : ∀ s ∈ n.inputs, ∃ i, s.id? = some i ∧
        (valuesOf rs value before).get? s = some (value i) := by
      intro s read
      obtain ⟨i, id⟩ := Option.isSome_iff_exists.1 (known.1 s read)
      have source : i ∈ n.sources := List.mem_filterMap.2 ⟨s, read, id⟩
      exact ⟨i, id, get?_valuesOf id (sourced.earlier before n rest rfl i source)⟩
    have next : valuesOf rs value before ++ [(Ref.spelling rs n.id, value n.id)] =
        valuesOf rs value (before ++ [n]) := by
      rw [valuesOf, valuesOf, List.map_append]
      rfl
    have sourced' : Sourced ((before ++ [n]) ++ rest) := by
      rw [List.append_assoc]
      exact sourced
    have later := ih there.2 sourced' known.2 solves.2
    rw [List.append_assoc, List.singleton_append] at later
    rw [List.map_cons, evaluateFrom, nodeAt_of_id? distinct there.1 (Ref.id?_spelling rs n.id)]
    simp only [bind, Except.bind, evaluateNode_of_solves solves.1 reads, next, later]

/-- Where the equations of the live nodes are satisfied, the network is evaluated to these
values. -/
theorem exists_evaluateNodes (acyclic : g.Acyclic) (distinct : g.ids.Nodup) (done : g.live = .ok rs)
    {feeding : Feeding α} (fed : g.feedingByName feeding = .ok inputs)
    (solves : ∀ n ∈ g.nodes, g.Lives n.id → Solves inputs value n) :
    ∃ values, g.evaluateNodes feeding = .ok values ∧
      ∀ n ∈ g.nodes, g.Lives n.id → values.get? (.id n.id) = some (value n.id) := by
  obtain ⟨ids, -, -, lives, within⟩ := live_eq_ok distinct done
  obtain ⟨nodes, ordered, sourced, isLive⟩ := exists_orderOf_live acyclic distinct done
  refine ⟨valuesOf (sortedRefs rs) value nodes, ?_, fun n there live =>
    get?_valuesOf rfl (List.mem_map_of_mem ((isLive n).2 ⟨there, live⟩))⟩
  -- the search for live nodes has looked up whatever they read, so all of it equals ids
  have known : ∀ n ∈ nodes, ∀ s ∈ n.inputs, s.id?.isSome := by
    intro n mem s read
    obtain ⟨there, live⟩ := (isLive n).1 mem
    obtain ⟨m, -, id⟩ := (within n.id ((lives n.id).2 live)).2 s (inputs_id distinct there ▸ read)
    exact Option.isSome_iff_exists.2 ⟨m, id⟩
  have evaluated : g.evaluateFrom inputs (valuesOf (sortedRefs rs) value [])
      (nodes.map fun n => Ref.spelling (sortedRefs rs) n.id) =
        .ok (valuesOf (sortedRefs rs) value ([] ++ nodes)) :=
    evaluateFrom_of_solves distinct (fun n mem => ((isLive n).1 mem).1) sourced known fun n mem =>
      solves n ((isLive n).1 mem).1 ((isLive n).1 mem).2
  rw [evaluateNodes, done]
  simp only [bind, Except.bind, fed, ordered]
  exact evaluated

/-- What is read in a wired network is known. -/
lemma Wired.known_of_read (wired : g.Wired) {i : Int} {r : Ref} (read : r ∈ g.inputs i) :
    ∃ m, Known g.ids r m := by
  rw [inputs] at read
  cases found : g.find? i with
  | none => rw [found] at read; cases read
  | some n =>
    rw [found] at read
    obtain ⟨m, there, rfl, -⟩ := wired.exists_source (mem_of_find? found).1 read
    exact ⟨m.id, rfl, List.mem_map_of_mem there⟩

/-- The output of a wired network is found. -/
lemma Wired.output_eq (wired : g.Wired) (there : n ∈ g.nodes) (output : g.outputId = some n.id) :
    g.output = .ok n := by
  rw [Network.output, output]
  exact node_eq_ok.2 (wired.find?_id there)

/-- The live nodes of a wired network with an output are found. -/
lemma Wired.exists_live (wired : g.Wired) (there : n ∈ g.nodes) (output : g.outputId = some n.id) :
    ∃ rs, g.live = .ok rs := by
  rw [live, wired.output_eq there output]
  exact exists_reachable (fun _ _ _ read => wired.known_of_read read)
    (List.forall_mem_singleton.2 ⟨n.id, rfl, List.mem_map_of_mem there⟩)

/-- A wired network is acyclic. -/
lemma Wired.acyclic (wired : g.Wired) : g.Acyclic :=
  exists_order_iff.1 ⟨_, wired.order_eq⟩

end OperatorNet.Network
