import OperatorNet.Proofs.Catalog.Order
import OperatorNet.Proofs.Catalog.Reachable
import OperatorNet.Proofs.Network.Edits
import OperatorNet.Search.Enumeration

/-!
# Registering in another order

What a catalog answers depends on its operators in order and on the metric by which they are sorted,
except that single operators are found by name and by kinds (`sameAnswers`). Operators with defined
costs come in the same order however they are registered, so the order of registration cannot be
told from any answer, from the adapters that a network puts in, or from a supergraph
(`registerAll_perm`). An undefined cost compares with nothing: an operator with such a cost can keep
others from being put in order.
-/

namespace OperatorNet.Catalog

open Scalar (Sortable)

variable {α : Type} [Scalar α]

/-- Two catalogs that cannot be told apart by asking, by building networks or by building
supergraphs. -/
structure SameAnswers (c c' : Catalog α) : Prop where
  get : ∀ name, c.get name = c'.get name
  operators : c.operators = c'.operators
  adapters : c.adapters = c'.adapters
  combinators : c.combinators = c'.combinators
  rank : ∀ name, c.rank name = c'.rank name
  byKinds : ∀ inputs output, c.byKinds inputs output = c'.byKinds inputs output
  relate : ∀ op inputs output, c.relate op inputs output = c'.relate op inputs output
  lookup : ∀ inputs output adaptable, c.lookup inputs output adaptable =
    c'.lookup inputs output adaptable
  addNode : ∀ op refs params, Edit.addNode c op refs params = Edit.addNode c' op refs params
  network : ∀ g calls, Network.performAll c g calls = Network.performAll c' g calls
  build : ∀ input output depth maxFanIn excluded,
    Supergraph.build c' input output depth maxFanIn excluded =
    (Supergraph.build c input output depth maxFanIn excluded).map fun s => { s with catalog := c' }

variable {c c' : Catalog α}

/-! ### What depends on the operators in order -/

/-- The catalog order depends on the metric only. -/
lemma inOrder_congr (sortMetric : c.sortMetric = c'.sortMetric) (ops : List (Operator α)) :
    c.inOrder ops = c'.inOrder ops := by
  have same : c.comesBefore = c'.comesBefore := by
    unfold comesBefore
    rw [sortMetric]
  rw [inOrder, same, inOrder]

omit [Scalar α] in
/-- Dropping what leads nowhere does not look at the catalog. -/
lemma dropDead_congr (s : Supergraph α) (c' : Catalog α) :
    ({ s with catalog := c' } : Supergraph α).dropDead =
    s.dropDead.map fun s => { s with catalog := c' } := by
  unfold Supergraph.dropDead
  change (s.exits.mapM s.ancestors >>= _) = _
  cases s.exits.mapM s.ancestors <;> rfl

section Operators

variable (operators : c.operators = c'.operators)

include operators

/-- Catalogs with the same operators in order have the same adapters. -/
lemma adapters_congr : c.adapters = c'.adapters := by
  rw [adapters, operators, adapters]

/-- Catalogs with the same operators in order have the same combinators. -/
lemma combinators_congr : c.combinators = c'.combinators := by
  rw [combinators, operators, combinators]

/-- Catalogs with the same operators in order relate an operator to a request alike. -/
lemma relate_congr (op : Operator α) (inputs : List PortType) (output : Option PortType) :
    c.relate op inputs output = c'.relate op inputs output := by
  unfold relate
  rw [adapters_congr operators]

/-- Catalogs with the same operators in order give the same answers. -/
lemma lookup_congr (inputs : List PortType) (output : Option PortType) (adaptable : Bool) :
    c.lookup inputs output adaptable = c'.lookup inputs output adaptable := by
  unfold lookup
  simp only [operators, relate_congr operators]

/-- Catalogs with the same operators in order add the same nodes. -/
lemma addNode_congr (op : Operator α) (refs : List (Data Float)) (params : Params α) :
    Edit.addNode c op refs params = Edit.addNode c' op refs params := by
  unfold Edit.addNode
  rw [adapters_congr operators]

/-- Catalogs with the same operators in order have the same attempts for a stage. -/
lemma stageAttempts_congr (excluded : Exclusion α) (combinators : List (Operator α)) (stage : Nat)
    (sources : List Source) :
    stageAttempts c excluded combinators stage sources =
      stageAttempts c' excluded combinators stage sources := by
  have unary : unaryAttempts c excluded = unaryAttempts c' excluded := by
    funext source
    rw [unaryAttempts, consumers, lookup_congr operators, unaryAttempts, consumers]
  rw [stageAttempts, unary, stageAttempts]

/-- Positions are laid out from the operators in order, stage by stage. -/
lemma layOut_congr (sortMetric : c.sortMetric = c'.sortMetric) (excluded : Exclusion α)
    (combinators : List (Operator α)) (input : PortType) (stage suffix : Nat)
    (positions : List (Position α)) (stages : Nat) :
    layOut c excluded combinators input stage suffix positions stages =
      layOut c' excluded combinators input stage suffix positions stages := by
  have position : ∀ stage id (g : CandidateGroup α), g.toPosition c stage id =
      g.toPosition c' stage id := by
    intro stage id g
    rw [CandidateGroup.toPosition, inOrder_congr sortMetric, CandidateGroup.toPosition]
  induction stages generalizing stage suffix positions with
  | zero => rfl
  | succ stages ih =>
    rw [layOut, layOut]
    simp only [stageAttempts_congr operators, position, ih]

/-- A supergraph is that of the operators in order; it only knows which catalog it is from. -/
lemma build_congr (sortMetric : c.sortMetric = c'.sortMetric) (input output : PortType)
    (depth : StageBound) (maxFanIn : Number α) (excluded : Exclusion α) :
    Supergraph.build c' input output depth maxFanIn excluded =
      (Supergraph.build c input output depth maxFanIn excluded).map fun s =>
        { s with catalog := c' } := by
  unfold Supergraph.build
  rw [combinators_congr operators]
  simp only [layOut_congr operators sortMetric]
  by_cases few : depth.count < 1
  · rw [if_pos few, if_pos few]
    rfl
  rw [if_neg few, if_neg few]
  refine bind_eq_map_bind fun combinators => bind_eq_map_bind fun positions =>
    bind_eq_map_bind fun answers => ?_
  generalize answers.map (·.id) = exits
  cases requireWritable (input.isWritable && output.isWritable) <;> split
  case error.isTrue | ok.isTrue => rfl
  case error.isFalse | ok.isFalse =>
    let drafted : Supergraph α := ⟨c, input, output, depth, positions, exits, .zeros exits⟩
    change (({ drafted with catalog := c' } : Supergraph α).dropDead >>= _) =
      (drafted.dropDead >>= _).map _
    rw [dropDead_congr]
    cases drafted.dropDead <;> rfl

/-- Calls do the same on a network if the same operators are found by name. -/
lemma performAll_congr (named : ∀ name, c.get name = c'.get name) (g : Network α)
    (calls : List (Network.Call α)) :
    Network.performAll c g calls = Network.performAll c' g calls := by
  have same (step : Network.Call α) : step.perform c = step.perform c' := by
    cases step with
    | node op sources params =>
      have found : op.lookup c = op.lookup c' := by
        cases op with
        | given op => rfl
        | named name => exact named name
      rw [Network.Call.perform, Network.Call.perform, found]
      simp only [addNode_congr operators]
    | input name type => rfl
    | output id => rfl
  induction calls generalizing g with
  | nil => rfl
  | cons step rest ih => simp only [Network.performAll, same, ih]

/-- Catalogs with the same operators in order answer alike, if they find the same operators by name
and by kinds. -/
lemma sameAnswers (sortMetric : c.sortMetric = c'.sortMetric)
    (named : ∀ name, c.get name = c'.get name)
    (kinds : ∀ inputs output, c.byKinds inputs output = c'.byKinds inputs output) :
    SameAnswers c c' where
  get := named
  operators := operators
  adapters := adapters_congr operators
  combinators := combinators_congr operators
  rank name := by rw [rank, operators, rank]
  byKinds := kinds
  relate := relate_congr operators
  lookup := lookup_congr operators
  addNode := addNode_congr operators
  network := performAll_congr operators named
  build := build_congr operators sortMetric

end Operators

/-! ### The same operators in another order -/

/-- Sorted texts do not tell in which order they were given. -/
lemma sortedTexts_eq_of_perm {texts texts' : List String} (perm : texts.Perm texts') :
    sortedTexts texts = sortedTexts texts' := by
  have ascending := (TagSet.ofList texts).ascending
  have ascending' := (TagSet.ofList texts').ascending
  have distinct : ∀ {l : List String}, l.Pairwise (· < ·) → l.Nodup := by
    refine fun sorted => sorted.imp fun less => ?_
    rintro rfl
    exact String.lt_irrefl _ less
  have same : (sortedTexts texts).Perm (sortedTexts texts') := by
    apply (List.perm_ext_iff_of_nodup (distinct ascending) (distinct ascending')).2
    exact fun s => TagSet.mem_ofList.trans (perm.mem_iff.trans TagSet.mem_ofList.symm)
  apply same.eq_of_pairwise ?_ ascending ascending'
  exact fun a b _ _ less more => absurd more (String.lt_asymm less)

omit [Scalar α] in
/-- The same operators are found by name in whatever order they were registered. -/
lemma find?_eq_of_perm (perm : c.registered.Perm c'.registered) : c.find? = c'.find? := by
  funext name
  cases found : c.find? name with
  | some op =>
    obtain ⟨mem, rfl⟩ := name_of_find? found
    rw [find?_name (perm.mem_iff.1 mem)]
  | none =>
    have other := List.find?_eq_none.1 found
    exact (List.find?_eq_none.2 fun op mem => other op (perm.mem_iff.2 mem)).symm

omit [Scalar α] in
/-- An operator is got by its name in whatever order the operators were registered. -/
lemma get_eq_of_perm (perm : c.registered.Perm c'.registered) (name : String) :
    c.get name = c'.get name := by
  rw [get, get, find?_eq_of_perm perm, sortedTexts_eq_of_perm (perm.map _)]

/-- The same operators are found by kinds if the same names are listed, in whatever order. -/
lemma byKinds_eq_of_perm [Sortable α] (sortMetric : c.sortMetric = c'.sortMetric)
    (ranked : ∀ op ∈ c.registered, op.Ranked c.sortMetric) (perm : c.registered.Perm c'.registered)
    (listed : ∀ key, (c.index.namesAt key).Perm (c'.index.namesAt key)) (inputs : List String)
    (output : String) : c.byKinds inputs output = c'.byKinds inputs output := by
  rw [byKinds, byKinds, ← inOrder_congr sortMetric, ← find?_eq_of_perm perm]
  have there :
      ∀ op ∈ (c.index.namesAt (inputs.map normalizeTag, normalizeTag output)).filterMap c.find?,
      op ∈ c.registered ∧ c.find? op.name = some op := by
    intro op mem
    obtain ⟨name, -, found⟩ := List.mem_filterMap.1 mem
    obtain ⟨mem, rfl⟩ := name_of_find? found
    exact ⟨mem, found⟩
  apply inOrder_eq_of_perm
  · exact fun op mem => ranked op (there op mem).1
  · intro a ha b hb same
    have found := (there a ha).2
    rw [same, (there b hb).2] at found
    exact (Option.some.inj found).symm
  · exact (listed _).filterMap c.find?

/-- Registering operators with defined costs in another order comes to a catalog that answers
alike. -/
theorem registerAll_perm [Sortable α] {c c₁ : Catalog α} {ops ops' : List (Operator α)}
    (opened : c.frozen = false) (done : c.registerAll ops = .ok c₁) (perm : ops.Perm ops')
    (ranked : ∀ op ∈ c.registered ++ ops, op.Ranked c.sortMetric) :
    ∃ c₂, c.registerAll ops' = .ok c₂ ∧ SameAnswers c₁ c₂ := by
  obtain ⟨passes, distinct, rfl⟩ := (registerAll_eq_ok_iff opened).1 done
  have all : (c.registered ++ ops).Perm (c.registered ++ ops') := perm.append_left c.registered
  have distinct' : ((c.registered ++ ops').map (·.name)).Nodup := (all.map _).nodup_iff.1 distinct
  have ranked' : ∀ op ∈ c.registered ++ ops', op.Ranked c.sortMetric :=
    fun op mem => ranked op (all.mem_iff.2 mem)
  refine ⟨c.extend ops' distinct', (registerAll_eq_ok_iff opened).2 ⟨?_, distinct', rfl⟩, ?_⟩
  · exact fun op mem => passes op (perm.mem_iff.2 mem)
  have operators : (c.extend ops distinct).operators = (c.extend ops' distinct').operators :=
    inOrder_eq_of_perm (c := c.extend ops distinct) ranked (List.inj_on_of_nodup_map distinct) all
  apply sameAnswers operators rfl
  case named => exact get_eq_of_perm all
  case kinds =>
    refine byKinds_eq_of_perm rfl ranked all fun key => ?_
    rw [List.map_append, List.nodup_append] at distinct
    exact KindIndex.perm_namesAt_foldl_enter distinct.2.1 perm

/-! ### A dear operator before a cheap one, and an undefined cost between them -/

open Sample

/-- Two operators are put in order from either side. -/
theorem registerAll_perm_charged :
    vacant.frozen = false ∧ (∀ op ∈ vacant.registered ++ [charged "b" 2.0, charged "a" 1.0],
      op.Ranked vacant.sortMetric) ∧
    [charged "b" 2.0, charged "a" 1.0].Perm [charged "a" 1.0, charged "b" 2.0] ∧
    ∃ c₁ c₂, vacant.registerAll [charged "b" 2.0, charged "a" 1.0] = .ok c₁ ∧
      vacant.registerAll [charged "a" 1.0, charged "b" 2.0] = .ok c₂ ∧ SameAnswers c₁ c₂ ∧
      c₁.registered.map (·.name) = ["b", "a"] ∧ c₁.operators.map (·.name) = ["a", "b"] := by
  have ranked : ∀ op ∈ vacant.registered ++ [charged "b" 2.0, charged "a" 1.0],
      op.Ranked vacant.sortMetric := by
    change ∀ op ∈ vacant.registered ++ [charged "b" 2.0, charged "a" 1.0],
      op.costOf vacant.sortMetric ≤ op.costOf vacant.sortMetric
    decide +kernel
  have done : vacant.registerAll [charged "b" 2.0, charged "a" 1.0] =
      .ok (vacant.extend [charged "b" 2.0, charged "a" 1.0] (by decide)) := by
    rfl
  obtain ⟨c₂, done', same⟩ := registerAll_perm rfl done (List.Perm.swap _ _ _) ranked
  exact ⟨rfl, ranked, .swap _ _ _, _, c₂, done, done', same, by decide +kernel, by decide +kernel⟩

/-- Between two operators an undefined cost keeps the cheaper one from coming first, if it is
registered last. -/
theorem not_sameAnswers_charged :
    [charged "b" 2.0, charged "n" (0.0 / 0.0), charged "a" 1.0].Perm
      [charged "a" 1.0, charged "b" 2.0, charged "n" (0.0 / 0.0)] ∧
    ∃ c₁ c₂, vacant.registerAll [charged "b" 2.0, charged "n" (0.0 / 0.0), charged "a" 1.0] =
      .ok c₁ ∧
      vacant.registerAll [charged "a" 1.0, charged "b" 2.0, charged "n" (0.0 / 0.0)] = .ok c₂ ∧
      c₁.operators.map (·.name) = ["b", "n", "a"] ∧ c₂.operators.map (·.name) = ["a", "b", "n"] ∧
      ¬ SameAnswers c₁ c₂ := by
  let c₁ := vacant.extend [charged "b" 2.0, charged "n" (0.0 / 0.0), charged "a" 1.0] (by decide)
  let c₂ := vacant.extend [charged "a" 1.0, charged "b" 2.0, charged "n" (0.0 / 0.0)] (by decide)
  have first : c₁.operators.map (·.name) = ["b", "n", "a"] := by
    decide +kernel
  have second : c₂.operators.map (·.name) = ["a", "b", "n"] := by
    decide +kernel
  refine ⟨List.perm_append_singleton (charged "a" 1.0) [_, _], c₁, c₂, rfl, rfl, first, second,
    fun same => ?_⟩
  rw [same.operators, second] at first
  exact absurd first (by decide)

end OperatorNet.Catalog
