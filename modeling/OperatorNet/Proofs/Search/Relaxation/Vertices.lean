import OperatorNet.Proofs.Catalog.Reachable
import OperatorNet.Proofs.Search.Materialization
import OperatorNet.Proofs.Search.Relaxation.Soundness
import OperatorNet.Proofs.Tensor.Mixing

/-!
# Vertices of a mixture

At a vertex all weight of a position is on one candidate (`Mixture.Takes`). Where the candidates of
each position have one shape (`Uniform`), the value of the position is then that of this candidate,
unless larger sizes are remembered, to which it is padded (`Uniform.arrives`). So the values satisfy
the equations of the nodes of a network that uses what is taken (`solves_of_stands`), and they are
the values that the nodes of the network have (`evaluateNodes_of_takes`).
-/

namespace OperatorNet

variable {α : Type} [Scalar α]

/-- What a mixture takes at a position: the first fixed operator where nothing mixes, else a
candidate that has all the weight. -/
def Mixture.Takes (m : Mixture α) (p : Position α) (op : Operator α) : Prop :=
  if p.isFrozen then p.firstFixed = .ok op
  else ∃ before after, p.mixing = before ++ op :: after ∧
    m.weights p.id = List.replicate before.length 0 ++ 1 :: List.replicate after.length 0

/-- What a position takes is a candidate. -/
lemma Mixture.Takes.mem {m : Mixture α} {p : Position α} {op : Operator α} (takes : m.Takes p op) :
    op ∈ p.candidates := by
  rw [Mixture.Takes] at takes
  split at takes
  next => exact Position.mem_candidates_of_firstFixed takes
  next =>
    obtain ⟨before, after, listed, -⟩ := takes
    have mem : op ∈ p.mixing := listed ▸ List.mem_append_right _ (List.mem_cons_self ..)
    exact (List.mem_filter.1 mem).1

/-- A supergraph of operators of its catalog, with one logit for each candidate that mixes. -/
structure Supergraph.Equipped (s : Supergraph α) : Prop where
  distinct : s.ids.Nodup
  registered : ∀ p ∈ s.positions, ∀ op ∈ p.candidates, op ∈ s.catalog.registered
  rows : ∀ p ∈ s.positions, p.logits.IsRow p.mixing.length

namespace Relaxation

/-- At any time of a relaxed search of what was built, the supergraph is equipped. -/
theorem equipped_of_steps {c : Catalog α} {excluded : Exclusion α} {maxFanIn : Number α}
    {input output : PortType} {depth : StageBound} {s : Supergraph α} {objective : Objective α}
    {train val : Dataset α} {budget : Budget α} {settings : Settings α} {draws : Draws α}
    {optimizer : Optimizer α} {seed : Int} {stop : Option (StopSignal α)} {r₀ r : Relaxation α}
    (built : Supergraph.build c input output depth maxFanIn excluded = .ok s)
    (started : start s objective train val budget settings draws optimizer seed stop = .ok r₀)
    (steps : Steps r₀ r) :
    r.graph.Equipped := by
  obtain ⟨decodable, candidates⟩ := Supergraph.decodable_build built
  obtain ⟨begins, first⟩ := sound_start decodable started
  obtain ⟨sound, later⟩ := steps.sound begins
  have catalog : r.graph.catalog = c := by
    refine steps.keep (P := fun r => r.graph.catalog = c)
      (fun step same => step.change.catalog.trans same) ?_
    rw [(redrawn_start started).catalog, Supergraph.catalog_build built]
  refine ⟨sound.graph.nodup, fun q hq op mem => ?_, fun q hq => (sound.graph.intact q hq).aligned⟩
  obtain ⟨p, hp, kept⟩ := (first.trans later).positions q hq
  obtain ⟨ops, sublist, eq⟩ := candidates p hp
  have listed : op ∈ c.inOrder ops := eq ▸ kept.candidates.subset mem
  exact catalog ▸ mem_sortBy.1 (sublist.subset (mem_sortBy.1 listed))

/-- Positions whose candidates can all be evaluated, those that mix to tensors of one shape for each
position, which is padded to the sizes that are remembered. -/
inductive Uniform (r : Relaxation α) (m : Mixture α) (shapes : Int → List Nat) :
    List (Option Int × Signal α) → List (Position α) → Prop
  | done {values} : Uniform r m shapes values []
  | frozen {values} {p : Position α} {rest args op v} : p.isFrozen = true →
    arguments values p = .ok args →
      p.firstFixed = .ok op → op.evaluate args (r.paramsAt p.id op.name) = .ok v →
      Uniform r m shapes (values ++ [(some p.id, v)]) rest → Uniform r m shapes values (p :: rest)
  | mixing {values} {p : Position α} {rest args sizes} {ts padded : List (Tensor α)} :
    p.isFrozen = false →
      arguments values p = .ok args →
      List.Forall₂ (fun op t => op.evaluate args (r.paramsAt p.id op.name) = .ok (.reals t))
        p.mixing ts →
      (∀ t ∈ ts, t.shape = shapes p.id) → (m.weights p.id).length = p.mixing.length →
      align (r.sizes.get? p.id) ts = .ok (sizes, padded) →
      Uniform r m shapes (values ++ [(some p.id, .reals (.mix (m.weights p.id) padded))]) rest →
      Uniform r m shapes values (p :: rest)

/-- Where a position mixes, no larger sizes are remembered than those of its shape. -/
def Unpadded (r : Relaxation α) (shapes : Int → List Nat) (p : Position α) : Prop :=
  p.isFrozen = false → Fits (r.sizes.get? p.id) (shapes p.id)

variable {r r' : Relaxation α} {m : Mixture α} {shapes : Int → List Nat} {p : Position α}
  {values more : List (Option Int × Signal α)} {args : List (Signal α)} {op : Operator α}
  {v : Signal α}
  {ts padded : List (Tensor α)} {sizes : List Nat} {positions : List (Position α)}

omit [Scalar α] in
/-- The arguments of a position are the values of its sources. -/
lemma arguments_eq_ok : arguments values p = .ok args ↔
    List.Forall₂ (fun source v => fetch source values = some v) p.inputs args := by
  rw [arguments, mapM_eq_ok]
  refine ⟨fun found => found.imp fun source v there => ?_,
    fun found => found.imp fun source v there => ?_⟩
  · split at there
    next w known => rw [known, Except.ok.inj there]
    next => exact absurd there fail_ne_ok
  · rw [there]

omit [Scalar α] in
/-- The arguments stay the same when more values are found. -/
lemma arguments_append (found : arguments values p = .ok args) :
    arguments (values ++ more) p = .ok args :=
  arguments_eq_ok.2 ((arguments_eq_ok.1 found).imp fun _ _ => fetch_append_of_eq_some)

/-- The value of a candidate is what its operator makes of the arguments. -/
lemma candidateValue_eq_ok :
    r.candidateValue p args op = .ok v ↔ op.evaluate args (r.paramsAt p.id op.name) = .ok v := by
  rw [candidateValue]
  cases op.evaluate args (r.paramsAt p.id op.name) with
  | ok => exact Iff.rfl
  | error => exact ⟨(nomatch ·), (nomatch ·)⟩

/-- A result that is lifted is the result, in the state at hand. -/
lemma run_lift {β : Type} (x : Except Fault β) : (lift x : Relaxing α β).run r = (x, r) :=
  rfl

/-- Looking at the state gives it. -/
lemma run_get : (get : Relaxing α (Relaxation α)).run r = (.ok r, r) :=
  rfl

/-- Setting a state leads to it. -/
lemma run_set : (set r' : Relaxing α PUnit).run r = (.ok ⟨⟩, r') :=
  rfl

/-- Where nothing mixes the value is that of the first fixed operator. -/
lemma run_positionValue_frozen (frozen : p.isFrozen = true) (reads : arguments values p = .ok args)
    (first : p.firstFixed = .ok op) (value : op.evaluate args (r.paramsAt p.id op.name) = .ok v) :
    (positionValue m values p).run r = (.ok (v, none), r) := by
  have own : r.candidateValue p args op = .ok v := candidateValue_eq_ok.2 value
  unfold positionValue
  simp only [run_bind, run_get, run_lift, reads, frozen, first, own, if_true]
  rfl

omit [Scalar α] in
/-- What a position mixes is something. -/
lemma ne_nil_of_mixes {R : Operator α → Tensor α → Prop} (mixes : p.isFrozen = false)
    (evaluated : List.Forall₂ R p.mixing ts) : ts ≠ [] := by
  rintro rfl
  rw [List.forall₂_nil_right_iff] at evaluated
  rw [Position.isFrozen, evaluated] at mixes
  cases mixes

/-- Where the candidates that mix have one shape, the value is the mixture of what they are padded
to. -/
lemma run_positionValue_mixing (mixes : p.isFrozen = false) (reads : arguments values p = .ok args)
    (evaluated : List.Forall₂
      (fun op t => op.evaluate args (r.paramsAt p.id op.name) = .ok (.reals t)) p.mixing ts)
    (alike : ∀ t ∈ ts, t.shape = shapes p.id) (weighed : (m.weights p.id).length = p.mixing.length)
    (row : p.logits.IsRow p.mixing.length)
    (aligned : align (r.sizes.get? p.id) ts = .ok (sizes, padded)) :
    (positionValue m values p).run r =
      (.ok (.reals (.mix (m.weights p.id) padded),
        some { plain := ts, padded, logits := p.logits }),
        { r with sizes := r.sizes.insert p.id sizes }) := by
  have plain : p.mixing.mapM (r.candidateValue p args) = .ok (ts.map .reals) := by
    rw [mapM_eq_ok, List.forall₂_map_right_iff]
    exact evaluated.imp fun op t value => candidateValue_eq_ok.2 value
  have same : (ts.map Signal.reals).map Signal.toReals = ts :=
    (List.map_map ..).trans (List.map_id ts)
  have some : ts ≠ [] := ne_nil_of_mixes mixes evaluated
  -- what one shape is padded to is of one shape again, and so it can be mixed
  have mixed : p.logits.mix (m.weights p.id) padded = .ok (.mix (m.weights p.id) padded) := by
    obtain ⟨xs, logits, -⟩ := row
    rw [align_of_alike alike some] at aligned
    cases aligned
    have one : ∀ u ∈ ts.map fun t =>
        t.padTo ((shapes p.id).take 1 ++ alignedSizes (r.sizes.get? p.id) ts),
        u.shape = (shapes p.id).take 1 ++ alignedSizes (r.sizes.get? p.id) ts :=
      List.forall_mem_map.2 fun _ _ => rfl
    rw [logits]
    refine Tensor.mixed_of_alike one (some ∘ List.map_eq_nil_iff.1) ?_
    rw [List.length_map, weighed, evaluated.length_eq]
  unfold positionValue
  simp only [run_bind, run_get, run_set, run_lift, reads, mixes, Bool.false_eq_true, if_false,
    plain, same, aligned, mixed]
  rfl

/-- Values hold what a position reads, and its own value, unless it is padded, is that of each
operator that a mixture takes. -/
def AtVertex (r : Relaxation α) (m : Mixture α) (shapes : Int → List Nat)
    (values : List (Option Int × Signal α)) (p : Position α) : Prop :=
  ∃ args v, arguments values p = .ok args ∧ fetch (some p.id) values = some v ∧
    ∀ op, m.Takes p op → r.Unpadded shapes p → op.evaluate args (r.paramsAt p.id op.name) = .ok v

/-- A position is at a vertex whatever values are found later. -/
lemma AtVertex.append (atVertex : r.AtVertex m shapes values p)
    (more : List (Option Int × Signal α)) :
    r.AtVertex m shapes (values ++ more) p := by
  obtain ⟨args, v, reads, own, takes⟩ := atVertex
  exact ⟨args, v, arguments_append reads, fetch_append_of_eq_some own, takes⟩

/-- A position is at a vertex when its value is that of the operator that it takes. -/
lemma atVertex_concat (new : some p.id ∉ values.map Prod.fst)
    (reads : arguments values p = .ok args)
    (takes : ∀ op, m.Takes p op → r.Unpadded shapes p →
      op.evaluate args (r.paramsAt p.id op.name) = .ok v) :
    r.AtVertex m shapes (values ++ [(some p.id, v)]) p :=
  ⟨args, v, arguments_append reads, (fetch_append_of_notMem new).trans (if_pos rfl), takes⟩

omit [Scalar α] in
/-- Once a position has its value, other positions still have different ids. -/
lemma nodup_concat
    (distinct : (values.map Prod.fst ++ (p :: positions).map fun p => some p.id).Nodup) :
    some p.id ∉ values.map Prod.fst ∧ (∀ q ∈ positions, q.id ≠ p.id) ∧
      ((values ++ [(some p.id, v)]).map Prod.fst ++ positions.map fun p => some p.id).Nodup := by
  rw [List.map_append, List.append_assoc]
  obtain ⟨-, own, apart⟩ := List.nodup_append.1 distinct
  rw [List.map_cons, List.nodup_cons, List.mem_map] at own
  refine ⟨fun old => apart _ old _ (List.mem_cons_self ..) rfl,
    fun q hq same => own.1 ⟨q, hq, ?_⟩, distinct⟩
  rw [same]

/-- A candidate that has all the weight has the value of the mixture where nothing is padded. -/
lemma evaluate_of_takes [Scalar.Neutral α] (mixes : p.isFrozen = false)
    (evaluated : List.Forall₂
      (fun op t => op.evaluate args (r.paramsAt p.id op.name) = .ok (.reals t)) p.mixing ts)
    (alike : ∀ t ∈ ts, t.shape = shapes p.id)
    (aligned : align (r.sizes.get? p.id) ts = .ok (sizes, padded)) (takes : m.Takes p op)
    (unpadded : r.Unpadded shapes p) :
    op.evaluate args (r.paramsAt p.id op.name) = .ok (.reals (.mix (m.weights p.id) padded)) := by
  have some : ts ≠ [] := ne_nil_of_mixes mixes evaluated
  rw [align_of_alike alike some, map_padTo_of_fits alike some (unpadded mixes)] at aligned
  cases aligned
  rw [Mixture.Takes, mixes, if_neg Bool.false_ne_true] at takes
  obtain ⟨before, after, listed, weights⟩ := takes
  rw [listed] at evaluated
  obtain ⟨front, t, back, rfl, earlier, value, later⟩ := forall₂_append_cons evaluated
  have same : ∀ u ∈ front ++ back, u.shape = t.shape := by
    intro u hu
    have mem : u ∈ front ++ t :: back := by
      rcases List.mem_append.1 hu with first | last
      · exact List.mem_append_left _ first
      · exact List.mem_append_right _ (List.mem_cons_of_mem _ last)
    rw [alike u mem, alike t (List.mem_append_right _ (List.mem_cons_self ..))]
  rw [weights, earlier.length_eq, later.length_eq, Tensor.mix_of_vertex same]
  exact value

/-- While these sizes are remembered, positions get values after given ones, and all are at a
vertex. -/
def Arrives (r : Relaxation α) (m : Mixture α) (shapes : Int → List Nat)
    (sizes : Table Int (List Nat)) (values : List (Option Int × Signal α))
    (positions : List (Position α)) : Prop :=
  ∀ candidates, ∃ later found sizes',
    (positionValues m values candidates positions).run { r with sizes } =
      (.ok (values ++ later, found), { r with sizes := sizes' }) ∧
    ∀ p ∈ positions, r.AtVertex m shapes (values ++ later) p

/-- After the value of a position come those of the others. -/
lemma Arrives.cons {own : Option (CandidateValues α)} {sizes sizes' : Table Int (List Nat)}
    (first : (positionValue m values p).run { r with sizes } =
      (.ok (v, own), { r with sizes := sizes' }))
    (atVertex : r.AtVertex m shapes (values ++ [(some p.id, v)]) p)
    (others : r.Arrives m shapes sizes' (values ++ [(some p.id, v)]) positions) :
    r.Arrives m shapes sizes values (p :: positions) := by
  intro candidates
  obtain ⟨later, found, last, run, each⟩ :=
    others (candidates ++ (own.map fun c => (p.id, c)).toList)
  have split : (values ++ [(some p.id, v)]) ++ later = values ++ ((some p.id, v) :: later) := by
    rw [List.append_assoc, List.singleton_append]
  refine ⟨(some p.id, v) :: later, found, last, ?_,
    List.forall_mem_cons.2 ⟨split ▸ atVertex.append later, split ▸ each⟩⟩
  rw [positionValues, run_bind, first, ← split]
  exact run

/-- Positions whose candidates have one shape for each of them get values, whatever is remembered of
other positions. -/
lemma Uniform.arrives [Scalar.Neutral α] (uniform : r.Uniform m shapes values positions)
    (rows : ∀ p ∈ positions, p.logits.IsRow p.mixing.length)
    (distinct : (values.map Prod.fst ++ positions.map fun p => some p.id).Nodup)
    {sizes : Table Int (List Nat)} (kept : ∀ p ∈ positions, sizes.get? p.id = r.sizes.get? p.id) :
    r.Arrives m shapes sizes values positions := by
  -- a position only remembers its own sizes, so those of the positions that are left stay as they
  -- were
  induction uniform generalizing sizes with
  | @done values =>
    exact fun candidates => ⟨[], candidates, sizes, by rw [List.append_nil]; rfl,
      fun _ mem => absurd mem List.not_mem_nil⟩
  | @frozen values p rest args op v frozen reads first value _ ih =>
    rw [List.forall_mem_cons] at rows kept
    obtain ⟨new, -, distinct⟩ := nodup_concat distinct
    have takes : ∀ op, m.Takes p op → r.Unpadded shapes p →
        op.evaluate args (r.paramsAt p.id op.name) = .ok v := by
      intro op' takes _
      rw [Mixture.Takes, if_pos frozen, first] at takes
      exact Except.ok.inj takes ▸ value
    exact .cons (run_positionValue_frozen frozen reads first value)
      (atVertex_concat new reads takes) (ih rows.2 distinct kept.2)
  | @mixing values p rest args _ ts padded mixes reads evaluated alike weighed aligned _ ih =>
    rw [List.forall_mem_cons] at rows kept
    obtain ⟨new, others, distinct⟩ := nodup_concat distinct
    refine .cons
      (run_positionValue_mixing mixes reads evaluated alike weighed rows.1 (kept.1 ▸ aligned))
      (atVertex_concat new reads fun op => evaluate_of_takes mixes evaluated alike aligned)
      (ih rows.2 distinct fun q hq => ?_)
    rw [Table.get?_insert_of_ne _ (others q hq)]
    exact kept.2 q hq

/-- Whatever the readouts make of them, the values of the positions are what was found. -/
lemma values_of_forward {inputs : Signal α} {found : List (Int × CandidateValues α)} {pass : Pass α}
    {r'' : Relaxation α}
    (run : (positionValues m [(none, inputs)] [] r.graph.positions).run r =
      (.ok (values, found), r'))
    (done : (forward m inputs).run r = (.ok pass, r'')) : pass.values = values := by
  -- all that comes after the values may fail or change the state, but it hands the values on
  have ends : Ends (forward m inputs) r (fun pass _ => pass.values = values) fun _ _ => True := by
    rw [forward, ends_bind, ends_get, ends_bind, Ends, run]
    simp only [ends_bind, ends_pure]
    refine ends_of_forall (fun _ _ => ?_) fun _ _ => trivial
    refine ends_of_forall (fun _ _ => ?_) fun _ _ => trivial
    exact ends_of_forall (fun _ _ => trivial) fun _ _ => trivial
  exact ends.of_ok done

/-- The parameters that are copied are those that were learned. -/
lemma copiedParams_eq_ok {ref : Ref} {id : Int} {name : String} {params : Params α}
    (isId : ref.id? = some id) (copied : r.copiedParams ref (.text name) = .ok params) :
    params = r.paramsAt id name := by
  simp only [copiedParams, bind_eq_ok] at copied
  obtain ⟨-, -, -, -, copied⟩ := copied
  rw [isId] at copied
  dsimp only [Data.text?] at copied
  split at copied
  · exact (Except.ok.inj copied).symm
  · exact absurd copied fail_ne_ok

/-! ### The network of a vertex -/

/-- The value of what a node stands for. -/
def valueAt (refs : Decoder.Refs) (values : List (Option Int × Signal α)) (i : Int) : Signal α :=
  ((fetch i (refs.map Prod.swap)).bind fun source => fetch source values).getD default

variable {refs : Decoder.Refs} {i : Int} {source : Option Int}

omit [Scalar α] in
/-- The value at a node is that of the source that it stands for. -/
lemma valueAt_of_fetch (distinct : (refs.map Prod.snd).Nodup) (place : fetch source refs = some i)
    (found : fetch source values = some v) : valueAt refs values i = v := by
  have nodup : ((refs.map Prod.swap).map Prod.fst).Nodup := by
    rw [List.map_map]
    exact distinct
  have back : fetch i (refs.map Prod.swap) = some source :=
    fetch_of_mem nodup (List.mem_map_of_mem (mem_of_fetch place))
  rw [valueAt, back, Option.bind_some, found]
  rfl

omit [Scalar α] in
/-- A node reads the values of what its sources stand for. -/
lemma map_valueAt {sources : List (Option Int)} {reads : List Ref}
    (distinct : (refs.map Prod.snd).Nodup)
    (placed : List.Forall₂ (fun source q => ∃ i, fetch source refs = some i ∧ q = .id i)
      sources reads)
    (found : List.Forall₂ (fun source v => fetch source values = some v) sources args) :
    (reads.filterMap Ref.id?).map (valueAt refs values) = args := by
  induction placed generalizing args with
  | nil =>
    cases found
    rfl
  | cons head _ ih =>
    obtain ⟨i, place, rfl⟩ := head
    cases found with
    | cons value later =>
      rw [List.filterMap_cons_some (Ref.id?_id i), List.map_cons,
        valueAt_of_fetch distinct place value, ih later]

variable {d : Decoder α} {inputs : Signal α} {n : Node α} {o : Option (Ref × Data Float)}

/-- A choice names what a mixture takes at its position. -/
def Follows (r : Relaxation α) (m : Mixture α) (q : Ref × Data Float) : Prop :=
  ∃ p op, r.graph.positionAt q.1 = .ok p ∧ q.2 = .text op.name ∧ m.Takes p op

/-- What a selection follows is on offer. -/
lemma Follows.offers {q : Ref × Data Float} (follows : r.Follows m q) : r.graph.Offers q := by
  obtain ⟨p, op, there, named, takes⟩ := follows
  exact ⟨p, op, there, takes.mem, named⟩

/-- The values of the positions satisfy the equation of the node of every choice. -/
lemma solves_of_stands (equipped : r.graph.Equipped) (trained : d.params = r.copiedParams)
    (distinct : (refs.map Prod.snd).Nodup) (fed : fetch none values = some inputs)
    (each : ∀ p ∈ r.graph.positions, r.AtVertex m shapes values p)
    (follows : ∀ q ∈ o, r.Follows m q)
    (fits : ∀ q ∈ o, ∀ p, r.graph.positionAt q.1 = .ok p → r.Unpadded shapes p)
    (stands : d.Stands r.graph refs o n) :
    Network.Solves [("x", inputs)] (valueAt refs values) n := by
  rw [Network.Solves]
  cases stands with
  | input place nothing name =>
    rw [nothing, name, valueAt_of_fetch distinct place fed]
    rfl
  | @use _ ref name p op placed registered place uses copied reads =>
    obtain ⟨p', op', placed', named, takes⟩ := follows _ rfl
    obtain rfl := Except.ok.inj (placed.symm.trans placed')
    obtain rfl : name = op'.name := Data.text.inj named
    obtain ⟨id, isId, found⟩ := Ref.exists_of_find placed
    obtain ⟨there, rfl⟩ := (Supergraph.find?_eq_some_iff equipped.distinct).1 found
    -- a name is looked up in the catalog, where it belongs to no other operator than the candidate
    have same : r.graph.catalog.get op'.name = .ok op' := by
      rw [Catalog.get, Catalog.find?_name (equipped.registered p there op' takes.mem)]
    obtain rfl := Except.ok.inj (registered.symm.trans same)
    obtain ⟨args, v, found, own, evaluated⟩ := each p there
    rw [trained] at copied
    rw [uses, copiedParams_eq_ok isId copied, valueAt_of_fetch distinct place own, Node.sources]
    dsimp only
    rw [map_valueAt distinct reads (arguments_eq_ok.1 found)]
    exact evaluated op takes (fits _ rfl p placed)

variable {g : Network α} {ids : List Int} {ops : List (Ref × Data Float)}

/-- The values of what they stand for satisfy the equations of all nodes. -/
lemma solves_of_depicts (equipped : r.graph.Equipped) (trained : d.params = r.copiedParams)
    (depicts : d.Depicts r.graph ids ops refs g) (fed : fetch none values = some inputs)
    (each : ∀ p ∈ r.graph.positions, r.AtVertex m shapes values p)
    (follows : ∀ q ∈ ops, r.Follows m q)
    (fits : ∀ q ∈ ops, ∀ p, r.graph.positionAt q.1 = .ok p → r.Unpadded shapes p) :
    ∀ n ∈ g.nodes, Network.Solves [("x", inputs)] (valueAt refs values) n := by
  intro n hn
  obtain ⟨o, ho, stands⟩ := exists_of_mem_forall₂ depicts.nodes hn
  have chosen : ∀ q ∈ o, q ∈ ops := by
    rintro q rfl
    simpa using ho
  exact solves_of_stands equipped trained (depicts.places ▸ depicts.wired.nodup) fed each
    (fun q hq => follows q (chosen q hq)) (fun q hq => fits q (chosen q hq)) stands

/-- The node of a choice stands for the position that the choice is for. -/
lemma exists_node_of_choice (distinct : r.graph.ids.Nodup)
    (depicts : d.Depicts r.graph ids ops refs g) {k : Nat} {id : Int} {choice : Data Float}
    (chosen : ops[k]? = some (.id id, choice)) :
    (∃ p ∈ r.graph.positions, p.id = id) ∧
      ∃ n ∈ g.nodes, n.id = k + 1 ∧ fetch (some id) refs = some n.id := by
  have listed : (none :: ops.map some)[k + 1]? = some (some (Ref.id id, choice)) := by
    rw [List.getElem?_cons_succ, List.getElem?_map, chosen]
    rfl
  obtain ⟨n, placed, stands⟩ := exists_getElem?_of_forall₂ depicts.nodes listed
  cases stands with
  | @use _ _ _ p _ positioned _ place _ _ _ =>
    obtain ⟨hp, rfl⟩ :=
      (Supergraph.find?_eq_some_iff distinct).1 (Supergraph.positionAt_id.1 positioned)
    exact ⟨⟨p, hp, rfl⟩, n, List.mem_of_getElem? placed, depicts.wired.ids (k + 1) n placed, place⟩

omit [Scalar α] in
/-- The input and the positions are told apart. -/
lemma nodup_sources {s : Supergraph α} (distinct : s.ids.Nodup) :
    (([(none, inputs)] : List (Option Int × Signal α)).map Prod.fst ++
      s.positions.map fun p => some p.id).Nodup := by
  have some : s.positions.map (fun p => some p.id) = s.ids.map Option.some := (List.map_map ..).symm
  rw [some, List.map_singleton, List.singleton_append, List.nodup_cons]
  exact ⟨by simp, distinct.map (Option.some_injective Int)⟩

/-- Fed by name or by place, the only input has its value. -/
lemma feedingByName_eq {g : Network α} {ids : List Int} {ops : List (Ref × Data Float)}
    (depicts : d.Depicts r.graph ids ops refs g) {feeding : Network.Feeding α}
    (fed : feeding = .named [("x", inputs)] ∨ feeding = .ordered [inputs]) :
    g.feedingByName feeding = .ok [("x", inputs)] := by
  rcases fed with rfl | rfl
  · rfl
  obtain ⟨n, rest, stands, -, nodes⟩ := List.forall₂_cons_left_iff.1 depicts.nodes
  have first : n.id = 0 := depicts.wired.ids 0 n (by rw [nodes]; rfl)
  have found : g.node 0 = .ok n := Network.node_eq_ok.2
    (first ▸ depicts.wired.find?_id (nodes ▸ List.mem_cons_self ..))
  cases stands with
  | input _ _ name =>
    simp only [Network.feedingByName, depicts.inputIds, List.zip_cons_cons, List.zip_nil_right,
      List.mapM_cons, List.mapM_nil, found, bind, Except.bind, pure, Except.pure, name]
    rfl

/-- Where the candidates of each position have one shape, and nothing larger is remembered for the
positions of a selection, an evaluation of a mixture that takes what the selection takes gives these
positions the values that the nodes of its network have. -/
theorem evaluateNodes_of_takes [Scalar.Neutral α] (equipped : r.graph.Equipped)
    (uniform : r.Uniform m shapes [(none, inputs)] r.graph.positions)
    (trained : d.params = r.copiedParams) {x : Selection} (proper : r.graph.Proper x)
    (follows : ∀ q ∈ x.ops, r.Follows m q)
    (fits : ∀ q ∈ x.ops, ∀ p, r.graph.positionAt q.1 = .ok p → r.Unpadded shapes p) {g : Network α}
    (made : d.materialize r.graph x = .ok g) (nothing : g.adapterNodes = []) :
    ∃ values found r', (positionValues m [(none, inputs)] [] r.graph.positions).run r =
        (.ok (values, found), r') ∧
      (∀ pass r'', (forward m inputs).run r = (.ok pass, r'') → pass.values = values) ∧
      ∀ feeding, feeding = .named [("x", inputs)] ∨ feeding = .ordered [inputs] →
        ∃ results, g.evaluateNodes feeding = .ok results ∧
          ∀ (k : Nat) id choice, x.ops[k]? = some (.id id, choice) →
            ∃ v, fetch (some id) values = some v ∧ results.get? (.id (k + 1)) = some v := by
  have distinct := equipped.distinct
  obtain ⟨e, -, ids, listed, exit, route⟩ := proper.places
  obtain ⟨ascending, reached⟩ := Supergraph.ancestors_eq_ok distinct listed
  have nodup : ids.Nodup := ascending.imp fun less => Int.ne_of_lt less
  -- the evaluation of the mixture
  obtain ⟨later, found, sizes, run, each⟩ :=
    uniform.arrives equipped.rows (nodup_sources distinct) (fun _ _ => rfl) []
  refine ⟨_, found, _, run, fun pass r'' done => values_of_forward run done, fun feeding fed => ?_⟩
  -- the network of the selection
  obtain ⟨refs, out, depicts, target, output⟩ :=
    Decoder.depicts_materialize distinct route nodup made nothing
  rw [exit] at target
  have exit : fetch (some e) refs = some out := Decoder.ref_eq_ok.1 target
  have solves := solves_of_depicts equipped trained depicts rfl each follows fits
  obtain ⟨last, there, rfl⟩ := List.mem_map.1 (depicts.mem_ids exit)
  obtain ⟨rs, live⟩ := depicts.wired.exists_live there output
  obtain ⟨results, evaluated, all⟩ :=
    Network.exists_evaluateNodes depicts.wired.acyclic depicts.wired.nodup
    live (feedingByName_eq depicts fed) fun n hn _ => solves n hn
  refine ⟨results, evaluated, fun k id choice chosen => ?_⟩
  -- the node of a choice
  obtain ⟨⟨p, hp, rfl⟩, n, hn, isNode, place⟩ := exists_node_of_choice distinct depicts chosen
  have mem : p.id ∈ ids := by
    have named : Ref.id p.id ∈ ids.map Ref.id :=
      route ▸ List.mem_map_of_mem (List.mem_of_getElem? chosen)
    obtain ⟨id, mem, same⟩ := List.mem_map.1 named
    exact Ref.id.inj same ▸ mem
  obtain ⟨-, v, -, own, -⟩ := each p hp
  have value := all n hn (depicts.lives distinct route exit output reached mem place)
  rw [valueAt_of_fetch (depicts.places ▸ depicts.wired.nodup) place own, isNode] at value
  exact ⟨v, own, value⟩

/-! ### A learned factor and a longer batch -/

namespace Sample

open Decoder.Sample

scoped instance : Scalar.Neutral ℚ :=
  Scalar.neutral_ofField elementary

/-- An operator that gives a feature of the size of its inputs. -/
def operator (name : String) (kinds : List String) (differentiable : Bool) (params : Params ℚ)
    (evaluate : List (Signal ℚ) → Params ℚ → Except Fault (Signal ℚ)) : Operator ℚ :=
  { name, inTypes := kinds.map fun kind => typeOf kind (.symbol "X")
    outType := typeOf "feature" (.symbol "X"), differentiable, invariance := .empty,
      stability := none
    cost := .empty, params, adapter := false, executor := some { idle with evaluate } }

/-- An operator that keeps its input. -/
def keep : Operator ℚ :=
  operator "keep" ["path"] true .empty fun inputs _ =>
    match inputs with
    | [x] => .ok x
    | _ => fail .wrongForm

/-- A factor by itself. -/
def factor (c : ℚ) : Params ℚ :=
  .ofList [("c", .array (.reals (.scalar c)))]

/-- An operator that scales its input. -/
def scale : Operator ℚ :=
  operator "scale" ["path"] true (factor 1) fun inputs params =>
    match inputs, params.get? "c" with
    | [x], some (.array c) => x.mul c
    | _, _ => fail .wrongForm

/-- An operator that subtracts from its input. -/
def subtract : Operator ℚ :=
  operator "subtract" ["path", "feature"] false .empty fun inputs _ =>
    match inputs with
    | [x, y] => x.sub y
    | _ => fail .wrongForm

/-- The catalog with the three operators. -/
def catalog : Catalog ℚ :=
  (Catalog.ofKinds ["path", "feature"] "cost").extend [keep, scale, subtract] (by decide)

/-- The position for what mixes. -/
def first : Position ℚ :=
  { id := 0, stage := 1, inputs := [none], outType := typeOf "feature" (.symbol "N")
    candidates := [keep, scale], state := .masked, logits := .row [0, 0], chosen := none }

/-- The position for what is fixed, which reads the input before the first position. -/
def second : Position ℚ :=
  { id := 1, stage := 2, inputs := [none, some 0], outType := typeOf "feature" (.symbol "N")
    candidates := [subtract], state := .masked, logits := .row [], chosen := none }

/-- A network of given positions. -/
def supergraph (depth : Int) (positions : List (Position ℚ)) : Supergraph ℚ :=
  { catalog, inputType := typeOf "path" (.symbol "N"), outputType := typeOf "feature" (.symbol "K")
    depth := .whole depth, positions, exits := positions.map (·.id)
    routeLogits := .row (positions.map fun _ => 0) }

/-- The network that is built from the catalog. -/
def built (depth : Int) : Except Fault (Supergraph ℚ) :=
  Supergraph.build catalog (typeOf "path" (.symbol "N")) (typeOf "feature" (.symbol "K"))
    (.whole depth) (.whole 3) fun _ => .ok false

/-- A relaxed search that has learned a factor. -/
def learned (s : Supergraph ℚ) (c : ℚ) : Relaxation ℚ where
  graph := s
  objective := .regression
  settings := Decoder.Sample.settings
  budget := unlimited
  train := blank
  val := blank
  outDim := 1
  generator := .ofSeed .congruential 0
  stop := .ofSeconds none
  step := 0
  temperature := .whole 1
  history := []
  stoppedEarly := false
  params := .ofList [((0, "scale"), factor c)]
  heads := []
  sizes := .empty
  weightSteps := .start .adam (.ok (.whole 0))
  logitSteps := .start .adam (.ok (.whole 0))

/-- The beginning of a relaxed search. -/
def begun (s : Supergraph ℚ) : Except Fault (Relaxation ℚ) :=
  start s .regression blank blank unlimited Decoder.Sample.settings .congruential .adam 0 none

/-- In two stages both positions are built. -/
lemma built_both : built 2 = .ok (supergraph 2 [first, second]) := by
  with_unfolding_all rfl

/-- In one stage the first position is built. -/
lemma built_first : built 1 = .ok (supergraph 1 [first]) := by
  with_unfolding_all rfl

/-- The search begins with both positions. -/
lemma begun_both : begun (supergraph 2 [first, second]) =
    .ok (learned (supergraph 2 [first, second]) 1) := by
  with_unfolding_all rfl

/-- The search begins with the first position. -/
lemma begun_first : begun (supergraph 1 [first]) = .ok (learned (supergraph 1 [first]) 1) := by
  with_unfolding_all rfl

/-- A batch of one example. -/
def ones (n : Nat) : Signal ℚ :=
  .reals (.full [1, n] 1)

/-- A relaxed search that has learned the factor three. -/
def tripled : Relaxation ℚ :=
  learned (supergraph 2 [first, second]) 3

/-- All weight is on the second candidate. -/
def onSecond : Mixture ℚ :=
  ⟨fun _ => [0, 1], [0, 1]⟩

/-- The tripled network is uniform. -/
lemma uniform_tripled :
    tripled.Uniform onSecond (fun _ => [1, 2]) [(none, ones 2)] tripled.graph.positions := by
  have kept : keep.evaluate [ones 2] (tripled.paramsAt 0 "keep") =
      .ok (.reals (.full [1, 2] 1)) := rfl
  have scaled : scale.evaluate [ones 2] (tripled.paramsAt 0 "scale") =
      .ok (.reals (.full [1, 2] 3)) := by
    with_unfolding_all rfl
  have subtracted : subtract.evaluate [ones 2, .reals (.full [1, 2] 3)]
      (tripled.paramsAt 1 "subtract") = .ok (.reals (.full [1, 2] (-2))) := by
    with_unfolding_all rfl
  have aligned : align (tripled.sizes.get? first.id) [.full [1, 2] 1, .full [1, 2] (3 : ℚ)] =
      .ok ([2], [.full [1, 2] 1, .full [1, 2] 3]) := by
    with_unfolding_all rfl
  have mixed : Tensor.mix (onSecond.weights first.id) [.full [1, 2] 1, .full [1, 2] 3] =
      .full [1, 2] (3 : ℚ) := by
    with_unfolding_all rfl
  refine .mixing rfl rfl (.cons kept (.cons scaled .nil)) ?_ rfl aligned ?_
  · simp [Tensor.full]
  · rw [mixed]
    exact .frozen rfl rfl rfl subtracted .done

/-- A selection of the second candidate and of what reads it. -/
def throughSecond : Selection :=
  ⟨some (.id 1), [(.id 0, .text "scale"), (.id 1, .text "subtract")]⟩

/-- The selection through the second position follows the mixture. -/
lemma follows_throughSecond : ∀ q ∈ throughSecond.ops, tripled.Follows onSecond q := by
  have scales : onSecond.Takes first scale := by
    rw [Mixture.Takes, if_neg (by decide)]
    exact ⟨[keep], [], rfl, rfl⟩
  have subtracts : onSecond.Takes second subtract := by
    rw [Mixture.Takes, if_pos (by decide)]
    rfl
  rw [throughSecond, List.forall_mem_cons, List.forall_mem_singleton]
  exact ⟨⟨first, scale, rfl, rfl, scales⟩, ⟨second, subtract, rfl, rfl, subtracts⟩⟩

/-- A decoder that knows what was learned. -/
def decoder (r : Relaxation ℚ) : Decoder ℚ :=
  { limited 1 (by decide) with params := r.copiedParams }

/-- The network of a selection. -/
def network (r : Relaxation ℚ) (x : Selection) : Network ℚ :=
  ((decoder r).materialize r.graph x).toOption.getD default

end Sample

open Sample Decoder.Sample in
/-- With all weight on the learned factor, the values are those of the network that uses it. -/
theorem evaluateNodes_of_takes_tripled :
    built 2 = .ok tripled.graph ∧ tripled.graph.Equipped ∧
      tripled.Uniform onSecond (fun _ => [1, 2]) [(none, ones 2)] tripled.graph.positions ∧
      tripled.graph.Proper throughSecond ∧ (∀ q ∈ throughSecond.ops, tripled.Follows onSecond q) ∧
      (∀ q ∈ throughSecond.ops, ∀ p, tripled.graph.positionAt q.1 = .ok p →
        tripled.Unpadded (fun _ => [1, 2]) p) ∧
      (decoder tripled).materialize tripled.graph throughSecond =
        .ok (network tripled throughSecond) ∧
      (network tripled throughSecond).adapterNodes = [] ∧
      ∃ values found r results,
        (positionValues onSecond [(none, ones 2)] [] tripled.graph.positions).run tripled =
          (.ok (values, found), r) ∧
        (network tripled throughSecond).evaluateNodes (.ordered [ones 2]) = .ok results ∧
        values.map (fun v => v.2.toReals.toList) = [[1, 1], [3, 3], [-2, -2]] ∧
        fetch (some 0) values = results.get? (.id 1) ∧
          fetch (some 1) values = results.get? (.id 2) := by
  have equipped : tripled.graph.Equipped :=
    equipped_of_steps built_both begun_both (.single ⟨.aside fun _ mem => mem, rfl, id, rfl, rfl⟩)
  have follows := follows_throughSecond
  have ancestors : tripled.graph.ancestors 1 = .ok [0, 1] := by
    with_unfolding_all rfl
  have proper : tripled.graph.Proper throughSecond :=
    ⟨⟨1, .tail _ (.head _), [0, 1], ancestors, rfl, rfl⟩, fun q hq => (follows q hq).offers⟩
  have fits : ∀ q ∈ throughSecond.ops, ∀ p, tripled.graph.positionAt q.1 = .ok p →
      tripled.Unpadded (fun _ => [1, 2]) p :=
    fun _ _ _ _ _ => fits_none _
  -- the network is computed; that its values are those of the search is the general theorem
  have made : (decoder tripled).materialize tripled.graph throughSecond =
      .ok (network tripled throughSecond) :=
    eq_ok_getD (by decide +kernel)
  have nothing : (network tripled throughSecond).adapterNodes = [] := by
    decide +kernel
  obtain ⟨values, found, r, run, -, all⟩ :=
    evaluateNodes_of_takes equipped uniform_tripled rfl proper follows fits made nothing
  obtain ⟨results, evaluated, each⟩ := all (.ordered [ones 2]) (.inr rfl)
  obtain ⟨v, own, value⟩ := each 0 0 (.text "scale") rfl
  obtain ⟨w, other, last⟩ := each 1 1 (.text "subtract") rfl
  have shown : ((positionValues onSecond [(none, ones 2)] [] tripled.graph.positions).run
      tripled).1.toOption.map (fun found => found.1.map fun v => v.2.toReals.toList) =
        some [[1, 1], [3, 3], [-2, -2]] := by
    decide +kernel
  rw [run] at shown
  exact ⟨built_both, equipped, uniform_tripled, proper, follows, fits, made, nothing,
    values, found, r, results, run, evaluated, Option.some.inj shown, own.trans value.symm,
    other.trans last.symm⟩

namespace Sample

open Decoder.Sample

/-- All weight is on the first candidate. -/
def onFirst : Mixture ℚ :=
  ⟨fun _ => [1, 0], [1]⟩

/-- A relaxed search that has evaluated a longer batch. -/
def lengthened : Relaxation ℚ :=
  ((forward onFirst (ones 3)).run (learned (supergraph 1 [first]) 1)).2

/-- The lengthened network is uniform. -/
lemma uniform_lengthened :
    lengthened.Uniform onFirst (fun _ => [1, 2]) [(none, ones 2)] lengthened.graph.positions := by
  have kept : keep.evaluate [ones 2] (lengthened.paramsAt 0 "keep") =
      .ok (.reals (.full [1, 2] 1)) := rfl
  have scaled : scale.evaluate [ones 2] (lengthened.paramsAt 0 "scale") =
      .ok (.reals (.full [1, 2] 1)) := by
    with_unfolding_all rfl
  have alike : ∀ t ∈ [Tensor.full [1, 2] 1, .full [1, 2] (1 : ℚ)], t.shape = [1, 2] := by
    simp [Tensor.full]
  exact .mixing rfl rfl (.cons kept (.cons scaled .nil)) alike rfl
    (align_of_alike alike (List.cons_ne_nil _ _)) .done

/-- The selection of the first position follows the mixture. -/
lemma follows_lengthened : ∀ q ∈ (alone 0 "keep").ops, lengthened.Follows onFirst q := by
  have keeps : onFirst.Takes first keep := by
    rw [Mixture.Takes, if_neg (by decide)]
    exact ⟨[], [scale], rfl, rfl⟩
  rw [alone, List.forall_mem_singleton]
  exact ⟨first, keep, rfl, rfl, keeps⟩

end Sample

open Sample Decoder.Sample in
/-- After a longer batch, values are padded to its length, which those of the network are not. -/
theorem forward_lengthened_ne_evaluateNodes :
    built 1 = .ok (supergraph 1 [first]) ∧
      begun (supergraph 1 [first]) = .ok (learned (supergraph 1 [first]) 1) ∧
      lengthened.graph.Equipped ∧ lengthened.sizes.get? 0 = some [3] ∧
      lengthened.Uniform onFirst (fun _ => [1, 2]) [(none, ones 2)] lengthened.graph.positions ∧
      lengthened.graph.Proper (alone 0 "keep") ∧
      (∀ q ∈ (alone 0 "keep").ops, lengthened.Follows onFirst q) ∧
      (decoder lengthened).materialize lengthened.graph (alone 0 "keep") =
        .ok (network lengthened (alone 0 "keep")) ∧
      (network lengthened (alone 0 "keep")).adapterNodes = [] ∧
      ∃ pass r results, (forward onFirst (ones 2)).run lengthened = (.ok pass, r) ∧
        (network lengthened (alone 0 "keep")).evaluateNodes (.ordered [ones 2]) = .ok results ∧
        (fetch (some 0) pass.values).map Signal.shape = some [1, 3] ∧
        (results.get? (.id 1)).map Signal.shape = some [1, 2] := by
  have distinct : (supergraph 1 [first]).ids.Nodup := by decide
  have steps : Steps (learned (supergraph 1 [first]) 1) lengthened :=
    (acts_forward ⟨distinct, False.elim, False.elim⟩).steps
  have equipped : lengthened.graph.Equipped := equipped_of_steps built_first begun_first steps
  have ancestors : lengthened.graph.ancestors 0 = .ok [0] := by
    with_unfolding_all rfl
  have follows := follows_lengthened
  have proper : lengthened.graph.Proper (alone 0 "keep") :=
    ⟨⟨0, .head _, [0], ancestors, rfl, rfl⟩, fun q hq => (follows q hq).offers⟩
  have made : (decoder lengthened).materialize lengthened.graph (alone 0 "keep") =
      .ok (network lengthened (alone 0 "keep")) :=
    eq_ok_getD (by decide +kernel)
  have nothing : (network lengthened (alone 0 "keep")).adapterNodes = [] := by
    decide +kernel
  have sizes : lengthened.sizes.get? 0 = some [3] := by
    decide +kernel
  refine ⟨built_first, begun_first, equipped, sizes, uniform_lengthened, proper, follows, made,
    nothing, ?_⟩
  -- the remembered width pads the value in the search, but not at the node of the network
  have padded : ((forward onFirst (ones 2)).run lengthened).1.toOption.bind
      (fun pass => (fetch (some 0) pass.values).map Signal.shape) = some [1, 3] := by
    decide +kernel
  have plain :
      ((network lengthened (alone 0 "keep")).evaluateNodes (.ordered [ones 2])).toOption.bind
      (fun results => (results.get? (.id 1)).map Signal.shape) = some [1, 2] := by
    decide +kernel
  obtain ⟨pass, run, padded⟩ := Option.bind_eq_some_iff.1 padded
  obtain ⟨results, evaluated, plain⟩ := Option.bind_eq_some_iff.1 plain
  exact ⟨pass, _, results, Prod.ext (toOption_eq_some.1 run) rfl, toOption_eq_some.1 evaluated,
    padded, plain⟩

end Relaxation

end OperatorNet
