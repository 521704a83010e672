import OperatorNet.Proofs.Search.Relaxation.Courses
import OperatorNet.Proofs.Search.Relaxation.Vertices

/-!
# Numbers of features

Where each candidate gives values of one shape, a position remembers the sizes that its values are
padded to, and the value of an exit has the volume of these sizes as its number of features
(`fed_of_hands`). Pruning does not change what is remembered, and what is remembered covers the
candidates that are left. So an exit has the same number of features in all evaluations of a course,
and its readout fits (`alike_unless_narrowed`), but for one case: candidates of different ranks are
written as rows, and when those that are left have one rank, other than that of rows, the remembered
size is forgotten (`Evaluation.Narrows`).
-/

namespace OperatorNet

variable {α : Type}

/-! ### Values of positions -/

/-- For each candidate of each position the shape behind the first axis of its values. -/
abbrev Shapes :=
  Int → String → List Nat

/-- The shapes of what a position mixes. -/
def Position.shapes (σ : Shapes) (p : Position α) : List (List Nat) :=
  p.mixing.map fun op => σ p.id op.name

/-- The candidates that are called for the value of a position. -/
def Position.called (p : Position α) : List (Operator α) :=
  if p.isFrozen then p.fixed.take 1 else p.mixing

/-- A position that mixes has shapes. -/
lemma Position.shapes_ne_nil {σ : Shapes} {p : Position α} (mixes : p.isFrozen = false) :
    p.shapes σ ≠ [] :=
  fun none => absurd (List.map_eq_nil_iff.1 none) (List.isEmpty_eq_false_iff.1 mixes)

/-- A position that mixes calls all that it mixes. -/
lemma Position.mem_called {p : Position α} {op : Operator α} (mixes : p.isFrozen = false)
    (mem : op ∈ p.mixing) : op ∈ p.called := by
  rwa [called, mixes, if_neg Bool.false_ne_true]

/-- A frozen position calls its first fixed operator. -/
lemma Position.called_of_firstFixed {p : Position α} {op : Operator α} (frozen : p.isFrozen = true)
    (first : p.firstFixed = .ok op) : op ∈ p.called := by
  rw [called, if_pos frozen]
  unfold firstFixed at first
  split at first
  next fixed =>
    cases first
    rw [fixed]
    exact List.mem_cons_self ..
  next => exact absurd first fail_ne_ok

/-- A reshaped tensor has the new shape. -/
lemma Tensor.shape_reshaped {t u : Tensor α} {shape : List Nat} (done : t.reshaped shape = .ok u) :
    u.shape = shape := by
  unfold reshaped at done
  split at done
  · exact Except.ok.inj done ▸ rfl
  · exact absurd done fail_ne_ok

/-- A mixture has the sizes that all parts share. -/
lemma Tensor.shape_mixed [Scalar α] {ts : List (Tensor α)} {t : Tensor α} {weights : List α}
    {sizes : List Nat} (each : ∀ u ∈ ts, ∃ n, u.shape = n :: sizes)
    (mixed : Tensor.mixed weights ts = .ok t) : ∃ n, t.shape = n :: sizes := by
  unfold Tensor.mixed at mixed
  split at mixed
  next => exact absurd mixed fail_ne_ok
  next u rest =>
    split at mixed
    next alike =>
      obtain ⟨n, shape⟩ := each u (List.mem_cons_self ..)
      obtain ⟨w, ws, rfl⟩ := List.exists_cons_of_length_eq_add_one alike.2
      -- the sum has the shape of the first tensor
      have sum : ∀ (vs : List (Tensor α)) (v : Tensor α), (vs.foldl add v).shape = v.shape := by
        intro vs
        induction vs with
        | nil => exact fun v => rfl
        | cons v' vs ih => exact fun v => (ih _).trans shape_combineAt
      refine ⟨n, ?_⟩
      rw [← Except.ok.inj mixed, mix, List.zipWith_cons_cons]
      exact (sum _ _).trans shape
    next => exact absurd mixed fail_ne_ok

namespace Relaxation

variable [Scalar α]

/-- While positions get their values, each candidate that is called gives values of its shape. -/
def Conforms (σ : Shapes) (m : Mixture α) :
    Relaxation α → List (Option Int × Signal α) → List (Position α) → Prop
  | _, _, [] => True
  | r, values, p :: rest =>
    (∀ args, arguments values p = .ok args → ∀ op ∈ p.called, ∀ v,
      op.evaluate args (r.paramsAt p.id op.name) = .ok v → ∃ n, v.shape = n :: σ p.id op.name) ∧
    ∀ v own r', (positionValue m values p).run r = (.ok (v, own), r') →
      Conforms σ m r' (values ++ [(some p.id, v)]) rest

/-- The sizes of the value of a position behind the first axis. -/
def Sized (σ : Shapes) (r : Relaxation α) (p : Position α) (s : List Nat) : Prop :=
  if p.isFrozen then ∃ op, p.firstFixed = .ok op ∧ σ p.id op.name = s
    else r.sizes.get? p.id = some s

/-- What is remembered of a position covers its candidates. -/
def Covered (σ : Shapes) (r : Relaxation α) (p : Position α) : Prop :=
  p.isFrozen = false → ∀ k ∈ r.sizes.get? p.id, Covers k (p.shapes σ)

/-- Of each position, what is remembered stays or is settled anew. -/
def Resized (σ : Shapes) (ps : List (Position α)) (r r' : Relaxation α) : Prop :=
  ∃ sizes, r' = { r with sizes } ∧ ∀ id, sizes.get? id = r.sizes.get? id ∨
    ∃ p ∈ ps, p.id = id ∧ p.isFrozen = false ∧ ∃ s, sizes.get? id = some s ∧
      Settles (r.sizes.get? id) (p.shapes σ) s

section Values

variable {σ : Shapes} {r r' r'' : Relaxation α} {m : Mixture α} {p q : Position α}
  {ps : List (Position α)} {values : List (Option Int × Signal α)} {s t : List Nat}

/-- Where no position is evaluated the sizes stay. -/
lemma Resized.refl : Resized σ ps r r :=
  ⟨r.sizes, rfl, fun _ => .inl rfl⟩

/-- Sizes change for the evaluated positions, and so for more of them. -/
lemma Resized.mono {qs : List (Position α)} (resized : Resized σ ps r r') (subset : ps ⊆ qs) :
    Resized σ qs r r' := by
  obtain ⟨sizes, rfl, each⟩ := resized
  exact ⟨sizes, rfl, fun id => (each id).imp_right fun ⟨p, mem, settled⟩ =>
    ⟨p, subset mem, settled⟩⟩

/-- The sizes of different positions are remembered apart. -/
lemma Resized.cons (first : Resized σ [p] r r') (rest : Resized σ ps r' r'')
    (apart : ∀ q ∈ ps, q.id ≠ p.id) : Resized σ (p :: ps) r r'' := by
  obtain ⟨sizes, rfl, first⟩ := first
  obtain ⟨sizes', rfl, rest⟩ := rest
  refine ⟨sizes', rfl, fun id => ?_⟩
  rcases rest id with same | ⟨q, mem, rfl, mixes, s, new, settles⟩
  · refine (first id).imp same.trans fun ⟨q, mem, own, mixes, s, new, settles⟩ => ?_
    rw [List.mem_singleton.1 mem] at own mixes settles
    exact ⟨p, List.mem_cons_self .., own, mixes, s, same.trans new, settles⟩
  · refine .inr ⟨q, List.mem_cons_of_mem _ mem, rfl, mixes, s, new, ?_⟩
    rcases first q.id with same | ⟨_, here, own, -⟩
    · exact same ▸ settles
    · rw [List.mem_singleton.1 here] at own
      exact absurd own.symm (apart q mem)

/-- The value of a position has the sizes that are settled on for it. -/
lemma ends_positionValue (row : p.logits.IsRow p.mixing.length) (covered : Covered σ r p)
    (fixed : ∀ args, arguments values p = .ok args → ∀ op ∈ p.called, ∀ v,
      op.evaluate args (r.paramsAt p.id op.name) = .ok v → ∃ n, v.shape = n :: σ p.id op.name) :
    Ends (positionValue m values p) r (fun x r' => Resized σ [p] r r' ∧ ∃ n s, x.1.shape = n :: s ∧
      Sized σ r' p s ∧ (p.isFrozen = false → Settles (r.sizes.get? p.id) (p.shapes σ) s))
      fun _ r' => Resized σ [p] r r' := by
  unfold positionValue
  rw [ends_bind, ends_get]
  refine ends_lift_bind (fun args reads => ?_) fun _ _ => Resized.refl
  split
  next frozen =>
    refine ends_lift_bind (fun op first => ?_) fun _ _ => Resized.refl
    refine ends_lift_bind (fun v value => ?_) fun _ _ => Resized.refl
    obtain ⟨n, shape⟩ := fixed args reads op (p.called_of_firstFixed frozen first) v
      (candidateValue_eq_ok.1 value)
    refine ⟨Resized.refl, n, _, shape, ?_, fun mixes => ?_⟩
    · rw [Sized, if_pos frozen]
      exact ⟨op, first, rfl⟩
    · rw [frozen] at mixes
      cases mixes
  next mixes =>
    have mixes : p.isFrozen = false := Bool.eq_false_iff.2 mixes
    refine ends_lift_bind (fun plain found => ?_) fun _ _ => Resized.refl
    -- what is aligned are the values of all candidates, each of its own shape
    have shaped : Shaped (p.shapes σ) (plain.map Signal.toReals) := by
      rw [mapM_eq_ok] at found
      rw [Shaped, Position.shapes, List.forall₂_map_left_iff, List.forall₂_map_right_iff]
      refine ((List.forall₂_and_left _ _).2 ⟨fun _ mem => mem, found⟩).imp fun op v own => ?_
      obtain ⟨n, shape⟩ := fixed args reads op (p.mem_called mixes own.1) v
        (candidateValue_eq_ok.1 own.2)
      exact ⟨n, v.shape_toReals.trans shape⟩
    refine ends_lift_bind (fun aligned settled => ?_) fun _ _ => Resized.refl
    obtain ⟨settles, padded⟩ := shaped.settles_align (p.shapes_ne_nil mixes) (covered mixes) settled
    have resized : Resized σ [p] r { r with sizes := r.sizes.insert p.id aligned.1 } := by
      refine ⟨_, rfl, fun id => ?_⟩
      by_cases own : p.id = id
      · subst own
        exact .inr ⟨p, List.mem_singleton.2 rfl, rfl, mixes, _, Table.get?_insert_self .., settles⟩
      · exact .inl (Table.get?_insert_of_ne _ (Ne.symm own) _)
    rw [ends_bind, ends_set]
    refine ends_lift_bind (fun mixed sum => ?_) fun _ _ => resized
    obtain ⟨xs, logits, -⟩ := row
    rw [logits] at sum
    obtain ⟨n, shape⟩ := Tensor.shape_mixed padded sum
    refine ⟨resized, n, _, shape, ?_, fun _ => settles⟩
    rw [Sized, if_neg (by simp [mixes])]
    exact Table.get?_insert_self ..

/-- Sizes of other positions stay. -/
lemma Resized.elsewhere (resized : Resized σ ps r r') {id : Int} (apart : ∀ q ∈ ps, q.id ≠ id) :
    r'.sizes.get? id = r.sizes.get? id := by
  obtain ⟨sizes, rfl, each⟩ := resized
  refine (each id).resolve_right fun ⟨q, mem, own, _⟩ => apart q mem own

/-- What a position is sized by depends on its own remembered sizes only. -/
lemma sized_congr (same : r'.sizes.get? p.id = r.sizes.get? p.id) :
    Sized σ r' p s ↔ Sized σ r p s := by
  rw [Sized, Sized, same]

/-- A position has a value of the sizes that are settled on for it. -/
def Valued (σ : Shapes) (r r' : Relaxation α) (values : List (Option Int × Signal α))
    (p : Position α) : Prop :=
  ∃ v n s, fetch (some p.id) values = some v ∧ v.shape = n :: s ∧ Sized σ r' p s ∧
    (p.isFrozen = false → Settles (r.sizes.get? p.id) (p.shapes σ) s)

/-- Evaluating positions resizes them, and gives each a value of its size. -/
lemma ends_positionValues (candidates : List (Int × CandidateValues α))
    (rows : ∀ p ∈ ps, p.logits.IsRow p.mixing.length)
    (distinct : (values.map Prod.fst ++ ps.map fun p => some p.id).Nodup)
    (conforms : Conforms σ m r values ps) (covered : ∀ p ∈ ps, Covered σ r p) :
    Ends (positionValues m values candidates ps) r
      (fun x r' => Resized σ ps r r' ∧ (∃ later, x.1 = values ++ later) ∧
        ∀ p ∈ ps, Valued σ r r' x.1 p)
      fun _ r' => Resized σ ps r r' := by
  induction ps generalizing r values candidates with
  | nil => exact ⟨.refl, ⟨[], (List.append_nil _).symm⟩, nofun⟩
  | cons p ps ih =>
    obtain ⟨fixed, conforms⟩ := conforms
    rw [List.forall_mem_cons] at rows covered
    obtain ⟨new, apart, -⟩ := nodup_concat (v := default) distinct
    have first := ends_positionValue (m := m) rows.1 covered.1 fixed
    rw [positionValues, ends_bind, ends_iff]
    refine ⟨fun x r' run => ?_, fun e r' run => (first.of_error run).mono (by simp)⟩
    obtain ⟨resized, n, s, shape, sized, settles⟩ := first.of_ok run
    have others : ∀ q ∈ ps, r'.sizes.get? q.id = r.sizes.get? q.id := fun q hq =>
      resized.elsewhere (List.forall_mem_singleton.2 fun same => apart q hq same.symm)
    have next := ih (candidates ++ (x.2.map fun c => (p.id, c)).toList) rows.2
      (nodup_concat distinct).2.2 (conforms x.1 x.2 r' run) fun q hq mixes =>
        others q hq ▸ covered.2 q hq mixes
    refine next.mono (fun y r'' after => ?_) fun _ _ after => resized.cons after apart
    obtain ⟨after, ⟨later, more⟩, each⟩ := after
    rw [List.append_assoc] at more
    refine ⟨resized.cons after apart, ⟨_, more⟩, List.forall_mem_cons.2 ⟨?_, fun q hq => ?_⟩⟩
    · refine ⟨x.1, n, s, ?_, shape, (sized_congr (after.elsewhere apart)).2 sized, settles⟩
      rw [more, fetch_append_of_notMem new]
      exact if_pos rfl
    · obtain ⟨v, n, s, found, shape, sized, settles⟩ := each q hq
      exact ⟨v, n, s, found, shape, sized, others q hq ▸ settles⟩

end Values

/-! ### Readouts -/

/-- An exit has a number of features. -/
def Fed (σ : Shapes) (r : Relaxation α) (exit : Int) (n : Nat) : Prop :=
  ∃ p ∈ r.graph.positions, p.id = exit ∧ ∃ s, Sized σ r p s ∧ volume s = n

/-- The readout of an exit has a row for each feature. -/
def Fitted (σ : Shapes) (r : Relaxation α) (exit : Int) : Prop :=
  exit ∈ r.graph.ids → ∀ h, r.heads.get? (.int exit) = some h → ∀ matrix, h.matrix = some matrix →
    ∃ n rest, matrix.shape = n :: rest ∧ Fed σ r exit n

section Readouts

variable {σ : Shapes} {r r' : Relaxation α} {exit e : Int} {n k : Nat}
  {values : List (Option Int × Signal α)}

/-- A position has one size. -/
lemma Sized.unique {p : Position α} {s t : List Nat} (first : Sized σ r p s)
    (second : Sized σ r p t) :
    s = t := by
  unfold Sized at first second
  split at first
  next frozen =>
    rw [if_pos frozen] at second
    obtain ⟨op, found, rfl⟩ := first
    obtain ⟨op', found', rfl⟩ := second
    rw [Except.ok.inj (found.symm.trans found')]
  next mixes =>
    rw [if_neg mixes] at second
    exact Option.some.inj (first.symm.trans second)

/-- An exit is fed with one width. -/
lemma Fed.unique (distinct : r.graph.ids.Nodup) (first : Fed σ r exit n) (second : Fed σ r exit k) :
    n = k := by
  obtain ⟨p, hp, rfl, s, sized, rfl⟩ := first
  obtain ⟨q, hq, same, t, sized', rfl⟩ := second
  obtain rfl := List.inj_on_of_nodup_map distinct hq hp same
  rw [sized.unique sized']

/-- An exit that is fed is a position. -/
lemma Fed.mem_ids (fed : Fed σ r exit n) : exit ∈ r.graph.ids := by
  obtain ⟨p, hp, rfl, -⟩ := fed
  exact List.mem_map_of_mem hp

/-- Readouts are drawn. -/
def Drawn (r r' : Relaxation α) : Prop :=
  ∃ generator heads, r' = { r with generator, heads }

/-- A fault tells that the number of features of an exit has changed, and it is not in the
settings. -/
def Blames (r : Relaxation α) (exit : Int) (f : Fault) : Prop :=
  r.settings.headScale ≠ .error f ∧ ∃ before now, f.cause = .widthChanged exit before now

lemma not_blames_of_blameless {β : Type} {x : Except Fault β} {f : Fault} (blameless : Blameless x)
    (failed : x = .error f) : ¬ r.Blames exit f :=
  fun ⟨_, before, now, blamed⟩ => blameless f failed exit before now blamed

/-- The readout that an exit has, or is given, has a row for each feature. -/
lemma ends_readout (distinct : r.graph.ids.Nodup) (fitted : Fitted σ r exit)
    (fed : e = exit → Fed σ r exit n) :
    Ends (readout e n) r (fun _ r' => r.Drawn r' ∧ Fitted σ r' exit)
      fun f r' => r' = r ∧ ¬ r.Blames exit f := by
  unfold readout
  rw [ends_bind, ends_get]
  split
  -- a matrix that is remembered is kept only where its width is the one that arrives
  next h found =>
    split
    next => exact ⟨rfl, fun ⟨_, _, _, blamed⟩ => by cases blamed⟩
    next => exact ⟨rfl, fun ⟨_, _, _, blamed⟩ => by cases blamed⟩
    next k rest shape =>
      split
      next => exact ⟨⟨_, _, rfl⟩, fitted⟩
      next other =>
        refine ⟨rfl, fun ⟨_, _, _, blamed⟩ => other ?_⟩
        obtain ⟨rfl, -⟩ := Cause.widthChanged.inj blamed
        obtain ⟨matrix, own, shape⟩ := Option.map_eq_some_iff.1 shape
        obtain ⟨k', rest', shape', fed'⟩ := fitted (fed rfl).mem_ids h found matrix own
        obtain rfl := (List.cons.inj (shape'.symm.trans shape)).1
        exact fed'.unique distinct (fed rfl)
  -- no matrix yet: one is drawn for the width that arrives, so it fits from now on
  next none =>
    split
    · exact ⟨rfl, fun ⟨_, _, _, blamed⟩ => by cases blamed⟩
    refine ends_lift_bind (fun scale _ => ?_) fun f failed => ⟨rfl, fun blamed => blamed.1 failed⟩
    refine ends_lift_bind (fun values _ => ?_) fun f failed =>
      ⟨rfl, not_blames_of_blameless Generator.blameless_manyAround failed⟩
    refine ends_lift_bind (fun matrix drawn => ?_) fun f failed =>
      ⟨rfl, not_blames_of_blameless Tensor.blameless_reshaped failed⟩
    refine ⟨⟨_, _, rfl⟩, fun there h found own same => ?_⟩
    rw [Keyed.get?_insert] at found
    split at found
    next here =>
      obtain rfl : e = exit := by simpa [Data.key?] using here
      cases found
      cases same
      exact ⟨n, [r.outDim.toNat], Tensor.shape_reshaped drawn, fed rfl⟩
    next => exact fitted there h found own same

/-- What is drawn in two turns is drawn. -/
lemma Drawn.trans {r'' : Relaxation α} (first : r.Drawn r') (second : r'.Drawn r'') :
    r.Drawn r'' := by
  obtain ⟨_, _, rfl⟩ := first
  obtain ⟨_, _, rfl⟩ := second
  exact ⟨_, _, rfl⟩

/-- No exit fails for the number of features of an exit whose readout is fitted. -/
lemma ends_exitPrediction (distinct : r.graph.ids.Nodup) (fitted : Fitted σ r exit)
    (fed : ∀ v, e = exit → fetch (some exit) values = some v →
      ∃ k s, v.shape = k :: s ∧ Fed σ r exit (volume s)) :
    Ends (exitPrediction values e) r (fun _ r' => r.Drawn r' ∧ Fitted σ r' exit)
      fun f r' => r.Drawn r' ∧ Fitted σ r' exit ∧ ¬ r.Blames exit f := by
  have same : r.Drawn r := ⟨_, _, rfl⟩
  unfold exitPrediction
  split
  next => exact ⟨same, fitted, fun ⟨_, _, _, blamed⟩ => by cases blamed⟩
  next v found =>
    refine ends_lift_bind (fun features flat => ?_) fun f failed =>
      ⟨same, fitted, not_blames_of_blameless Tensor.blameless_flattened failed⟩
    rw [ends_bind]
    refine (ends_readout distinct fitted fun eq => ?_).mono (fun h r' after => ?_) fun f r' after =>
      ?_
    · subst eq
      obtain ⟨k, s, shape, fed⟩ := fed v rfl found
      rw [Tensor.axis, Tensor.shape_flattened (v.shape_toReals.trans shape) flat]
      exact fed
    · exact ends_lift_bind (fun _ _ => after) fun f failed =>
        ⟨after.1, after.2, not_blames_of_blameless Readout.blameless_apply failed⟩
    · obtain ⟨rfl, quiet⟩ := after
      exact ⟨same, fitted, quiet⟩

/-- The predictions at the exits draw readouts that fit. -/
lemma ends_exitPredictions {exits : List Int} (distinct : r.graph.ids.Nodup)
    (fitted : Fitted σ r exit)
    (fed : ∀ v, exit ∈ exits → fetch (some exit) values = some v → ∃ k s, v.shape = k :: s ∧
      Fed σ r exit (volume s)) :
    Ends (exits.mapM (exitPrediction values)) r (fun _ r' => r.Drawn r' ∧ Fitted σ r' exit)
      fun f r' => r.Drawn r' ∧ Fitted σ r' exit ∧ ¬ r.Blames exit f := by
  induction exits generalizing r with
  | nil => exact ⟨⟨_, _, rfl⟩, fitted⟩
  | cons e exits ih =>
    have first := ends_exitPrediction (e := e) distinct fitted fun v here =>
      fed v (here ▸ List.mem_cons_self ..)
    rw [List.mapM_cons, ends_bind]
    refine first.mono (fun b r' after => ?_) fun _ _ h => h
    obtain ⟨⟨generator, heads, rfl⟩, fitted⟩ := after
    have drawn : r.Drawn { r with generator, heads } := ⟨_, _, rfl⟩
    have next := ih (r := { r with generator, heads }) distinct fitted fun v mem =>
      fed v (List.mem_cons_of_mem _ mem)
    rw [ends_bind]
    exact next.mono (fun _ _ after => ⟨drawn.trans after.1, after.2⟩)
      fun _ _ after => ⟨drawn.trans after.1, after.2⟩

end Readouts

/-! ### Evaluations -/

namespace Evaluation

/-- The values of the positions, with the state before the readouts. -/
def values (v : Evaluation α) :
    Except Fault (List (Option Int × Signal α) × List (Int × CandidateValues α)) × Relaxation α :=
  (positionValues v.mixture [(none, v.inputs)] [] v.state.graph.positions).run v.state

/-- Each candidate that is called gives a value of its own shape behind the first axis. -/
def Conforms (σ : Shapes) (v : Evaluation α) : Prop :=
  Relaxation.Conforms σ v.mixture v.state [(none, v.inputs)] v.state.graph.positions

/-- The readout of an exit is asked for with a number of features. -/
def Hands (v : Evaluation α) (exit : Int) (n : Nat) : Prop :=
  exit ∈ v.state.graph.exits ∧ ∃ found value features, v.values.1 = .ok found ∧
    fetch (some exit) found.1 = some value ∧ value.toReals.flattened = .ok features ∧
      features.axis 1 = n

/-- All positions get values, but the number of features of an exit is not that of its readout. -/
def Raises (v : Evaluation α) (exit : Int) : Prop :=
  ∃ found f r', v.values.1 = .ok found ∧ (forward v.mixture v.inputs).run v.state = (.error f, r') ∧
    v.state.Blames exit f

/-- The candidates that an exit still mixes have one rank, which is not that of the sizes that are
remembered, and sizes that contain them have another volume. -/
def Narrows (σ : Shapes) (v : Evaluation α) (exit : Int) : Prop :=
  ∃ p ∈ v.state.graph.positions, p.id = exit ∧ p.isFrozen = false ∧
    ∃ known ∈ v.state.sizes.get? exit,
    Forgets known (p.shapes σ) ∧ volume (enclosing (p.shapes σ)) ≠ volume known

instance (σ : Shapes) (v : Evaluation α) (exit : Int) : Decidable (v.Narrows σ exit) :=
  inferInstanceAs (Decidable (∃ p ∈ v.state.graph.positions, p.id = exit ∧ p.isFrozen = false ∧
    ∃ known ∈ v.state.sizes.get? exit, Forgets known (p.shapes σ) ∧
      volume (enclosing (p.shapes σ)) ≠ volume known))

end Evaluation

/-- A search is sound, what is remembered covers the candidates that are left, and the readout of an
exit has a row for each feature. -/
structure Steady (σ : Shapes) (exit : Int) (r : Relaxation α) : Prop where
  sound : r.Sound
  covered : ∀ p ∈ r.graph.positions, Covered σ r p
  fitted : Fitted σ r exit

variable {σ : Shapes} {r r' : Relaxation α} {v : Evaluation α} {exit : Int} {n k : Nat}

/-- Sizes stay covered when they change. -/
lemma Resized.covered (resized : Resized σ r.graph.positions r r') (distinct : r.graph.ids.Nodup)
    (covered : ∀ p ∈ r.graph.positions, Covered σ r p) :
    ∀ p ∈ r'.graph.positions, Covered σ r' p := by
  obtain ⟨sizes, rfl, each⟩ := resized
  intro p hp mixes k hk
  rcases each p.id with same | ⟨q, hq, own, -, s, new, settles⟩
  · exact covered p hp mixes k (same ▸ hk)
  · obtain rfl := List.inj_on_of_nodup_map distinct hq hp own
    obtain rfl := Option.some.inj (new.symm.trans hk)
    exact settles.1

/-- Unless an evaluation narrows an exit, the exit keeps its number of features. -/
lemma Resized.fed (resized : Resized σ v.state.graph.positions v.state r')
    (distinct : v.state.graph.ids.Nodup) (wide : ¬ v.Narrows σ exit) (fed : Fed σ v.state exit n) :
    Fed σ r' exit n := by
  obtain ⟨sizes, rfl, each⟩ := resized
  obtain ⟨p, hp, rfl, s, sized, rfl⟩ := fed
  rcases each p.id with same | ⟨q, hq, own, mixes, t, new, settles⟩
  · exact ⟨p, hp, rfl, s, (sized_congr same).2 sized, rfl⟩
  · obtain rfl := List.inj_on_of_nodup_map distinct hq hp own
    rw [Sized, if_neg (by simp [mixes])] at sized
    refine ⟨q, hq, rfl, t, by rwa [Sized, if_neg (by simp [mixes])], ?_⟩
    rw [settles.2 s sized]
    split
    next forgets =>
      by_contra other
      exact wide ⟨q, hq, rfl, mixes, s, sized, forgets, other⟩
    next => rfl

section Pass

variable (steady : Steady σ exit v.state) (conforms : v.Conforms σ)
include steady conforms

/-- A pass resizes the positions and gives them values. -/
lemma resized_values : Resized σ v.state.graph.positions v.state v.values.2 ∧
    ∀ found, v.values.1 = .ok found → ∀ p ∈ v.state.graph.positions,
      Valued σ v.state v.values.2 found.1 p := by
  have distinct := steady.sound.graph.nodup
  have apart : (([(none, v.inputs)] : List (Option Int × Signal α)).map Prod.fst ++
      v.state.graph.positions.map fun p => some p.id).Nodup := by
    have some : v.state.graph.positions.map (fun p => some p.id) =
        v.state.graph.ids.map Option.some :=
      (List.map_map ..).symm
    rw [some, List.map_singleton, List.singleton_append, List.nodup_cons]
    exact ⟨by simp, distinct.map (Option.some_injective Int)⟩
  have ends :=
    ends_positionValues [] (fun p hp => (steady.sound.graph.intact p hp).aligned) apart conforms
    steady.covered
  have each := ends_iff.1 ends
  rcases run : v.values with ⟨_ | found, r'⟩
  · exact ⟨each.2 _ _ run, nofun⟩
  · obtain ⟨resized, -, valued⟩ := each.1 _ _ run
    exact ⟨resized, fun found' same => Except.ok.inj same ▸ valued⟩

/-- The value of an exit has the number of features that is settled on. -/
lemma fed_of_fetch {found : List (Option Int × Signal α) × List (Int × CandidateValues α)}
    {value : Signal α} (values : v.values.1 = .ok found) (there : exit ∈ v.state.graph.exits)
    (own : fetch (some exit) found.1 = some value) :
    ∃ k s, value.shape = k :: s ∧ Fed σ v.values.2 exit (volume s) := by
  obtain ⟨p, hp, rfl⟩ := List.mem_map.1 (steady.sound.graph.placed exit there)
  obtain ⟨⟨sizes, same, -⟩, valued⟩ := resized_values steady conforms
  obtain ⟨value', k, s, own', shape, sized, -⟩ := valued found values p hp
  obtain rfl := Option.some.inj (own'.symm.trans own)
  refine ⟨k, s, shape, p, ?_, rfl, s, sized, rfl⟩
  rw [same]
  exact hp

/-- What a pass hands to an exit is what the exit is fed with. -/
lemma fed_of_hands (hands : v.Hands exit n) : Fed σ v.values.2 exit n := by
  obtain ⟨there, found, value, features, values, own, flat, rfl⟩ := hands
  obtain ⟨k, s, shape, fed⟩ := fed_of_fetch steady conforms values there own
  rw [Tensor.axis, Tensor.shape_flattened (value.shape_toReals.trans shape) flat]
  exact fed

/-- A readout fits after the values are found, if the exit is not narrowed. -/
lemma fitted_values (wide : ¬ v.Narrows σ exit) : Fitted σ v.values.2 exit := by
  have resized := (resized_values steady conforms).1
  have fed := fun n => resized.fed (n := n) steady.sound.graph.nodup wide
  obtain ⟨sizes, same, -⟩ := resized
  rw [same] at fed ⊢
  intro there h own matrix has
  obtain ⟨n, rest, shape, old⟩ := steady.fitted there h own matrix has
  exact ⟨n, rest, shape, fed n old⟩

/-- The readout of an exit stays fitted, and does not fail, unless the exit is narrowed. -/
lemma ends_forward (wide : ¬ v.Narrows σ exit) : Ends (forward v.mixture v.inputs) v.state
    (fun _ r' => v.values.2.Drawn r' ∧ Fitted σ r' exit)
    fun f r' => v.values.2.Drawn r' ∧ Fitted σ r' exit ∧
      ∀ found, v.values.1 = .ok found → ¬ v.state.Blames exit f := by
  have distinct := steady.sound.graph.nodup
  have fitted := fitted_values steady conforms wide
  have same : v.values.2.Drawn v.values.2 := ⟨_, _, rfl⟩
  have settings : v.values.2.graph = v.state.graph ∧ v.values.2.settings = v.state.settings := by
    obtain ⟨⟨sizes, same, -⟩, -⟩ := resized_values steady conforms
    rw [same]
    exact ⟨rfl, rfl⟩
  have blames : ∀ {f}, v.values.2.Blames exit f ↔ v.state.Blames exit f := by
    intro f
    rw [Blames, Blames, settings.2]
  rw [forward, ends_bind, ends_get, ends_bind, ends_iff]
  refine ⟨fun x r' run => ?_, fun e r' run => ?_⟩
  · have values : v.values = (.ok x, r') := run
    obtain rfl : v.values.2 = r' := congrArg Prod.snd values
    have ok : v.values.1 = .ok x := congrArg Prod.fst values
    refine ends_lift_bind (fun _ _ => ?_) fun f failed => ⟨same, fitted, fun _ _ =>
      not_blames_of_blameless Supergraph.blameless_checkRoutes failed⟩
    rw [ends_bind]
    refine (ends_exitPredictions (settings.1 ▸ distinct) fitted fun w there own =>
      fed_of_fetch steady conforms ok there own).mono (fun found r' after => ?_)
      fun f r' after => ⟨after.1, after.2.1, fun _ _ => mt blames.2 after.2.2⟩
    exact ends_lift_bind (fun _ _ => after) fun f failed => ⟨after.1, after.2, fun _ _ =>
      not_blames_of_blameless Logits.blameless_mix failed⟩
  · have values : v.values = (.error e, r') := run
    obtain rfl : v.values.2 = r' := congrArg Prod.snd values
    refine ⟨same, fitted, fun found ok => ?_⟩
    rw [values] at ok
    cases ok

/-- A pass that does not narrow an exit keeps it steady and raises nothing there. -/
lemma steady_after (wide : ¬ v.Narrows σ exit) :
    Steady σ exit v.after ∧ v.after.graph = v.state.graph ∧ ¬ v.Raises exit ∧
      (∀ n, Fed σ v.state exit n → Fed σ v.after exit n) ∧
      ∀ n, v.Hands exit n → Fed σ v.after exit n := by
  have ends := ends_forward steady conforms wide
  have resized := (resized_values steady conforms).1
  have distinct := steady.sound.graph.nodup
  have drawn : v.values.2.Drawn v.after ∧ Fitted σ v.after exit := by
    rcases run : (forward v.mixture v.inputs).run v.state with ⟨_ | _, r'⟩
    · have after := ends.of_error run
      rw [Evaluation.after, run]
      exact ⟨after.1, after.2.1⟩
    · rw [Evaluation.after, run]
      exact ends.of_ok run
  have fed : ∀ n, Fed σ v.values.2 exit n → Fed σ v.after exit n := by
    obtain ⟨⟨generator, heads, same⟩, -⟩ := drawn
    rw [same]
    exact fun n fed => fed
  have same : v.after.graph = v.state.graph ∧ v.after.params = v.state.params := by
    obtain ⟨⟨generator, heads, later⟩, -⟩ := drawn
    obtain ⟨sizes, before, -⟩ := resized
    rw [later, before]
    exact ⟨rfl, rfl⟩
  refine ⟨⟨⟨?_, ?_⟩, ?_, drawn.2⟩, same.1, ?_, fun n old => fed n (resized.fed distinct wide old),
    fun n hands => fed n (fed_of_hands steady conforms hands)⟩
  · exact same.1 ▸ steady.sound.graph
  · rw [same.1, same.2]
    exact steady.sound.params
  · obtain ⟨⟨generator, heads, later⟩, -⟩ := drawn
    rw [later]
    exact resized.covered distinct steady.covered
  · rintro ⟨found, f, r', values, failed, blamed⟩
    exact (ends.of_error failed).2.2 found values blamed

end Pass

/-! ### Courses -/

/-- A turn feeds the exits that stay as before. -/
lemma Turn.fed (turn : Turn r r') (sound : r.Sound) (there : exit ∈ r'.graph.ids)
    (fed : Fed σ r exit n) : Fed σ r' exit n := by
  obtain ⟨q, hq, rfl⟩ := List.mem_map.1 there
  obtain ⟨p, hp, remains, candidates⟩ := (turn.survives sound).2 q hq
  obtain ⟨p', hp', same, s, sized, rfl⟩ := fed
  obtain rfl := List.inj_on_of_nodup_map sound.graph.nodup hp' hp (same.trans remains.id)
  refine ⟨q, hq, rfl, s, ?_, rfl⟩
  unfold Sized at sized ⊢
  rw [remains.frozen, remains.id, turn.kept.1]
  split at sized
  next frozen =>
    rw [if_pos frozen]
    obtain ⟨op, first, same⟩ := sized
    refine ⟨op, ?_, same⟩
    rw [← first, Position.firstFixed, Position.firstFixed, Position.fixed, Position.fixed,
      candidates frozen]
  next mixes => rwa [if_neg mixes]

/-- A turn keeps an exit steady. -/
lemma Turn.steady (turn : Turn r r') (steady : Steady σ exit r) : Steady σ exit r' := by
  obtain ⟨sound, survives⟩ := turn.survives steady.sound
  refine ⟨sound, fun q hq mixes k hk => ?_, fun there h' found matrix' own => ?_⟩
  · obtain ⟨p, hp, remains, -⟩ := survives q hq
    rw [turn.kept.1, remains.id] at hk
    refine (steady.covered p hp (remains.frozen.symm.trans mixes) k hk).mono ?_
    rw [Position.shapes, Position.shapes, remains.id]
    exact List.map_subset _ (remains.candidates.filter _).subset
  · obtain ⟨h, found, shape⟩ := turn.kept.2 exit h' found
    obtain ⟨matrix, own, same⟩ := shape matrix' own
    obtain ⟨q, hq, rfl⟩ := List.mem_map.1 there
    obtain ⟨p, hp, remains, -⟩ := survives q hq
    have placed : q.id ∈ r.graph.ids := remains.id ▸ List.mem_map_of_mem hp
    obtain ⟨n, rest, shape, fed⟩ := steady.fitted placed h found matrix own
    exact ⟨n, rest, same ▸ shape, turn.fed steady.sound there fed⟩

/-- All evaluations hand an exit the same number of features. -/
def Alike (exit : Int) (passes : List (Evaluation α)) : Prop :=
  ∀ v ∈ passes, ∀ v' ∈ passes, ∀ n n', v.Hands exit n → v'.Hands exit n' → n = n'

/-- Unless it narrows an exit, a course hands it the same number of features again and again. -/
lemma Course.steady {passes : List (Evaluation α)} (course : Course r passes r')
    (steady : Steady σ exit r) (conforms : ∀ v ∈ passes, v.Conforms σ)
    (wide : ∀ v ∈ passes, ¬ v.Narrows σ exit) :
    Steady σ exit r' ∧ Alike exit passes ∧ (∀ v ∈ passes, ¬ v.Raises exit) ∧
      ∀ v ∈ passes, ∀ n, v.Hands exit n → exit ∈ r'.graph.ids → Fed σ r' exit n := by
  induction course with
  | start => exact ⟨steady, List.forall_mem_nil _, List.forall_mem_nil _, List.forall_mem_nil _⟩
  | turn _ turn ih =>
    obtain ⟨steady, alike, quiet, fed⟩ := ih conforms wide
    refine ⟨turn.steady steady, alike, quiet, fun v hv n hands there =>
      turn.fed steady.sound there ?_⟩
    refine fed v hv n hands ?_
    obtain ⟨q, hq, rfl⟩ := List.mem_map.1 there
    obtain ⟨p, hp, remains, -⟩ := (turn.survives steady.sound).2 q hq
    exact remains.id ▸ List.mem_map_of_mem hp
  | @pass passes v _ _ ih =>
    simp only [List.forall_mem_append, List.forall_mem_singleton] at conforms wide
    obtain ⟨steady, alike, quiet, fed⟩ := ih conforms.1 wide.1
    obtain ⟨later, graph, silent, keeps, hands⟩ := steady_after steady conforms.2 wide.2
    have all : ∀ v' ∈ passes ++ [v], ∀ n, v'.Hands exit n → exit ∈ v.after.graph.ids →
        Fed σ v.after exit n := by
      rw [List.forall_mem_append, List.forall_mem_singleton]
      refine ⟨fun v' hv n own there => keeps n (fed v' hv n own ?_), fun n own _ => hands n own⟩
      rwa [← graph]
    refine ⟨later, fun v₁ h₁ v₂ h₂ n₁ n₂ first second => ?_, ?_, all⟩
    · by_cases there : exit ∈ v.after.graph.ids
      · exact (all v₁ h₁ n₁ first there).unique later.sound.graph.nodup (all v₂ h₂ n₂ second there)
      · -- what is not there is not handed anything any more
        have old : ∀ v' ∈ passes ++ [v], ∀ n, v'.Hands exit n → v' ∈ passes := by
          rw [List.forall_mem_append, List.forall_mem_singleton]
          refine ⟨fun v' hv _ _ => hv, fun n own =>
            absurd (steady.sound.graph.placed exit own.1) ?_⟩
          rwa [graph] at there
        exact alike v₁ (old v₁ h₁ n₁ first) v₂ (old v₂ h₂ n₂ second) n₁ n₂ first second
    · rw [List.forall_mem_append, List.forall_mem_singleton]
      exact ⟨quiet, silent⟩

/-- An exit that is narrowed is handed another width. -/
lemma ne_of_narrows {v : Evaluation α} (steady : Steady σ exit v.state) (conforms : v.Conforms σ)
    (narrows : v.Narrows σ exit) (hands : v.Hands exit n) (fed : Fed σ v.state exit k) : n ≠ k := by
  obtain ⟨p, hp, rfl, mixes, known, remembered, forgets, other⟩ := narrows
  obtain ⟨q, hq, same, s, sized, rfl⟩ := fed
  obtain rfl := List.inj_on_of_nodup_map steady.sound.graph.nodup hq hp same
  rw [Sized, if_neg (by simp [mixes])] at sized
  obtain rfl := Option.some.inj (sized.symm.trans remembered)
  obtain ⟨-, found, value, features, values, own, flat, rfl⟩ := hands
  obtain ⟨value', m, t, own', shape, -, settles⟩ :=
    (resized_values steady conforms).2 found values q hq
  obtain rfl := Option.some.inj (own'.symm.trans own)
  rw [Tensor.axis, Tensor.shape_flattened (value'.shape_toReals.trans shape) flat,
    (settles mixes).2 s remembered, if_pos forgets]
  exact other

/-- An exit that is always handed the same number of features is never narrowed. -/
lemma Course.wide {passes : List (Evaluation α)} (course : Course r passes r')
    (steady : Steady σ exit r) (empty : r.sizes = .empty) (conforms : ∀ v ∈ passes, v.Conforms σ)
    (hands : ∀ v ∈ passes, ∃ n, v.Hands exit n) (alike : Alike exit passes) :
    (∀ v ∈ passes, ¬ v.Narrows σ exit) ∧ (passes = [] → r'.sizes = .empty) := by
  induction course with
  | start => exact ⟨List.forall_mem_nil _, fun _ => empty⟩
  | turn _ turn ih =>
    obtain ⟨wide, fresh⟩ := ih conforms hands alike
    exact ⟨wide, fun none => turn.kept.1.trans (fresh none)⟩
  | @pass passes v before _ ih =>
    simp only [Alike, List.forall_mem_append, List.forall_mem_singleton] at conforms hands alike
    obtain ⟨wide, fresh⟩ := ih conforms.1 hands.1 fun v₁ h₁ => (alike.1 v₁ h₁).1
    refine ⟨?_, fun none => absurd none (by simp)⟩
    rw [List.forall_mem_append, List.forall_mem_singleton]
    refine ⟨wide, fun narrows => ?_⟩
    obtain ⟨steady, -, -, fed⟩ := before.steady steady conforms.1 wide
    obtain ⟨n, own⟩ := hands.2
    -- there was an evaluation before, as something is remembered
    obtain ⟨v₀, hv⟩ : ∃ v₀, v₀ ∈ passes := by
      refine List.exists_mem_of_ne_nil _ fun none => ?_
      obtain ⟨p, -, -, -, known, remembered, -⟩ := narrows
      rw [fresh none] at remembered
      cases remembered
    obtain ⟨n₀, old⟩ := hands.1 v₀ hv
    have there := steady.sound.graph.placed exit own.1
    exact ne_of_narrows steady conforms.2 narrows own (fed v₀ hv n₀ old there)
      ((alike.1 v₀ hv).2 n₀ n old own).symm

/-- Whatever they are called with, the candidates of a position give values of the same shapes. -/
def Constant (σ : Shapes) (p : Position α) : Prop :=
  ∀ op ∈ p.candidates, ∀ args params v, op.evaluate args params = .ok v →
    ∃ n, v.shape = n :: σ p.id op.name

/-- Values of constant shapes conform. -/
lemma conforms_of_constant {m : Mixture α} {ps : List (Position α)}
    {values : List (Option Int × Signal α)} (constant : ∀ p ∈ ps, Constant σ p) :
    Relaxation.Conforms σ m r values ps := by
  induction ps generalizing r values with
  | nil => trivial
  | cons p ps ih =>
    rw [List.forall_mem_cons] at constant
    refine ⟨fun args _ op called v value => constant.1 op ?_ args _ v value, ?_⟩
    · unfold Position.called at called
      split at called
      · exact (List.mem_filter.1 (List.mem_of_mem_take called)).1
      · exact (List.mem_filter.1 called).1
    · exact fun _ _ _ _ => ih constant.2

/-- A course of constant candidates conforms to their shapes. -/
lemma Course.conforms {passes : List (Evaluation α)} (course : Course r passes r') (sound : r.Sound)
    (constant : ∀ p ∈ r.graph.positions, Constant σ p) :
    (r'.Sound ∧ ∀ p ∈ r'.graph.positions, Constant σ p) ∧ ∀ v ∈ passes, v.Conforms σ := by
  have onward : ∀ {r₁ r₂ : Relaxation α}, (∀ p ∈ r₁.graph.positions, Constant σ p) →
      (∀ q ∈ r₂.graph.positions, ∃ p ∈ r₁.graph.positions, Survives p q) →
      ∀ q ∈ r₂.graph.positions, Constant σ q := by
    intro r₁ r₂ constant survives q hq op mem
    obtain ⟨p, hp, remains, -⟩ := survives q hq
    rw [remains.id]
    exact constant p hp op (remains.candidates.subset mem)
  induction course with
  | start => exact ⟨⟨sound, constant⟩, List.forall_mem_nil _⟩
  | turn _ turn ih =>
    obtain ⟨⟨sound, constant⟩, conforms⟩ := ih
    obtain ⟨sound', survives⟩ := turn.survives sound
    exact ⟨⟨sound', onward constant survives⟩, conforms⟩
  | @pass passes v _ _ ih =>
    obtain ⟨⟨sound, constant⟩, conforms⟩ := ih
    have stands : Stands False v.state := ⟨sound.graph.nodup, False.elim, False.elim⟩
    have steps : Steps v.state v.after := (acts_forward stands).steps
    refine ⟨⟨(steps.sound sound).1, onward constant (steps.survives sound)⟩, ?_⟩
    rw [List.forall_mem_append, List.forall_mem_singleton]
    exact ⟨conforms, conforms_of_constant constant⟩

/-- At the start each exit is steady and no sizes are remembered. -/
lemma steady_start {s : Supergraph α} {objective : Objective α} {train val : Dataset α}
    {budget : Budget α} {settings : Settings α} {draws : Draws α} {optimizer : Optimizer α}
    {seed : Int} {stop : Option (StopSignal α)} (decodable : s.Decodable)
    (started : start s objective train val budget settings draws optimizer seed stop = .ok r) :
    Steady σ exit r ∧ r.sizes = .empty := by
  have sound := (sound_start decodable started).1
  simp only [start, bind_eq_ok, pure_eq_ok] at started
  obtain ⟨_, -, _, -, _, -, _, -, drawn, -, rfl⟩ := started
  refine ⟨⟨sound, ?covered, ?fitted⟩, rfl⟩
  case covered =>
    intro p hp mixes k known
    cases known
  case fitted =>
    intro there h found
    cases found

/-- On a course whose candidates keep their shapes, an exit is handed the same number of features by
every evaluation, none fails because it has changed, and its readout fits in the end, unless an
evaluation narrows the exit. And it must not: an exit to which all evaluations hand the same number
is never narrowed. A run only continues the course. -/
theorem alike_unless_narrowed {c : Catalog α} {excluded : Exclusion α} {maxFanIn : Number α}
    {input output : PortType} {depth : StageBound} {s : Supergraph α} {objective : Objective α}
    {train val : Dataset α} {budget : Budget α} {settings : Settings α} {draws : Draws α}
    {optimizer : Optimizer α} {seed : Int} {stop : Option (StopSignal α)} {r₀ : Relaxation α}
    {passes : List (Evaluation α)}
    (built : Supergraph.build c input output depth maxFanIn excluded = .ok s)
    (started : start s objective train val budget settings draws optimizer seed stop = .ok r₀)
    (course : Course r₀ passes r) (conforms : ∀ v ∈ passes, v.Conforms σ) (exit : Int) :
    ((∀ v ∈ passes, ¬ v.Narrows σ exit) →
        Alike exit passes ∧ (∀ v ∈ passes, ¬ v.Raises exit) ∧ Fitted σ r exit) ∧
      ((∀ v ∈ passes, ∃ n, v.Hands exit n) → Alike exit passes → ∀ v ∈ passes, ¬ v.Narrows σ exit) ∧
      ∀ clock cancels, ∃ more, Course r₀ (passes ++ more) ((run clock cancels).run r).2 := by
  obtain ⟨begins, empty⟩ := steady_start (Supergraph.decodable_build built).1 started
  refine ⟨fun wide => ?_, fun hands alike => ?_, fun clock cancels => ?_⟩
  · obtain ⟨steady, alike, quiet, -⟩ := course.steady begins conforms wide
    exact ⟨alike, quiet, steady.fitted⟩
  · exact (course.wide begins empty conforms hands alike).1
  · obtain ⟨more, onward⟩ := goes_run r clock cancels
    exact ⟨more, course.trans onward⟩

/-! ### A grid and a pair -/

namespace Sample

open Decoder.Sample

/-- One feature, as a grid. -/
def grid : Operator ℚ :=
  operator "grid" ["path"] true .empty fun _ _ => .ok (.reals (.full [1, 1, 1] 1))

/-- An operator that gives a pair. -/
def pair : Operator ℚ :=
  operator "pair" ["path"] true .empty fun _ _ => .ok (.reals (.full [1, 2] 1))

/-- The shapes of the candidates. -/
def shapeOf (_ : Int) (name : String) : List Nat :=
  if name = "grid" then [1, 1] else [2]

/-- The catalog of both operators. -/
def offering : Catalog ℚ :=
  (Catalog.ofKinds ["path", "feature"] "cost").extend [grid, pair] (by decide)

/-- The position where both mix. -/
def either : Position ℚ :=
  { first with candidates := [grid, pair] }

/-- A search where weights of a half are too light. -/
def opened : Relaxation ℚ :=
  { learned (supergraph 1 [either]) 1 with
    graph := { supergraph 1 [either] with catalog := offering }
    settings := strict
    params := .empty }

/-- The opened network is built. -/
lemma built_opened :
    Supergraph.build offering (typeOf "path" (.symbol "N")) (typeOf "feature" (.symbol "K"))
      (.whole 1) (.whole 3) (fun _ => .ok false) = .ok opened.graph := by
  with_unfolding_all rfl

/-- The opened search is started. -/
lemma started_opened :
    start opened.graph .regression blank blank unlimited strict .congruential .adam 0 none =
      .ok opened := by
  with_unfolding_all rfl

/-- The pair has more weight. -/
def tilted : Relaxation ℚ :=
  { opened with graph := opened.graph.replace { either with logits := .row [0, 1 / 2] } }

/-- An evaluation of the present mixture. -/
def look (r : Relaxation ℚ) : Evaluation ℚ :=
  ⟨r, r.graph.mixture 1, ones 1⟩

/-- After an evaluation, the candidate with less weight is dropped; of equal ones the first
stays. -/
def pruned (r : Relaxation ℚ) : Relaxation ℚ :=
  (prune.run ((advance .masked .mixing).run (look r).after).2).2

/-- Evaluations before and after. -/
def looks (r : Relaxation ℚ) : List (Evaluation ℚ) :=
  [look r, look (pruned r)]

/-- The mixture of a search at a temperature. -/
lemma mixture_eq_ok {r : Relaxation ℚ} {x : ℚ} (heat : r.heat.toOption = some x) :
    r.mixture = .ok (r.graph.mixture x) := by
  rw [mixture, toOption_eq_some.1 heat]
  rfl

/-- Two looks, with pruning between them, are a course. -/
lemma course_looks {r₀ r : Relaxation ℚ} (before : Course r₀ [] r) (heat : r.heat.toOption = some 1)
    (later : (pruned r).heat.toOption = some 1) : Course r₀ (looks r) (look (pruned r)).after := by
  have first : Course r₀ [look r] (look r).after := .pass (v := look r) before (mixture_eq_ok heat)
  have moved : Course r₀ [look r] ((advance .masked .mixing).run (look r).after).2 :=
    .turn first (.advance (by decide) (by decide))
  have between : Course r₀ [look r] (pruned r) := .turn moved .prune
  exact .pass (v := look (pruned r)) between (mixture_eq_ok later)

/-- The opened search looks twice. -/
lemma course_opened : Course opened (looks opened) (look (pruned opened)).after :=
  course_looks .start rfl (by decide +kernel)

/-- The tilted search looks twice. -/
lemma course_tilted : Course opened (looks tilted) (look (pruned tilted)).after :=
  course_looks (.turn .start (.logits (List.mem_singleton.2 rfl) ⟨_, rfl, rfl⟩)) rfl
    (by decide +kernel)

/-- All passes of the opened search conform. -/
lemma conforms_opened {passes : List (Evaluation ℚ)} {r : Relaxation ℚ}
    (course : Course opened passes r) :
    ∀ v ∈ passes, v.Conforms shapeOf := by
  refine (course.conforms
    (sound_start (Supergraph.decodable_build built_opened).1 started_opened).1 ?_).2
  intro p hp op mem args params v value
  obtain rfl : p = either := List.mem_singleton.1 hp
  obtain rfl | rfl : op = grid ∨ op = pair := by simpa [either] using mem
  · obtain rfl := Except.ok.inj value
    exact ⟨1, rfl⟩
  · obtain rfl := Except.ok.inj value
    exact ⟨1, rfl⟩

/-- The number of features that an evaluation hands to the exit. -/
def handed (v : Evaluation ℚ) : Option Nat := do
  let found ← v.values.1.toOption
  let value ← fetch (some 0) found.1
  let features ← value.toReals.flattened.toOption
  return features.axis 1

/-- What is seen to be handed to the exit is. -/
lemma hands_of_handed {v : Evaluation ℚ} {n : Nat} (exits : v.state.graph.exits = [0])
    (found : handed v = some n) : v.Hands 0 n := by
  simp only [handed, Option.bind_eq_bind, Option.bind_eq_some_iff, Option.pure_def,
    Option.some.injEq] at found
  obtain ⟨found, values, value, own, features, flat, same⟩ := found
  exact ⟨exits ▸ List.mem_singleton.2 rfl, found, value, features, toOption_eq_some.1 values, own,
    toOption_eq_some.1 flat, same⟩

/-- The numbers of features that an evaluation fails for. -/
def changed (v : Evaluation ℚ) : Option (Int × Nat × Nat) :=
  match ((forward v.mixture v.inputs).run v.state).1 with
  | .ok _ => none
  | .error f =>
    match f.cause with
    | .widthChanged exit before now => some (exit, before, now)
    | _ => none

/-- A width that is seen to change raises a fault. -/
lemma raises_of_changed {v : Evaluation ℚ} {exit : Int} {before now : Nat}
    (found : v.values.1.toOption.isSome) (scale : v.state.settings.headScale.toOption.isSome)
    (other : changed v = some (exit, before, now)) : v.Raises exit := by
  obtain ⟨x, values⟩ := Option.isSome_iff_exists.1 found
  obtain ⟨y, scale⟩ := Option.isSome_iff_exists.1 scale
  rcases run : (forward v.mixture v.inputs).run v.state with ⟨f | pass, r'⟩
  · refine ⟨x, f, r', toOption_eq_some.1 values, run, ?_, before, now, ?_⟩
    · rw [toOption_eq_some.1 scale]
      nofun
    · rw [changed, run] at other
      dsimp only at other
      split at other
      next cause =>
        cases other
        exact cause
      next => cases other
  · rw [changed, run] at other
    cases other

end Sample

open Sample Decoder.Sample in
/-- Where the pair is left, the exit has two features as before. -/
theorem alike_looks_tilted :
    Supergraph.build offering (typeOf "path" (.symbol "N")) (typeOf "feature" (.symbol "K"))
      (.whole 1) (.whole 3) (fun _ => .ok false) = .ok opened.graph ∧
      start opened.graph .regression blank blank unlimited strict .congruential .adam 0 none =
        .ok opened ∧
      Course opened (looks tilted) (look (pruned tilted)).after ∧
      (∀ v ∈ looks tilted, v.Conforms shapeOf) ∧ (∀ v ∈ looks tilted, v.Hands 0 2) ∧
      (pruned tilted).graph.positions.map (fun p => p.candidates.map (·.name)) = [["pair"]] ∧
      (∀ v ∈ looks tilted, ¬ v.Narrows shapeOf 0) ∧ Alike 0 (looks tilted) ∧
      (∀ v ∈ looks tilted, ¬ v.Raises 0) ∧ Fitted shapeOf (look (pruned tilted)).after 0 ∧
      ∀ clock cancels, ∃ more, Course opened (looks tilted ++ more)
        ((run clock cancels).run (look (pruned tilted)).after).2 := by
  have conforms := conforms_opened course_tilted
  have hands : ∀ v ∈ looks tilted, v.Hands 0 2 := by
    rw [looks, List.forall_mem_cons, List.forall_mem_singleton]
    refine ⟨hands_of_handed rfl (by decide +kernel), ?_⟩
    exact hands_of_handed (by decide +kernel) (by decide +kernel)
  have left :
      (pruned tilted).graph.positions.map (fun p => p.candidates.map (·.name)) = [["pair"]] := by
    decide +kernel
  have wide : ∀ v ∈ looks tilted, ¬ v.Narrows shapeOf 0 := by
    decide +kernel
  obtain ⟨keeps, -, onward⟩ :=
    alike_unless_narrowed built_opened started_opened course_tilted conforms 0
  obtain ⟨alike, quiet, fitted⟩ := keeps wide
  exact ⟨built_opened, started_opened, course_tilted, conforms, hands, left, wide, alike,
    quiet, fitted, onward⟩

open Sample Decoder.Sample in
/-- Where the grid is left, the size of the pair is forgotten, and the readout does not fit any
more. -/
theorem not_alike_looks_opened :
    Supergraph.build offering (typeOf "path" (.symbol "N")) (typeOf "feature" (.symbol "K"))
      (.whole 1) (.whole 3) (fun _ => .ok false) = .ok opened.graph ∧
      start opened.graph .regression blank blank unlimited strict .congruential .adam 0 none =
        .ok opened ∧
      Course opened (looks opened) (look (pruned opened)).after ∧
      (∀ v ∈ looks opened, v.Conforms shapeOf) ∧
      (look opened).Hands 0 2 ∧ (look (pruned opened)).Hands 0 1 ∧ ¬ Alike 0 (looks opened) ∧
      (look (pruned opened)).Raises 0 := by
  have before : (look opened).Hands 0 2 := hands_of_handed rfl (by decide +kernel)
  have now : (look (pruned opened)).Hands 0 1 :=
    hands_of_handed (by decide +kernel) (by decide +kernel)
  have told : changed (look (pruned opened)) = some (0, 2, 1) := by
    decide +kernel
  refine ⟨built_opened, started_opened, course_opened, conforms_opened course_opened, before, now,
    fun alike => ?_, raises_of_changed (by decide +kernel) (by decide +kernel) told⟩
  have same : 2 = 1 :=
    alike (look opened) (by simp [looks]) (look (pruned opened)) (by simp [looks])
    2 1 before now
  cases same

end Relaxation

end OperatorNet
