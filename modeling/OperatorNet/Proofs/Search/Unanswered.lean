import OperatorNet.Proofs.Faults
import OperatorNet.Proofs.Search.Enumeration

/-!
# Requests that nothing answers

Looking operators up and following positions to what they read never fails for a cause that tells
how a search goes. So when building a supergraph fails because nothing answers the request, the
positions have been laid out, and there are none or the type of none of them fits
(`Supergraph.exists_laid_of_failed`).
-/

namespace OperatorNet

open PortType

variable {α : Type}

/-! ### Looking operators up -/

@[simp] lemma Operator.unconcerned_firstInput (op : Operator α) : Unconcerned op.firstInput := by
  unfold Operator.firstInput
  split <;> simp

@[simp] lemma unconcerned_bridge {b : Bindings} {actual expected : PortType} {i : Nat}
    {adapters : List (Operator α)} : Unconcerned (bridge b actual expected i adapters) := by
  induction adapters generalizing i with
  | nil => exact unconcerned_ok
  | cons a rest ih =>
    refine unconcerned_bind a.unconcerned_firstInput fun input _ => ?_
    refine unconcerned_bind unconcerned_worded fun word _ => ?_
    cases word with
    | ok b' => exact unconcerned_pure
    | error reason => exact ih

@[simp] lemma unconcerned_compatible {b : Bindings} {actual expected : PortType}
    {adapters : List (Operator α)} : Unconcerned (compatible b actual expected adapters) := by
  refine unconcerned_bind unconcerned_worded fun word _ => ?_
  cases word with
  | ok b' => exact unconcerned_pure
  | error reason => exact unconcerned_bridge

namespace Catalog

@[simp] lemma unconcerned_adaptInputs {adapters : List (Operator α)} {b : Bindings}
    {slots : List (PortType × PortType)} : Unconcerned (adaptInputs adapters b slots) := by
  induction slots generalizing b with
  | nil => exact unconcerned_ok
  | cons slot rest ih =>
    refine unconcerned_bind unconcerned_compatible fun fit _ => ?_
    split
    · exact ih
    · exact unconcerned_pure

variable [Scalar α] {c : Catalog α}

@[simp] lemma unconcerned_relate {op : Operator α} {inputs : List PortType}
    {output : Option PortType} : Unconcerned (c.relate op inputs output) := by
  unfold relate
  split
  · exact unconcerned_pure
  refine unconcerned_bind unconcerned_worded fun word _ => ?_
  cases word with
  | ok b => exact unconcerned_pure
  | error reason =>
    refine unconcerned_bind unconcerned_adaptInputs fun adapted _ => ?_
    cases adapted with
    | none => exact unconcerned_pure
    | some b =>
      cases output with
      | none => exact unconcerned_pure
      | some t => exact unconcerned_bind unconcerned_compatible fun _ _ => unconcerned_pure

@[simp] lemma unconcerned_consumers {input : PortType} : Unconcerned (c.consumers input) := by
  refine unconcerned_bind (unconcerned_mapM fun op _ => ?_) fun _ _ => unconcerned_pure
  exact unconcerned_bind unconcerned_relate fun _ _ => unconcerned_pure

end Catalog

/-! ### Following positions -/

lemma unconcerned_firstFresh {all fresh : List Int} {stack : List Ref} :
    Unconcerned (firstFresh all fresh stack) := by
  induction stack with
  | nil => exact unconcerned_ok
  | cons r rest ih =>
    unfold firstFresh
    split
    next f failed => exact fun f' same => Except.error.inj same ▸ r.unconcerned_find f failed
    next =>
      split
      · exact unconcerned_ok
      · exact ih

lemma unconcerned_reachable {inputs : Int → List Ref} {all fresh : List Int} {stack : List Ref} :
    Unconcerned (reachable inputs all fresh stack) := by
  induction fresh, stack using reachable.induct inputs all with
  | case1 fresh stack f failed =>
    rw [reachable, failed]
    exact fun f' same => Except.error.inj same ▸ unconcerned_firstFresh f failed
  | case2 fresh stack none =>
    rw [reachable, none]
    exact unconcerned_ok
  | case3 fresh stack r n rest first ih =>
    rw [reachable, first]
    exact unconcerned_map.2 ih

@[simp] lemma Supergraph.unconcerned_ancestorsOf {s : Supergraph α} {r : Ref} :
    Unconcerned (s.ancestorsOf r) :=
  unconcerned_map.2 unconcerned_reachable

@[simp] lemma Supergraph.unconcerned_dropDead {s : Supergraph α} : Unconcerned s.dropDead := by
  refine unconcerned_bind (unconcerned_mapM fun id _ => ?_) fun _ _ => unconcerned_pure
  exact unconcerned_bind unconcerned_ancestorsOf fun _ _ => unconcerned_pure

/-! ### Laying positions out -/

variable [Scalar α] {c : Catalog α} {excluded : Exclusion α} {maxFanIn : Number α}
  {input output : PortType} {depth : StageBound} {f : Fault} {combinators ops : List (Operator α)}
  {positions : List (Position α)}

omit [Scalar α] in
lemma unconcerned_filterM {β : Type} {xs : List β} {keep : β → Except Fault Bool}
    (each : ∀ b, Unconcerned (keep b)) : Unconcerned (xs.filterM keep) := by
  have onward : ∀ found, Unconcerned (xs.filterAuxM keep found) := by
    induction xs with
    | nil => exact fun _ => unconcerned_pure
    | cons b rest ih => exact fun found => unconcerned_bind (each b) fun _ _ => ih _
  exact unconcerned_bind (onward []) fun _ _ => unconcerned_pure

omit [Scalar α] in
lemma unconcerned_admitted (harmless : ∀ op, Unconcerned (excluded op)) :
    Unconcerned (ops.filterM fun op => return !(← excluded op)) :=
  unconcerned_filterM fun op => unconcerned_bind (harmless op) fun _ _ => unconcerned_pure

lemma unconcerned_stageAttempts (harmless : ∀ op, Unconcerned (excluded op)) {stage : Nat}
    {sources : List Source} : Unconcerned (stageAttempts c excluded combinators stage sources) := by
  refine unconcerned_bind (unconcerned_mapM fun source _ => ?_) fun _ _ => unconcerned_pure
  refine unconcerned_bind Catalog.unconcerned_consumers fun ops _ => ?_
  exact unconcerned_bind (unconcerned_admitted harmless) fun _ _ => unconcerned_pure

omit [Scalar α] in
lemma unconcerned_instantiate {op : Operator α} {suffix : String} {inputs : List PortType} :
    Unconcerned (op.instantiate suffix inputs) := by
  refine unconcerned_bind unconcerned_worded fun word _ => ?_
  cases word with
  | ok b => exact unconcerned_bind unconcerned_requireWritable fun _ _ => unconcerned_pure
  | error reason => exact unconcerned_pure

omit [Scalar α] in
lemma unconcerned_groupAttempts {suffix : Nat} {groups : List (CandidateGroup α)}
    {attempts : List (Operator α × List Source)} :
    Unconcerned (groupAttempts suffix groups attempts) := by
  induction attempts generalizing suffix groups with
  | nil => exact unconcerned_ok
  | cons a rest ih =>
    refine unconcerned_bind unconcerned_instantiate fun type _ => ?_
    cases type with
    | none => exact ih
    | some t => exact ih

omit [Scalar α] in
lemma unconcerned_answering : Unconcerned (Supergraph.answering output positions) :=
  unconcerned_filterM fun _ => unconcerned_bind unconcerned_worded fun _ _ => unconcerned_pure

/-- Only a first stage without positions is refused. -/
lemma layOut_eq_error (harmless : ∀ op, Unconcerned (excluded op)) {stage suffix n : Nat}
    (begun : 1 ≤ stage) (search : f.cause.AboutSearch)
    (failed : layOut c excluded combinators input stage suffix positions n = .error f) :
    stage = 1 ∧ f = .of (.noConsumer input) ∧ ∃ attempts,
      stageAttempts c excluded combinators 1 (sourcesOf input positions) = .ok attempts ∧
        groupAttempts suffix [] attempts = .ok [] := by
  induction n generalizing stage suffix positions with
  | zero => cases failed
  | succ n ih =>
    simp only [layOut] at failed
    rcases bind_eq_error.1 failed with failed | ⟨attempts, tried, failed⟩
    · exact absurd search (unconcerned_stageAttempts harmless f failed)
    rcases bind_eq_error.1 failed with failed | ⟨groups, put, failed⟩
    · exact absurd search (unconcerned_groupAttempts f failed)
    cases groups with
    | nil =>
      dsimp only at failed
      split at failed
      next first =>
        rcases bind_eq_error.1 failed with failed | ⟨_, -, failed⟩
        · exact absurd search (unconcerned_requireWritable f failed)
        · exact ⟨first, (Except.error.inj failed).symm, attempts, first ▸ tried, put⟩
      next => cases failed
    | cons g rest =>
      -- later stages come after the first one
      obtain ⟨later, -⟩ := ih (Nat.le_succ_of_le begun) failed
      omega

namespace Supergraph

/-- When nothing answers a request, positions have been laid out, but no type fits. -/
theorem exists_laid_of_failed (plain : ∀ s, input.Mentions s → '#' ∉ s.toList)
    (harmless : ∀ op, Unconcerned (excluded op))
    (failed : build c input output depth maxFanIn excluded = .error f)
    (unanswered : f.cause.Unanswered) :
    ∃ uses all, Laid c excluded maxFanIn input depth.count.toNat uses all ∧
      (all = [] ∨ f.cause = .noRoute depth input output ∧
        ∀ p ∈ all, (Bindings.empty.unify? output p.outType).isSome = false) := by
  have search : f.cause.AboutSearch := .inl unanswered
  unfold build at failed
  split at failed
  next =>
    cases failed
    simp [Fault.of] at unanswered
  next deep =>
  rcases bind_eq_error.1 failed with failed | ⟨combinators, kept, failed⟩
  · exact absurd search (unconcerned_admitted harmless f failed)
  have combines := combines_of_filterM kept
  rcases bind_eq_error.1 failed with failed | ⟨all, laid, failed⟩
  · obtain ⟨-, -, attempts, tried, none⟩ := layOut_eq_error harmless (Nat.le_refl 1) search failed
    have first := (Laid.nil plain).succ combines tried (grouped_groupAttempts none)
    rw [newPositions, List.mapIdx_nil, List.append_nil] at first
    exact ⟨_, [], first.idle (fun _ mem => absurd mem List.not_mem_nil) (by omega), .inl rfl⟩
  · obtain ⟨uses, laid⟩ := (Laid.nil plain).layOut combines laid
    rw [Nat.zero_add] at laid
    rcases bind_eq_error.1 failed with failed | ⟨answers, answering, failed⟩
    · exact absurd search (unconcerned_answering f failed)
    obtain rfl := Except.ok.inj ((words_answering output all).eq_ok answering)
    dsimp only at failed
    split at failed
    next none =>
      rcases bind_eq_error.1 failed with failed | ⟨_, -, failed⟩
      · exact absurd search (unconcerned_requireWritable f failed)
      refine ⟨uses, all, laid, .inr ⟨congrArg Fault.cause (Except.error.inj failed).symm, ?_⟩⟩
      simpa using none
    next =>
      -- nothing more can fail for lack of an answer
      rcases bind_eq_error.1 failed with failed | ⟨t, -, failed⟩
      · exact absurd search (unconcerned_dropDead f failed)
      rcases bind_eq_error.1 failed with failed | ⟨_, -, failed⟩
      · exact absurd search (unconcerned_requireWritable f failed)
      · cases failed

end Supergraph

end OperatorNet
