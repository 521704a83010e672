import Mathlib.Data.List.DropRight
import OperatorNet.Proofs.Network.Edits

/-!
# Type soundness

A network is well typed (`WellTyped`) when every use of an operator reads from as many earlier nodes
as the operator takes, some renaming of the symbols of the operator makes each of its slots resolve
to the type of what is wired in, the known types of all nodes are up to date, and the bindings can
be satisfied.

Whatever calls are made on a network, slots resolve to what the nodes that are wired in resolve to
(`Assembled.fitted`). A call that adds a use leaves all known types up to date, unless a number is
too long to be written; then the use stays and known types lag behind. So networks are well typed as
long as no number was too long after the last use was added (`wellTyped_performAll`).
-/

namespace OperatorNet.Network

variable {α : Type}

/-- Every use of an operator fits what it reads from. -/
structure Fitted (g : Network α) : Prop where
  ascending : g.ids.Pairwise (· < ·)
  arity : ∀ n ∈ g.nodes, ∀ op, n.operator = some op → n.inputs.length = op.arity
  /-- One renaming serves the output and all slots of a use. -/
  uses : ∀ n ∈ g.nodes, ∀ op, n.operator = some op → ∃ ρ : String → String,
    Function.Injective ρ ∧ n.template = op.outType.rename ρ ∧
      List.Forall₂ (fun t r => ∃ m ∈ g.nodes, r = .id m.id ∧ m.id < n.id ∧
        g.bindings.resolveType (t.rename ρ) = g.bindings.resolveType m.template) op.inTypes n.inputs
  satisfiable : ∃ σ, g.bindings.Satisfies σ

/-- Every use of an operator fits what it reads from, and all known types are up to date. -/
structure WellTyped (g : Network α) : Prop where
  ascending : g.ids.Pairwise (· < ·)
  arity : ∀ n ∈ g.nodes, ∀ op, n.operator = some op → n.inputs.length = op.arity
  /-- One renaming serves the output and all slots of a use. -/
  uses : ∀ n ∈ g.nodes, ∀ op, n.operator = some op → ∃ ρ : String → String,
    Function.Injective ρ ∧ n.template = op.outType.rename ρ ∧
      List.Forall₂ (fun t r => ∃ m ∈ g.nodes, r = .id m.id ∧ m.id < n.id ∧
        g.bindings.resolveType (t.rename ρ) = m.resolved) op.inTypes n.inputs
  resolved : ∀ n ∈ g.nodes, n.resolved = g.bindings.resolveType n.template
  satisfiable : ∃ σ, g.bindings.Satisfies σ

variable {g : Network α} {κ : Int → Nat}

/-- What is wired into a slot agrees with it wherever the bindings are satisfied. -/
lemma Assembled.agree (built : Assembled g κ) {n : Node α} (mem : n ∈ g.nodes) {op : Operator α}
    (uses : n.operator = some op) {t : PortType} {r : Ref} (slot : (t, r) ∈ op.inTypes.zip n.inputs)
    {σ : String → Nat} (satisfied : g.bindings.Satisfies σ) :
    PortType.Agree σ (t.freshen (counted κ n.id)) (g.typeAt (counted κ) r) :=
  (built.satisfies_iff σ).1 satisfied _
    (List.mem_flatMap.2 ⟨n, mem, mem_slotsOf_use (counted κ) uses slot⟩)

/-- The slots of a use resolve to what the earlier nodes that are wired in resolve to. -/
lemma Assembled.reads (built : Assembled g κ) {n : Node α} (mem : n ∈ g.nodes) {op : Operator α}
    (uses : n.operator = some op) :
    List.Forall₂ (fun t r => ∃ m ∈ g.nodes, r = .id m.id ∧ m.id < n.id ∧
      g.bindings.resolveType (t.freshen (counted κ n.id)) = g.bindings.resolveType m.template)
      op.inTypes n.inputs := by
  have arity : n.inputs.length = op.arity := by
    rw [(built.wired.nodes n mem).arity, uses]
    rfl
  refine List.forall₂_iff_zip.2 ⟨arity.symm, fun {t r} slot => ?_⟩
  obtain ⟨m, hm, rfl, before⟩ := built.wired.exists_source mem (List.of_mem_zip slot).2
  refine ⟨m, hm, rfl, before, built.wellFormed.resolveType_eq_iff.2 fun σ satisfied => ?_⟩
  rw [← built.typeAt_id hm]
  exact built.agree mem uses slot satisfied

/-- In an assembled network all slots fit. -/
lemma Assembled.fitted (built : Assembled g κ) : g.Fitted := by
  refine ⟨built.wired.ascending, ?_, ?_, built.wellFormed.satisfiable⟩
  · intro n hn op uses
    exact (built.reads hn uses).length_eq.symm
  · intro n hn op uses
    refine ⟨freshName (counted κ n.id), freshName_injective _, ?_, built.reads hn uses⟩
    rw [built.template n hn, Node.typeUnder, uses]
    rfl

/-- Where all known types are up to date, they are what slots resolve to. -/
lemma UpToDate.reads (current : g.UpToDate) {f : PortType → PortType} {i : Int}
    {slots : List PortType} {inputs : List Ref}
    (reads : List.Forall₂ (fun t r => ∃ m ∈ g.nodes, r = .id m.id ∧ m.id < i ∧
      g.bindings.resolveType (f t) = g.bindings.resolveType m.template) slots inputs) :
    List.Forall₂ (fun t r => ∃ m ∈ g.nodes, r = .id m.id ∧ m.id < i ∧
      g.bindings.resolveType (f t) = m.resolved) slots inputs := by
  refine reads.imp fun t r => ?_
  rintro ⟨m, hm, same, before, resolves⟩
  exact ⟨m, hm, same, before, resolves.trans (current m hm).symm⟩

/-- Where all known types are up to date, what fits is well typed. -/
lemma Fitted.wellTyped (fitted : g.Fitted) (current : g.UpToDate) : g.WellTyped := by
  refine ⟨fitted.ascending, fitted.arity, fun n hn op uses => ?_, current, fitted.satisfiable⟩
  obtain ⟨ρ, injective, template, reads⟩ := fitted.uses n hn op uses
  exact ⟨ρ, injective, template, current.reads reads⟩

/-! ## Known types that are up to date -/

variable [Scalar α] {c : Catalog α}

/-- Whether a call has added a use of an operator. -/
def Outcome.isUse : Outcome α → Bool
  | (.node _ _ _, .ok _) => true
  | _ => false

/-- What the calls have given that were made after the last use was added. -/
def sinceUse (outcomes : List (Outcome α)) : List (Outcome α) :=
  outcomes.rtakeWhile fun o => !o.isUse

/-- A further call is made on the network that is left by the calls before it. -/
lemma performAll_append (g : Network α) (calls : List (Call α)) (step : Call α) :
    performAll c g (calls ++ [step]) =
      ((performAll c g calls).1 ++ [(step, ((step.perform c).run (performAll c g calls).2).1)],
        ((step.perform c).run (performAll c g calls).2).2) := by
  induction calls generalizing g with
  | nil => rfl
  | cons first rest ih =>
    rw [List.cons_append, performAll_cons rfl, performAll_cons rfl, ih]
    rfl

/-- All known types are up to date, and all of them can be written. -/
structure Current (g : Network α) : Prop where
  upToDate : g.UpToDate
  writable : g.Writable

/-- All known types can be written after a call that adds a use, and other calls keep it so. -/
lemma Call.perform_writes (step : Call α) :
    Ends (step.perform c) g
      (fun id g' => (Outcome.isUse (step, .ok id) = false → g.Writable) → g'.ids.Nodup →
        g'.Writable)
      fun _ _ => True := by
  cases step with
  | input name type =>
    refine ((Edit.addInput_ends name type).and (Edit.addInput_writes name type)).mono ?_
      fun _ _ _ => trivial
    rintro id g' ⟨added, can⟩ before -
    obtain ⟨b, rfl, rfl, rfl⟩ := addInput_eq_ok added
    exact List.forall_mem_append.2 ⟨before rfl, fun n last => List.mem_singleton.1 last ▸ can⟩
  | node op sources params =>
    rw [Call.perform, ends_bind, Edit.ends_lift]
    cases op.lookup c with
    | error f => trivial
    | ok op => exact Edit.writable_addNode.mono (fun _ _ can _ => can) fun _ _ _ => trivial
  | output id =>
    refine (Edit.setOutput_ends id).mono (fun _ g' set before _ => ?_) fun _ _ _ => trivial
    obtain ⟨-, rfl⟩ := setOutput_eq_ok set
    exact before rfl

/-- A call leaves all known types up to date if it adds a use, or if they were so and no number is
too long. -/
lemma current_perform (built : Assembled g κ) (reachable : c.Reachable) (step : Call α)
    (current : Outcome.isUse (step, ((step.perform c).run g).1) = false →
      ¬ Outcome.tooLong (step, ((step.perform c).run g).1) ∧ g.Current) :
    ((step.perform c).run g).2.Current := by
  cases run : (step.perform c).run g with
  | mk result g' =>
    rw [run] at current
    cases result with
    | ok id =>
      obtain ⟨g₁, done, same⟩ := step.perform_ends.of_ok run
      obtain ⟨κ₁, built₁, -⟩ := built.attempt reachable done
      obtain rfl := same built₁.wired.nodup
      refine ⟨?_, step.perform_writes.of_ok run (fun other => (current other).2.writable)
        built₁.wired.nodup⟩
      cases does_of_attempt done with
      | input added => exact (current rfl).2.upToDate.addInput added
      | node _ added => exact upToDate_addNode added
      | output set => exact (current rfl).2.upToDate.setOutput set
    | error f =>
      obtain ⟨short, current⟩ := current (by cases step <;> rfl)
      rcases step.perform_ends.of_error run with ⟨_, -, long⟩ | ⟨rfl, -⟩
      · obtain rfl := long.unwritable
        exact absurd rfl short
      · exact current

/-- All known types are up to date unless a number was too long after the last use was added. -/
lemma current_performAll (reachable : c.Reachable) (id : String) (calls : List (Call α))
    (short : ∀ o ∈ sinceUse (performAll c (empty id) calls).1, ¬ o.tooLong) :
    (performAll c (empty id) calls).2.Current := by
  induction calls using List.reverseRecOn with
  | nil => exact ⟨fun n hn => absurd hn List.not_mem_nil, fun n hn => absurd hn List.not_mem_nil⟩
  | append_singleton calls step ih =>
    obtain ⟨κ, built⟩ := assembled_performAll reachable id calls
    rw [performAll_append] at short ⊢
    refine current_perform built reachable step fun unused => ?_
    rw [sinceUse, List.rtakeWhile_concat_pos _ _ _ (by rw [unused]; rfl)] at short
    obtain ⟨earlier, last⟩ := List.forall_mem_append.1 short
    exact ⟨last _ (List.mem_singleton_self _), ih earlier⟩

/-- Whatever calls are made, successful or not, and with whatever adapters are put in between, every
use fits what it reads from, and the network is well typed unless a number was too long after the
last use was added. -/
theorem wellTyped_performAll (reachable : c.Reachable) (id : String) (calls : List (Call α)) :
    (performAll c (empty id) calls).2.Fitted ∧
      ((∀ o ∈ sinceUse (performAll c (empty id) calls).1, ¬ o.tooLong) →
        (performAll c (empty id) calls).2.WellTyped) := by
  obtain ⟨κ, built⟩ := assembled_performAll reachable id calls
  exact ⟨built.fitted, fun short =>
    built.fitted.wellTyped (current_performAll reachable id calls short).upToDate⟩

namespace Sample

/-- Two inputs share an axis, to which the first one adds a number, and the second one is
shortened. -/
def shortening (n : Nat) : List (Call Float) :=
  [.input "x" (typeOf "feature" [.symbol "Z" + .ofNat n]), .input "y" (typeOf "path" [.symbol "Z"]),
    .node (.given shorten) [1] .empty]

end Sample

open Sample

/-- An adapter halves the axis of the second input, and an axis that is fixed later fixes it. -/
theorem wellTyped_mixing :
    halving.Reachable ∧
      (performAll halving (empty "g") (mixing (.symbol "X") (twice "X"))).2.Fitted ∧
      (performAll halving (empty "g") (mixing (.symbol "X") (twice "X"))).2.WellTyped ∧
      (performAll halving (empty "g") (mixing (.symbol "X") (twice "X"))).2.nodes.map (·.resolved) =
        [typeOf "path" [.ofNat 3], typeOf "path" [.ofNat 6], typeOf "spectrum" [.ofNat 3],
          typeOf "feature" [.ofNat 3]] := by
  obtain ⟨fitted, wellTyped⟩ :=
    wellTyped_performAll reachable_halving "g" (mixing (.symbol "X") (twice "X"))
  exact ⟨reachable_halving, fitted, wellTyped (by decide +kernel), by decide +kernel⟩

/-- One more than the longest number is too long to be written, and then the use stays, but the
known type of what it reads from is not brought up to date. -/
theorem not_wellTyped_shortening :
    bare.Reachable ∧
      ¬ (performAll bare (empty "g") (shortening (Text.unwritable - 1))).2.WellTyped := by
  refine ⟨.ofKinds _ _, fun wellTyped => ?_⟩
  have stale :
      ((performAll bare (empty "g") (shortening (Text.unwritable - 1))).2.nodes.all fun n =>
      decide (n.resolved = (performAll bare (empty "g")
        (shortening (Text.unwritable - 1))).2.bindings.resolveType n.template)) = false := by
    decide +kernel
  rw [← Bool.not_eq_true, List.all_eq_true] at stale
  exact stale fun n hn => decide_eq_true (wellTyped.resolved n hn)

end OperatorNet.Network
