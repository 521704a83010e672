import Mathlib.Logic.Relation
import OperatorNet.Proofs.Search.Decoding
import OperatorNet.Proofs.Search.Repair

/-!
# Decoding without success

When decoding gives up for lack of budget, swaps have led from the draft that it began with to the
best effort, each to a lower overage, and no single swap goes on to a draft within the budget
(`decode_infeasible`). This is all that is known: more swaps may well lead to one
(`decode_infeasible_reachable`), because the descent follows one way only.
-/

namespace OperatorNet.Decoder

open Scalar

variable {α : Type} [Scalar α] [Exact α] {d : Decoder α} {st : Decoding α}

/-- No swap of a draft that exceeds the budget meets the budget if none lowers the overage. -/
lemma Optimal.exceeds {x y : Draft α} {T : α} (optimal : d.Optimal st x)
    (violated : d.budget.satisfiedBy x.prices = false) (heat : st.heat = .ok T)
    (swap : st.graph.Swap T x.selection y.selection) (composes : d.Composes st.graph y) :
    d.budget.satisfiedBy y.prices = false := by
  rw [Bool.eq_false_iff]
  intro satisfied
  exact optimal T y heat swap composes (Budget.lower_overage satisfied violated)

/-- Swaps lead from the draft that decoding begins with to a best effort beyond the budget. -/
def GivesUp (d : Decoder α) (st : Decoding α) (limits : Table String α) (best : Draft α) : Prop :=
  ∃ first drafts, d.BeginsWith st first ∧ d.Trail st first (drafts ++ [best]) ∧
    limits = d.budget.limits ∧ d.budget.satisfiedBy best.prices = false ∧ d.Optimal st best

/-- Nothing but the loop of swaps gives up for lack of budget. -/
lemma decode_ends_givesUp (total : ∀ g, ∃ v, d.scorer g = .ok v)
    {temperature : Option (Number α)} :
    Ends (d.decode temperature) st (fun _ _ => True) fun e _ =>
      ∀ limits best, e = .infeasible limits best →
        d.GivesUp { st with temperature := temperature.getD st.temperature } limits best := by
  have faults : ∀ {st₁ : Decoding α} (e : DecodeFault α) (_ : Decoding α), (∃ f, e = .fault f) →
      ∀ limits best, e = .infeasible limits best → d.GivesUp st₁ limits best := by
    rintro st₁ e st' ⟨f, rfl⟩ limits best same
    cases same
  simp only [decode, ends_bind]
  refine prepare_ends.mono (fun first st₁ prepared => ?_) faults
  obtain ⟨rfl, begins⟩ := prepared
  obtain ⟨T, ranked, heat, list, found⟩ := begins
  obtain ⟨-, -, drafts, last, trail, atEnd⟩ :=
    repair_endsAt total (fun _ _ _ _ _ _ => trivial) trivial (firstDraft_eq_ok found).2
  refine ends_iff.2 ⟨fun repaired st₂ _ => ?_, fun e st₂ run limits best same => ?_⟩
  · -- what follows the loop ends with a fault at worst
    split
    · rw [ends_bind]
      exact insertFixed_ends_fault.mono
        (fun _ _ _ => conclude_ends.mono (fun _ _ _ => trivial) faults) faults
    · rw [ends_bind, ends_pure]
      exact conclude_ends.mono (fun _ _ _ => trivial) faults
  · rw [run, same] at atEnd
    obtain ⟨same, rfl, violated, optimal⟩ := atEnd
    exact ⟨first, drafts, ⟨T, ranked, heat, list, found⟩, trail, same, violated, optimal⟩

/-- When decoding gives up, the best effort is a draft that exceeds the budget, to which swaps that
lower the overage have led from the draft that was decoded first, and no single swap of it composes
and meets the budget, or lowers the overage. -/
theorem decode_infeasible (total : ∀ g, ∃ v, d.scorer g = .ok v)
    {temperature : Option (Number α)} {limits : Table String α} {best : Draft α} {st' : Decoding α}
    (ended : (d.decode temperature).run st = (.error (.infeasible limits best), st')) :
    let st₁ := { st with temperature := temperature.getD st.temperature }
    ∃ T first drafts, st₁.heat = .ok T ∧ d.BeginsWith st₁ first ∧
      d.Trail st₁ first (drafts ++ [best]) ∧ limits = d.budget.limits ∧
      d.budget.satisfiedBy best.prices = false ∧
      ∀ y, st.graph.Swap T best.selection y.selection → d.Composes st.graph y →
        d.budget.satisfiedBy y.prices = false ∧ ¬ d.Lower y best := by
  intro st₁
  obtain ⟨first, drafts, begins, trail, same, violated, optimal⟩ :=
    (decode_ends_givesUp total).of_error ended limits best rfl
  have ⟨T, _, heat, _⟩ := begins
  refine ⟨T, first, drafts, heat, begins, trail, same, violated, fun y swap composes => ?_⟩
  exact ⟨optimal.exceeds violated heat swap composes, optimal T y heat swap composes⟩

/-! ### An exit that should not have been taken -/

section

open Sample

/-- Whether decoding gave up for lack of budget. -/
def gaveUp {β : Type} : Except (DecodeFault α) β → Bool
  | .error (.infeasible _ _) => true
  | _ => false

omit [Scalar α] [Exact α] in
/-- A run that gives up ends with the limits and the best draft. -/
lemma exists_of_gaveUp {β : Type} {run : Except (DecodeFault α) β × Decoding α}
    (gives : gaveUp run.1 = true) :
    ∃ limits best st', run = (.error (.infeasible limits best), st') := by
  obtain ⟨result, st'⟩ := run
  match result with
  | .error (.infeasible limits best) => exact ⟨limits, best, st', rfl⟩
  | .error (.fault _) => cases gives
  | .ok _ => cases gives

/-- Decoding begins with the operator that costs least. -/
lemma beginsWith_alone :
    (limited 1 (by decide)).BeginsWith ((limited 1 (by decide)).start graph)
      (draftOf (limited 1 (by decide)) (alone 0 "b")) := by
  have ranked : graph.rankedSelections (1 : ℚ) = .ok [alone 0 "b", alone 1 "a"] := by
    with_unfolding_all rfl
  exact ⟨1, _, rfl, ranked, firstDraft_cons
    (composes_draftOf (by decide +kernel) (by decide +kernel)) none [alone 1 "a"]⟩

/-- Its work can be replaced by less. -/
lemma swap_alone : graph.Swap (1 : ℚ) (alone 0 "b") (alone 0 "c") := by
  have choice : ((.id 0, .text "b") : Ref × Data Float) ∈ (alone 0 "b").ops :=
    List.mem_singleton.2 rfl
  have there : graph.positionAt (.id 0) = .ok wide := by rfl
  have pool : feature "c" 4 3 1 ∈ wide.pool := List.mem_cons_of_mem _ (List.mem_singleton.2 rfl)
  exact .operator choice there pool (by decide)

/-- With room for the cheapest work only, decoding gives up at the other exit. -/
theorem decode_infeasible_alone :
    let d := limited 1 (by decide)
    let st := d.start graph
    ∃ limits best st', (d.decode none).run st = (.error (.infeasible limits best), st') ∧
      ∃ T first drafts, st.heat = .ok T ∧ d.BeginsWith st first ∧
        d.Trail st first (drafts ++ [best]) ∧ limits = d.budget.limits ∧
        d.budget.satisfiedBy best.prices = false ∧
        ∀ y, st.graph.Swap T best.selection y.selection → d.Composes st.graph y →
          d.budget.satisfiedBy y.prices = false ∧ ¬ d.Lower y best := by
  intro d st
  have gives : gaveUp ((d.decode none).run st).1 = true := by decide +kernel
  obtain ⟨limits, best, st', ended⟩ := exists_of_gaveUp gives
  exact ⟨limits, best, st', ended, decode_infeasible (fun g => ⟨0, rfl⟩) ended⟩

/-- Decoding gives up although swaps lead from the draft that it begins with to one within the
budget. -/
theorem decode_infeasible_reachable :
    ¬ ∀ (d : Decoder ℚ) (st : Decoding ℚ), (∀ g, ∃ v, d.scorer g = .ok v) →
      ∀ limits best st', (d.decode none).run st = (.error (.infeasible limits best), st') →
      ∀ T first y, st.heat = .ok T → d.BeginsWith st first →
      Relation.ReflTransGen (st.graph.Swap T) first.selection y.selection →
      d.Composes st.graph y → d.budget.satisfiedBy y.prices = false := by
  intro always
  let d := limited 1 (by decide)
  have gives : gaveUp ((d.decode none).run (d.start graph)).1 = true := by decide +kernel
  obtain ⟨limits, best, st', ended⟩ := exists_of_gaveUp gives
  have composes : d.Composes graph (draftOf d (alone 0 "c")) :=
    composes_draftOf (by decide +kernel) (by decide +kernel)
  have satisfied : d.budget.satisfiedBy (draftOf d (alone 0 "c")).prices = true := by
    decide +kernel
  have violated := always d (d.start graph) (fun g => ⟨0, rfl⟩) limits best st' ended 1
    (draftOf d (alone 0 "b")) (draftOf d (alone 0 "c")) rfl beginsWith_alone (.single swap_alone)
    composes
  rw [satisfied] at violated
  cases violated

end

end OperatorNet.Decoder
