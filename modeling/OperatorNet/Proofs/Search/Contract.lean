import OperatorNet.Proofs.Network.Edits
import OperatorNet.Proofs.Search.Decoding
import OperatorNet.Proofs.Search.Repair
import OperatorNet.Proofs.Search.Routes

/-!
# What decoding returns

Selection, network, prices and score of a decoded network belong together (`Decoder.decode_sound`):
the selection goes along the ancestors of an exit and chooses candidates, the network is the one
made of it, the prices are those of the network and within the budget, and the score is that of the
network and no worse than the one that repairing came to.
-/

namespace OperatorNet.Decoder

open Scalar

variable {α : Type} [Scalar α] {d : Decoder α} {s : Supergraph α} {st st' : Decoding α}
  {x : Draft α}

/-- The network of a selection has an output of the type that was asked for. -/
lemma exists_output_of_materialize {selection : Selection} {g : Network α}
    (built : d.materialize s selection = .ok g) :
    ∃ out, g.output = .ok out ∧ (g.bindings.unify? s.outputType out.template).isSome := by
  simp only [materialize, bind_eq_ok] at built
  obtain ⟨-, -, -, -, g', -, out, output, said, fits, built⟩ := built
  cases said with
  | error => cases built
  | ok b =>
    obtain rfl := Except.ok.inj built
    have unified := Bindings.unify?_eq_some_iff.2 (worded_eq_ok.1 fits)
    exact ⟨out, output, Option.isSome_of_eq_some unified⟩

omit [Scalar α] in
/-- Proper selections are distinguished by their keys. -/
lemma distinguished_proper : Distinguished s.Proper :=
  fun _ _ hy hz same => hy.eq_of_key_eq hz same

/-- Remarks on a network do not change its prices. -/
lemma aggregateAll_metadata (g : Network α) (metadata : Table String (Data α))
    (metrics : List String) (kinds : MetricKinds) :
    { g with metadata }.aggregateAll metrics kinds = g.aggregateAll metrics kinds := by
  rfl

/-- What holds of a decoded network, for a decoder that began with the given state. -/
structure Contract (d : Decoder α) (st : Decoding α) (r : Decoded α) : Prop where
  /-- The selection lists the ancestors of its exit, in ascending order. -/
  route : ∃ e ∈ st.graph.exits, r.draft.selection.exit = some (.id e) ∧
    ∃ ids : List Int, r.draft.selection.ops.map Prod.fst = ids.map .id ∧ ids.Pairwise (· < ·) ∧
      ∀ id, id ∈ ids ↔ Relation.ReflTransGen st.graph.Reads e id
  /-- It chooses a candidate for each of them. -/
  candidates : ∀ q ∈ r.draft.selection.ops, ∃ p op, st.graph.positionAt q.1 = .ok p ∧
    op ∈ p.candidates ∧ q.2 = .text op.name
  /-- The network is made of the selection and scored; then its score is noted down in it. -/
  network : ∃ g, d.materialize st.graph r.draft.selection = .ok g ∧ d.scorer g = .ok r.score ∧
    r.draft.network = { g with metadata := g.metadata.insert "val_score" (.real r.score) }
  output : ∃ out, r.draft.network.output = .ok out ∧
    (r.draft.network.bindings.unify? st.graph.outputType out.template).isSome
  prices : r.draft.network.aggregateAll d.budget.metrics d.settings.metricKinds =
    .ok r.draft.prices
  within : ∀ p ∈ d.budget.limits.entries,
    ∃ x, fetch p.1 r.draft.prices = some (.known x) ∧ x ≤ p.2
  /-- The score is no worse than that of the draft that repairing came to. -/
  noWorse : ∃ first repaired st' v, d.BeginsWith st first ∧
    (d.repair first).run st = (.ok (repaired, r.swaps), st') ∧
    d.scorer repaired.network = .ok v ∧ r.score ≤ v

variable [Exact α]

/-- What is concluded from a draft that holds. -/
lemma conclude_contract (orderly : st.graph.Orderly) (agrees : d.Agrees st.graph.Proper st)
    {first repaired : Draft α} {swaps insertions : Nat} {st₂ : Decoding α} {v score : α}
    (begins : d.BeginsWith st first) (run : (d.repair first).run st = (.ok (repaired, swaps), st₂))
    (value : d.scorer repaired.network = .ok v) (follows : d.Follows st.graph.Proper st st')
    (holds : d.Holds st.graph.Proper st v x score) :
    Ends (d.conclude x swaps insertions) st' (fun r _ => d.Contract st r) fun _ _ => True := by
  refine conclude_ends.mono (fun r _ ends => ?_) fun _ _ _ => trivial
  obtain ⟨draft, final, n, m⟩ := r
  dsimp only at ends
  obtain ⟨rfl, rfl, known⟩ := ends
  -- the score that is recorded was known before, or it is asked for now
  have scored : d.scorer x.network = .ok final := by
    rcases known with before | now
    · exact follows.scorer_eq_ok agrees distinguished_proper holds.composes holds.sorted before
    · exact now
  obtain rfl := Except.ok.inj (scored.symm.trans holds.value)
  obtain ⟨out, output, unifies⟩ := exists_output_of_materialize holds.composes.network
  obtain ⟨e, exit, ids, listed, target, refs⟩ := holds.sorted.places
  obtain ⟨ascending, ancestors⟩ := Supergraph.ancestors_eq_ok orderly.nodup listed
  constructor
  case route => exact ⟨e, exit, target, ids, refs, ascending, ancestors⟩
  case candidates => exact holds.sorted.offered
  case network => exact ⟨x.network, holds.composes.network, scored, rfl⟩
  case output => exact ⟨out, output, unifies⟩
  case prices => exact (aggregateAll_metadata ..).trans holds.composes.prices
  case within =>
    intro p hp
    obtain ⟨price, known, below⟩ := Budget.satisfiedBy_iff.1 holds.within p hp
    refine ⟨price, ?_, Exact.le_iff_not_lt.2 below⟩
    cases found : fetch p.1 x.prices with
    | none =>
      rw [found] at known
      cases known
    | some price' =>
      rw [found] at known
      exact congrArg some known
  case noWorse =>
    exact ⟨first, repaired, st₂, v, begins, run, value, Exact.le_iff_not_lt.2 holds.noWorse⟩

/-- What decoding comes to from the draft that it begins with. -/
lemma decode_contract (total : ∀ g, ∃ v, d.scorer g = .ok v) (orderly : st.graph.Orderly)
    (agrees : d.Agrees st.graph.Proper st) {first : Draft α} (begins : d.BeginsWith st first) :
    Ends (do
        let (draft, swaps) ← d.repair first
        let (draft, insertions) ←
          if d.settings.insertFixed then d.insertFixed draft else pure (draft, 0)
        d.conclude draft swaps insertions)
      st (fun r _ => d.Contract st r) fun _ _ => True := by
  have ⟨T, ranked, heat, list, found⟩ := begins
  obtain ⟨mem, composes⟩ := firstDraft_eq_ok found
  have closed : Closed st.graph.Proper st := fun T y z _ swap sorted =>
    sorted.swap orderly.settled swap
  have proper := Supergraph.proper_of_mem_ranked orderly.settled list mem
  obtain ⟨-, follows, drafts, last, trail, atEnd⟩ := repair_endsAt total closed proper composes
  rw [ends_bind]
  refine ends_iff.2 ⟨fun repaired st₂ run => ?_, fun _ _ _ => trivial⟩
  rw [run] at follows atEnd
  obtain ⟨rfl, within⟩ := atEnd
  have sorted := trail.sorted closed proper last (by simp)
  have composes := trail.composes last (by simp)
  dsimp only
  split
  next =>
    rw [ends_bind]
    refine (insertFixed_ends total agrees distinguished_proper (fun r p y op there mem sorted =>
      sorted.replace there (List.mem_filter.1 mem).1) follows composes sorted within).mono
      (fun inserted st₃ ends => ?_) fun _ _ _ => trivial
    obtain ⟨follows₃, start, score, value, holds⟩ := ends
    exact conclude_contract orderly agrees begins run value follows₃ holds
  next =>
    -- nothing is inserted, so the score is the one that repairing came to
    obtain ⟨v, value⟩ := total last.network
    rw [ends_bind, ends_pure]
    exact conclude_contract orderly agrees begins run value follows
      ⟨composes, sorted, within, value, Exact.lt_irrefl v⟩

/-- What decoding returns keeps to the contract, for every supergraph that building, relaxing and
pruning lead to, every total scorer, all known scores that agree with it, every budget and all
settings. -/
theorem decode_sound (total : ∀ g, ∃ v, d.scorer g = .ok v) (reached : st.graph.Reached)
    (agrees : d.Agrees st.graph.Proper st) {temperature : Option (Number α)} {r : Decoded α}
    (ended : (d.decode temperature).run st = (.ok r, st')) :
    d.Contract { st with temperature := temperature.getD st.temperature } r := by
  have ends : Ends (d.decode temperature) st
      (fun r _ => d.Contract { st with temperature := temperature.getD st.temperature } r)
      fun _ _ => True := by
    rw [decode, ends_bind]
    refine prepare_ends.mono (fun first st₁ prepared => ?_) fun _ _ _ => trivial
    obtain ⟨rfl, begins⟩ := prepared
    refine decode_contract total ?_ ?_ begins
    · exact reached.orderly
    · exact agrees
  exact ends.of_ok ended

open Sample in
/-- With little room for work, decoding leaves the operator that costs least by one swap. -/
theorem decode_sound_alone :
    let d := limited 2 (by decide)
    let st := d.start graph
    (∀ g, ∃ v, d.scorer g = .ok v) ∧ st.graph.Reached ∧ d.Agrees st.graph.Proper st ∧
      ∃ r st', (d.decode none).run st = (.ok r, st') ∧ r.swaps = 1 ∧ d.Contract st r := by
  intro d st
  have total : ∀ g, ∃ v, d.scorer g = .ok v := fun g => ⟨0, rfl⟩
  have reached : st.graph.Reached := .build build_graph
  have decodes : ((d.decode none).run st).1.toOption.map (·.swaps) = some 1 := by decide +kernel
  have agrees : d.Agrees st.graph.Proper st := agrees_of_fresh rfl
  refine ⟨total, reached, agrees, ?_⟩
  rcases run : (d.decode none).run st with ⟨_ | r, st'⟩
  · rw [run] at decodes
    cases decodes
  · rw [run] at decodes
    exact ⟨r, st', rfl, Option.some.inj decodes, decode_sound total reached agrees run⟩

end OperatorNet.Decoder
