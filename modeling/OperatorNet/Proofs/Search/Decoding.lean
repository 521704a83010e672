import OperatorNet.Proofs.Runs
import OperatorNet.Proofs.Scalar.Arithmetic
import OperatorNet.Search.Decoder

/-!
# The parts of decoding

A draft composes when its network and its prices are made of its selection (`Decoder.Composes`); a
selection has one draft at most. While a decoder works, supergraph and temperature stay as they are,
and every score that is new belongs to a draft that composes (`Decoder.Follows`).

What each part of decoding ends with: the draft to begin with is that of a ranked selection
(`prepare_ends`), trying fixed operators keeps a draft within the budget and does not make its score
worse (`insertFixed_ends`), and what is decoded at the end is the draft at hand with its score
(`conclude_ends`). None of these parts gives up for lack of budget.
-/

namespace OperatorNet

variable {α : Type} [Scalar α]

namespace Decoder

/-- A draft is made of its selection. -/
structure Composes (d : Decoder α) (s : Supergraph α) (x : Draft α) : Prop where
  network : d.materialize s x.selection = .ok x.network
  prices : d.pricesOf x.network = .ok x.prices

/-- Decoding goes on with the same supergraph at the same temperature; the scores that have come to
be known are those of drafts that compose, with selections of some sort. -/
structure Follows (d : Decoder α) (sort : Selection → Prop) (st st' : Decoding α) : Prop where
  graph : st'.graph = st.graph
  temperature : st'.temperature = st.temperature
  scores : ∀ q ∈ st'.scores, q ∈ st.scores ∨
    ∃ x, sort x.selection ∧ d.Composes st.graph x ∧ x.selection.key = q.1 ∧
      d.scorer x.network = .ok q.2

variable {d : Decoder α} {s : Supergraph α} {st st' : Decoding α} {x y : Draft α}
  {sort : Selection → Prop}

/-- A decoding follows itself. -/
lemma Follows.refl (st : Decoding α) : d.Follows sort st st :=
  ⟨rfl, rfl, fun _ mem => .inl mem⟩

/-- A decoding that follows another one has its temperature. -/
lemma Follows.heat (follows : d.Follows sort st st') : st'.heat = st.heat :=
  congrArg Number.toReal follows.temperature

omit [Scalar α] in
/-- A result that is lifted ends as it is, in the decoding at hand. -/
lemma ends_lift {β : Type} {x : Except Fault β} {st : Decoding α}
    {good : β → Decoding α → Prop} {bad : DecodeFault α → Decoding α → Prop} :
    Ends (lift x) st good bad ↔
      match x with
      | .ok b => good b st
      | .error f => bad (.fault f) st := by
  cases x <;> rfl

/-- A draft is made of a selection when it is composed of it. -/
lemma draft?_eq_some {selection : Selection} :
    d.draft? s selection = .ok (some x) ↔ x.selection = selection ∧ d.Composes s x := by
  rw [draft?]
  split
  next network built =>
    simp only [bind_eq_ok, pure_eq_ok]
    constructor
    · rintro ⟨prices, priced, same⟩
      cases same
      exact ⟨rfl, built, priced⟩
    · rintro ⟨rfl, composes⟩
      obtain rfl := Except.ok.inj (built.symm.trans composes.network)
      exact ⟨x.prices, composes.prices, rfl⟩
  next f failed =>
    constructor
    · intro eq
      split at eq <;> cases eq
    · rintro ⟨rfl, composes⟩
      rw [composes.network] at failed
      cases failed

/-- A selection has one draft. -/
lemma Composes.unique (hx : d.Composes s x) (hy : d.Composes s y)
    (same : x.selection = y.selection) : x = y := by
  have one := draft?_eq_some.2 ⟨same, hx⟩
  have other := draft?_eq_some.2 ⟨rfl, hy⟩
  exact Option.some.inj (Except.ok.inj (one.symm.trans other))

/-- A draft that composes is scored, and its score is known afterwards. -/
lemma score_ends {bad : DecodeFault α → Decoding α → Prop}
    (total : ∀ g, ∃ v, d.scorer g = .ok v) (composes : d.Composes st.graph x)
    (sorted : sort x.selection) (follows : d.Follows sort st st') :
    Ends (d.score x.selection x.network) st'
      (fun v st' => d.Follows sort st st' ∧ (x.selection.key, v) ∈ st'.scores) bad := by
  obtain ⟨v, value⟩ := total x.network
  rw [score, ends_bind, ends_get]
  split
  next v known => exact ⟨follows, mem_of_fetch known⟩
  next =>
    simp only [ends_bind, ends_set, ends_lift, value, ends_modify]
    refine ends_pure.2 ⟨⟨follows.graph, follows.temperature, fun q mem => ?_⟩, by simp⟩
    rcases List.mem_append.1 mem with known | new
    · exact follows.scores q known
    · rw [List.mem_singleton.1 new]
      exact .inr ⟨x, sorted, composes, rfl, value⟩

end Decoder

end OperatorNet

/-! ### What the parts end with -/

namespace OperatorNet.Decoder

open Scalar

variable {α : Type} [Scalar α] {d : Decoder α} {s : Supergraph α} {st st' : Decoding α}
  {x : Draft α} {sort : Selection → Prop}

/-- The draft of the first selection that composes is made of one of the selections. -/
lemma firstDraft_eq_ok {fault : Option Fault} {selections : List Selection}
    (first : d.firstDraft s fault selections = .ok x) :
    x.selection ∈ selections ∧ d.Composes s x := by
  induction selections generalizing fault with
  | nil =>
    unfold firstDraft at first
    cases fault with
    | none => exact absurd first fail_ne_ok
    | some f => cases first
  | cons selection rest ih =>
    unfold firstDraft at first
    split at first
    next network built =>
      simp only [bind_eq_ok, pure_eq_ok] at first
      obtain ⟨prices, priced, rfl⟩ := first
      exact ⟨List.mem_cons_self .., built, priced⟩
    next f failed =>
      split at first
      · obtain ⟨mem, composes⟩ := ih first
        exact ⟨List.mem_cons_of_mem _ mem, composes⟩
      · cases first

/-- The first selection that a draft is composed of is taken. -/
lemma firstDraft_cons (composes : d.Composes s x) (fault : Option Fault) (rest : List Selection) :
    d.firstDraft s fault (x.selection :: rest) = .ok x := by
  unfold firstDraft
  simp only [composes.network, composes.prices]
  rfl

/-- A draft is the one that decoding begins with. -/
def BeginsWith (d : Decoder α) (st : Decoding α) (x : Draft α) : Prop :=
  ∃ T ranked, st.heat = .ok T ∧ st.graph.rankedSelections T = .ok ranked ∧
    d.firstDraft st.graph none ranked = .ok x

/-- The preparation sets the temperature and changes nothing else. -/
lemma prepare_ends {temperature : Option (Number α)} :
    Ends (d.prepare temperature) st
      (fun x st' => st' = { st with temperature := temperature.getD st.temperature } ∧
        d.BeginsWith st' x)
      fun e _ => ∃ f, e = .fault f := by
  simp only [prepare, ends_bind, ends_modify, ends_get, ends_lift]
  split
  next T heat =>
    split
    next ranked list =>
      split
      next x first => exact ⟨trivial, T, ranked, heat, list, first⟩
      next f _ => exact ⟨f, rfl⟩
    next f _ => exact ⟨f, rfl⟩
  next f _ => exact ⟨f, rfl⟩

/-- A score is known already, or it is the value of the scorer. -/
lemma score_ends_known {selection : Selection} {network : Network α} :
    Ends (d.score selection network) st
      (fun v _ => (selection.key, v) ∈ st.scores ∨ d.scorer network = .ok v)
      fun e _ => ∃ f, e = .fault f := by
  rw [score, ends_bind, ends_get]
  split
  next v known => exact .inl (mem_of_fetch known)
  next =>
    simp only [ends_bind, ends_set, ends_lift, ends_modify]
    split
    next v value => exact ends_pure.2 (.inr value)
    next f _ => exact ⟨f, rfl⟩

/-- The conclusion reports the swaps and the draft that it is given. -/
lemma conclude_ends {swaps insertions : Nat} :
    Ends (d.conclude x swaps insertions) st
      (fun r _ => r.swaps = swaps ∧ r.draft = { x with network := { x.network with
          metadata := x.network.metadata.insert "val_score" (.real r.score) } } ∧
        ((x.selection.key, r.score) ∈ st.scores ∨ d.scorer x.network = .ok r.score))
      fun e _ => ∃ f, e = .fault f := by
  simp only [conclude, ends_bind, ends_get, ends_lift, ends_modify]
  split
  next positions _ =>
    exact score_ends_known.mono (fun v _ value => ends_pure.2 ⟨rfl, rfl, value⟩) fun _ _ h => h
  next f _ => exact ⟨f, rfl⟩

/-- The insertion of fixed operators fails with a fault only. -/
lemma insertFixed_ends_fault :
    Ends (d.insertFixed x) st (fun _ _ => True) fun e _ => ∃ f, e = .fault f := by
  -- a trial fails in what it calls only, and the descent adds no error of its own
  have tries : ∀ (acc : Draft α × α × Nat) (st : Decoding α) (choice : Ref × String),
      Ends (d.tryFixed acc choice) st (fun _ _ => True) fun e _ => ∃ f, e = .fault f := by
    intro acc st choice
    simp only [tryFixed, ends_bind, ends_lift]
    split
    next op _ =>
      split
      · trivial
      · simp only [ends_bind, ends_get, ends_lift]
        split
        next draft? _ =>
          split
          · trivial
          · split
            · trivial
            · rw [ends_bind]
              exact score_ends_known.mono (fun _ _ _ => trivial) fun _ _ h => h
        next f _ => exact ⟨f, rfl⟩
    next f _ => exact ⟨f, rfl⟩
  simp only [insertFixed, ends_bind, ends_get]
  refine score_ends_known.mono (fun v st₁ _ => ?_) fun _ _ h => h
  refine (ends_foldlM (fun _ _ _ => True) trivial ?_).mono (fun _ _ _ => trivial) fun _ _ h => h
  intro acc st₂ q _ _ _
  rw [ends_bind, ends_lift]
  split
  next p _ =>
    exact ends_foldlM (fun _ _ _ => True) trivial fun acc st₃ op _ _ _ => tries acc st₃ _
  next f _ => exact ⟨f, rfl⟩

/-- Selections of a sort are told apart by their keys. -/
def Distinguished (sort : Selection → Prop) : Prop :=
  ∀ y z, sort y → sort z → y.key = z.key → y = z

/-- The scores that are known agree with the scorer: under the key of a selection of the sort stands
the score of what is composed of it. -/
def Agrees (d : Decoder α) (sort : Selection → Prop) (st : Decoding α) : Prop :=
  ∀ q ∈ st.scores, ∀ x, d.Composes st.graph x → sort x.selection → x.selection.key = q.1 →
    d.scorer x.network = .ok q.2

/-- A decoder that knows no score agrees with every scorer. -/
lemma agrees_of_fresh (fresh : st.scores = []) : d.Agrees sort st := by
  intro q mem
  rw [fresh] at mem
  cases mem

/-- All scores that come to be known are right if those known at first are. -/
lemma Follows.scorer_eq_ok {v : α} (agrees : d.Agrees sort st) (distinguished : Distinguished sort)
    (follows : d.Follows sort st st') (composes : d.Composes st.graph x) (sorted : sort x.selection)
    (known : (x.selection.key, v) ∈ st'.scores) : d.scorer x.network = .ok v := by
  rcases follows.scores _ known with before | ⟨y, sorted', composes', same, value⟩
  · exact agrees _ before x composes sorted rfl
  · obtain rfl := composes'.unique composes (distinguished _ _ sorted' sorted same)
    exact value

/-- A draft within the budget whose score is not more than a given one. -/
structure Holds (d : Decoder α) (sort : Selection → Prop) (st : Decoding α) (start : α)
    (x : Draft α) (score : α) : Prop where
  composes : d.Composes st.graph x
  sorted : sort x.selection
  within : d.budget.satisfiedBy x.prices = true
  value : d.scorer x.network = .ok score
  noWorse : ¬ start < score

variable [Exact α]

/-- One fixed operator is tried. -/
lemma tryFixed_ends (total : ∀ g, ∃ v, d.scorer g = .ok v) (agrees : d.Agrees sort st)
    (distinguished : Distinguished sort) {start score : α} {count : Nat} {choice : Ref × String}
    (follows : d.Follows sort st st') (holds : d.Holds sort st start x score)
    (next : sort (x.selection.replace choice.1 (.text choice.2))) :
    Ends (d.tryFixed (x, score, count) choice) st'
      (fun acc st' => d.Follows sort st st' ∧ d.Holds sort st start acc.1 acc.2.1)
      fun e _ => ∃ f, e = .fault f := by
  simp only [tryFixed, ends_bind, ends_lift]
  split
  next op got =>
    split
    · exact ⟨follows, holds⟩
    · simp only [ends_bind, ends_get, ends_lift, follows.graph]
      cases tries : d.draft? st.graph (x.selection.replace choice.1 (.text choice.2)) with
      | error f => exact ⟨f, rfl⟩
      | ok draft? =>
        cases draft? with
        | none => exact ⟨follows, holds⟩
        | some y =>
          obtain ⟨same, composes⟩ := draft?_eq_some.1 tries
          dsimp only
          split
          next => exact ⟨follows, holds⟩
          next satisfied =>
            rw [ends_bind]
            refine (score_ends total composes (same ▸ next) follows).mono
              (fun v st₁ scored => ?_) fun _ _ h => h
            have value := scored.1.scorer_eq_ok agrees distinguished composes (same ▸ next) scored.2
            rw [ends_pure]
            split
            next better =>
              -- the new score is below the old one, which is not above the first one
              refine ⟨scored.1, composes, same ▸ next, by simpa using satisfied, value, ?_⟩
              exact fun worse => holds.noWorse (Exact.lt_trans worse better)
            next => exact ⟨scored.1, holds⟩
  next f _ => exact ⟨f, rfl⟩

/-- Trying fixed operators keeps a draft within the budget, and its score gets no worse. -/
lemma insertFixed_ends (total : ∀ g, ∃ v, d.scorer g = .ok v) (agrees : d.Agrees sort st)
    (distinguished : Distinguished sort)
    (closed : ∀ r p y op, st.graph.positionAt r = .ok p → op ∈ p.fixed → sort y →
      sort (y.replace r (.text op.name)))
    (follows : d.Follows sort st st') (composes : d.Composes st.graph x) (sorted : sort x.selection)
    (within : d.budget.satisfiedBy x.prices = true) :
    Ends (d.insertFixed x) st'
      (fun r st' => d.Follows sort st st' ∧ ∃ start score, d.scorer x.network = .ok start ∧
        d.Holds sort st start r.1 score)
      fun e _ => ∃ f, e = .fault f := by
  simp only [insertFixed, ends_bind]
  refine (score_ends total composes sorted follows).mono (fun start st₁ scored => ?_)
    fun _ _ h => h
  have value := scored.1.scorer_eq_ok agrees distinguished composes sorted scored.2
  rw [ends_get, scored.1.graph]
  have holds : d.Holds sort st start x start :=
    ⟨composes, sorted, within, value, Exact.lt_irrefl start⟩
  -- the draft at hand holds after every position, and after every operator of a position
  refine (ends_foldlM (fun _ (acc : Draft α × α × Nat) st' => d.Follows sort st st' ∧
    d.Holds sort st start acc.1 acc.2.1) ⟨scored.1, holds⟩ ?_).mono ?_ fun _ _ h => h
  · rintro acc st₂ q - - ⟨follows₂, holds₂⟩
    rw [ends_bind, ends_lift]
    split
    next p there =>
      refine ends_foldlM (fun _ (acc : Draft α × α × Nat) st' => d.Follows sort st st' ∧
        d.Holds sort st start acc.1 acc.2.1) ⟨follows₂, holds₂⟩ ?_
      rintro acc st₃ op mem - ⟨follows₃, holds₃⟩
      exact tryFixed_ends total agrees distinguished follows₃ holds₃
        (closed q.1 p _ op there mem holds₃.sorted)
    next f _ => exact ⟨f, rfl⟩
  · rintro acc st₂ ⟨follows₂, holds₂⟩
    exact ends_pure.2 ⟨follows₂, start, acc.2.1, value, holds₂⟩

end OperatorNet.Decoder
