import OperatorNet.Proofs.Search.Decoding
import OperatorNet.Proofs.Search.Repair
import OperatorNet.Proofs.Tables

/-!
# Decoding that fails

While a decoder looks for a draft, the supergraph stays as it is and known scores stay known
(`Retains`). A draft that has been swapped in, or that operators were tried on, has a known score,
so marking the positions as decoded is followed by nothing that can fail. Only a draft that was
never compared with another one is scored after that (`ScoredLast`), and if its scorer fails, the
positions stay marked; any other fault leaves the supergraph as it was (`decode_failed`).
-/

namespace OperatorNet

variable {α : Type} [Scalar α]

namespace Decoder

/-- Decoding goes on with the same supergraph, and forgets no score. -/
structure Retains (st st' : Decoding α) : Prop where
  graph : st'.graph = st.graph
  scores : ∀ key v, fetch key st.scores = some v → fetch key st'.scores = some v

/-- The score of a draft is known. -/
def Scored (st : Decoding α) (x : Draft α) : Prop :=
  ∃ v, fetch x.selection.key st.scores = some v

variable {d : Decoder α} {st st₁ st₂ : Decoding α} {x : Draft α}

omit [Scalar α] in
/-- A decoding retains its own scores. -/
lemma Retains.refl (st : Decoding α) : Retains st st :=
  ⟨rfl, fun _ _ known => known⟩

omit [Scalar α] in
/-- Scores that are retained twice are retained. -/
lemma Retains.trans (first : Retains st st₁) (second : Retains st₁ st₂) : Retains st st₂ :=
  ⟨second.graph.trans first.graph, fun key v known =>
    second.scores key v (first.scores key v known)⟩

omit [Scalar α] in
/-- A draft that was scored stays so. -/
lemma Retains.scored (retains : Retains st st₁) : Scored st x → Scored st₁ x :=
  fun ⟨v, known⟩ => ⟨v, retains.scores _ v known⟩

/-- A draft is scored and its score is known afterwards, or it was not known and the scorer
fails. -/
lemma score_retains :
    Ends (d.score x.selection x.network) st (fun _ st' => Retains st st' ∧ Scored st' x)
      fun e st' => Retains st st' ∧ ¬ Scored st x ∧
        ∃ f, d.scorer x.network = .error f ∧ e = .fault f := by
  rw [score, ends_bind, ends_get]
  cases known : fetch x.selection.key st.scores with
  | some v => exact ⟨.refl st, v, known⟩
  | none =>
    rw [ends_bind, ends_set, ends_bind, ends_lift]
    cases d.scorer x.network with
    | error f =>
      refine ⟨⟨rfl, fun _ _ before => before⟩, ?_, f, rfl, rfl⟩
      rintro ⟨v, scored⟩
      rw [known] at scored
      cases scored
    | ok v =>
      refine ⟨⟨rfl, fun key w before => fetch_append_of_eq_some before⟩, v, ?_⟩
      exact (fetch_append_of_eq_none known).trans (if_pos rfl)

/-! ## Swaps -/

/-- The drafts of swaps are scored. -/
lemma betterSwap_retains {base : α} {best : Option (Swap α)} {next : Selection × Data Float}
    (scored : ∀ w ∈ best, Scored st w.draft) :
    Ends (d.betterSwap x base best next) st
      (fun r st' => Retains st st' ∧ ∀ w ∈ r, Scored st' w.draft) fun _ st' => Retains st st' := by
  rw [betterSwap, ends_bind, ends_get, ends_bind, ends_lift]
  cases d.draft? st.graph next.1 with
  | error f => exact .refl st
  | ok draft? =>
    cases draft? with
    | none => exact ⟨.refl st, scored⟩
    | some y =>
      dsimp only
      split
      next => exact ⟨.refl st, scored⟩
      next =>
        rw [ends_bind]
        apply (score_retains (x := y)).mono
        case worse => exact fun _ _ failed => failed.1
        case weaker =>
          rintro v st₁ ⟨retains, new⟩
          rw [ends_bind, ends_lift]
          cases d.tieValues st.graph y.network next.2 with
          | error f => exact retains
          | ok ties =>
            -- whichever of the two swaps is kept, its score is in the cache by now
            have old : ∀ w ∈ best, Scored st₁ w.draft := fun w mem => retains.scored (scored w mem)
            cases best with
            | none => exact ⟨retains, fun w mem => Option.mem_some.1 mem ▸ new⟩
            | some b =>
              have either (key : List (Amount α)) (better : Bool) :
                  ∀ w ∈ (if better then some ⟨key, y⟩ else some b), Scored st₁ w.draft := by
                cases better with
                | true => exact fun w mem => Option.mem_some.1 mem ▸ new
                | false => exact old
              exact ⟨retains, either _ _⟩

/-- The search for the best swap retains all scores, and the swap that it finds is scored. -/
lemma bestSwap_retains :
    Ends (d.bestSwap x) st (fun r st' => Retains st st' ∧ ∀ w ∈ r, Scored st' w.draft)
      fun _ st' => Retains st st' := by
  rw [bestSwap, ends_bind]
  apply score_retains.mono
  case worse => exact fun _ _ failed => failed.1
  case weaker =>
    rintro base st₁ ⟨retains, -⟩
    rw [ends_bind, ends_get, ends_bind, ends_lift]
    cases st₁.heat with
    | error f => exact retains
    | ok T =>
      -- both folds keep that the best swap so far is scored
      let inv {γ : Type} (_ : List γ) (best : Option (Swap α)) (st₂ : Decoding α) : Prop :=
        Retains st st₂ ∧ ∀ w ∈ best, Scored st₂ w.draft
      apply ends_foldlM inv ⟨retains, fun _ mem => absurd mem (Option.not_mem_none _)⟩
      rintro best st₂ group - - ⟨retains₂, scored⟩
      rw [ends_bind, ends_lift]
      cases group with
      | error f => exact retains₂
      | ok nexts =>
        apply ends_foldlM inv ⟨retains₂, scored⟩
        rintro best st₃ next - - ⟨retains₃, scored⟩
        apply (betterSwap_retains scored).mono
        case worse => exact fun _ st₄ retains₄ => retains₃.trans retains₄
        case weaker => exact fun r st₄ kept => ⟨retains₃.trans kept.1, kept.2⟩

/-- A draft within the budget is left alone; swaps end with a draft that is scored. -/
lemma repairWithin_retains {fuel swaps : Nat} :
    Ends (d.repairWithin fuel swaps x) st
      (fun r st' => (d.budget.satisfiedBy x.prices = true ∧ r.1 = x ∧ st' = st) ∨
        (d.budget.satisfiedBy x.prices = false ∧ Retains st st' ∧ Scored st' r.1))
      fun _ st' => d.budget.satisfiedBy x.prices = false ∧ Retains st st' := by
  induction fuel generalizing st x swaps with
  | zero =>
    rw [repairWithin]
    split
    next satisfied => exact .inl ⟨satisfied, rfl, rfl⟩
    next exceeded =>
      rw [Bool.not_eq_true] at exceeded
      rw [ends_bind]
      refine bestSwap_retains.mono (fun best st₁ kept => ?_) fun _ _ retains => ⟨exceeded, retains⟩
      cases best with
      | none => exact ⟨exceeded, kept.1⟩
      | some swap => exact ⟨exceeded, kept.1⟩
  | succ fuel ih =>
    rw [repairWithin]
    split
    next satisfied => exact .inl ⟨satisfied, rfl, rfl⟩
    next exceeded =>
      rw [Bool.not_eq_true] at exceeded
      rw [ends_bind]
      refine bestSwap_retains.mono (fun best st₁ kept => ?_) fun _ _ retains => ⟨exceeded, retains⟩
      obtain ⟨retains, scored⟩ := kept
      cases best with
      | none => exact ⟨exceeded, retains⟩
      | some swap =>
        apply ih.mono
        case worse => exact fun _ _ later => ⟨exceeded, retains.trans later.2⟩
        case weaker =>
          rintro r st₂ (⟨-, same, rfl⟩ | ⟨-, later, known⟩)
          · exact .inr ⟨exceeded, retains, same ▸ scored swap rfl⟩
          · exact .inr ⟨exceeded, retains.trans later, known⟩

/-! ## Fixed operators -/

/-- The draft that operators are tried on stays scored. -/
lemma tryFixed_retains {acc : Draft α × α × Nat} {choice : Ref × String}
    (scored : Scored st acc.1) :
    Ends (d.tryFixed acc choice) st (fun r st' => Retains st st' ∧ Scored st' r.1)
      fun _ st' => Retains st st' := by
  obtain ⟨current, best, count⟩ := acc
  rw [tryFixed, ends_bind, ends_lift]
  cases current.selection.get choice.1 with
  | error f => exact .refl st
  | ok op =>
    dsimp only
    split
    next => exact ⟨.refl st, scored⟩
    next =>
      rw [ends_bind, ends_get, ends_bind, ends_lift]
      cases d.draft? st.graph (current.selection.replace choice.1 (.text choice.2)) with
      | error f => exact .refl st
      | ok draft? =>
        cases draft? with
        | none => exact ⟨.refl st, scored⟩
        | some y =>
          dsimp only
          split
          next => exact ⟨.refl st, scored⟩
          next =>
            rw [ends_bind]
            apply (score_retains (x := y)).mono
            case worse => exact fun _ _ failed => failed.1
            case weaker =>
              rintro v st₁ ⟨retains, new⟩
              refine ⟨retains, ?_⟩
              split
              next => exact new
              next => exact retains.scored scored

/-- The insertion of fixed operators retains all scores, and what it ends with is scored. -/
lemma insertFixed_retains :
    Ends (d.insertFixed x) st (fun r st' => Retains st st' ∧ Scored st' r.1)
      fun _ st' => Retains st st' := by
  rw [insertFixed, ends_bind]
  apply score_retains.mono
  case worse => exact fun _ _ failed => failed.1
  case weaker =>
    rintro best st₁ ⟨retains, scored⟩
    rw [ends_bind, ends_get, ends_bind]
    let inv {γ : Type} (_ : List γ) (acc : Draft α × α × Nat) (st₂ : Decoding α) : Prop :=
      Retains st st₂ ∧ Scored st₂ acc.1
    refine (ends_foldlM inv ⟨retains, scored⟩ ?_).mono (fun _ _ kept => kept) fun _ _ kept => kept
    rintro acc st₂ q - - ⟨retains₂, scored⟩
    rw [ends_bind, ends_lift]
    cases st₁.graph.positionAt q.1 with
    | error f => exact retains₂
    | ok p =>
      apply ends_foldlM inv ⟨retains₂, scored⟩
      rintro acc st₃ op - - ⟨retains₃, scored⟩
      apply (tryFixed_retains scored).mono
      case worse => exact fun _ st₄ later => retains₃.trans later
      case weaker => exact fun r st₄ kept => ⟨retains₃.trans kept.1, kept.2⟩

/-! ## The end -/

/-- A position that is marked as decoded. -/
def settled (selection : Selection) (p : Position α) : Position α :=
  { p with chosen := selection.get? p.id <|> p.chosen, state := .decoded }

/-- The supergraph with all positions marked as decoded. -/
def marked (s : Supergraph α) (selection : Selection) : Supergraph α :=
  { s with positions := s.positions.map (settled selection) }

omit [Scalar α] in
/-- A position is settled as it is selected. -/
lemma settle_eq (selection : Selection) (p : Position α) :
    settle selection p = .ok (settled selection p) := by
  rw [settle]
  dsimp only
  split
  next same =>
    rw [settled, ← same]
    rfl
  next other =>
    have follows : PositionState.decoded ∈ p.state.following := by
      cases state : p.state with
      | decoded => exact absurd state other
      | _ => decide
    rw [Position.transition, if_pos follows]
    rfl

/-- What is left to do fails only where a new score is needed, and then all positions are marked. -/
lemma conclude_fails {swaps insertions : Nat} :
    Ends (d.conclude x swaps insertions) st (fun _ _ => True) fun e st' =>
      st'.graph = marked st.graph x.selection ∧ ¬ Scored st x ∧
        ∃ f, d.scorer x.network = .error f ∧ e = .fault f := by
  have all : st.graph.positions.mapM (settle x.selection) =
      .ok (st.graph.positions.map (settled x.selection)) := by
    rw [mapM_eq_ok, List.forall₂_map_right_iff, List.forall₂_same]
    exact fun p _ => settle_eq x.selection p
  rw [conclude, ends_bind, ends_get, ends_bind, ends_lift, all]
  dsimp only
  rw [ends_bind, ends_modify, ends_bind]
  refine score_retains.mono (fun _ _ _ => trivial) fun _ _ after => ?_
  obtain ⟨retains, failed⟩ := after
  exact ⟨retains.graph, failed⟩

/-- The draft at hand is within the budget as it is, no operators are tried on it, and its score is
not known. -/
structure ScoredLast (d : Decoder α) (st : Decoding α) (x : Draft α) : Prop where
  untried : d.settings.insertFixed = false
  within : d.budget.satisfiedBy x.prices = true
  unknown : ¬ Scored st x

/-- The draft that decoding begins with, or why there is none. -/
def opening (d : Decoder α) (st : Decoding α) : Except Fault (Draft α) := do
  d.firstDraft st.graph none (← st.graph.rankedSelections (← st.heat))

/-- A decoding begins with a draft when it opens with it. -/
lemma beginsWith_iff : d.BeginsWith st x ↔ d.opening st = .ok x := by
  simp only [BeginsWith, opening, bind_eq_ok]
  constructor
  · rintro ⟨T, ranked, heat, list, first⟩
    exact ⟨T, heat, ranked, list, first⟩
  · rintro ⟨T, heat, ranked, list, first⟩
    exact ⟨T, ranked, heat, list, first⟩

/-- Decoding sets the temperature and looks for its first draft. -/
lemma prepare_opens {temperature : Option (Number α)} :
    let st₁ := { st with temperature := temperature.getD st.temperature }
    Ends (d.prepare temperature) st (fun x st' => st' = st₁ ∧ d.opening st₁ = .ok x)
      fun _ st' => st' = st₁ ∧ ∃ f, d.opening st₁ = .error f := by
  simp only [prepare, opening, ends_bind, ends_modify, ends_get, ends_lift]
  split
  next T heat =>
    split
    next ranked list =>
      split
      next x first => exact ⟨trivial, by simp only [heat, list, first, bind, Except.bind]⟩
      next f failed => exact ⟨trivial, f, by simp only [heat, list, failed, bind, Except.bind]⟩
    next f failed => exact ⟨trivial, f, by simp only [heat, failed, bind, Except.bind]⟩
  next f failed => exact ⟨trivial, f, by simp only [failed, bind, Except.bind]⟩

/-- What a fault leaves behind, once decoding has begun with a draft. -/
def Leaves (d : Decoder α) (st : Decoding α) (x : Draft α) (e : DecodeFault α) (st' : Decoding α) :
    Prop :=
  (d.ScoredLast st x → st'.graph = marked st.graph x.selection ∧
    ∃ f, d.scorer x.network = .error f ∧ e = .fault f) ∧
  (¬ d.ScoredLast st x → st'.graph = st.graph)

/-- Steps that retain all scores leave a decoding as it is left after them. -/
lemma Leaves.of_retains {e : DecodeFault α} (retains : Retains st st₁)
    (other : ¬ d.ScoredLast st x) :
    d.Leaves st x e st₁ :=
  ⟨fun last => absurd last other, fun _ => retains.graph⟩

/-- What comes after the draft to begin with leaves no trace, or scores that draft at last. -/
lemma rest_leaves :
    Ends (do
        let (y, swaps) ← d.repair x
        let (y, insertions) ← if d.settings.insertFixed then d.insertFixed y else pure (y, 0)
        d.conclude y swaps insertions) st
      (fun _ _ => True) (d.Leaves st x) := by
  rw [ends_bind, repair, ends_bind, ends_get]
  apply repairWithin_retains.mono
  case worse =>
    rintro e st₁ ⟨exceeded, retains⟩
    refine .of_retains retains fun last => ?_
    rw [last.within] at exceeded
    cases exceeded
  case weaker =>
    rintro ⟨y, swaps⟩ st₁ repaired
    dsimp only
    split
    next tries =>
      have other : ¬ d.ScoredLast st x := fun last => by
        rw [last.untried] at tries
        cases tries
      have kept : Retains st st₁ := by
        rcases repaired with ⟨-, -, rfl⟩ | ⟨-, retains, -⟩
        · exact .refl st₁
        · exact retains
      rw [ends_bind]
      apply insertFixed_retains.mono
      case worse => exact fun e st₂ retains => .of_retains (kept.trans retains) other
      case weaker =>
        rintro ⟨z, insertions⟩ st₂ ⟨-, scored⟩
        exact conclude_fails.mono (fun _ _ _ => trivial) fun _ _ ⟨_, unknown, _⟩ =>
          absurd scored unknown
    next untried =>
      -- the last score is new only for the draft that it all began with
      rw [Bool.not_eq_true] at untried
      rw [ends_bind, ends_pure]
      apply conclude_fails.mono
      case weaker => exact fun _ _ _ => trivial
      case worse =>
        rintro e st₂ ⟨graph, unknown, failed⟩
        rcases repaired with ⟨within, rfl, rfl⟩ | ⟨-, -, scored⟩
        · exact ⟨fun _ => ⟨graph, failed⟩, fun other => absurd ⟨untried, within, unknown⟩ other⟩
        · exact absurd scored unknown

/-- Once it has begun, decoding fails without a trace or when a draft is scored at last. -/
lemma decode_leaves {temperature : Option (Number α)} :
    let st₁ := { st with temperature := temperature.getD st.temperature }
    Ends (d.decode temperature) st (fun _ _ => True) fun e st' =>
      (∃ x, d.opening st₁ = .ok x ∧ d.Leaves st₁ x e st') ∨
        (∃ f, d.opening st₁ = .error f) ∧ st' = st₁ := by
  intro st₁
  rw [decode, ends_bind]
  apply prepare_opens.mono
  case worse => exact fun _ _ ⟨same, failed⟩ => .inr ⟨failed, same⟩
  case weaker =>
    rintro x _ ⟨rfl, opens⟩
    exact rest_leaves.mono (fun _ _ _ => trivial) fun e st' leaves => .inl ⟨x, opens, leaves⟩

/-- When decoding fails, the supergraph is as it was, unless the draft that it began with was to be
scored last: then the scorer has failed on that draft, and all positions are marked as decoded. -/
theorem decode_failed {temperature : Option (Number α)} {e : DecodeFault α} {st' : Decoding α}
    (ended : (d.decode temperature).run st = (.error e, st')) :
    let st₁ := { st with temperature := temperature.getD st.temperature }
    ((∀ x, d.BeginsWith st₁ x → ¬ d.ScoredLast st₁ x) → st'.graph = st.graph) ∧
      ∀ x, d.BeginsWith st₁ x → d.ScoredLast st₁ x → st'.graph = marked st.graph x.selection ∧
        ∃ f, d.scorer x.network = .error f ∧ e = .fault f := by
  intro st₁
  simp only [beginsWith_iff]
  rcases decode_leaves.of_error ended with ⟨x, opens, leaves⟩ | ⟨⟨f, failed⟩, rfl⟩
  · constructor
    · exact fun none => leaves.2 (none x opens)
    · intro y opens' last
      obtain rfl := Except.ok.inj (opens.symm.trans opens')
      exact leaves.1 last
  · constructor
    · exact fun _ => rfl
    · intro y opens
      rw [failed] at opens
      cases opens

section

open Sample

/-- A decoder that cannot score anything, with more room than any operator needs. -/
def scoreless (insertFixed : Bool) : Decoder ℚ :=
  { limited 9 (by decide) with
    scorer := fun _ => fail .wrongForm
    settings := { Sample.settings with insertFixed } }

/-- Where operators are tried, a scorer that fails leaves no trace. -/
theorem decode_failed_scoreless :
    let d := scoreless true
    let st := d.start graph
    ∃ e st', (d.decode none).run st = (.error e, st') ∧ st'.graph = st.graph := by
  intro d st
  have failed : ((d.decode none).run st).1.isOk = false := by decide +kernel
  obtain ⟨e, st', ended⟩ := exists_of_isOk_eq_false failed
  refine ⟨e, st', ended, (decode_failed ended).1 fun x _ last => ?_⟩
  cases last.untried

/-- Where no operators are tried, it leaves the positions marked. -/
theorem decode_failed_marked :
    ¬ ∀ (d : Decoder ℚ) (st : Decoding ℚ) e st', (d.decode none).run st = (.error e, st') →
      st'.graph = st.graph := by
  intro always
  let d := scoreless false
  let st := d.start graph
  have failed : ((d.decode none).run st).1.isOk = false := by decide +kernel
  obtain ⟨e, st', ended⟩ := exists_of_isOk_eq_false failed
  have left : ((d.decode none).run st).2.graph.positions.map (·.state) = [.decoded, .decoded] := by
    decide +kernel
  rw [ended, always d st e st' ended] at left
  cases left

end

end Decoder

end OperatorNet
