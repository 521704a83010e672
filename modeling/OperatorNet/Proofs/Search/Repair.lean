import Mathlib.Data.List.Chain
import Mathlib.Data.Rat.Floor
import OperatorNet.Proofs.Catalog.Reachable
import OperatorNet.Proofs.Cost.Overage
import OperatorNet.Proofs.Search.Decoding
import OperatorNet.Proofs.Search.Swaps

/-!
# Repairing drafts

`Decoder.Repairs` is the loop of swaps without a bound on their number: it ends when the budget is
met, when no swap recovers any of it, or with a fault. In exact arithmetic every swap lowers the
overage, so no selection comes twice, and the bounded loop is the unbounded one
(`repairs_repairWithin`). Where the loop ends is a draft within the budget, or one whose swaps do
not lower the overage (`repair_ends`).
-/

namespace OperatorNet

open Scalar

variable {α : Type} [Scalar α]

namespace Decoder

/-- A swap that is tried: the draft that it leads to, how much of the budget is recovered, the
score, and what ties are broken by. -/
structure Exchange (α : Type) where
  draft : Draft α
  gain : Amount α
  score : α
  ties : List (Amount α)

namespace Exchange

/-- How much the score gets worse per unit of budget that is recovered. -/
def rate (base : α) (t : Exchange α) : α :=
  match t.gain with
  | .finite g => if t.gain.isInfinite then 0 else (t.score - base) / g
  | .infinite => 0

/-- The swap that is tried. -/
def swap (base : α) (t : Exchange α) : Swap α :=
  { key := .finite (t.rate base) :: t.ties, draft := t.draft }

/-- The best swap after one more trial. -/
def choose (base : α) (best : Option (Swap α)) (t : Exchange α) : Option (Swap α) :=
  match best with
  | none => some (t.swap base)
  | some b => some (if Amount.precedes (t.swap base).key b.key then t.swap base else b)

end Exchange

/-- Some of the budget is recovered when one draft is left for another one. -/
def Recovers (d : Decoder α) (x y : Draft α) : Prop :=
  Amount.less (.finite 0) (d.recovered x.prices y.prices) = true ∨
    (d.recovered x.prices y.prices).isInfinite = true

/-- One draft has a lower overage than another one. -/
def Lower (d : Decoder α) (x y : Draft α) : Prop :=
  (d.budget.overage x.prices).Lower (d.budget.overage y.prices)

/-- A swap leads from one draft to another one that has a lower overage. -/
def Step (d : Decoder α) (st : Decoding α) (x y : Draft α) : Prop :=
  (∃ T, st.heat = .ok T ∧ st.graph.Swap T x.selection y.selection) ∧ d.Lower y x

/-- No swap that composes leads from a draft to one that has a lower overage. -/
def Optimal (d : Decoder α) (st : Decoding α) (x : Draft α) : Prop :=
  ∀ T y, st.heat = .ok T → st.graph.Swap T x.selection y.selection → d.Composes st.graph y →
    ¬ d.Lower y x

/-- What may go wrong while the selections next to a given one are tried. -/
inductive Obstacle (d : Decoder α) (st : Decoding α) (x : Selection) : Fault → Prop
  | temperature {f} : st.heat = .error f → Obstacle d st x f
  | listing {f T} : st.heat = .ok T → .error f ∈ st.graph.neighbourGroups T x → Obstacle d st x f
  | trying {f T y} : st.heat = .ok T → st.graph.Swap T x y → d.draft? st.graph y = .error f →
      Obstacle d st x f
  | comparing {f T y op} : st.heat = .ok T → st.graph.Swap T x y.selection →
      d.Composes st.graph y → d.tieValues st.graph y.network op = .error f → Obstacle d st x f

/-- Swaps do not lead out of a sort of selections. -/
def Closed (sort : Selection → Prop) (st : Decoding α) : Prop :=
  ∀ T y z, st.heat = .ok T → st.graph.Swap T y z → sort y → sort z

variable {d : Decoder α} {st st' : Decoding α} {x y start : Draft α} {swaps fuel : Nat}
  {sort : Selection → Prop}

/-- The best swap is found by trying the neighbours one after the other: what holds before the first
and is kept by each of them holds of the best swap and of all neighbours. -/
lemma bestSwap_ends_of_steps (total : ∀ g, ∃ v, d.scorer g = .ok v)
    (composes : d.Composes st.graph x) (sorted : sort x.selection) (follows : d.Follows sort st st')
    (inv : α → List (Selection × Data Float) → Option (Swap α) → Prop)
    (first : ∀ base st₁, d.Follows sort st st₁ → (x.selection.key, base) ∈ st₁.scores →
      inv base [] none)
    (step : ∀ base T best st₁ next done, st.heat = .ok T → st.graph.Swap T x.selection next.1 →
      d.Follows sort st st₁ → inv base done best →
      Ends (d.betterSwap x base best next) st₁
        (fun best st₂ => d.Follows sort st st₂ ∧ inv base (done ++ [next]) best)
        (fun e st₂ => d.Follows sort st st₂ ∧ ∃ f, e = .fault f ∧ d.Obstacle st x.selection f)) :
    Ends (d.bestSwap x) st'
      (fun best st₁ => d.Follows sort st st₁ ∧ ∃ base T l, st.heat = .ok T ∧
        st.graph.neighbours T x.selection = .ok l ∧ inv base l best)
      (fun e st₁ => d.Follows sort st st₁ ∧ ∃ f, e = .fault f ∧ d.Obstacle st x.selection f) := by
  rw [bestSwap, ends_bind]
  refine (score_ends total composes sorted follows).mono (fun base st₁ scored => ?_) fun _ _ h => h
  have follows₁ := scored.1
  rw [ends_bind, ends_get, ends_bind, ends_lift, follows₁.heat, follows₁.graph]
  cases heat : st.heat with
  | error f => exact ⟨follows₁, f, rfl, .temperature heat⟩
  | ok T =>
    -- all groups that have been gone through were listed, and their selections have been tried
    refine (ends_foldlM (fun done best st₂ => d.Follows sort st st₂ ∧
      ∃ groups : List (List (Selection × Data Float)), done = groups.map .ok ∧
        inv base groups.flatten best)
      ⟨follows₁, [], rfl, first base st₁ follows₁ scored.2⟩ ?_).mono ?_ fun _ _ h => h
    · rintro best st₂ group mem done ⟨follows₂, groups, rfl, kept⟩
      rw [ends_bind, ends_lift]
      cases group with
      | error f => exact ⟨follows₂, f, rfl, .listing heat mem⟩
      | ok l =>
        refine (ends_foldlM (fun now best st₃ => d.Follows sort st st₃ ∧
          inv base (groups.flatten ++ now) best) ⟨follows₂, by rwa [List.append_nil]⟩ ?_).mono ?_
          fun _ _ h => h
        · rintro best st₃ ⟨y, name⟩ inside now ⟨follows₃, kept⟩
          rw [← List.append_assoc]
          exact step base T best st₃ _ _ heat (Supergraph.swap_of_mem mem inside) follows₃ kept
        · rintro best st₃ ⟨follows₃, kept⟩
          refine ⟨follows₃, groups ++ [l], by rw [List.map_append]; rfl, ?_⟩
          rwa [List.flatten_append, List.flatten_singleton]
    · rintro best st₂ ⟨follows₂, groups, all, kept⟩
      exact ⟨follows₂, base, T, _, rfl, Supergraph.neighbours_eq_ok.2 ⟨groups, all, rfl⟩, kept⟩

/-- A neighbour of a draft composes and recovers some of the budget; its exchange is the given one,
and its score is among those that are known now. -/
structure Trial (d : Decoder α) (sort : Selection → Prop) (st : Decoding α) (x : Draft α)
    (next : Selection × Data Float) (t : Exchange α) (st' : Decoding α) : Prop where
  selection : t.draft.selection = next.1
  composes : d.Composes st.graph t.draft
  recovers : d.Recovers x t.draft
  gain : t.gain = d.recovered x.prices t.draft.prices
  follows : d.Follows sort st st'
  score : (t.draft.selection.key, t.score) ∈ st'.scores
  ties : d.tieValues st.graph t.draft.network next.2 = .ok t.ties

/-- One more neighbour is tried: it does not compose, or recovers nothing, or its exchange is
compared with the best swap so far. -/
lemma betterSwap_ends_of_trial (total : ∀ g, ∃ v, d.scorer g = .ok v) {T base : α}
    {best : Option (Swap α)} {next : Selection × Data Float} (heat : st.heat = .ok T)
    (swap : st.graph.Swap T x.selection next.1) (sorted : sort next.1)
    (follows : d.Follows sort st st') {good : Option (Swap α) → Prop}
    (misfit : (∀ y, y.selection = next.1 → ¬ d.Composes st.graph y) → good best)
    (idle : ∀ y, y.selection = next.1 → d.Composes st.graph y → ¬ d.Recovers x y → good best)
    (tried : ∀ t st₁, d.Trial sort st x next t st₁ → good (Exchange.choose base best t)) :
    Ends (d.betterSwap x base best next) st' (fun best st₁ => d.Follows sort st st₁ ∧ good best)
      (fun e st₁ => d.Follows sort st st₁ ∧ ∃ f, e = .fault f ∧ d.Obstacle st x.selection f) := by
  rw [betterSwap, ends_bind, ends_get, ends_bind, ends_lift, follows.graph]
  -- the neighbour does not fit, or it recovers nothing, or it is tried
  cases found : d.draft? st.graph next.1 with
  | error f => exact ⟨follows, f, rfl, .trying heat swap found⟩
  | ok draft? =>
    cases draft? with
    | none =>
      refine ⟨follows, misfit fun y same composes => ?_⟩
      rw [draft?_eq_some.2 ⟨same, composes⟩] at found
      cases found
    | some y =>
      obtain ⟨same, composes⟩ := draft?_eq_some.1 found
      dsimp only
      split
      next useless => exact ⟨follows, idle y same composes (by simpa [Recovers] using useless)⟩
      next useful =>
        have recovers : d.Recovers x y := by
          rw [Recovers]
          simpa [or_iff_not_imp_left] using useful
        rw [ends_bind]
        refine (score_ends total composes (same ▸ sorted) follows).mono
          (fun v st₁ scored => ?_) fun _ _ h => h
        rw [ends_bind, ends_lift]
        cases ties : d.tieValues st.graph y.network next.2 with
        | error f => exact ⟨scored.1, f, rfl, .comparing heat (same ▸ swap) composes ties⟩
        | ok values =>
          let t : Exchange α := ⟨y, d.recovered x.prices y.prices, v, values⟩
          have chosen := tried t st₁ ⟨same, composes, recovers, rfl, scored.1, scored.2, ties⟩
          cases best with
          | none => exact ends_pure.2 ⟨scored.1, chosen⟩
          | some b =>
            rw [Exchange.choose, apply_ite some] at chosen
            exact ends_pure.2 ⟨scored.1, chosen⟩

variable [Exact α]

/-- Budget is recovered when the overage gets lower. -/
lemma recovers_iff : d.Recovers x y ↔ d.Lower y x := by
  have nothing : (Amount.finite (0 : α)).isInfinite = false := by
    rw [Amount.isInfinite_finite, Exact.isFinite_zero, Bool.not_true]
  rw [Recovers, recovered, Lower, Amount.Lower]
  generalize d.budget.overage x.prices = a
  generalize d.budget.overage y.prices = b
  dsimp only
  cases infinite : b.isInfinite with
  | true =>
    have none : Amount.less (.finite (0 : α)) (.finite 0) = false :=
      Bool.eq_false_iff.2 fun less => Exact.lt_irrefl _ (Amount.less_finite.1 less)
    simp [nothing, none]
  | false =>
    obtain ⟨v, rfl, finite⟩ := Amount.exists_of_isInfinite_eq_false infinite
    cases a with
    | infinite => simp [Amount.isInfinite]
    | finite u =>
      cases unbounded : (Amount.finite u).isInfinite with
      | true => simp [Amount.isInfinite]
      | false =>
        obtain ⟨u', same, finite'⟩ := Amount.exists_of_isInfinite_eq_false unbounded
        cases same
        have bounded : (Amount.finite (u - v)).isInfinite = false := by
          rw [Amount.isInfinite_finite, Exact.isFinite_sub finite' finite, Bool.not_true]
        simp [bounded, Amount.less, Exact.sub_pos]

/-- What is known about the best swap when some selections have been tried: it lowers the overage,
and if there is none, none of these selections does. -/
def Settles (d : Decoder α) (st : Decoding α) (x : Draft α) (tried : List Selection) :
    Option (Swap α) → Prop
  | some best => d.Composes st.graph best.draft ∧ d.Step st x best.draft
  | none => ∀ y, y.selection ∈ tried → d.Composes st.graph y → ¬ d.Lower y x

omit [Exact α] in
/-- A selection that gives nothing lower leaves the best swap as it is. -/
lemma Settles.append_of_fails {tried : List Selection} {best : Option (Swap α)} {z : Selection}
    (settles : d.Settles st x tried best)
    (fails : ∀ y, y.selection = z → d.Composes st.graph y → ¬ d.Lower y x) :
    d.Settles st x (tried ++ [z]) best := by
  cases best with
  | some best => exact settles
  | none =>
    intro y mem
    rcases List.mem_append.1 mem with before | now
    · exact settles y before
    · exact fails y (List.mem_singleton.1 now)

/-- One more selection is tried. -/
lemma betterSwap_ends (total : ∀ g, ∃ v, d.scorer g = .ok v) {T base : α} {tried : List Selection}
    {best : Option (Swap α)} {next : Selection × Data Float} (heat : st.heat = .ok T)
    (swap : st.graph.Swap T x.selection next.1) (sorted : sort next.1)
    (follows : d.Follows sort st st') (settles : d.Settles st x tried best) :
    Ends (d.betterSwap x base best next) st'
      (fun best st' => d.Follows sort st st' ∧ d.Settles st x (tried ++ [next.1]) best)
      (fun e st' => d.Follows sort st st' ∧ ∃ f, e = .fault f ∧ d.Obstacle st x.selection f) := by
  apply betterSwap_ends_of_trial total heat swap sorted follows
  case misfit =>
    exact fun none => settles.append_of_fails fun y same composes => absurd composes (none y same)
  case idle =>
    refine fun y same composes idle => settles.append_of_fails fun z named composes' lower => ?_
    obtain rfl := composes.unique composes' (same.trans named.symm)
    exact idle (recovers_iff.2 lower)
  case tried =>
    intro t st₁ trial
    have step : d.Composes st.graph t.draft ∧ d.Step st x t.draft :=
      ⟨trial.composes, ⟨T, heat, trial.selection ▸ swap⟩, recovers_iff.1 trial.recovers⟩
    cases best with
    | none => exact step
    | some best =>
      rw [Exchange.choose]
      split
      · exact step
      · exact settles

/-- The best swap lowers the overage; if there is none, no swap does. -/
lemma bestSwap_ends (total : ∀ g, ∃ v, d.scorer g = .ok v) (closed : Closed sort st)
    (composes : d.Composes st.graph x) (sorted : sort x.selection)
    (follows : d.Follows sort st st') :
    Ends (d.bestSwap x) st'
      (fun best st' => d.Follows sort st st' ∧ match best with
        | some best => d.Composes st.graph best.draft ∧ d.Step st x best.draft
        | none => d.Optimal st x)
      (fun e st' => d.Follows sort st st' ∧ ∃ f, e = .fault f ∧ d.Obstacle st x.selection f) := by
  refine (bestSwap_ends_of_steps total composes sorted follows
    (fun _ done => d.Settles st x (done.map Prod.fst))
    (fun _ _ _ _ _ mem => absurd mem List.not_mem_nil) ?_).mono ?_ fun _ _ h => h
  · intro base T best st₁ next done heat swap follows₁ settles
    rw [List.map_append]
    exact betterSwap_ends total heat swap (closed T _ _ heat swap sorted) follows₁ settles
  · intro best st₁ ends
    obtain ⟨follows₁, base, T, l, heat, listed, settles⟩ := ends
    refine ⟨follows₁, ?_⟩
    cases best with
    | some best => exact settles
    | none =>
      intro T' y heat' swap composes
      obtain rfl := Except.ok.inj (heat.symm.trans heat')
      obtain ⟨name, mem⟩ := Supergraph.exists_of_swap listed swap
      exact settles y (List.mem_map_of_mem mem) composes

/-! ### The loop -/

/-- The loop of swaps, however many there are: what it ends with and the state afterwards. -/
inductive Repairs (d : Decoder α) :
    Draft α → Nat → Decoding α → Except (DecodeFault α) (Draft α × Nat) → Decoding α → Prop
  | met {x : Draft α} {swaps st} : d.budget.satisfiedBy x.prices = true →
      Repairs d x swaps st (.ok (x, swaps)) st
  | stuck {x : Draft α} {swaps st st'} : d.budget.satisfiedBy x.prices = false →
      (d.bestSwap x).run st = (.ok none, st') →
      Repairs d x swaps st (.error (.infeasible d.budget.limits x)) st'
  | broken {x : Draft α} {swaps st st' e} : d.budget.satisfiedBy x.prices = false →
      (d.bestSwap x).run st = (.error e, st') → Repairs d x swaps st (.error e) st'
  | swapped {x : Draft α} {swaps best st st' st'' result} : d.budget.satisfiedBy x.prices = false →
      (d.bestSwap x).run st = (.ok (some best), st') →
      Repairs d best.draft (swaps + 1) st' result st'' → Repairs d x swaps st result st''

/-- Drafts that one swap after the other leads to, each with a lower overage. -/
structure Trail (d : Decoder α) (st : Decoding α) (start : Draft α) (drafts : List (Draft α)) :
    Prop where
  head : drafts.head? = some start
  composes : ∀ x ∈ drafts, d.Composes st.graph x
  steps : drafts.IsChain (d.Step st)

namespace Trail

variable {drafts : List (Draft α)}

omit [Exact α] in
/-- A trail begins with one draft. -/
lemma one (composes : d.Composes st.graph start) : d.Trail st start [start] :=
  ⟨rfl, fun _ mem => List.mem_singleton.1 mem ▸ composes, List.isChain_singleton _⟩

omit [Exact α] in
/-- A trail goes on by a step. -/
lemma append (trail : d.Trail st start (drafts ++ [x])) (composes : d.Composes st.graph y)
    (step : d.Step st x y) : d.Trail st start (drafts ++ [x] ++ [y]) where
  head := by
    rw [List.head?_append, trail.head]
    rfl
  composes z mem := by
    rcases List.mem_append.1 mem with before | last
    · exact trail.composes z before
    · exact List.mem_singleton.1 last ▸ composes
  steps := by
    rw [List.isChain_append]
    refine ⟨trail.steps, List.isChain_singleton _, ?_⟩
    intro z hz w hw
    rw [List.getLast?_append, List.getLast?_singleton, Option.some_or, Option.mem_some_iff] at hz
    rw [List.head?_singleton, Option.mem_some_iff] at hw
    exact hz ▸ hw ▸ step

/-- No selection comes twice. -/
lemma nodup (trail : d.Trail st start drafts) : (drafts.map (·.selection)).Nodup := by
  have : IsTrans (Draft α) fun x y => d.Lower y x := ⟨fun _ _ _ xy yz => yz.trans xy⟩
  have falling : drafts.Pairwise fun x y => d.Lower y x :=
    (trail.steps.imp fun _ _ step => step.2).pairwise
  refine List.pairwise_map.2 (falling.imp_of_mem fun hx hy lower same => ?_)
  rw [(trail.composes _ hx).unique (trail.composes _ hy) same] at lower
  exact lower.irrefl

omit [Exact α] in
/-- All selections are spanned by the first one. -/
lemma spanned {T : α} (trail : d.Trail st start drafts) (heat : st.heat = .ok T) :
    ∀ x ∈ drafts, st.graph.Spanned T start.selection x.selection := by
  obtain ⟨head, -, steps⟩ := trail
  cases drafts with
  | nil => cases head
  | cons first rest =>
    obtain rfl := Option.some.inj head
    refine steps.induction (fun x => st.graph.Spanned T first.selection x.selection) _
      (fun x y step spanned => ?_) fun _ => .refl
    obtain ⟨⟨T', heat', swap⟩, -⟩ := step
    obtain rfl := Except.ok.inj (heat.symm.trans heat')
    exact spanned.swap swap

/-- There are no more drafts than selections that the first one spans. -/
lemma length_le (trail : d.Trail st start drafts) :
    drafts.length ≤ max 1 (st.graph.selectionBound start.selection) := by
  cases heat : st.heat with
  | ok T =>
    have few := Supergraph.length_le_selectionBound trail.nodup fun y hy => by
      obtain ⟨x, hx, rfl⟩ := List.mem_map.1 hy
      exact trail.spanned heat x hx
    rw [List.length_map] at few
    exact le_max_of_le_right few
  | error f =>
    -- without a temperature nothing is next to anything
    obtain ⟨-, -, steps⟩ := trail
    match drafts, steps with
    | [], _ => exact Nat.zero_le _
    | [_], _ => exact le_max_left _ _
    | _ :: _ :: _, steps =>
      obtain ⟨⟨T, heat', -⟩, -⟩ := (List.isChain_cons_cons.1 steps).1
      rw [heat] at heat'
      cases heat'

omit [Exact α] in
/-- All selections are of the sort of the first one. -/
lemma sorted (trail : d.Trail st start drafts) (closed : Closed sort st)
    (first : sort start.selection) : ∀ x ∈ drafts, sort x.selection := by
  obtain ⟨head, -, steps⟩ := trail
  cases drafts with
  | nil => cases head
  | cons y rest =>
    obtain rfl := Option.some.inj head
    refine steps.induction (fun x => sort x.selection) _ (fun x y step sorted => ?_) fun _ => first
    obtain ⟨⟨T, heat, swap⟩, -⟩ := step
    exact closed T _ _ heat swap sorted

end Trail

/-- The bounded loop is the unbounded one as long as there are swaps left for all selections that
have not come yet. -/
lemma repairs_repairWithin (total : ∀ g, ∃ v, d.scorer g = .ok v) {drafts : List (Draft α)}
    (trail : d.Trail st start (drafts ++ [x])) (follows : d.Follows (fun _ => True) st st')
    (enough : st.graph.selectionBound start.selection < fuel + (drafts ++ [x]).length) :
    d.Repairs x swaps st' ((d.repairWithin fuel swaps x).run st').1
      ((d.repairWithin fuel swaps x).run st').2 := by
  have best := bestSwap_ends total (fun _ _ _ _ _ _ => trivial) (trail.composes x (by simp))
    trivial follows
  induction fuel generalizing x swaps st' drafts with
  | zero =>
    unfold repairWithin
    cases satisfied : d.budget.satisfiedBy x.prices with
    | true => exact .met satisfied
    | false =>
      rw [if_neg (by decide), run_bind]
      rcases run : (d.bestSwap x).run st' with ⟨_ | _ | swap, st₁⟩
      · exact .broken satisfied run
      · exact .stuck satisfied run
      · obtain ⟨-, composes, step⟩ := best.of_ok run
        have few := (trail.append composes step).length_le
        simp only [List.length_append, List.length_singleton] at few enough
        omega
  | succ fuel ih =>
    unfold repairWithin
    cases satisfied : d.budget.satisfiedBy x.prices with
    | true => exact .met satisfied
    | false =>
      rw [if_neg (by decide), run_bind]
      rcases run : (d.bestSwap x).run st' with ⟨_ | _ | swap, st₁⟩
      · exact .broken satisfied run
      · exact .stuck satisfied run
      · obtain ⟨follows₁, composes, step⟩ := best.of_ok run
        refine .swapped satisfied run (ih (trail.append composes step) follows₁ ?_ ?_)
        · rw [List.length_append, List.length_singleton]
          omega
        · exact bestSwap_ends total (fun _ _ _ _ _ _ => trivial) composes trivial follows₁

/-- What the loop of swaps ends with when it ends at a draft after some swaps. -/
def EndsAt (d : Decoder α) (st : Decoding α) (last : Draft α) (swaps : Nat) :
    Except (DecodeFault α) (Draft α × Nat) → Prop
  | .ok result => result = (last, swaps) ∧ d.budget.satisfiedBy last.prices = true
  | .error (.infeasible limits best) => limits = d.budget.limits ∧ best = last ∧
      d.budget.satisfiedBy last.prices = false ∧ d.Optimal st last
  | .error (.fault f) => d.budget.satisfiedBy last.prices = false ∧ d.Obstacle st last.selection f

/-- Where the loop of swaps ends, from any draft on a trail. -/
lemma Repairs.exists_endsAt (total : ∀ g, ∃ v, d.scorer g = .ok v) (closed : Closed sort st)
    (first : sort start.selection) {st₁ st₂ : Decoding α}
    {result : Except (DecodeFault α) (Draft α × Nat)} (repairs : d.Repairs x swaps st₁ result st₂)
    {drafts : List (Draft α)} (trail : d.Trail st start (drafts ++ [x]))
    (follows : d.Follows sort st st₁) (counted : drafts.length = swaps) :
    d.Follows sort st st₂ ∧ ∃ drafts last, d.Trail st start (drafts ++ [last]) ∧
      d.EndsAt st last drafts.length result := by
  have best := bestSwap_ends total closed (trail.composes x (by simp))
    (trail.sorted closed first x (by simp)) follows
  induction repairs generalizing drafts with
  | @met x swaps st₁ satisfied =>
    exact ⟨follows, drafts, x, trail, by rw [counted], satisfied⟩
  | @stuck x swaps st₁ st₂ violated run =>
    obtain ⟨follows₂, optimal⟩ := best.of_ok run
    exact ⟨follows₂, drafts, x, trail, rfl, rfl, violated, optimal⟩
  | @broken x swaps st₁ st₂ e violated run =>
    obtain ⟨follows₂, f, rfl, obstacle⟩ := best.of_error run
    exact ⟨follows₂, drafts, x, trail, violated, obstacle⟩
  | swapped _ run _ ih =>
    obtain ⟨follows₂, composes, step⟩ := best.of_ok run
    have longer := trail.append composes step
    refine ih longer follows₂ ?_ (bestSwap_ends total closed composes
      (longer.sorted closed first _ (by simp)) follows₂)
    rw [List.length_append, counted, List.length_singleton]

/-- Repairing a draft is the unbounded loop, and it ends at the end of a trail. -/
lemma repair_endsAt (total : ∀ g, ∃ v, d.scorer g = .ok v) (closed : Closed sort st)
    (first : sort start.selection) (composes : d.Composes st.graph start) :
    let run := (d.repair start).run st
    d.Repairs start 0 st run.1 run.2 ∧ d.Follows sort st run.2 ∧
      ∃ drafts last, d.Trail st start (drafts ++ [last]) ∧
        d.EndsAt st last drafts.length run.1 := by
  intro run
  have alone : d.Trail st start ([] ++ [start]) := .one composes
  have repairs : d.Repairs start 0 st run.1 run.2 :=
    repairs_repairWithin total alone (.refl st) (by simp)
  exact ⟨repairs, repairs.exists_endsAt total closed first alone (.refl st) rfl⟩

/-- Repairing a draft ends like the unbounded loop does, for every supergraph, budget and total
scorer. On the way every swap lowers the overage and no selection comes twice. A draft that is
returned is within the budget; when no swap helps, the best effort exceeds the budget, and no swap
of it that composes has a lower overage; a fault comes from looking at such swaps. -/
theorem repair_ends (d : Decoder α) (total : ∀ g, ∃ v, d.scorer g = .ok v) (st : Decoding α)
    (start : Draft α) (composes : d.Composes st.graph start) :
    let run := (d.repair start).run st
    d.Repairs start 0 st run.1 run.2 ∧ run.2.graph = st.graph ∧
      ∃ drafts last, d.Trail st start (drafts ++ [last]) ∧
        ((drafts ++ [last]).map (·.selection)).Nodup ∧ d.EndsAt st last drafts.length run.1 := by
  intro run
  have closed : Closed (fun _ => True) st := fun _ _ _ _ _ _ => trivial
  obtain ⟨repairs, follows, drafts, last, trail, ends⟩ :=
    repair_endsAt total closed trivial composes
  exact ⟨repairs, follows.graph, drafts, last, trail, trail.nodup, ends⟩

/-! ### Three operators for two exits -/

namespace Sample

/-- Elementary functions of rational numbers, right at zero and at one. -/
def elementary : Elementary ℚ where
  exp x := 1 + x
  log x := x - 1
  sqrt x := x
  pow x _ := x
  infinity := 0
  truncate x := x.floor
  divides x n := x ≠ 0 && (n / x).den = 1

scoped instance : Scalar ℚ :=
  ofField elementary

scoped instance : Exact ℚ :=
  exact_ofField elementary

/-- A type of one dimension. -/
def typeOf (kind : String) (dim : Dim) : PortType :=
  { kind, shape := [dim], metric := "l2", group := .empty }

/-- Work that could be differentiated, if it were ever done. -/
def idle : Executor ℚ where
  evaluate _ _ := fail .wrongForm
  pullback? := some fun _ _ _ _ => fail .wrongForm
  bound _ := .ok none

/-- An operator that gives a feature at given costs. -/
def feature (name : String) (width : Nat) (cost flops : ℚ) : Operator ℚ :=
  { name, inTypes := [typeOf "path" (.symbol "X")], outType := typeOf "feature" (.ofNat width)
    differentiable := true, invariance := .empty, stability := none
    cost := .ofList [("cost", cost), ("flops", flops)], params := .empty, adapter := false
    executor := some idle }

/-- The first operator has its own width; of the others, the dearer one needs less work. -/
def catalog : Catalog ℚ :=
  (Catalog.ofKinds ["path", "feature"] "cost").extend
    [feature "a" 3 2 2, feature "b" 4 1 5, feature "c" 4 3 1] (by decide)

/-- The position for the two operators of one width. -/
def wide : Position ℚ :=
  { id := 0, stage := 1, inputs := [none], outType := typeOf "feature" (.ofNat 4)
    candidates := [feature "b" 4 1 5, feature "c" 4 3 1], state := .masked, logits := .row [0, 0]
    chosen := none }

/-- The position for the other operator. -/
def narrow : Position ℚ :=
  { id := 1, stage := 1, inputs := [none], outType := typeOf "feature" (.ofNat 3)
    candidates := [feature "a" 3 2 2], state := .masked, logits := .row [0], chosen := none }

/-- Both positions are exits. -/
def graph : Supergraph ℚ :=
  { catalog, inputType := typeOf "path" (.ofNat 3), outputType := typeOf "feature" (.symbol "K")
    depth := .whole 1, positions := [wide, narrow], exits := [0, 1], routeLogits := .row [0, 0] }

/-- The settings of a search that does not draw. -/
def settings : Settings ℚ where
  weightRate := .ok (.whole 0)
  logitRate := .ok (.whole 0)
  batchSize := .all
  headScale := .ok 0
  logitScale := .ok (.whole 0)
  schedule :=
    { start := .whole 1, final := .whole 1, steps := .whole 1, cooling := .linear
      final_pos := by decide, final_le := by decide }
  pruneThreshold := 0
  pruneEvery := .whole 1
  warmupSteps := .ok (.whole 0)
  penalty := .ok 0
  maskOverBudget := false
  maxFanIn := .whole 3
  maxSeconds := none
  ridge := .ok 0
  insertFixed := true
  tieBreak := [.cost, .catalogOrder]
  metricKinds := .none
  objective := .null

/-- A decoder that finds all networks equally good, with one limit. -/
def limited (limit : ℚ) (positive : 0 < limit) : Decoder ℚ where
  scorer _ := .ok 0
  budget :=
    { limits := .ofList [("flops", limit)]
      positive := by
        change ∀ p ∈ [("flops", limit)], 0 < p.2
        simpa using positive }
  settings := settings
  params _ _ := .ok .empty
  networkId := "decoded"

/-- The selection of one operator for an exit. -/
def alone (exit : Int) (name : String) : Selection :=
  ⟨some (.id exit), [(.id exit, .text name)]⟩

/-- The draft of a selection that composes. -/
def draftOf (d : Decoder ℚ) (selection : Selection) : Draft ℚ :=
  let network := (d.materialize graph selection).toOption.getD default
  { selection, network, prices := (d.pricesOf network).toOption.getD [] }

/-- A draft that is built and priced composes its selection. -/
lemma composes_draftOf {d : Decoder ℚ} {selection : Selection}
    (built : (d.materialize graph selection).isOk = true)
    (priced : (d.pricesOf (draftOf d selection).network).isOk = true) :
    d.Composes graph (draftOf d selection) where
  network := eq_ok_getD built
  prices := eq_ok_getD priced

end Sample

open Sample in
/-- A draft with too much work is repaired by one swap, to the cheaper one of the others. -/
theorem repair_ends_alone :
    let d := limited 2 (by decide)
    let st := d.start graph
    let start := draftOf d (alone 0 "b")
    let run := (d.repair start).run st
    (∀ g, ∃ v, d.scorer g = .ok v) ∧ d.Composes st.graph start ∧
      (run.1.toOption.map fun r => (r.1.selection.ops.map fun q => q.2.text?, r.2)) =
        some ([some "a"], 1) ∧
      d.Repairs start 0 st run.1 run.2 ∧ run.2.graph = st.graph ∧
      ∃ drafts last, d.Trail st start (drafts ++ [last]) ∧
        ((drafts ++ [last]).map (·.selection)).Nodup ∧ d.EndsAt st last drafts.length run.1 := by
  intro d st start run
  have total : ∀ g, ∃ v, d.scorer g = .ok v := fun g => ⟨0, rfl⟩
  have composes : d.Composes st.graph start :=
    composes_draftOf (by decide +kernel) (by decide +kernel)
  exact ⟨total, composes, by decide +kernel, repair_ends d total st start composes⟩

end Decoder

end OperatorNet
