import Mathlib.Data.List.Forall2
import OperatorNet.Proofs.Faults
import OperatorNet.Proofs.Results
import OperatorNet.Search.Enumeration

/-!
# Orderly supergraphs

A supergraph is orderly when its positions are in ascending order of their ids and an operator that
was chosen for a position is a candidate there. Supergraphs are built orderly
(`Supergraph.orderly_build`), and positions may be dropped or changed in place.
-/

namespace OperatorNet

variable {α : Type}

namespace Position

variable {p q : Position α} {state : PositionState}

/-- The sources of a position are the positions that it reads. -/
lemma mem_sources {id : Int} : id ∈ p.sources ↔ some id ∈ p.inputs := by
  simp [sources]

/-- The first fixed operator is a candidate. -/
lemma mem_candidates_of_firstFixed {op : Operator α} (first : p.firstFixed = .ok op) :
    op ∈ p.candidates := by
  unfold firstFixed at first
  split at first
  next op' rest fixed =>
    cases first
    have mem : op ∈ p.fixed := fixed ▸ List.mem_cons_self ..
    exact (List.mem_filter.1 mem).1
  next => exact absurd first fail_ne_ok

/-- What was chosen for a position is a candidate, and the position is decoded. -/
def Settled (p : Position α) : Prop :=
  ∀ c, p.chosen = some c → p.state = .decoded ∧ ∃ op ∈ p.candidates, c = .text op.name

/-- A position without a choice is settled. -/
lemma settled_of_chosen_eq_none (unchosen : p.chosen = none) : p.Settled := by
  intro c chosen
  rw [unchosen] at chosen
  cases chosen

/-- A settled position that was not decoded has no choice. -/
lemma Settled.chosen_eq_none (settled : p.Settled) (undecoded : p.state ≠ .decoded) :
    p.chosen = none := by
  cases chosen : p.chosen with
  | none => rfl
  | some c => exact absurd (settled c chosen).1 undecoded

/-- A position goes on to a state that follows. -/
lemma transition_eq_ok : p.transition state = .ok q ↔
    state ∈ p.state.following ∧ q = { p with state } := by
  rw [transition]
  split
  next follows =>
    rw [Except.ok.injEq, eq_comm]
    exact ⟨fun same => ⟨follows, same⟩, fun h => h.2⟩
  next none => exact ⟨fun eq => absurd eq fail_ne_ok, fun h => absurd h.1 none⟩

/-- Nothing follows the last state, so nothing was chosen for a position that moves on. -/
lemma Settled.transition (settled : p.Settled) (moved : p.transition state = .ok q) :
    q.Settled ∧ q.chosen = none := by
  obtain ⟨follows, rfl⟩ := transition_eq_ok.1 moved
  have undecoded : p.state ≠ .decoded := by
    intro last
    rw [last] at follows
    cases follows
  have unchosen := settled.chosen_eq_none undecoded
  exact ⟨settled_of_chosen_eq_none unchosen, unchosen⟩

/-- Removing candidates leaves the choice. -/
lemma chosen_of_remove [Scalar α] {names : List String} (removed : p.remove names = .ok q) :
    q.chosen = p.chosen := by
  simp only [remove, bind_eq_ok, pure_eq_ok] at removed
  obtain ⟨logits, -, rfl⟩ := removed
  rfl

end Position

namespace Supergraph

/-- Positions are in ascending order, and what was chosen for them are candidates. -/
structure Orderly (s : Supergraph α) : Prop where
  ascending : s.ids.Pairwise (· < ·)
  settled : ∀ p ∈ s.positions, p.Settled

namespace Orderly

variable {s t : Supergraph α} {p : Position α} {id : Int}

/-- The ids of an orderly network are different. -/
lemma nodup (orderly : s.Orderly) : s.ids.Nodup :=
  orderly.ascending.imp fun less => Int.ne_of_lt less

/-- Positions may be changed in place. -/
lemma of_forall₂ (orderly : s.Orderly) (each : List.Forall₂
    (fun p q => q.id = p.id ∧ (p.Settled → q.Settled)) s.positions t.positions) : t.Orderly := by
  have ids : t.ids = s.ids := by
    have same : List.Forall₂ (· = ·) s.ids t.ids := by
      rw [Supergraph.ids, Supergraph.ids, List.forall₂_map_left_iff, List.forall₂_map_right_iff]
      exact each.imp fun _ _ both => both.1.symm
    rw [List.forall₂_eq_eq_eq] at same
    exact same.symm
  refine ⟨ids ▸ orderly.ascending, fun q hq => ?_⟩
  obtain ⟨p, hp, -, settled⟩ := exists_of_mem_forall₂ each hq
  exact settled (orderly.settled p hp)

/-- A map that keeps ids and settled positions keeps a network orderly. -/
lemma map {f : Position α → Position α} (orderly : s.Orderly)
    (each : ∀ p, (f p).id = p.id ∧ (p.Settled → (f p).Settled)) :
    Orderly { s with positions := s.positions.map f } := by
  refine orderly.of_forall₂ ?_
  rw [List.forall₂_map_right_iff]
  exact List.forall₂_same.2 fun p _ => each p

/-- A settled position that is put in keeps a network orderly. -/
lemma replace (orderly : s.Orderly) (settled : p.Settled) : (s.replace p).Orderly := by
  refine orderly.map fun q => ?_
  split
  next same => exact ⟨same.symm, fun _ => settled⟩
  next => exact ⟨rfl, fun h => h⟩

/-- Positions may be dropped. -/
lemma filter (orderly : s.Orderly) (keep : Position α → Bool) :
    Orderly { s with positions := s.positions.filter keep } where
  ascending := orderly.ascending.sublist (List.filter_sublist.map _)
  settled q hq := orderly.settled q (List.mem_filter.1 hq).1

/-- Dropping what leads nowhere keeps a network orderly. -/
lemma dropDead (orderly : s.Orderly) (dropped : s.dropDead = .ok t) : t.Orderly := by
  simp only [Supergraph.dropDead, bind_eq_ok, pure_eq_ok] at dropped
  obtain ⟨live, -, rfl⟩ := dropped
  exact orderly.filter _

/-- Removing exits keeps a network orderly. -/
lemma removeExits [Scalar α] {rs : List Ref} (orderly : s.Orderly)
    (removed : s.removeExits rs = .ok t) : t.Orderly := by
  simp only [Supergraph.removeExits, bind_eq_ok, pure_eq_ok] at removed
  obtain ⟨-, -, logits, -, rfl⟩ := removed
  exact ⟨orderly.ascending, orderly.settled⟩

end Orderly

/-- Putting something in the place of a position twice is putting the last one there. -/
lemma replace_replace {s : Supergraph α} {p q : Position α} (same : q.id = p.id) :
    (s.replace p).replace q = s.replace q := by
  unfold replace
  rw [List.map_map]
  congr 1
  refine List.map_congr_left fun r _ => ?_
  rw [Function.comp_apply]
  by_cases here : r.id = p.id
  · rw [if_pos here, if_pos same.symm, if_pos (here.trans same.symm)]
  · rw [if_neg here]

end Supergraph

/-! ### Building -/

/-- Positions are numbered from zero, and nothing has been chosen. -/
structure Numbered (positions : List (Position α)) : Prop where
  ids : positions.map (·.id) = (List.range positions.length).map fun (n : Nat) => (n : Int)
  unchosen : ∀ p ∈ positions, p.chosen = none

/-- New positions that go on counting keep positions numbered. -/
lemma Numbered.append {positions new : List (Position α)} (numbered : Numbered positions)
    (ids : new.map (·.id) =
      (List.range new.length).map fun (n : Nat) => ((positions.length + n : Nat) : Int))
    (unchosen : ∀ p ∈ new, p.chosen = none) : Numbered (positions ++ new) where
  ids := by
    rw [List.map_append, numbered.ids, ids, List.length_append, List.range_add, List.map_append,
      List.map_map]
    rfl
  unchosen p hp := (List.mem_append.1 hp).elim (numbered.unchosen p) (unchosen p)

/-- Numbered positions ascend. -/
lemma Numbered.pairwise {positions : List (Position α)} (numbered : Numbered positions) :
    (positions.map (·.id)).Pairwise (· < ·) := by
  rw [numbered.ids, List.pairwise_map]
  exact List.pairwise_lt_range.imp fun less => Int.ofNat_lt.2 less

/-- The ids of numbered positions are below their number. -/
lemma Numbered.bounds {positions : List (Position α)} (numbered : Numbered positions)
    {p : Position α} (mem : p ∈ positions) : 0 ≤ p.id ∧ p.id < positions.length := by
  have there : p.id ∈ positions.map (·.id) := List.mem_map_of_mem mem
  rw [numbered.ids] at there
  obtain ⟨n, less, eq⟩ := List.mem_map.1 there
  rw [← eq]
  exact ⟨Int.natCast_nonneg n, Int.ofNat_lt.2 (List.mem_range.1 less)⟩

variable [Scalar α]

/-- The positions of the groups of a stage, numbered on. -/
def newPositions (c : Catalog α) (stage first : Nat) (groups : List (CandidateGroup α)) :
    List (Position α) :=
  groups.mapIdx fun i g => g.toPosition c stage ((first + i : Nat) : Int)

/-- A new position is that of a group. -/
lemma exists_of_mem_newPositions {c : Catalog α} {stage first : Nat}
    {groups : List (CandidateGroup α)} {p : Position α}
    (mem : p ∈ newPositions c stage first groups) :
    ∃ i, ∃ g ∈ groups, p = g.toPosition c stage ((first + i : Nat) : Int) := by
  obtain ⟨i, less, rfl⟩ := List.mem_mapIdx.1 mem
  exact ⟨i, _, List.getElem_mem less, rfl⟩

/-- The new positions of a stage keep positions numbered. -/
lemma Numbered.append_newPositions {c : Catalog α} {positions : List (Position α)}
    (numbered : Numbered positions) (stage : Nat) (groups : List (CandidateGroup α)) :
    Numbered (positions ++ newPositions c stage positions.length groups) := by
  refine numbered.append ?_ fun p hp => ?_
  · refine List.ext_getElem (by simp) fun i _ _ => ?_
    simp only [newPositions, List.getElem_map, List.getElem_mapIdx, List.getElem_range,
      CandidateGroup.toPosition]
  · obtain ⟨i, g, -, rfl⟩ := exists_of_mem_newPositions hp
    rfl

/-- What can be read: the input and the values of positions. -/
def sourcesOf (input : PortType) (positions : List (Position α)) : List Source :=
  ⟨none, input, 0⟩ :: positions.map fun p => ⟨some p.id, p.outType, p.stage⟩

section

variable {c : Catalog α} {excluded : Exclusion α} {maxFanIn : Number α}
    {combinators : List (Operator α)}
  {input output : PortType} {depth : StageBound} {stages stage suffix : Nat}
  {positions all : List (Position α)} {s : Supergraph α}

/-- A stage without positions is the last one, and it must not be the first one. -/
lemma layOut_succ_eq_ok :
    layOut c excluded combinators input stage suffix positions (stages + 1) = .ok all ↔
      ∃ attempts groups,
        stageAttempts c excluded combinators stage (sourcesOf input positions) = .ok attempts ∧
          groupAttempts suffix [] attempts = .ok groups ∧
          (groups = [] ∧ stage ≠ 1 ∧ all = positions ∨ groups ≠ [] ∧
            layOut c excluded combinators input (stage + 1) (suffix + attempts.length)
              (positions ++ newPositions c stage positions.length groups) stages = .ok all) := by
  simp only [layOut, bind_eq_ok, exists_and_left, sourcesOf]
  refine exists_congr fun attempts => and_congr_right fun _ => exists_congr fun groups =>
    and_congr_right fun _ => ?_
  cases groups with
  | nil =>
    dsimp only
    split
    next first =>
      rw [requireWritable_bind_eq_ok]
      exact ⟨fun h => absurd h.2 fail_ne_ok, fun h => h.elim (fun h => absurd first h.2.1) fun h =>
        absurd rfl h.1⟩
    next later =>
      refine pure_eq_ok.trans ⟨fun same => .inl ⟨rfl, later, same.symm⟩, ?_⟩
      exact fun h => h.elim (fun h => h.2.2.symm) fun h => absurd rfl h.1
  | cons g rest => simp [newPositions]

/-- What is laid out is numbered. -/
lemma numbered_layOut (numbered : Numbered positions)
    (laid : layOut c excluded combinators input stage suffix positions stages = .ok all) :
    Numbered all := by
  induction stages generalizing stage suffix positions with
  | zero =>
    cases laid
    exact numbered
  | succ stages ih =>
    obtain ⟨attempts, groups, -, -, ⟨-, -, rfl⟩ | ⟨-, laid⟩⟩ := layOut_succ_eq_ok.1 laid
    · exact numbered
    · exact ih (numbered.append_newPositions stage groups) laid

namespace Supergraph

omit [Scalar α] in
/-- The positions whose values fit a type, unless a number is too long to be written. -/
lemma words_answering (output : PortType) (positions : List (Position α)) :
    Words (answering output positions)
      (.ok (positions.filter fun p => (Bindings.empty.unify? output p.outType).isSome)) := by
  refine words_filterM (fun p => .worded ?_) positions
  rw [Bindings.unify?]
  cases Bindings.empty.unify output p.outType <;> exact .refl _

/-- The steps of building a supergraph. -/
lemma build_steps (built : build c input output depth maxFanIn excluded = .ok s) :
    ∃ combinators all t,
      ((c.combinators.filter fun op => (Number.whole op.arity).atMost maxFanIn).filterM
        fun op => return !(← excluded op)) = .ok combinators ∧
      layOut c excluded combinators input 1 0 [] depth.count.toNat = .ok all ∧
      ((all.filter fun p => (Bindings.empty.unify? output p.outType).isSome).map (·.id)) ≠ [] ∧
      dropDead
        { catalog := c, inputType := input, outputType := output, depth, positions := all
          exits := (all.filter fun p => (Bindings.empty.unify? output p.outType).isSome).map (·.id)
          routeLogits := .zeros
            ((all.filter fun p => (Bindings.empty.unify? output p.outType).isSome).map (·.id)) } =
        .ok t ∧
      s =
        { t with positions := t.positions.map fun p => { p with logits := .zeros p.mixing } } := by
  unfold build at built
  split at built
  next => cases built
  simp only [bind_eq_ok] at built
  obtain ⟨combinators, kept, all, laid, answers, answering, built⟩ := built
  obtain rfl := Except.ok.inj ((words_answering output all).eq_ok answering)
  split at built
  next => exact absurd (requireWritable_bind_eq_ok.1 built).2 fail_ne_ok
  next some =>
    simp only [bind_eq_ok, pure_eq_ok] at built
    obtain ⟨t, dropped, -, -, rfl⟩ := built
    exact ⟨combinators, all, t, kept, laid, by simpa using some, dropped, rfl⟩

/-- A supergraph is built orderly. -/
lemma orderly_build (built : build c input output depth maxFanIn excluded = .ok s) : s.Orderly := by
  obtain ⟨combinators, positions, t, -, laid, -, dropped, rfl⟩ := build_steps built
  have empty : Numbered ([] : List (Position α)) := ⟨rfl, fun _ mem => absurd mem List.not_mem_nil⟩
  have numbered := numbered_layOut empty laid
  refine (Orderly.dropDead ⟨?_, fun p hp => ?_⟩ dropped).map fun p => ⟨rfl, fun h => h⟩
  · exact numbered.pairwise
  · exact Position.settled_of_chosen_eq_none (numbered.unchosen p hp)

end Supergraph

end

end OperatorNet
