import OperatorNet.Proofs.Catalog.Reachable
import OperatorNet.Proofs.PortType.Agreement
import OperatorNet.Proofs.Search.Attempts
import OperatorNet.Proofs.Search.Groups
import OperatorNet.Proofs.Search.Orderly

/-!
# Layouts

The positions that are laid out enumerate the groups of operators on offer that take a row of
sources (`Enumerates`): every group has one position, and every position is that of a group. The
symbols of each use of an operator are marked by its place among all uses that are tried, so that a
stage leaves what was laid out before it as it was (`Laid.stage`), and a stage without positions is
the last one (`Laid.idle`).
-/

namespace OperatorNet

open PortType

variable {α : Type}

/-- The name of an operator that is used, with what it reads. -/
abbrev Use :=
  String × List (Option Int)

/-- The use of an operator that reads a row of sources. -/
def useOf (op : Operator α) (row : List Source) : Use :=
  (op.name, row.map (·.id))

/-- The suffix of the symbols of a use. -/
def useSuffix (n : Nat) : String :=
  "s" ++ toString n

/-- The type of the value of an operator that reads a row of sources, if it takes these. Its symbols
are marked by the place of the use. -/
def Operator.instanceOn (op : Operator α) (uses : List Use) (row : List Source) : Option PortType :=
  if row.length = op.arity then
    op.valueType? (useSuffix (uses.idxOf (useOf op row))) (row.map (·.type))
  else none

/-! ### Sources -/

section Sources

variable {input : PortType} {positions new : List (Position α)}
    {sources more row row' : List Source}
  {stage stage' : Nat}

/-- New positions are sources behind the others. -/
lemma sourcesOf_append : sourcesOf input (positions ++ new) =
    sourcesOf input positions ++ new.map fun p => ⟨some p.id, p.outType, p.stage⟩ := by
  rw [sourcesOf, List.map_append]
  rfl

/-- Sources have different ids. -/
lemma nodup_ids_sourcesOf (numbered : Numbered positions) :
    ((sourcesOf input positions).map (·.id)).Nodup := by
  have ids : (positions.map (·.id)).Nodup := numbered.pairwise.imp fun less => Int.ne_of_lt less
  have some_ids := ids.map (Option.some_injective Int)
  rw [List.map_map] at some_ids
  rw [sourcesOf, List.map_cons, List.map_map]
  refine List.nodup_cons.2 ⟨fun mem => ?_, some_ids⟩
  obtain ⟨p, -, eq⟩ := List.mem_map.1 mem
  cases eq

/-- Sources of later stages change nothing about the rows of a stage. -/
lemma row_append_iff (later : ∀ s ∈ more, stage ≤ s.stage) :
    Row (sources ++ more) stage row ↔ Row sources stage row := by
  constructor
  · rintro ⟨within, earlier, distinct, last⟩
    refine ⟨fun s hs => ?_, earlier, distinct, last⟩
    rcases List.mem_append.1 (within s hs) with here | there
    · exact here
    · exact absurd (later s there) (Nat.not_le.2 (earlier s hs))
  · rintro ⟨within, earlier, distinct, last⟩
    exact ⟨fun s hs => List.mem_append_left _ (within s hs), earlier, distinct, last⟩

/-- A row belongs to one stage. -/
lemma Row.stage_eq (first : Row sources stage row) (second : Row sources stage' row) :
    stage = stage' := by
  obtain ⟨s, hs, last⟩ := first.last
  obtain ⟨s', hs', last'⟩ := second.last
  have below := second.earlier s hs
  have below' := first.earlier s' hs'
  omega

/-- Rows with the same ids are the same. -/
lemma Row.eq_of_ids (distinct : (sources.map (·.id)).Nodup) (first : Row sources stage row)
    (second : Row sources stage' row') (same : row.map (·.id) = row'.map (·.id)) : row = row' :=
  eq_of_map_eq same fun s hs s' hs' eq =>
    List.inj_on_of_nodup_map distinct (first.within s hs) (second.within s' hs') eq

end Sources

/-- Pairs are different when those with the same second component have different first ones. -/
lemma nodup_map_of_filter {β γ κ : Type} [DecidableEq κ] {l : List β} (g : β → γ) (f : β → κ)
    (each : ∀ k, ((l.filter (f · = k)).map g).Nodup) : (l.map fun x => (g x, f x)).Nodup := by
  induction l with
  | nil => exact List.nodup_nil
  | cons x rest ih =>
    rw [List.map_cons, List.nodup_cons]
    constructor
    · intro again
      obtain ⟨y, hy, same⟩ := List.mem_map.1 again
      obtain ⟨first, second⟩ := Prod.ext_iff.1 same
      have here := each (f x)
      rw [List.filter_cons_of_pos (by simp), List.map_cons, List.nodup_cons] at here
      exact here.1 (List.mem_map.2 ⟨y, List.mem_filter.2 ⟨hy, decide_eq_true second⟩, first⟩)
    · exact ih fun k => (each k).sublist (((List.sublist_cons_self x rest).filter _).map g)

/-! ### Suffixes -/

/-- The suffix of a use is plain. -/
lemma plainSuffix_useSuffix (n : Nat) : PlainSuffix (useSuffix n) :=
  plainSuffix_marked (by unfold PlainSuffix; decide) n

/-- Different uses have different suffixes. -/
lemma useSuffix_inj {m n : Nat} (same : useSuffix m = useSuffix n) : m = n :=
  marked_inj same

/-- The suffix of the request is none of a use. -/
lemma query_ne_useSuffix (n : Nat) : "q" ≠ useSuffix n := by
  intro same
  have lists := congrArg String.toList same
  rw [useSuffix, String.toList_append] at lists
  exact absurd (List.cons.inj lists).1 (by decide)

/-! ### What is laid out -/

variable [Scalar α]

/-- A position gathers the operators on offer that take a row of sources and give the same type, up
to the names of symbols; its type is that of one of them. -/
structure Position.Gathers (c : Catalog α) (excluded : Exclusion α) (maxFanIn : Number α)
    (uses : List Use) (p : Position α) (row : List Source) : Prop where
  inputs : p.inputs = row.map (·.id)
  typed : ∃ op, c.Offers excluded maxFanIn op ∧ op.instanceOn uses row = some p.outType
  candidates : ∃ ops, ops.Sublist c.operators ∧ p.candidates = c.inOrder ops ∧
    ∀ op, op ∈ ops ↔ c.Offers excluded maxFanIn op ∧
      ∃ t, op.instanceOn uses row = some t ∧ t.signatureKey = p.outType.signatureKey

/-- Positions enumerate the groups of operators on offer up to a stage. -/
structure Enumerates (c : Catalog α) (excluded : Exclusion α) (maxFanIn : Number α)
    (input : PortType) (stages : Nat) (uses : List Use) (positions : List (Position α)) : Prop where
  numbered : Numbered positions
  masked : ∀ p ∈ positions, p.state = .masked
  staged : ∀ p ∈ positions, 1 ≤ p.stage ∧ p.stage ≤ stages
  gathers : ∀ p ∈ positions, ∃ row, Row (sourcesOf input positions) p.stage row ∧
    p.Gathers c excluded maxFanIn uses row
  ascending : ∀ p ∈ positions, ∀ id ∈ p.sources, id < p.id
  /-- The group of every use has a position. -/
  covers : ∀ op stage row t, stage ≤ stages → Row (sourcesOf input positions) stage row →
    c.Offers excluded maxFanIn op → op.instanceOn uses row = some t →
    useOf op row ∈ uses ∧ ∃ p ∈ positions, p.inputs = row.map (·.id) ∧
      p.outType.signatureKey = t.signatureKey
  apart : positions.Pairwise fun p q =>
    ¬ (p.inputs = q.inputs ∧ p.outType.signatureKey = q.outType.signatureKey)

/-- Positions of different groups are apart. -/
lemma apart_newPositions {c : Catalog α} {stage first : Nat} {groups : List (CandidateGroup α)}
    {es : List (Entrant α)} (grouped : Grouped es groups) :
    (newPositions c stage first groups).Pairwise fun p q =>
      ¬ (p.inputs = q.inputs ∧ p.outType.signatureKey = q.outType.signatureKey) := by
  rw [List.pairwise_iff_getElem]
  intro i j hi hj less same
  rw [newPositions, List.length_mapIdx] at hi hj
  simp only [newPositions, List.getElem_mapIdx, CandidateGroup.toPosition] at same
  refine List.pairwise_iff_getElem.1 grouped.apart i j hi hj less ⟨same.1, ?_⟩
  rw [grouped.keyed _ (List.getElem_mem hi), grouped.keyed _ (List.getElem_mem hj)]
  exact same.2

namespace Grouped

variable {c : Catalog α} {excluded : Exclusion α} {maxFanIn : Number α}
    {combinators : List (Operator α)}
  {stage suffix : Nat} {sources : List Source} {attempts : List (Operator α × List Source)}
  {groups : List (CandidateGroup α)} {g : CandidateGroup α}

/-- The operators of a group are in catalog order. -/
lemma sublist_operators (grouped : Grouped (entrants suffix attempts) groups)
    (combines : Combines c excluded maxFanIn combinators) (distinct : (sources.map (·.id)).Nodup)
    (done : stageAttempts c excluded combinators stage sources = .ok attempts) (mem : g ∈ groups) :
    g.operators.Sublist c.operators := by
  -- they are among those that are tried on the row of the group
  have tried := (sublist_entrants suffix attempts).filter fun u => u.2 = g.inputs
  rw [List.filter_map, List.filter_map] at tried
  have ordered := sublist_operators_of_stageAttempts combines distinct done g.inputs
  have firsts := tried.map Prod.fst
  rw [List.map_map, List.map_map] at firsts
  rw [grouped.operators g mem]
  refine (List.Sublist.map _ ?_).trans (firsts.trans ordered)
  refine List.monotone_filter_right _ fun e joins => ?_
  exact decide_eq_true (of_decide_eq_true joins).1

omit [Scalar α] in
/-- An operator of a group was tried on the row of the group. -/
lemma exists_attempt (grouped : Grouped (entrants suffix attempts) groups) (mem : g ∈ groups) :
    ∃ op row, (op, row) ∈ attempts ∧ g.inputs = row.map (·.id) ∧ op ∈ g.operators := by
  obtain ⟨e, he, inputs, type⟩ := grouped.represented g mem
  have joins : e.Joins g := ⟨inputs, by rw [type, grouped.keyed g mem]⟩
  have inside : e.operator ∈ g.operators := by
    rw [grouped.operators g mem]
    exact List.mem_map_of_mem (List.mem_filter.2 ⟨he, decide_eq_true joins⟩)
  obtain ⟨i, op, row, there, t, -, rfl⟩ := mem_entrants_iff.1 he
  exact ⟨op, row, List.mem_of_getElem? there, inputs.symm, inside⟩

end Grouped

/-- What is laid out by trying some uses of operators. -/
structure Laid (c : Catalog α) (excluded : Exclusion α) (maxFanIn : Number α) (input : PortType)
    (stages : Nat) (uses : List Use) (positions : List (Position α)) : Prop
    extends Enumerates c excluded maxFanIn input stages uses positions where
  distinct : uses.Nodup
  plain : ∀ s, input.Mentions s → '#' ∉ s.toList
  /-- Symbols are those of the input and those of uses. -/
  known : ∀ source ∈ sourcesOf input positions, ∀ s, source.type.Mentions s →
    input.Mentions s ∨ ∃ i < uses.length, ∃ base, s = freshName (useSuffix i) base
  /-- The symbols of a use do not occur in what it reads. -/
  used : ∀ u ∈ uses, ∃ (op : Operator α) (stage : Nat) (row : List Source),
    stage ≤ stages ∧ Row (sourcesOf input positions) stage row ∧ u = useOf op row ∧
      ∀ s ∈ row, s.type.Lacks (useSuffix (uses.idxOf u))
  tried : ∀ op stage row, stage ≤ stages → Row (sourcesOf input positions) stage row →
    c.Offers excluded maxFanIn op → row.length = op.arity →
    (op.arity = 1 → (op.valueType? "q" (row.map (·.type))).isSome) → useOf op row ∈ uses

namespace Laid

variable {c : Catalog α} {excluded : Exclusion α} {maxFanIn : Number α} {input : PortType}
  {stages stage : Nat} {uses more : List Use} {positions : List (Position α)} {op : Operator α}
  {row : List Source} {source : Source} {t : PortType}

/-- Symbols with a new suffix do not occur yet. -/
lemma lacks (laid : Laid c excluded maxFanIn input stages uses positions)
    (mem : source ∈ sourcesOf input positions) {suffix : String} (plain : PlainSuffix suffix)
    (new : ∀ i < uses.length, suffix ≠ useSuffix i) : source.type.Lacks suffix := by
  intro base mentions
  rcases laid.known source mem _ mentions with given | ⟨i, less, base', same⟩
  · exact laid.plain _ given (numberSign_mem_freshName suffix base)
  · exact new i less (freshName_inj plain (plainSuffix_useSuffix i) same).1

/-- Symbols without a suffix that the input does not have do not occur. -/
lemma not_mentions (laid : Laid c excluded maxFanIn input stages uses positions)
    (mem : source ∈ sourcesOf input positions) {s : String} (bare : '#' ∉ s.toList)
    (apart : ¬ input.Mentions s) : ¬ source.type.Mentions s := by
  intro mentions
  rcases laid.known source mem s mentions with given | ⟨i, -, base, rfl⟩
  · exact apart given
  · exact bare (numberSign_mem_freshName _ _)

/-- The types of the sources have no names of uses to come. -/
lemma lacks_new (laid : Laid c excluded maxFanIn input stages uses positions)
    (mem : source ∈ sourcesOf input positions) {n : Nat} (further : uses.length ≤ n) :
    source.type.Lacks (useSuffix n) :=
  laid.lacks mem (plainSuffix_useSuffix n) fun i less same => by
    have := useSuffix_inj same
    omega

/-- What a use reads does not have the symbols of the use. -/
lemma lacks_own (laid : Laid c excluded maxFanIn input stages uses positions)
    (row_ : Row (sourcesOf input positions) stage row) (op : Operator α) :
    ∀ s ∈ row, s.type.Lacks (useSuffix (uses.idxOf (useOf op row))) := by
  intro s hs
  by_cases known : useOf op row ∈ uses
  · obtain ⟨op', stage', row', -, row_', same, own⟩ := laid.used _ known
    obtain rfl := row_.eq_of_ids (nodup_ids_sourcesOf laid.numbered) row_' (Prod.ext_iff.1 same).2
    exact own s hs
  · rw [List.idxOf_of_notMem known]
    exact laid.lacks_new (row_.within s hs) (Nat.le_refl _)

/-- An operator that has not been tried on a row takes it when it does so with any other symbols. -/
lemma isSome_instanceOn_iff (laid : Laid c excluded maxFanIn input stages uses positions)
    (row_ : Row (sourcesOf input positions) stage row) (new : useOf op row ∉ uses) :
    (op.instanceOn (uses ++ more) row).isSome ↔
      row.length = op.arity ∧ (op.valueType? "q" (row.map (·.type))).isSome := by
  rw [Operator.instanceOn, List.idxOf_append_of_notMem new]
  split
  next length =>
    rw [and_iff_right length]
    refine Bindings.isSome_iff_of_rel (Operator.valueType?_suffix ?_ ?_)
    · intro t ht
      obtain ⟨source, mem, rfl⟩ := List.mem_map.1 ht
      exact laid.lacks_new (row_.within source mem) (Nat.le_add_right ..)
    · intro t ht
      obtain ⟨source, mem, rfl⟩ := List.mem_map.1 ht
      exact laid.lacks (row_.within source mem) plainSuffix_query fun i _ => query_ne_useSuffix i
  next other => exact ⟨fun some => absurd some (by decide), fun h => absurd h.1 other⟩

/-- Further uses do not change the values of operators that read from the stages so far. -/
lemma instanceOn_append (laid : Laid c excluded maxFanIn input stages uses positions)
    (within : stage ≤ stages) (row_ : Row (sourcesOf input positions) stage row)
    (offers : c.Offers excluded maxFanIn op) :
    op.instanceOn (uses ++ more) row = op.instanceOn uses row := by
  by_cases known : useOf op row ∈ uses
  · rw [Operator.instanceOn, Operator.instanceOn, List.idxOf_append_of_mem known]
  · have none : ∀ more, op.instanceOn (uses ++ more) row = none := by
      intro more
      rw [← Option.not_isSome_iff_eq_none, laid.isSome_instanceOn_iff row_ known]
      rintro ⟨length, fits⟩
      exact known (laid.tried op stage row within row_ offers length fun _ => fits)
    have before := none []
    rw [List.append_nil] at before
    rw [none more, before]

/-- What a position gathers is not changed by further uses. -/
lemma gathers_append (laid : Laid c excluded maxFanIn input stages uses positions) {p : Position α}
    (within : stage ≤ stages) (row_ : Row (sourcesOf input positions) stage row)
    (gathers : p.Gathers c excluded maxFanIn uses row) :
    p.Gathers c excluded maxFanIn (uses ++ more) row where
  inputs := gathers.inputs
  typed := by
    obtain ⟨op, offers, value⟩ := gathers.typed
    exact ⟨op, offers, (laid.instanceOn_append within row_ offers).trans value⟩
  candidates := by
    obtain ⟨ops, sublist, ordered, members⟩ := gathers.candidates
    refine ⟨ops, sublist, ordered, fun op => (members op).trans (and_congr_right fun offers => ?_)⟩
    rw [laid.instanceOn_append within row_ offers]

/-! #### One more stage -/

/-- All sources belong to earlier stages than the next one. -/
lemma earlier (laid : Laid c excluded maxFanIn input stages uses positions) :
    ∀ s ∈ sourcesOf input positions, s.stage < stages + 1 := by
  intro s hs
  rcases List.mem_cons.1 hs with rfl | mem
  · exact Nat.succ_pos stages
  · obtain ⟨p, hp, rfl⟩ := List.mem_map.1 mem
    exact Nat.lt_succ_of_le (laid.staged p hp).2

/-- The sources that are laid out have different ids. -/
lemma ids_nodup (laid : Laid c excluded maxFanIn input stages uses positions) :
    ((sourcesOf input positions).map (·.id)).Nodup :=
  nodup_ids_sourcesOf laid.numbered

/-- What is read from is before the position. -/
lemma lt_length_of_mem_row (laid : Laid c excluded maxFanIn input stages uses positions)
    (row_ : Row (sourcesOf input positions) stage row) {id : Int}
    (mem : some id ∈ row.map (·.id)) : id < positions.length := by
  obtain ⟨s, hs, eq⟩ := List.mem_map.1 mem
  rcases List.mem_cons.1 (row_.within s hs) with rfl | there
  · cases eq
  · obtain ⟨p, hp, rfl⟩ := List.mem_map.1 there
    cases eq
    exact (laid.numbered.bounds hp).2

/-- The uses that are tried in a stage. -/
def newUses (attempts : List (Operator α × List Source)) : List Use :=
  attempts.map fun a => useOf a.1 a.2

section Stage

variable {combinators : List (Operator α)} {attempts : List (Operator α × List Source)}
  {groups : List (CandidateGroup α)}
  (laid : Laid c excluded maxFanIn input stages uses positions)
  (combines : Combines c excluded maxFanIn combinators)
  (done : stageAttempts c excluded combinators (stages + 1) (sourcesOf input positions) =
    .ok attempts)

include laid combines done

/-- The attempts of a stage are the operators on its rows that they take. -/
lemma attempted : (op, row) ∈ attempts ↔
    c.Offers excluded maxFanIn op ∧ Row (sourcesOf input positions) (stages + 1) row ∧
      row.length = op.arity ∧
        (op.arity = 1 → (op.valueType? "q" (row.map (·.type))).isSome) :=
  mem_stageAttempts_iff combines laid.ids_nodup.of_map laid.earlier done

/-- No use is counted twice. -/
lemma nodup_newUses : (newUses attempts).Nodup := by
  refine nodup_map_of_filter (fun a : Operator α × List Source => a.1.name)
    (fun a => a.2.map (·.id)) fun ids => ?_
  have ordered := sublist_operators_of_stageAttempts combines laid.ids_nodup done ids
  have once := c.nodup_operators.sublist (ordered.map fun op : Operator α => op.name)
  rwa [List.map_map] at once

/-- What is tried in a stage has not been tried before. -/
lemma nodup_uses : (uses ++ newUses attempts).Nodup := by
  refine List.nodup_append.2 ⟨laid.distinct, laid.nodup_newUses combines done, ?_⟩
  rintro u old _ new rfl
  obtain ⟨op, stage, row, within, row_, rfl, -⟩ := laid.used u old
  obtain ⟨⟨op', row'⟩, mem, same⟩ := List.mem_map.1 new
  have row_' := ((laid.attempted combines done).1 mem).2.1
  obtain rfl := row_'.eq_of_ids laid.ids_nodup row_ (Prod.ext_iff.1 same).2
  have := row_.stage_eq row_'
  omega

/-- The values of operators that read from the last stage are those that are tried. -/
lemma instanceOn_eq_some_iff (row_ : Row (sourcesOf input positions) (stages + 1) row)
    (offers : c.Offers excluded maxFanIn op) :
    op.instanceOn (uses ++ newUses attempts) row = some t ↔
      ⟨op, row.map (·.id), t⟩ ∈ entrants uses.length attempts := by
  -- an attempt that succeeds has the suffix of its place among all uses
  have value : ∀ i, attempts[i]? = some (op, row) →
      op.instanceOn (uses ++ newUses attempts) row =
        op.valueType? (useSuffix (uses.length + i)) (row.map (·.type)) := by
    intro i there
    have mem := (laid.attempted combines done).1 (List.mem_of_getElem? there)
    have place : (uses ++ newUses attempts)[uses.length + i]? = some (useOf op row) := by
      rw [List.getElem?_append_right (Nat.le_add_right ..), Nat.add_sub_cancel_left, newUses,
        List.getElem?_map, there]
      rfl
    obtain ⟨less, same⟩ := List.getElem?_eq_some_iff.1 place
    rw [Operator.instanceOn, if_pos mem.2.2.1, ← same,
      (laid.nodup_uses combines done).idxOf_getElem]
  rw [mem_entrants_iff]
  constructor
  · intro some
    have new : useOf op row ∉ uses := by
      intro old
      obtain ⟨op', stage, row', within, row_', same, -⟩ := laid.used _ old
      obtain rfl := row_.eq_of_ids laid.ids_nodup row_' (Prod.ext_iff.1 same).2
      have := row_.stage_eq row_'
      omega
    obtain ⟨length, fits⟩ :=
      (laid.isSome_instanceOn_iff row_ new).1 (Option.isSome_iff_exists.2 ⟨t, some⟩)
    obtain ⟨i, there⟩ := List.mem_iff_getElem?.1
      ((laid.attempted combines done).2 ⟨offers, row_, length, fun _ => fits⟩)
    exact ⟨i, op, row, there, t, (value i there).symm.trans some, rfl⟩
  · rintro ⟨i, op', row', there, t', some, eq⟩
    obtain ⟨rfl, ids, rfl⟩ := Entrant.mk.inj eq
    have mem := (laid.attempted combines done).1 (List.mem_of_getElem? there)
    obtain rfl := row_.eq_of_ids laid.ids_nodup mem.2.1 ids
    exact (value i there).trans some

/-- The group of a row gives a position that gathers the operators that take the row. -/
lemma gathers_toPosition (grouped : Grouped (entrants uses.length attempts) groups)
    {g : CandidateGroup α} (mem : g ∈ groups) (stage : Nat) (id : Int) :
    ∃ row, Row (sourcesOf input positions) (stages + 1) row ∧
      (g.toPosition c stage id).Gathers c excluded maxFanIn (uses ++ newUses attempts) row := by
  obtain ⟨e, he, inputs, type⟩ := grouped.represented g mem
  obtain ⟨i, op, row, there, t, value, rfl⟩ := mem_entrants_iff.1 he
  obtain ⟨offers, row_, -, -⟩ := (laid.attempted combines done).1
    (List.mem_of_getElem? there)
  dsimp only at inputs type
  subst type
  refine ⟨row, row_, inputs.symm, ⟨op, offers, ?_⟩, g.operators, ?_, rfl, fun op' => ?_⟩
  · exact (laid.instanceOn_eq_some_iff combines done row_ offers).2 he
  · exact grouped.sublist_operators combines laid.ids_nodup done mem
  -- the entrants of a group, told without the run: same row, and a type with the same key
  · have joining : op' ∈ g.operators ↔ ∃ e ∈ entrants uses.length attempts, e.Joins g ∧
        e.operator = op' := by
      rw [grouped.operators g mem, List.mem_map]
      exact exists_congr fun e => by rw [List.mem_filter, decide_eq_true_eq, and_assoc]
    rw [joining]
    constructor
    · rintro ⟨e', he', ⟨same, key⟩, rfl⟩
      obtain ⟨i', op', row', there', t', value', eq⟩ := mem_entrants_iff.1 he'
      subst eq
      obtain ⟨offers', row_', -, -⟩ := (laid.attempted combines done).1
        (List.mem_of_getElem? there')
      obtain rfl := row_'.eq_of_ids laid.ids_nodup row_ (same.trans inputs.symm)
      refine ⟨offers', t', (laid.instanceOn_eq_some_iff combines done row_ offers').2 he', ?_⟩
      exact key.trans (grouped.keyed g mem)
    · rintro ⟨offers', t', some, key⟩
      exact ⟨_, (laid.instanceOn_eq_some_iff combines done row_ offers').1 some,
        ⟨inputs, key.trans (grouped.keyed g mem).symm⟩, rfl⟩

/-- A use of an operator that takes what it reads from the last stage belongs to a group. -/
lemma exists_group (grouped : Grouped (entrants uses.length attempts) groups)
    (row_ : Row (sourcesOf input positions) (stages + 1) row)
    (offers : c.Offers excluded maxFanIn op)
    (value : op.instanceOn (uses ++ newUses attempts) row = some t) :
    useOf op row ∈ newUses attempts ∧
      ∃ g ∈ groups, g.inputs = row.map (·.id) ∧ g.outType.signatureKey = t.signatureKey := by
  have entrant := (laid.instanceOn_eq_some_iff combines done row_ offers).1 value
  obtain ⟨g, hg, same, key⟩ := grouped.covers _ entrant
  refine ⟨?_, g, hg, same.symm, (grouped.keyed g hg).symm.trans key.symm⟩
  obtain ⟨i, op', row', there, t', -, eq⟩ := mem_entrants_iff.1 entrant
  obtain ⟨rfl, ids, rfl⟩ := Entrant.mk.inj eq
  have mem := List.mem_of_getElem? there
  obtain rfl := row_.eq_of_ids laid.ids_nodup ((laid.attempted combines done).1 mem).2.1 ids
  exact List.mem_map_of_mem mem

/-- The types of groups have symbols that were there before, or of uses that are tried. -/
lemma known_of_mem_groups (grouped : Grouped (entrants uses.length attempts) groups)
    {g : CandidateGroup α} (mem : g ∈ groups) {s : String} (mentions : g.outType.Mentions s) :
    input.Mentions s ∨ ∃ i < (uses ++ newUses attempts).length, ∃ base,
      s = freshName (useSuffix i) base := by
  rw [List.length_append, newUses, List.length_map]
  obtain ⟨e, he, -, type⟩ := grouped.represented g mem
  obtain ⟨i, op, row, there, t, value, rfl⟩ := mem_entrants_iff.1 he
  dsimp only at type
  subst type
  rcases Operator.mentions_valueType? value mentions with ⟨base, rfl⟩ | ⟨t, ht, read⟩
  · have less := (List.getElem?_eq_some_iff.1 there).1
    exact .inr ⟨uses.length + i, Nat.add_lt_add_left less _, base, rfl⟩
  · obtain ⟨source, hs, rfl⟩ := List.mem_map.1 ht
    have row_ := ((laid.attempted combines done).1 (List.mem_of_getElem? there)).2.1
    refine (laid.known source (row_.within source hs) s read).imp id ?_
    exact fun ⟨i, less, old⟩ => ⟨i, Nat.lt_add_right _ less, old⟩

omit laid combines done in
/-- New positions are of the new stage, so rows of stages up to it are the rows from before. -/
lemma row_succ_iff (within : stage ≤ stages + 1) :
    Row (sourcesOf input (positions ++ newPositions c (stages + 1) positions.length groups))
      stage row ↔
      Row (sourcesOf input positions) stage row := by
  rw [sourcesOf_append]
  refine row_append_iff fun s hs => ?_
  obtain ⟨p, hp, rfl⟩ := List.mem_map.1 hs
  obtain ⟨i, g, -, rfl⟩ := exists_of_mem_newPositions hp
  exact within

/-- A new position is masked and numbered on, and gathers the operators that take a row. -/
lemma gathers_newPositions (grouped : Grouped (entrants uses.length attempts) groups)
    {p : Position α} (mem : p ∈ newPositions c (stages + 1) positions.length groups) :
    p.stage = stages + 1 ∧ p.state = .masked ∧ (positions.length : Int) ≤ p.id ∧
      ∃ row, Row (sourcesOf input positions) (stages + 1) row ∧
        p.Gathers c excluded maxFanIn (uses ++ newUses attempts) row := by
  obtain ⟨i, g, hg, rfl⟩ := exists_of_mem_newPositions mem
  exact ⟨rfl, rfl, Int.ofNat_le.2 (Nat.le_add_right ..),
    laid.gathers_toPosition combines done grouped hg _ _⟩

/-- Every use up to the new stage has a position. -/
lemma covers_succ (grouped : Grouped (entrants uses.length attempts) groups)
    (within : stage ≤ stages + 1) (row_ : Row (sourcesOf input positions) stage row)
    (offers : c.Offers excluded maxFanIn op)
    (value : op.instanceOn (uses ++ newUses attempts) row = some t) :
    useOf op row ∈ uses ++ newUses attempts ∧
      ∃ p ∈ positions ++ newPositions c (stages + 1) positions.length groups,
        p.inputs = row.map (·.id) ∧ p.outType.signatureKey = t.signatureKey := by
  rcases Nat.lt_or_eq_of_le within with earlier | rfl
  · have before := Nat.le_of_lt_succ earlier
    rw [laid.instanceOn_append before row_ offers] at value
    obtain ⟨known, p, hp, same⟩ := laid.covers op stage row t before row_ offers value
    exact ⟨List.mem_append_left _ known, p, List.mem_append_left _ hp, same⟩
  · obtain ⟨known, g, hg, same⟩ := laid.exists_group combines done grouped row_ offers value
    obtain ⟨i, less, rfl⟩ := List.mem_iff_getElem.1 hg
    have there : groups[i].toPosition c (stages + 1) ((positions.length + i : Nat) : Int) ∈
        newPositions c (stages + 1) positions.length groups := List.mem_mapIdx.2 ⟨i, less, rfl⟩
    exact ⟨List.mem_append_right _ known, _, List.mem_append_right _ there, same⟩

/-- An old position and a new one read different rows. -/
lemma inputs_ne (grouped : Grouped (entrants uses.length attempts) groups) {p q : Position α}
    (old : p ∈ positions) (new : q ∈ newPositions c (stages + 1) positions.length groups) :
    p.inputs ≠ q.inputs := by
  intro same
  obtain ⟨row, row_, gathers⟩ := laid.gathers p old
  obtain ⟨-, -, -, row', row_', gathers'⟩ := laid.gathers_newPositions combines done grouped new
  have ids : row.map (·.id) = row'.map (·.id) :=
    gathers.inputs.symm.trans (same.trans gathers'.inputs)
  obtain rfl := row_.eq_of_ids laid.ids_nodup row_' ids
  have := row_.stage_eq row_'
  have := (laid.staged p old).2
  omega

/-- The groups of one more stage are enumerated. -/
lemma enumerates_succ (grouped : Grouped (entrants uses.length attempts) groups) :
    Enumerates c excluded maxFanIn input (stages + 1) (uses ++ newUses attempts)
      (positions ++ newPositions c (stages + 1) positions.length groups) where
  numbered := laid.numbered.append_newPositions (stages + 1) groups
  masked p hp := by
    rcases List.mem_append.1 hp with old | new
    · exact laid.masked p old
    · exact (laid.gathers_newPositions combines done grouped new).2.1
  staged p hp := by
    rcases List.mem_append.1 hp with old | new
    · exact ⟨(laid.staged p old).1, Nat.le_succ_of_le (laid.staged p old).2⟩
    · rw [(laid.gathers_newPositions combines done grouped new).1]
      exact ⟨Nat.succ_pos stages, Nat.le_refl _⟩
  gathers p hp := by
    rcases List.mem_append.1 hp with old | new
    · obtain ⟨row, row_, gathers⟩ := laid.gathers p old
      have within := (laid.staged p old).2
      exact ⟨row, (row_succ_iff (Nat.le_succ_of_le within)).2 row_,
        laid.gathers_append within row_ gathers⟩
    · obtain ⟨stage, -, -, row, row_, gathers⟩ :=
        laid.gathers_newPositions combines done grouped new
      rw [stage]
      exact ⟨row, (row_succ_iff (Nat.le_refl _)).2 row_, gathers⟩
  ascending p hp id hid := by
    rcases List.mem_append.1 hp with old | new
    · exact laid.ascending p old id hid
    · obtain ⟨-, -, first, row, row_, gathers⟩ :=
        laid.gathers_newPositions combines done grouped new
      rw [Position.mem_sources, gathers.inputs] at hid
      exact Int.lt_of_lt_of_le (laid.lt_length_of_mem_row row_ hid) first
  covers op stage row t within row_ offers value :=
    laid.covers_succ combines done grouped within ((row_succ_iff within).1 row_) offers value
  -- two positions of one stage differ in what they take; a later one reads the stage before
  apart := List.pairwise_append.2 ⟨laid.apart, apart_newPositions grouped, fun _ old _ new same =>
    laid.inputs_ne combines done grouped old new same.1⟩

/-- Another stage is laid out. -/
theorem succ (grouped : Grouped (entrants uses.length attempts) groups) :
    Laid c excluded maxFanIn input (stages + 1) (uses ++ newUses attempts)
      (positions ++ newPositions c (stages + 1) positions.length groups) where
  toEnumerates := laid.enumerates_succ combines done grouped
  distinct := laid.nodup_uses combines done
  plain := laid.plain
  known source mem s mentions := by
    rw [sourcesOf_append] at mem
    rcases List.mem_append.1 mem with old | new
    · refine (laid.known source old s mentions).imp id fun ⟨i, less, known⟩ => ⟨i, ?_, known⟩
      rw [List.length_append]
      exact Nat.lt_add_right _ less
    · obtain ⟨p, hp, rfl⟩ := List.mem_map.1 new
      obtain ⟨i, g, hg, rfl⟩ := exists_of_mem_newPositions hp
      exact laid.known_of_mem_groups combines done grouped hg mentions
  used u mem := by
    rcases List.mem_append.1 mem with old | fresh
    · obtain ⟨op, stage, row, within, row_, rfl, own⟩ := laid.used u old
      have further := Nat.le_succ_of_le within
      rw [List.idxOf_append_of_mem old]
      exact ⟨op, stage, row, further, (row_succ_iff further).2 row_, rfl, own⟩
    · obtain ⟨⟨op, row⟩, there, rfl⟩ := List.mem_map.1 fresh
      have row_ := ((laid.attempted combines done).1 there).2.1
      have new : useOf op row ∉ uses := fun old =>
        (List.nodup_append.1 (laid.nodup_uses combines done)).2.2 _ old _ fresh rfl
      refine ⟨op, stages + 1, row, Nat.le_refl _, (row_succ_iff (Nat.le_refl _)).2 row_, rfl, ?_⟩
      rw [List.idxOf_append_of_notMem new]
      exact fun s hs => laid.lacks_new (row_.within s hs) (Nat.le_add_right ..)
  tried op stage row within row_ offers length fits := by
    rw [row_succ_iff within] at row_
    rcases Nat.lt_or_eq_of_le within with earlier | rfl
    · exact List.mem_append_left _
        (laid.tried op stage row (Nat.le_of_lt_succ earlier) row_ offers length fits)
    · exact List.mem_append_right _ (List.mem_map_of_mem
        ((laid.attempted combines done).2 ⟨offers, row_, length, fits⟩))

end Stage

/-- A stage without positions is the last one. -/
lemma idle (laid : Laid c excluded maxFanIn input (stages + 1) uses positions)
    (empty : ∀ p ∈ positions, p.stage ≤ stages) {n : Nat} (further : stages + 1 ≤ n) :
    Laid c excluded maxFanIn input n uses positions := by
  -- a row of a later stage would have a source of this one
  have within : ∀ {stage row}, Row (sourcesOf input positions) stage row → stage ≤ stages + 1 := by
    intro stage row row_
    obtain ⟨s, hs, last⟩ := row_.last
    rcases List.mem_cons.1 (row_.within s hs) with rfl | mem
    · rw [← last]
      exact Nat.succ_le_succ (Nat.zero_le stages)
    · obtain ⟨p, hp, rfl⟩ := List.mem_map.1 mem
      rw [← last]
      exact Nat.succ_le_succ (empty p hp)
  refine { laid with
    staged := fun p hp => ⟨(laid.staged p hp).1, (laid.staged p hp).2.trans further⟩
    covers := fun op stage row t _ row_ => laid.covers op stage row t (within row_) row_
    used := fun u mem => ?_
    tried := fun op stage row _ row_ => laid.tried op stage row (within row_) row_ }
  obtain ⟨op, stage, row, before, rest⟩ := laid.used u mem
  exact ⟨op, stage, row, before.trans further, rest⟩

omit [Scalar α] in
/-- Before the first stage there are no rows. -/
lemma not_row_of_le_zero (first : stage ≤ 0) :
    ¬ Row (sourcesOf input ([] : List (Position α))) stage row := by
  intro row_
  obtain ⟨s, -, last⟩ := row_.last
  omega

/-- Before the first stage nothing is laid out. -/
lemma nil (plain : ∀ s, input.Mentions s → '#' ∉ s.toList) :
    Laid c excluded maxFanIn input 0 [] ([] : List (Position α)) where
  numbered := ⟨rfl, fun _ mem => absurd mem List.not_mem_nil⟩
  masked _ mem := absurd mem List.not_mem_nil
  staged _ mem := absurd mem List.not_mem_nil
  gathers _ mem := absurd mem List.not_mem_nil
  ascending _ mem := absurd mem List.not_mem_nil
  covers _ _ _ _ first row_ := absurd row_ (not_row_of_le_zero first)
  apart := List.Pairwise.nil
  distinct := List.nodup_nil
  plain := plain
  known source mem s mentions := by
    rw [List.mem_singleton.1 mem] at mentions
    exact .inl mentions
  used _ mem := absurd mem List.not_mem_nil
  tried _ _ _ first row_ := absurd row_ (not_row_of_le_zero first)

/-- Stages are laid out one after the other. -/
theorem layOut {combinators : List (Operator α)}
    (combines : Combines c excluded maxFanIn combinators) {more : Nat} {all : List (Position α)}
    (laid : Laid c excluded maxFanIn input stages uses positions)
    (done : layOut c excluded combinators input (stages + 1) uses.length positions more = .ok all) :
    ∃ uses, Laid c excluded maxFanIn input (stages + more) uses all := by
  induction more generalizing stages uses positions with
  | zero =>
    cases done
    exact ⟨uses, laid⟩
  | succ more ih =>
    obtain ⟨attempts, groups, tried, put, last | ⟨-, done⟩⟩ := layOut_succ_eq_ok.1 done
    · obtain ⟨rfl, -, rfl⟩ := last
      have next := laid.succ combines tried (grouped_groupAttempts put)
      rw [newPositions, List.mapIdx_nil, List.append_nil] at next
      have further : stages + 1 ≤ stages + (more + 1) := by omega
      exact ⟨_, next.idle (fun p hp => (laid.staged p hp).2) further⟩
    · have length : (uses ++ newUses attempts).length = uses.length + attempts.length := by
        rw [List.length_append, newUses, List.length_map]
      have total : stages + (more + 1) = stages + 1 + more := by omega
      rw [← length] at done
      rw [total]
      exact ih (laid.succ combines tried (grouped_groupAttempts put)) done

/-! #### Alike types -/

/-- An operator takes a type alike to that of a source just when it takes the source, and gives
alike types. -/
lemma value_alike (laid : Laid c excluded maxFanIn input stages uses positions)
    (row_ : Row (sourcesOf input positions) stage [source]) (unary : op.arity = 1)
    (alike : Alike t source.type) {suffix : String} (fresh : t.Lacks suffix) :
    Option.Rel Alike (op.valueType? suffix [t]) (op.instanceOn uses [source]) := by
  rw [Operator.instanceOn, if_pos (show [source].length = op.arity from unary.symm)]
  exact Operator.valueType?_alike alike fresh
    (laid.lacks_own row_ op source (List.mem_singleton.2 rfl))

end Laid

end OperatorNet
