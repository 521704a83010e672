import Mathlib.Data.List.Nodup
import Mathlib.Logic.Relation
import OperatorNet.Proofs.References
import OperatorNet.Proofs.Sorting
import OperatorNet.Search.Supergraph

/-!
# Ancestors

What can be reached along inputs is found, once each, and nothing else is (`explores_reachable`). So
the ancestors of a position are, in ascending order, the positions that are reached from it by going
from positions to what they read (`Supergraph.ancestors_eq_ok`).
-/

namespace OperatorNet

section

variable {inputs : Int → List Ref} {all fresh : List Int} {stack rest rs : List Ref} {r : Ref}

/-- A reference equals an id that is there. -/
def Known (all : List Int) (r : Ref) (n : Int) : Prop :=
  r.id? = some n ∧ n ∈ all

/-- What a search finds among known ids is known. -/
lemma known_of_find {n : Int} (found : r.find (fun n => if n ∈ all then some n else none) = .ok n) :
    Known all r n := by
  obtain ⟨m, id, stored⟩ := r.exists_of_find found
  split at stored
  next there =>
    cases stored
    exact ⟨id, there⟩
  next => cases stored

/-- Where no reference is fresh all have been visited. -/
lemma firstFresh_eq_none (done : firstFresh all fresh stack = .ok none) :
    ∀ r ∈ stack, ∃ n, Known all r n ∧ n ∉ fresh := by
  induction stack with
  | nil => exact fun _ mem => absurd mem List.not_mem_nil
  | cons r rest ih =>
    rw [firstFresh] at done
    split at done
    next => cases done
    next n found =>
      split at done
      next => cases done
      next visited => exact List.forall_mem_cons.2 ⟨⟨n, known_of_find found, visited⟩, ih done⟩

/-- What stands above the first fresh reference has been visited. -/
lemma firstFresh_eq_some {n : { n // n ∈ fresh }}
    (first : firstFresh all fresh stack = .ok (some (r, n, rest))) :
    Known all r n ∧ ∃ above, stack = above ++ r :: rest ∧
      ∀ q ∈ above, ∃ m, Known all q m ∧ m ∉ fresh := by
  induction stack with
  | nil => cases first
  | cons q below ih =>
    rw [firstFresh] at first
    split at first
    next => cases first
    next m found =>
      split at first
      next =>
        cases first
        exact ⟨known_of_find found, [], rfl, fun _ mem => absurd mem List.not_mem_nil⟩
      next visited =>
        obtain ⟨known, above, rfl, each⟩ := ih first
        exact ⟨known, q :: above, rfl,
          List.forall_mem_cons.2 ⟨⟨m, known_of_find found, visited⟩, each⟩⟩

/-- From one id another one is read. -/
def Leads (inputs : Int → List Ref) (a b : Int) : Prop :=
  ∃ r ∈ inputs a, r.id? = some b

/-- What has been found when a stack is worked off: all fresh ids that can be reached from it. -/
structure Explores (inputs : Int → List Ref) (all fresh : List Int) (stack : List Ref)
    (found : List Int) : Prop where
  distinct : found.Nodup
  within : ∀ n ∈ found, n ∈ fresh
  covers : ∀ r ∈ stack, ∃ n, Known all r n ∧ (n ∈ fresh → n ∈ found)
  closed : ∀ n ∈ found, ∀ r ∈ inputs n, ∃ m, Known all r m ∧ (m ∈ fresh → m ∈ found)
  reached : ∀ n ∈ found, ∃ r ∈ stack, ∃ k, r.id? = some k ∧
    Relation.ReflTransGen (Leads inputs) k n

/-- One more id is found, before all that is found after it. -/
lemma Explores.cons {n : Int} {above : List Ref} {found : List Int} (distinct : fresh.Nodup)
    (mem : n ∈ fresh) (known : Known all r n)
    (visited : ∀ q ∈ above, ∃ m, Known all q m ∧ m ∉ fresh)
    (explores : Explores inputs all (fresh.erase n) ((inputs n).reverse ++ rest) found) :
    Explores inputs all fresh (above ++ r :: rest) (n :: found) := by
  -- what is fresh is the id itself or is still fresh when the rest is worked off
  have onward : ∀ q, (∃ m, Known all q m ∧ (m ∈ fresh.erase n → m ∈ found)) →
      ∃ m, Known all q m ∧ (m ∈ fresh → m ∈ n :: found) := by
    rintro q ⟨m, known, found⟩
    refine ⟨m, known, fun mem => ?_⟩
    by_cases same : m = n
    · exact same ▸ List.mem_cons_self ..
    · exact List.mem_cons_of_mem _ (found ((List.mem_erase_of_ne same).2 mem))
  constructor
  · refine List.nodup_cons.2 ⟨fun again => ?_, explores.distinct⟩
    exact distinct.not_mem_erase (explores.within n again)
  · exact List.forall_mem_cons.2 ⟨mem, fun m hm => List.mem_of_mem_erase (explores.within m hm)⟩
  · intro q hq
    rcases List.mem_append.1 hq with before | after
    · obtain ⟨m, known, old⟩ := visited q before
      exact ⟨m, known, fun mem => absurd mem old⟩
    rcases List.mem_cons.1 after with rfl | below
    · exact ⟨n, known, fun _ => List.mem_cons_self ..⟩
    · exact onward q (explores.covers q (List.mem_append_right _ below))
  · intro m hm q hq
    rcases List.mem_cons.1 hm with rfl | later
    · exact onward q (explores.covers q (List.mem_append_left _ (List.mem_reverse.2 hq)))
    · exact onward q (explores.closed m later q hq)
  · intro m hm
    have here : r ∈ above ++ r :: rest := List.mem_append_right _ (List.mem_cons_self ..)
    rcases List.mem_cons.1 hm with rfl | later
    · exact ⟨r, here, m, known.1, .refl⟩
    obtain ⟨q, hq, k, id, path⟩ := explores.reached m later
    rcases List.mem_append.1 hq with read | below
    · exact ⟨r, here, n, known.1, .head ⟨q, List.mem_reverse.1 read, id⟩ path⟩
    · exact ⟨q, List.mem_append_right _ (List.mem_cons_of_mem _ below), k, id, path⟩

/-- What can be reached is found, and nothing else. -/
lemma explores_reachable (distinct : fresh.Nodup)
    (done : reachable inputs all fresh stack = .ok rs) :
    ∃ found, rs.map Ref.id? = found.map some ∧ Explores inputs all fresh stack found := by
  induction fresh, stack using reachable.induct inputs all generalizing rs with
  | case1 fresh stack f failed =>
    rw [reachable, failed] at done
    cases done
  | case2 fresh stack none =>
    rw [reachable, none] at done
    cases done
    refine ⟨[], rfl, List.nodup_nil, fun _ mem => absurd mem List.not_mem_nil, fun r hr => ?_,
      fun _ mem => absurd mem List.not_mem_nil, fun _ mem => absurd mem List.not_mem_nil⟩
    obtain ⟨n, known, old⟩ := firstFresh_eq_none none r hr
    exact ⟨n, known, fun mem => absurd mem old⟩
  | case3 fresh stack r n rest first ih =>
    rw [reachable, first] at done
    dsimp only at done
    cases later : reachable inputs all (fresh.erase n) ((inputs n).reverse ++ rest) with
    | error f =>
      rw [later] at done
      cases done
    | ok others =>
      rw [later] at done
      cases done
      obtain ⟨found, ids, explores⟩ := ih (distinct.erase _) later
      obtain ⟨known, above, rfl, visited⟩ := firstFresh_eq_some first
      refine ⟨n :: found, ?_, explores.cons distinct n.2 known visited⟩
      rw [List.map_cons, List.map_cons, known.1, ids]

/-- Where all references of a stack equal ids that are there, the first fresh one can be looked
for. -/
lemma exists_firstFresh (known : ∀ r ∈ stack, ∃ n, Known all r n) :
    ∃ first, firstFresh all fresh stack = .ok first := by
  induction stack with
  | nil => exact ⟨none, rfl⟩
  | cons r rest ih =>
    rw [List.forall_mem_cons] at known
    obtain ⟨⟨n, id, there⟩, below⟩ := known
    have found : r.find (fun n => if n ∈ all then some n else none) = .ok n :=
      Ref.find_of_id? id (if_pos there)
    rw [firstFresh, found]
    dsimp only
    split
    · exact ⟨_, rfl⟩
    · exact ih below

/-- Where all that is read is there, what can be reached is found. -/
lemma exists_reachable (closed : ∀ n ∈ fresh, ∀ r ∈ inputs n, ∃ m, Known all r m)
    (known : ∀ r ∈ stack, ∃ n, Known all r n) :
    ∃ rs, reachable inputs all fresh stack = .ok rs := by
  induction fresh, stack using reachable.induct inputs all with
  | case1 fresh stack f failed =>
    obtain ⟨first, done⟩ : ∃ first, firstFresh all fresh stack = .ok first :=
      exists_firstFresh known
    rw [failed] at done
    cases done
  | case2 fresh stack none => exact ⟨[], by rw [reachable, none]⟩
  | case3 fresh stack r n rest first ih =>
    obtain ⟨-, above, rfl, -⟩ := firstFresh_eq_some first
    have onward : ∀ q ∈ (inputs n).reverse ++ rest, ∃ m, Known all q m := by
      intro q hq
      rcases List.mem_append.1 hq with read | below
      · exact closed n n.2 q (List.mem_reverse.1 read)
      · exact known q (List.mem_append_right _ (List.mem_cons_of_mem _ below))
    obtain ⟨rs, later⟩ := ih (fun m hm => closed m (List.mem_of_mem_erase hm)) onward
    refine ⟨r :: rs, ?_⟩
    rw [reachable, first]
    dsimp only
    rw [later]
    rfl

/-- What a found id reads is found. -/
lemma Explores.exists_of_mem {found : List Int} (explores : Explores inputs all all stack found)
    {n : Int} (mem : n ∈ found) (read : r ∈ inputs n) : ∃ m ∈ found, r.id? = some m := by
  obtain ⟨m, ⟨id, there⟩, onward⟩ := explores.closed n mem r read
  exact ⟨m, onward there, id⟩

/-- A search finds what its start depends on. -/
lemma Explores.mem_iff {found : List Int} {e : Int}
    (explores : Explores inputs all all [.id e] found) (i : Int) :
    i ∈ found ↔ Relation.ReflTransGen (Leads inputs) e i := by
  constructor
  · intro mem
    obtain ⟨r, hr, k, start, path⟩ := explores.reached i mem
    rw [List.mem_singleton.1 hr, Ref.id?_id, Option.some_inj] at start
    exact start ▸ path
  · intro path
    induction path with
    | refl =>
      obtain ⟨n, ⟨same, there⟩, found⟩ := explores.covers _ (List.mem_singleton.2 rfl)
      rw [Ref.id?_id, Option.some_inj] at same
      exact same ▸ found there
    | tail _ leads mem =>
      obtain ⟨r, hr, target⟩ := leads
      obtain ⟨n, hn, id⟩ := explores.exists_of_mem mem hr
      rw [target, Option.some_inj] at id
      exact id ▸ hn

end

/-! ### Ancestors -/

variable {α : Type}

/-- A position reads from another one. -/
def Upstream (positions : List (Position α)) (a b : Int) : Prop :=
  ∃ p ∈ positions, p.id = a ∧ some b ∈ p.inputs

namespace Supergraph

variable {s t : Supergraph α}

/-- One position reads from another one. -/
def Reads (s : Supergraph α) (a b : Int) : Prop :=
  ∃ p, s.find? a = some p ∧ some b ∈ p.inputs

/-- Ids that are different find the positions that have them. -/
lemma find?_eq_some_iff (distinct : s.ids.Nodup) {id : Int} {p : Position α} :
    s.find? id = some p ↔ p ∈ s.positions ∧ p.id = id := by
  constructor
  · intro found
    exact ⟨List.mem_of_find?_eq_some found, by simpa using List.find?_some found⟩
  · rintro ⟨mem, rfl⟩
    cases found : s.find? p.id with
    | none => exact absurd (decide_eq_true rfl) (List.find?_eq_none.1 found p mem)
    | some q =>
      have same : q.id = p.id := by simpa using List.find?_some found
      exact congrArg some
        (List.inj_on_of_nodup_map distinct (List.mem_of_find?_eq_some found) mem same)

/-- The sources of a position are what it reads. -/
lemma leads_sources {a b : Int} : Leads s.sources a b ↔ s.Reads a b := by
  unfold Leads sources Reads
  cases s.find? a with
  | none => simp
  | some p => simp [Position.sources]

/-- Sorted references are in the order of their ids. -/
lemma inOrder_sortedRefs (rs : List Ref) :
    InOrder (fun a b : Ref => decide (a.id?.getD 0 < b.id?.getD 0)) (sortedRefs rs) := by
  refine Ranks.inOrder_sortBy ⟨fun a b before => ?_, fun a b c first second => ?_⟩ rs
  · rw [decide_eq_true_eq] at before
    rw [decide_eq_false_iff_not]
    omega
  · rw [decide_eq_false_iff_not] at *
    omega

/-- Sorted references are to the same ids. -/
lemma perm_filterMap_sortedRefs (rs : List Ref) :
    ((sortedRefs rs).filterMap Ref.id?).Perm (rs.filterMap Ref.id?) :=
  (perm_sortBy _ rs).filterMap _

/-- Sorted references to different ids ascend. -/
lemma pairwise_filterMap_sortedRefs {rs : List Ref} (distinct : (rs.filterMap Ref.id?).Nodup) :
    ((sortedRefs rs).filterMap Ref.id?).Pairwise (· < ·) := by
  have ordered : ((sortedRefs rs).filterMap Ref.id?).Pairwise (· ≤ ·) := by
    refine List.pairwise_filterMap.2 ((inOrder_sortedRefs rs).imp fun notBefore a ha b hb => ?_)
    simpa [ha, hb] using notBefore
  refine (ordered.and ((perm_filterMap_sortedRefs rs).nodup_iff.2 distinct)).imp fun both => ?_
  exact Int.lt_iff_le_and_ne.2 both

/-- The ancestors of a position are, in ascending order, the positions that are reached from it. -/
lemma ancestors_eq_ok (distinct : s.ids.Nodup) {e : Int} {ids : List Int}
    (listed : s.ancestors e = .ok ids) :
    ids.Pairwise (· < ·) ∧ ∀ id, id ∈ ids ↔ Relation.ReflTransGen s.Reads e id := by
  simp only [ancestors, ancestorsOf, bind_eq_ok, pure_eq_ok, map_eq_pure_bind] at listed
  obtain ⟨sorted, ⟨rs, reached, rfl⟩, rfl⟩ := listed
  obtain ⟨found, same, explores⟩ := explores_reachable distinct reached
  have all : rs.filterMap Ref.id? = found := by
    have whole := congrArg (List.filterMap fun id => id) same
    rw [List.filterMap_map, List.filterMap_map] at whole
    exact whole.trans List.filterMap_some
  refine ⟨pairwise_filterMap_sortedRefs (all ▸ explores.distinct), fun id => ?_⟩
  have reads : Leads s.sources = s.Reads :=
    funext fun a => funext fun b => propext leads_sources
  rw [(perm_filterMap_sortedRefs rs).mem_iff, all, explores.mem_iff, reads]

/-- What a position reads are its inputs. -/
lemma reads_id (distinct : s.ids.Nodup) {p : Position α} (mem : p ∈ s.positions) {b : Int} :
    s.Reads p.id b ↔ some b ∈ p.inputs := by
  constructor
  · rintro ⟨q, found, read⟩
    rw [(find?_eq_some_iff distinct).2 ⟨mem, rfl⟩, Option.some_inj] at found
    exact found ▸ read
  · exact fun read => ⟨p, (find?_eq_some_iff distinct).2 ⟨mem, rfl⟩, read⟩

/-- Positions read from positions before them. -/
structure Closed (s : Supergraph α) : Prop where
  nonneg : ∀ p ∈ s.positions, 0 ≤ p.id
  earlier : ∀ p ∈ s.positions, ∀ id, some id ∈ p.inputs → ∃ q ∈ s.positions, q.id = id ∧ id < p.id

/-- One position reads another when it lies downstream of it. -/
lemma reads_iff (distinct : s.ids.Nodup) {a b : Int} :
    s.Reads a b ↔ Upstream s.positions a b :=
  exists_congr fun p => by rw [find?_eq_some_iff distinct, and_assoc]

/-- Dropping what leads nowhere keeps the live positions. -/
lemma dropDead_eq_ok (distinct : s.ids.Nodup) (dropped : s.dropDead = .ok t) :
    ∃ live : Int → Bool, t = { s with positions := s.positions.filter fun p => live p.id } ∧
      ∀ id, live id = true ↔
        ∃ e ∈ s.exits, Relation.ReflTransGen (Upstream s.positions) e id := by
  simp only [dropDead, bind_eq_ok, pure_eq_ok] at dropped
  obtain ⟨lists, listed, rfl⟩ := dropped
  rw [mapM_eq_ok] at listed
  refine ⟨fun id => lists.flatten.contains id, rfl, fun id => ?_⟩
  have reads : s.Reads = Upstream s.positions :=
    funext fun a => funext fun b => propext (reads_iff distinct)
  rw [List.contains_iff_mem, List.mem_flatten]
  constructor
  · rintro ⟨ids, hids, mem⟩
    obtain ⟨e, he, ancestors⟩ := exists_of_mem_forall₂ listed hids
    exact ⟨e, he, reads ▸ ((ancestors_eq_ok distinct ancestors).2 id).1 mem⟩
  · rintro ⟨e, he, path⟩
    obtain ⟨ids, hids, ancestors⟩ := exists_of_mem_forall₂ listed.flip he
    exact ⟨ids, hids, ((ancestors_eq_ok distinct ancestors).2 id).2 (reads ▸ path)⟩

end Supergraph

end OperatorNet
