import Mathlib.Logic.Function.Basic
import OperatorNet.Proofs.Network.Acyclic
import OperatorNet.Proofs.Sorting

/-!
# Kahn's algorithm

For each of some ids it is counted how many of its reads are missing, one for each wire. An id that
misses nothing is ready. The least ready id comes next, and then its users miss one read less for
each wire that leads to it (`Kahn.run`). The counts are the numbers of wires to ids that remain
(`Kahn.Counts`), so every id becomes ready once, and the loop ends with the order in which always
the first id is taken that reads from none of those that remain (`Kahn.run_eq`).
-/

namespace OperatorNet

section

variable {l : List Int} {n : Int}

/-- The first of ascending numbers with a property is the least. -/
lemma find?_least {p : Int → Bool} (ascending : l.Pairwise (· < ·)) (found : l.find? p = some n) :
    ∀ m ∈ l, p m = true → n ≤ m := by
  obtain ⟨-, before, after, rfl, none⟩ := List.find?_eq_some_iff_append.1 found
  intro m hm passes
  rcases List.mem_append.1 hm with early | late
  · exact absurd passes (by simpa using none m early)
  · rcases List.mem_cons.1 late with rfl | late
    · exact Int.le_refl m
    · exact Int.le_of_lt ((List.pairwise_cons.1 (List.pairwise_append.1 ascending).2.1).1 m late)

/-- A number that is taken away is counted apart. -/
lemma countP_mem_erase {remaining : List Int} (nodup : remaining.Nodup) (mem : n ∈ remaining)
    (l : List Int) :
    l.countP (· ∈ remaining) = l.countP (· ∈ remaining.erase n) + l.count n := by
  induction l with
  | nil => rfl
  | cons s rest ih =>
    have member : s ∈ remaining.erase n ↔ s ≠ n ∧ s ∈ remaining := nodup.mem_erase_iff
    by_cases eq : s = n
    · subst eq
      rw [List.countP_cons_of_pos (by simpa using mem), List.count_cons_self, ih,
        List.countP_cons_of_neg (by simp [member]), Nat.add_assoc]
    · have same : s ∈ remaining.erase n ↔ s ∈ remaining := by rw [member, and_iff_right eq]
      rw [List.countP_cons, List.countP_cons, List.count_cons_of_ne eq, ih]
      simp only [same]
      omega

end

namespace Kahn

/-- What is missing, and what is ready. -/
structure Queue where
  missing : Int → Int
  /-- In no particular order. -/
  ready : List Int

/-- The ids that read from an id, once for each wire. -/
def users (sources : Int → List Int) (ids : List Int) (s : Int) : List Int :=
  ids.flatMap fun n => List.replicate ((sources n).count s) n

/-- All reads among the ids are missing. -/
def start (sources : Int → List Int) (ids : List Int) : Queue :=
  let missing := fun n => ((sources n).countP (· ∈ ids) : Int)
  { missing, ready := ids.filter fun n => missing n = 0 }

/-- A user misses one read less, and it is ready when it misses none. -/
def serve (q : Queue) (user : Int) : Queue :=
  let left := q.missing user - 1
  { missing := Function.update q.missing user left
    ready := if left = 0 then user :: q.ready else q.ready }

/-- The least ready id is taken until none is ready. -/
def Queue.order (users : Int → List Int) (q : Queue) : Option (List Int) :=
  match q.ready.min? with
  | none => some []
  | some n => do
    let rest ← (users n).foldl serve { q with ready := q.ready.erase n } |>.order users
    return n :: rest
partial_fixpoint

/-- The order in which ids are taken. -/
def run (sources : Int → List Int) (ids : List Int) : Option (List Int) :=
  (start sources ids).order (users sources ids)

/-- The queue when only some ids remain. -/
structure Counts (sources : Int → List Int) (ids remaining : List Int) (q : Queue) : Prop where
  distinct : remaining.Nodup
  within : remaining ⊆ ids
  missing : ∀ n ∈ remaining, q.missing n = (sources n).countP (· ∈ remaining)
  ready : ∀ n, n ∈ q.ready ↔ n ∈ remaining ∧ q.missing n = 0
  once : q.ready.Nodup
  /-- What has been taken reads from nothing that remains. -/
  taken : ∀ n ∈ ids, n ∉ remaining → ∀ s ∈ remaining, s ∉ sources n

variable {sources : Int → List Int} {ids remaining : List Int} {q : Queue} {n s u : Int}

/-- The users of an id are the ids that read it. -/
lemma mem_users : u ∈ users sources ids s ↔ u ∈ ids ∧ s ∈ sources u := by
  rw [users, List.mem_flatMap]
  constructor
  · rintro ⟨n, hn, mem⟩
    obtain ⟨some, rfl⟩ := List.mem_replicate.1 mem
    exact ⟨hn, List.count_pos_iff.1 (Nat.pos_of_ne_zero some)⟩
  · rintro ⟨hu, read⟩
    exact ⟨u, hu, List.mem_replicate.2 ⟨Nat.ne_of_gt (List.count_pos_iff.2 read), rfl⟩⟩

/-- A user comes once for each of its wires. -/
lemma count_users (nodup : ids.Nodup) (mem : u ∈ ids) :
    (users sources ids s).count u = (sources u).count s := by
  induction ids with
  | nil => cases mem
  | cons i rest ih =>
    have split : users sources (i :: rest) s =
        List.replicate ((sources i).count s) i ++ users sources rest s := List.flatMap_cons ..
    obtain ⟨notLater, nodup⟩ := List.nodup_cons.1 nodup
    rw [split, List.count_append, List.count_replicate]
    by_cases eq : i = u
    · subst eq
      have none : (users sources rest s).count i = 0 :=
        List.count_eq_zero.2 fun later => notLater (mem_users.1 later).1
      rw [none, beq_self_eq_true, if_pos rfl, Nat.add_zero]
    · have later : u ∈ rest := (List.mem_cons.1 mem).resolve_left (Ne.symm eq)
      rw [if_neg (by simpa using eq), ih nodup later, Nat.zero_add]

/-- A served id misses one source less. -/
lemma missing_serve (q : Queue) (u n : Int) :
    (serve q u).missing n = q.missing n - if n = u then 1 else 0 := by
  rw [serve]
  by_cases eq : n = u
  · simp [eq]
  · simp [eq, Function.update_of_ne]

/-- A served id is ready when it misses nothing more. -/
lemma mem_ready_serve :
    n ∈ (serve q u).ready ↔ n ∈ q.ready ∨ n = u ∧ (serve q u).missing u = 0 := by
  rw [missing_serve, if_pos rfl, serve]
  dsimp only
  split
  next last => simp [last, or_comm]
  next more => simp [more]

/-- What is ready is there once and misses nothing. -/
structure Fair (q : Queue) : Prop where
  once : q.ready.Nodup
  zero : ∀ n ∈ q.ready, q.missing n = 0

/-- Serving keeps a queue fair. -/
lemma Fair.serve (fair : Fair q) (misses : 0 < q.missing u) : Fair (serve q u) := by
  have waits : u ∉ q.ready := fun ready => by
    have none := fair.zero u ready
    omega
  constructor
  · rw [Kahn.serve]
    dsimp only
    split
    next => exact List.nodup_cons.2 ⟨waits, fair.once⟩
    next => exact fair.once
  · intro n hn
    rcases mem_ready_serve.1 hn with early | ⟨rfl, last⟩
    · have ne : n ≠ u := fun eq => waits (eq ▸ early)
      rw [missing_serve, if_neg ne, fair.zero n early]
      rfl
    · exact last

/-- Users that miss enough are served as often as their turn comes, and those that miss no more
become ready. -/
lemma foldl_serve (turns : List Int) (fair : Fair q)
    (enough : ∀ n ∈ turns, (turns.count n : Int) ≤ q.missing n) :
    (∀ n, (turns.foldl serve q).missing n = q.missing n - turns.count n) ∧
      Fair (turns.foldl serve q) ∧
      ∀ n, n ∈ (turns.foldl serve q).ready ↔
        n ∈ q.ready ∨ n ∈ turns ∧ (turns.foldl serve q).missing n = 0 := by
  -- by induction on the turns; what an id still misses is never less than its turns to come
  induction turns generalizing q with
  | nil => exact ⟨fun n => by simp, fair, fun n => by simp⟩
  | cons u rest ih =>
    have count : ∀ n, ((u :: rest).count n : Int) = rest.count n + if n = u then 1 else 0 := by
      intro n
      rw [List.count_cons]
      by_cases eq : n = u
      · simp [eq]
      · simp [eq, Ne.symm eq]
    have misses : (rest.count u : Int) + 1 ≤ q.missing u := by
      simpa [count] using enough u (List.mem_cons_self ..)
    have still : ∀ n ∈ rest, (rest.count n : Int) ≤ (serve q u).missing n := by
      intro n hn
      have more := enough n (List.mem_cons_of_mem _ hn)
      rw [count] at more
      rw [missing_serve]
      omega
    obtain ⟨missing, fair', ready⟩ := ih (fair.serve (by omega)) still
    rw [List.foldl_cons]
    refine ⟨fun n => ?_, fair', fun n => ?_⟩
    · rw [missing, missing_serve, count]
      omega
    · rw [ready, mem_ready_serve, missing, List.mem_cons, or_assoc]
      refine or_congr_right ⟨?_, ?_⟩
      · rintro (⟨rfl, last⟩ | ⟨later, none⟩)
        · -- one that misses no more has no turn left
          have gone : n ∉ rest := fun later => by
            have more := still n later
            have some := List.count_pos_iff.2 later
            omega
          exact ⟨.inl rfl, by rw [last, List.count_eq_zero.2 gone]; rfl⟩
        · exact ⟨.inr later, none⟩
      · rintro ⟨here, none⟩
        by_cases later : n ∈ rest
        · exact .inr ⟨later, none⟩
        · obtain rfl := here.resolve_right later
          rw [List.count_eq_zero.2 later] at none
          exact .inl ⟨rfl, by simpa using none⟩

namespace Counts

/-- An id is ready when none of its sources remains. -/
lemma ready_iff (counts : Counts sources ids remaining q) :
    n ∈ q.ready ↔ n ∈ remaining ∧ ∀ s ∈ remaining, s ∉ sources n := by
  rw [counts.ready]
  refine and_congr_right fun hn => ?_
  rw [counts.missing n hn, Int.natCast_eq_zero, List.countP_eq_zero]
  simp only [decide_eq_true_eq]
  exact ⟨fun none s hs read => none s read hs, fun none s read hs => none s hs read⟩

/-- Whoever reads from an id that remains has not been taken. -/
lemma mem_of_user (counts : Counts sources ids remaining q) (here : n ∈ remaining)
    (user : u ∈ users sources ids n) : u ∈ remaining := by
  obtain ⟨hu, read⟩ := mem_users.1 user
  by_contra gone
  exact counts.taken u hu gone n here read

/-- The reads that are missing lead to an id that remains, or to the others. -/
lemma missing_eq (counts : Counts sources ids remaining q) (nodup : ids.Nodup)
    (here : n ∈ remaining) (hu : u ∈ remaining) : q.missing u =
      (sources u).countP (· ∈ remaining.erase n) + (users sources ids n).count u := by
  rw [counts.missing u hu, count_users nodup (counts.within hu),
    countP_mem_erase counts.distinct here]
  rfl

/-- After a ready id has been taken and its users have been served, the other ids remain. -/
lemma step (counts : Counts sources ids remaining q) (nodup : ids.Nodup) (ready : n ∈ q.ready) :
    Counts sources ids (remaining.erase n)
      ((users sources ids n).foldl serve { q with ready := q.ready.erase n }) := by
  obtain ⟨here, last⟩ := counts.ready_iff.1 ready
  have others : ∀ {m}, m ∈ remaining.erase n ↔ m ≠ n ∧ m ∈ remaining :=
    counts.distinct.mem_erase_iff
  have fair : Fair { q with ready := q.ready.erase n } :=
    ⟨counts.once.erase n, fun m hm => ((counts.ready m).1 (List.mem_of_mem_erase hm)).2⟩
  obtain ⟨missing, fair', served⟩ := foldl_serve (users sources ids n) fair fun u hu => by
    have split := counts.missing_eq nodup here (counts.mem_of_user here hu)
    dsimp only
    omega
  have left : ∀ m ∈ remaining, ((users sources ids n).foldl serve
      { q with ready := q.ready.erase n }).missing m =
      (sources m).countP (· ∈ remaining.erase n) := by
    intro m hm
    rw [missing, counts.missing_eq nodup here hm]
    omega
  refine ⟨counts.distinct.erase n, fun m hm => counts.within (others.1 hm).2,
    fun m hm => left m (others.1 hm).2, fun m => ?_, fair'.once, fun i hi gone s hs => ?_⟩
  · rw [served, counts.once.mem_erase_iff]
    constructor
    · rintro (⟨ne, early⟩ | ⟨user, none⟩)
      · obtain ⟨hm, none⟩ := (counts.ready m).1 early
        have split := counts.missing_eq nodup here hm
        refine ⟨others.2 ⟨ne, hm⟩, ?_⟩
        rw [left m hm]
        omega
      · have ne : m ≠ n := fun eq => last n here (eq ▸ (mem_users.1 user).2)
        exact ⟨others.2 ⟨ne, counts.mem_of_user here user⟩, none⟩
    · rintro ⟨hm, none⟩
      obtain ⟨ne, hm⟩ := others.1 hm
      by_cases user : m ∈ users sources ids n
      · exact .inr ⟨user, none⟩
      · refine .inl ⟨ne, (counts.ready m).2 ⟨hm, ?_⟩⟩
        rw [missing, List.count_eq_zero.2 user] at none
        simpa using none
  · by_cases eq : i = n
    · exact eq ▸ last s (others.1 hs).2
    · exact counts.taken i hi (fun there => gone (others.2 ⟨eq, there⟩)) s (others.1 hs).2

end Counts

/-- The loop takes ids in the order in which always the least comes next that reads from none of
those that remain. -/
lemma order_eq (counts : Counts sources ids remaining q) (nodup : ids.Nodup)
    (ascending : remaining.Pairwise (· < ·)) :
    q.order (users sources ids) = some (readyOrder sources remaining) := by
  induction remaining using readyOrder.induct sources generalizing q with
  | case1 remaining none =>
    have nothing : q.ready = [] := by
      refine List.eq_nil_iff_forall_not_mem.2 fun n ready => ?_
      obtain ⟨here, last⟩ := counts.ready_iff.1 ready
      exact List.find?_eq_none.1 none n here (OperatorNet.ready_iff.2 last)
    rw [readyOrder_of_none none, Queue.order, nothing]
    rfl
  | case2 remaining n next ih =>
    have here := List.mem_of_find?_eq_some next
    have ready : n ∈ q.ready :=
      counts.ready_iff.2 ⟨here, OperatorNet.ready_iff.1 (List.find?_eq_some_iff_append.1 next).1⟩
    have least : q.ready.min? = some n := by
      refine List.min?_eq_some_iff.2 ⟨ready, fun m hm => ?_⟩
      obtain ⟨hm, last⟩ := counts.ready_iff.1 hm
      exact find?_least ascending next m hm (OperatorNet.ready_iff.2 last)
    have rest := ih (counts.step nodup ready) (ascending.sublist List.erase_sublist)
    rw [readyOrder_of_some next, Queue.order, least]
    simp only [rest, bind, Option.bind, pure]

/-- At first each id misses all its sources. -/
lemma counts_start (nodup : ids.Nodup) :
    Counts sources ids (sortedIds ids) (start sources ids) := by
  have same : ∀ {i}, i ∈ sortedIds ids ↔ i ∈ ids := (perm_sortedIds ids).mem_iff
  refine ⟨(perm_sortedIds ids).nodup_iff.2 nodup, (perm_sortedIds ids).subset, fun n _ => ?_,
    fun n => ?_, nodup.filter _, fun n hn gone => absurd (same.2 hn) gone⟩
  · simp only [start, same]
  · simp only [start, List.mem_filter, same, decide_eq_true_eq]

/-- Kahn's algorithm ends, and gives the longest order in which always the least of the ids comes
next that read from none of those that remain. -/
theorem run_eq (sources : Int → List Int) (nodup : ids.Nodup) :
    run sources ids = some (readyOrder sources (sortedIds ids)) :=
  order_eq (counts_start nodup) nodup (ascending_sortedIds nodup)

end Kahn

end OperatorNet
