import Mathlib.Data.List.Induction
import Mathlib.Data.List.Nodup
import OperatorNet.Proofs.Results
import OperatorNet.Ref.Find

/-!
# References that equal ids

A reference equals an id when it is the same key as the id (`Ref.id?_eq_some_iff`). So it finds what
is stored under that id and nothing else (`Ref.find_of_id?`, `Ref.exists_of_find`), and two
references are the same when the ids are (`Ref.same_eq_decide`). Of references that equal one id the
first is kept (`Ref.nodup_filterMap_distinct`). What an id is spelled as equals the id, and among
references that are kept it is the one that equals it (`Ref.spelling_of_mem`).
-/

namespace OperatorNet

namespace Ref

variable {a b r : Ref} {rs : List Ref} {ids : List Int} {m n : Int}

/-- A reference to an id has the id for its key. -/
lemma id?_eq_some_iff : r.id? = some n ↔ r.key? = some (.whole n) := by
  cases r with
  | id m =>
    change some m = some n ↔ some (Key.whole m) = some (.whole n)
    rw [Option.some_inj, Option.some_inj, Key.whole.injEq]
  | form d =>
    change d.id? = some n ↔ d.key? = some (.whole n)
    rw [Data.id?]
    split
    next m key => rw [key, Option.some_inj, Option.some_inj, Key.whole.injEq]
    next other => exact iff_of_false (Option.some_ne_none n).symm (other n)

/-- A reference to an id passes. -/
lemma check_of_id? (id : r.id? = some n) : r.check = .ok () := by
  rw [check, id?_eq_some_iff.1 id]
  rfl

/-- A reference to an id finds what is there. -/
lemma find_of_id? {β : Type} {lookup : Int → Option β} {x : β} (id : r.id? = some n)
    (there : lookup n = some x) : r.find lookup = .ok x := by
  rw [find, check_of_id? id, id, Option.bind_some, there]
  rfl

/-- A reference that finds something is one to an id. -/
lemma exists_of_find {β : Type} {lookup : Int → Option β} {x : β} (found : r.find lookup = .ok x) :
    ∃ n, r.id? = some n ∧ lookup n = some x := by
  rw [find, bind_eq_ok] at found
  obtain ⟨-, -, found⟩ := found
  split at found
  next y bound =>
    rw [pure_eq_ok] at found
    subst found
    exact Option.bind_eq_some_iff.1 bound
  next => exact absurd found fail_ne_ok

/-- References that are the same are to the same id. -/
lemma id?_of_same (same : a.same b = true) : a.id? = b.id? := by
  rw [Ref.same, Bool.and_eq_true, decide_eq_true_eq] at same
  refine Option.ext fun n => ?_
  rw [id?_eq_some_iff, id?_eq_some_iff, same.2]

/-- References to ids are the same when the ids are. -/
lemma same_eq_decide (ha : a.id? = some m) (hb : b.id? = some n) : a.same b = decide (m = n) := by
  rw [same, id?_eq_some_iff.1 ha, id?_eq_some_iff.1 hb, Option.isSome_some, Bool.true_and]
  exact decide_eq_decide.2 ⟨fun same => Key.whole.inj (Option.some.inj same),
    fun same => by rw [same]⟩

/-- References that equal different ids are all kept. -/
lemma distinct_eq (known : rs.map id? = ids.map some) (nodup : ids.Nodup) : distinct rs = rs := by
  have all : ∀ (before : List Ref) (done : List Int), before.map id? = done.map some →
      (done ++ ids).Nodup →
      rs.foldl (fun acc r => if acc.any r.same then acc else acc ++ [r]) before = before ++ rs := by
    induction rs generalizing ids with
    | nil => exact fun before _ _ _ => (List.append_nil before).symm
    | cons r rest ih =>
      obtain _ | ⟨n, ids⟩ := ids
      · cases known
      obtain ⟨id, known⟩ := List.cons.inj known
      intro before done found nodup
      have new : before.any r.same = false := by
        rw [List.any_eq_false]
        intro q hq same
        have mem : q.id? ∈ done.map some := found ▸ List.mem_map_of_mem hq
        obtain ⟨m, hm, equals⟩ := List.mem_map.1 mem
        rw [same_eq_decide id equals.symm, decide_eq_true_eq] at same
        exact List.disjoint_of_nodup_append nodup hm (same ▸ List.mem_cons_self ..)
      rw [List.foldl_cons, new, if_neg Bool.false_ne_true]
      have more := ih known (List.nodup_append.1 nodup).2.1.of_cons (before ++ [r]) (done ++ [n])
        (by rw [List.map_append, List.map_append, found, List.map_singleton, id]; rfl)
        (by simpa using nodup)
      rw [more, List.append_assoc, List.singleton_append]
  exact all [] [] rfl nodup

/-- A reference behind others is kept when none of them is the same. -/
lemma distinct_append (rs : List Ref) (r : Ref) :
    distinct (rs ++ [r]) = if (distinct rs).any r.same then distinct rs
      else distinct rs ++ [r] := by
  rw [distinct, List.foldl_append]
  rfl

/-- References without repetitions are among all. -/
lemma mem_of_mem_distinct (mem : r ∈ distinct rs) : r ∈ rs := by
  induction rs using List.reverseRecOn with
  | nil => exact mem
  | append_singleton rs q ih =>
    rw [distinct_append] at mem
    split at mem
    next => exact List.mem_append_left _ (ih mem)
    next =>
      rcases List.mem_append.1 mem with mem | last
      · exact List.mem_append_left _ (ih mem)
      · exact List.mem_append_right _ last

/-- References that equal the same id are kept once. -/
lemma nodup_filterMap_distinct (rs : List Ref) : ((distinct rs).filterMap id?).Nodup := by
  induction rs using List.reverseRecOn with
  | nil => exact List.nodup_nil
  | append_singleton rs r ih =>
    rw [distinct_append]
    split
    next => exact ih
    next new =>
      rw [List.filterMap_append]
      cases id : r.id? with
      | none => rw [List.filterMap_cons_none id, List.filterMap_nil, List.append_nil]; exact ih
      | some n =>
        rw [List.filterMap_cons_some id, List.filterMap_nil]
        refine List.nodup_append.2 ⟨ih, List.nodup_singleton n, fun m hm n' hn eq => new ?_⟩
        obtain ⟨q, hq, id'⟩ := List.mem_filterMap.1 hm
        rw [List.mem_singleton.1 hn] at eq
        exact List.any_eq_true.2
          ⟨q, hq, by rw [same_eq_decide id id', eq]; exact decide_eq_true rfl⟩

/-- A spelling of an id is a reference to it. -/
lemma id?_spelling (rs : List Ref) (n : Int) : (spelling rs n).id? = some n := by
  rw [spelling]
  cases first : rs.find? fun r => r.id? = some n with
  | none => rfl
  | some r => simpa using List.find?_some first

/-- The spellings of some ids are references to these. -/
lemma filterMap_map_spelling (rs : List Ref) (ids : List Int) :
    (ids.map (spelling rs)).filterMap id? = ids := by
  rw [List.filterMap_map]
  exact (List.filterMap_congr fun n _ => id?_spelling rs n).trans List.filterMap_some

/-- A reference is spelled as it is among references that equal different ids. -/
lemma spelling_of_mem (nodup : (rs.filterMap id?).Nodup) (mem : r ∈ rs) (id : r.id? = some n) :
    spelling rs n = r := by
  induction rs with
  | nil => cases mem
  | cons q rest ih =>
    rw [spelling]
    by_cases same : q.id? = some n
    · rw [List.find?_cons_of_pos (by simpa using same), Option.getD_some]
      rw [List.filterMap_cons_some same] at nodup
      rcases List.mem_cons.1 mem with rfl | later
      · rfl
      · exact absurd (List.mem_filterMap.2 ⟨r, later, id⟩) (List.nodup_cons.1 nodup).1
    · have later : r ∈ rest := (List.mem_cons.1 mem).resolve_left fun eq => same (eq ▸ id)
      rw [List.find?_cons_of_neg (by simpa using same)]
      refine ih ?_ later
      exact nodup.sublist ((List.sublist_cons_self q rest).filterMap _)

/-- References to given ids have these for their ids. -/
lemma filterMap_id? {ids : List Int} (known : rs.map id? = ids.map some) :
    rs.filterMap id? = ids := by
  have whole := congrArg (List.filterMap fun id => id) known
  rw [List.filterMap_map, List.filterMap_map] at whole
  exact whole.trans List.filterMap_some

/-- References that are all to ids are to the ids that they have. -/
lemma map_id?_of_isSome (known : ∀ r ∈ rs, r.id?.isSome) :
    rs.map id? = (rs.filterMap id?).map some := by
  induction rs with
  | nil => rfl
  | cons r rest ih =>
    rw [List.forall_mem_cons] at known
    obtain ⟨n, id⟩ := Option.isSome_iff_exists.1 known.1
    rw [List.map_cons, List.filterMap_cons_some id, List.map_cons, id, ih known.2]

end Ref

end OperatorNet
