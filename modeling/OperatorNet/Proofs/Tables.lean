import Mathlib.Data.List.Basic
import OperatorNet.Data.Key
import OperatorNet.Table

/-!
# Look-ups in tables

What is found when one list of pairs goes on as another (`fetch_append_of_mem`), and the keys that
are there after pairs were inserted (`Table.mem_keys_insertAll`) or filtered. What is found under
keys that may have several forms (`Keyed.get?_insert`).
-/

namespace OperatorNet

variable {κ ν : Type} {k : κ}

section Pairs

variable [DecidableEq κ] {xs ys : List (κ × ν)}

/-- A key in the first part is fetched there. -/
lemma fetch_append_of_mem (mem : k ∈ xs.map Prod.fst) : fetch k (xs ++ ys) = fetch k xs := by
  induction xs with
  | nil => cases mem
  | cons p rest ih =>
    obtain ⟨k', v⟩ := p
    rw [List.cons_append, fetch, fetch]
    split
    next => rfl
    next other =>
      rcases List.mem_cons.1 mem with rfl | later
      · exact absurd rfl other
      · exact ih later

/-- A key that is not in the first part is fetched in the second. -/
lemma fetch_append_of_notMem (absent : k ∉ xs.map Prod.fst) : fetch k (xs ++ ys) = fetch k ys := by
  induction xs with
  | nil => rfl
  | cons p rest ih =>
    obtain ⟨k', v⟩ := p
    rw [List.map_cons, List.mem_cons, not_or] at absent
    rw [List.cons_append, fetch, if_neg fun same => absent.1 same.symm, ih absent.2]

/-- What is fetched in the first part is fetched. -/
lemma fetch_append_of_eq_some {v : ν} (found : fetch k xs = some v) :
    fetch k (xs ++ ys) = some v := by
  rw [fetch_append_of_mem (List.mem_map_of_mem (mem_of_fetch found)), found]

/-- What is not fetched in the first part is fetched in the second. -/
lemma fetch_append_of_eq_none (absent : fetch k xs = none) : fetch k (xs ++ ys) = fetch k ys := by
  induction xs with
  | nil => rfl
  | cons p rest ih =>
    obtain ⟨k', v⟩ := p
    rw [fetch] at absent
    rw [List.cons_append, fetch]
    split at absent
    next => cases absent
    next other => rw [if_neg other, ih absent]

/-- A key that is not listed fetches nothing. -/
lemma fetch_eq_none (absent : k ∉ xs.map Prod.fst) : fetch k xs = none := by
  rw [← List.append_nil xs, fetch_append_of_notMem absent]
  rfl

/-- A new key is put last. -/
lemma put_of_notMem {v : ν} (absent : k ∉ xs.map Prod.fst) : put k v xs = xs ++ [(k, v)] := by
  induction xs with
  | nil => rfl
  | cons p rest ih =>
    obtain ⟨k', v'⟩ := p
    rw [List.map_cons, List.mem_cons, not_or] at absent
    rw [put, if_neg fun same => absent.1 same.symm, ih absent.2, List.cons_append]

/-- What is there after writing was written or was there. -/
lemma mem_put {v : ν} {q : κ × ν} (mem : q ∈ put k v xs) : q = (k, v) ∨ q ∈ xs := by
  induction xs with
  | nil => exact .inl (List.mem_singleton.1 mem)
  | cons p rest ih =>
    rw [put] at mem
    split at mem
    next => exact (List.mem_cons.1 mem).imp_right (List.mem_cons_of_mem _)
    next =>
      rcases List.mem_cons.1 mem with rfl | later
      · exact .inr (List.mem_cons_self ..)
      · exact (ih later).imp_right (List.mem_cons_of_mem _)

/-- An entry is fetched by its key if no key is listed twice. -/
lemma fetch_of_mem {v : ν} (distinct : (xs.map Prod.fst).Nodup) (mem : (k, v) ∈ xs) :
    fetch k xs = some v := by
  induction xs with
  | nil => cases mem
  | cons p rest ih =>
    rw [List.map_cons, List.nodup_cons] at distinct
    rw [fetch]
    rcases List.mem_cons.1 mem with rfl | later
    · rw [if_pos rfl]
    · have ne : p.1 ≠ k := fun same => distinct.1 (same ▸ List.mem_map_of_mem later)
      rw [if_neg ne, ih distinct.2 later]

end Pairs

namespace Table

variable {t : Table κ ν}

/-- The keys of a filtered table are keys of the table that pass. -/
lemma mem_keys_filter {f : κ → Bool} (mem : k ∈ (t.filter fun k _ => f k).keys) :
    k ∈ t.keys ∧ f k = true := by
  obtain ⟨q, entry, rfl⟩ := List.mem_map.1 mem
  obtain ⟨there, kept⟩ := List.mem_filter.1 entry
  exact ⟨List.mem_map_of_mem there, kept⟩

/-- After insertions a table has the new keys and those of before. -/
lemma mem_keys_insertAll [DecidableEq κ] {pairs : List (κ × ν)} :
    k ∈ (t.insertAll pairs).keys ↔ k ∈ t.keys ∨ k ∈ pairs.map Prod.fst := by
  induction pairs generalizing t with
  | nil => exact (or_iff_left List.not_mem_nil).symm
  | cons q rest ih =>
    have inserted : k ∈ (t.insert q.1 q.2).keys ↔ k ∈ t.keys ∨ k = q.1 := by
      rw [keys_insert]
      split
      next there => exact ⟨.inl, fun h => h.elim id fun same => same ▸ there⟩
      next => rw [List.mem_append, List.mem_singleton]
    rw [List.map_cons, List.mem_cons, ← or_assoc, ← inserted]
    exact ih

/-- After insertions each entry is one of before or a new one. -/
lemma mem_insertAll [DecidableEq κ] {pairs : List (κ × ν)} {q : κ × ν}
    (mem : q ∈ (t.insertAll pairs).entries) : q ∈ t.entries ∨ q ∈ pairs := by
  induction pairs generalizing t with
  | nil => exact .inl mem
  | cons p rest ih =>
    rcases ih (t := t.insert p.1 p.2) mem with old | later
    · rcases mem_put old with rfl | there
      · exact .inr (List.mem_cons_self ..)
      · exact .inl there
    · exact .inr (List.mem_cons_of_mem _ later)

/-- Pairs with new keys come behind the old ones. -/
lemma entries_insertAll [DecidableEq κ] {pairs : List (κ × ν)}
    (distinct : ((t.entries ++ pairs).map Prod.fst).Nodup) :
    (t.insertAll pairs).entries = t.entries ++ pairs := by
  induction pairs generalizing t with
  | nil => exact (List.append_nil _).symm
  | cons q rest ih =>
    have inserted : (t.insert q.1 q.2).entries = t.entries ++ [q] := by
      rw [List.map_append, List.nodup_append] at distinct
      exact put_of_notMem fun old => distinct.2.2 _ old _ (List.mem_cons_self ..) rfl
    rw [List.append_cons, ← inserted] at distinct ⊢
    exact ih distinct

/-- A table is made of its own entries. -/
lemma ofList_entries [DecidableEq κ] (t : Table κ ν) : ofList t.entries = t := by
  have entries : (ofList t.entries).entries = t.entries := entries_insertAll (t := empty) t.nodup
  cases t
  rw [mk.injEq]
  exact entries

/-- A table made of pairs has their keys. -/
lemma mem_keys_ofList [DecidableEq κ] {pairs : List (κ × ν)} :
    k ∈ (ofList pairs).keys ↔ k ∈ pairs.map Prod.fst := by
  rw [ofList, mem_keys_insertAll]
  exact or_iff_right List.not_mem_nil

/-- A table of a map has the images of the keys. -/
lemma mem_values_ofList_map [DecidableEq κ] {f : κ → ν} {keys : List κ} {v : ν} :
    v ∈ (ofList (keys.map fun k => (k, f k))).values ↔ ∃ k ∈ keys, v = f k := by
  have filled : ∀ q ∈ (ofList (keys.map fun k => (k, f k))).entries, ∃ k ∈ keys, (k, f k) = q :=
    fun q mem => List.mem_map.1 ((mem_insertAll mem).resolve_left List.not_mem_nil)
  constructor
  · intro mem
    obtain ⟨q, entry, rfl⟩ := List.mem_map.1 mem
    obtain ⟨k, hk, rfl⟩ := filled q entry
    exact ⟨k, hk, rfl⟩
  · rintro ⟨k, hk, rfl⟩
    have key : k ∈ (ofList (keys.map fun k => (k, f k))).keys :=
      mem_keys_ofList.2 (List.mem_map.2 ⟨_, List.mem_map_of_mem hk, rfl⟩)
    obtain ⟨q, entry, rfl⟩ := List.mem_map.1 key
    obtain ⟨k, -, rfl⟩ := filled q entry
    exact List.mem_map.2 ⟨_, entry, rfl⟩

end Table

/-! ### Values under keys of several forms -/

namespace Keyed

variable {β : Type} {entries : Keyed β} {key other : Data Float} {value : β}

/-- What was put under a key is there, and all else stays. -/
lemma get?_insert : (entries.insert key value).get? other =
    if key.key? = other.key? then some value else entries.get? other := by
  unfold insert get?
  split
  next there =>
    have keys : ((fun p : Data Float × β => decide (p.1.key? = other.key?)) ∘ fun p =>
        if p.1.key? = key.key? then (p.1, value) else p) = fun p =>
          decide (p.1.key? = other.key?) := by
      funext p
      rw [Function.comp_apply]
      split <;> rfl
    rw [List.find?_map, keys]
    cases found : entries.find? fun p => p.1.key? = other.key? with
    | none =>
      have other : key.key? ≠ other.key? := fun same => by
        obtain ⟨p, mem, own⟩ := List.any_eq_true.1 there
        exact List.find?_eq_none.1 found p mem (same ▸ own)
      rw [if_neg other]
      rfl
    | some p =>
      have own : p.1.key? = other.key? := by simpa using List.find?_some found
      rw [Option.map_some, Option.map_some, own]
      by_cases same : key.key? = other.key?
      · rw [if_pos same.symm, if_pos same]
      · rw [if_neg (Ne.symm same), if_neg same, Option.map_some]
  next absent =>
    rw [List.find?_append, List.find?_singleton]
    by_cases same : key.key? = other.key?
    · have none : entries.find? (fun p => p.1.key? = other.key?) = none :=
        List.find?_eq_none.2 fun p mem own => absent (List.any_eq_true.2 ⟨p, mem, same ▸ own⟩)
      rw [none, if_pos same, if_pos (decide_eq_true same)]
      rfl
    · rw [if_neg same, if_neg (by simpa using same), Option.or_none]

/-- What is got after an erasure was got before. -/
lemma get?_of_erase (found : (entries.erase key).get? other = some value) :
    entries.get? other = some value := by
  rw [erase, get?, List.find?_filter] at found
  obtain ⟨p, there, rfl⟩ := Option.map_eq_some_iff.1 found
  have own : p.1.key? ≠ key.key? ∧ p.1.key? = other.key? := by simpa using List.find?_some there
  have same : (fun q : Data Float × β => decide (q.1.key? = other.key?)) = fun q =>
      decide (decide (q.1.key? ≠ key.key?) = true ∧ decide (q.1.key? = other.key?) = true) := by
    funext q
    simp only [decide_eq_true_eq, decide_eq_decide, iff_and_self]
    exact fun eq => eq.trans own.2.symm ▸ own.1
  rw [get?, same, there]
  rfl

end Keyed

end OperatorNet
