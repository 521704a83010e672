/-!
# Tables

A table holds one value per key and keeps the order in which keys first came. Writing to a key that
is there replaces its value in place. The view of a table is its look-up function:
`get?_insert_self` and `get?_insert_of_ne` say what an insertion does to it, `keys_insert` what it
does to the order.
-/

namespace OperatorNet

/-- Writes `v` at `k` in a list of pairs: in place if the key is there, else at the end. -/
def put {κ ν : Type} [DecidableEq κ] (k : κ) (v : ν) : List (κ × ν) → List (κ × ν)
  | [] => [(k, v)]
  | (k', v') :: rest => if k' = k then (k, v) :: rest else (k', v') :: put k v rest

/-- The value at the first pair with key `k`. -/
def fetch {κ ν : Type} [DecidableEq κ] (k : κ) : List (κ × ν) → Option ν
  | [] => none
  | (k', v) :: rest => if k' = k then some v else fetch k rest

section Pairs

variable {κ ν : Type} [DecidableEq κ]

/-- A key that is put keeps its place, or comes last. -/
theorem map_fst_put (k : κ) (v : ν) (l : List (κ × ν)) :
    (put k v l).map Prod.fst =
      if k ∈ l.map Prod.fst then l.map Prod.fst else l.map Prod.fst ++ [k] := by
  induction l with
  | nil => simp [put]
  | cons p rest ih =>
    obtain ⟨k', v'⟩ := p
    by_cases h : k' = k
    · simp [put, h]
    · have h' : ¬ k = k' := fun e => h e.symm
      simp only [put, h, if_false, List.map_cons, ih, List.mem_cons, h', false_or]
      split <;> simp

/-- Keys stay different when one is put. -/
theorem nodup_put (k : κ) (v : ν) (l : List (κ × ν)) (h : (l.map Prod.fst).Nodup) :
    ((put k v l).map Prod.fst).Nodup := by
  rw [map_fst_put]
  split
  · exact h
  · rename_i hk
    rw [List.nodup_append]
    refine ⟨h, by simp, ?_⟩
    intro a ha b hb
    simp only [List.mem_singleton] at hb
    rintro rfl
    exact hk (hb ▸ ha)

/-- What was put under a key is fetched by it. -/
theorem fetch_put_self (k : κ) (v : ν) (l : List (κ × ν)) : fetch k (put k v l) = some v := by
  induction l with
  | nil => simp [put, fetch]
  | cons p rest ih =>
    obtain ⟨k', v'⟩ := p
    by_cases h : k' = k <;> simp [put, fetch, h, ih]

/-- What was put under a key does not count for other keys. -/
theorem fetch_put_of_ne {k k' : κ} (h : k' ≠ k) (v : ν) (l : List (κ × ν)) :
    fetch k' (put k v l) = fetch k' l := by
  induction l with
  | nil => simp [put, fetch, Ne.symm h]
  | cons p rest ih =>
    obtain ⟨a, b⟩ := p
    by_cases ha : a = k
    · subst ha; simp [put, fetch, Ne.symm h]
    · simp [put, fetch, ha, ih]

/-- What is fetched by a key stands under it. -/
theorem mem_of_fetch {k : κ} {v : ν} {l : List (κ × ν)} (h : fetch k l = some v) : (k, v) ∈ l := by
  induction l with
  | nil => simp [fetch] at h
  | cons p rest ih =>
    obtain ⟨a, b⟩ := p
    by_cases ha : a = k
    · simp_all [fetch]
    · simp only [fetch, ha, if_false] at h
      exact List.mem_cons_of_mem _ (ih h)

end Pairs

/-- Values by key, in the order in which the keys first came. -/
structure Table (κ ν : Type) where
  entries : List (κ × ν)
  nodup : (entries.map Prod.fst).Nodup

namespace Table

variable {κ ν μ : Type}

/-- The table without entries. -/
def empty : Table κ ν :=
  ⟨[], by simp⟩

instance : Inhabited (Table κ ν) := ⟨empty⟩

/-- The keys in order. -/
def keys (t : Table κ ν) : List κ :=
  t.entries.map Prod.fst

/-- The values in key order. -/
def values (t : Table κ ν) : List ν :=
  t.entries.map Prod.snd

/-- Number of entries. -/
def size (t : Table κ ν) : Nat :=
  t.entries.length

/-- Applies a function to every value. -/
def mapValues (f : ν → μ) (t : Table κ ν) : Table κ μ :=
  ⟨t.entries.map fun p => (p.1, f p.2), by simpa [Function.comp_def] using t.nodup⟩

/-- The entries whose key and value pass a test. -/
def filter (t : Table κ ν) (p : κ → ν → Bool) : Table κ ν :=
  ⟨t.entries.filter fun e => p e.1 e.2, t.nodup.sublist (List.Sublist.map _ List.filter_sublist)⟩

variable [DecidableEq κ]

/-- The value at a key. -/
def get? (t : Table κ ν) (k : κ) : Option ν :=
  fetch k t.entries

/-- Whether a key has a value. -/
def contains (t : Table κ ν) (k : κ) : Bool :=
  (t.get? k).isSome

/-- Sets the value at a key. -/
def insert (t : Table κ ν) (k : κ) (v : ν) : Table κ ν :=
  ⟨put k v t.entries, nodup_put k v t.entries t.nodup⟩

/-- Removes a key. -/
def erase (t : Table κ ν) (k : κ) : Table κ ν :=
  t.filter fun k' _ => k' ≠ k

/-- Inserts pairs from left to right. -/
def insertAll (t : Table κ ν) (pairs : List (κ × ν)) : Table κ ν :=
  pairs.foldl (fun acc p => acc.insert p.1 p.2) t

/-- The table of a list of pairs; the last value of a key counts. -/
def ofList (pairs : List (κ × ν)) : Table κ ν :=
  empty.insertAll pairs

/-- What was inserted under a key is got by it. -/
@[simp] theorem get?_insert_self (t : Table κ ν) (k : κ) (v : ν) :
    (t.insert k v).get? k = some v :=
  fetch_put_self k v t.entries

/-- What was inserted under a key does not count for other keys. -/
theorem get?_insert_of_ne (t : Table κ ν) {k k' : κ} (h : k' ≠ k) (v : ν) :
    (t.insert k v).get? k' = t.get? k' :=
  fetch_put_of_ne h v t.entries

/-- A key that is inserted keeps its place, or comes last. -/
theorem keys_insert (t : Table κ ν) (k : κ) (v : ν) :
    (t.insert k v).keys = if k ∈ t.keys then t.keys else t.keys ++ [k] :=
  map_fst_put k v t.entries

/-- What is got by a key is an entry of the table. -/
theorem mem_of_get? {t : Table κ ν} {k : κ} {v : ν} (h : t.get? k = some v) :
    (k, v) ∈ t.entries :=
  mem_of_fetch h

end Table

end OperatorNet
