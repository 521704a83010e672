import Mathlib.Data.List.Chain
import OperatorNet.Sorting

/-!
# Sorted lists

An element that is inserted comes right behind one that it does not come before and right in front
of one that it comes before (`exists_insertByHalves`), and a run is sorted. So sorting by a relation
that is a strict weak order sorts (`Ranks.inOrder_sortBy`), and sorting by any other relation still
leaves no element right behind one that it comes before (`stepwise_sortBy`). What is in order is
left alone (`sortBy_of_pairwise`).
-/

namespace OperatorNet

variable {β : Type} {before : β → β → Bool} {x y : β} {xs : List β}

/-- A "comes before" by which lists can be sorted. -/
structure Ranks (before : β → β → Bool) : Prop where
  asymm : ∀ a b, before a b = true → before b a = false
  /-- What does not come before something does not come before what comes after it. -/
  trans : ∀ a b c, before b a = false → before c b = false → before c a = false

/-- Nothing comes before what stands right in front of it. -/
def Stepwise (before : β → β → Bool) (xs : List β) : Prop :=
  xs.IsChain fun a b => before b a = false

/-- Nothing comes before what stands in front of it. -/
def InOrder (before : β → β → Bool) (xs : List β) : Prop :=
  xs.Pairwise fun a b => before b a = false

/-- An element is put behind one that it does not come before and in front of one that it comes
before. -/
lemma exists_insertByHalves (before : β → β → Bool) (x : β) {n : Nat} (room : xs.length ≤ n) :
    ∃ front back, xs = front ++ back ∧
    insertByHalves before x n xs = front ++ x :: back ∧
    (∀ a ∈ front.getLast?, before x a = false) ∧ ∀ b ∈ back.head?, before x b = true := by
  induction n generalizing xs with
  | zero =>
    obtain rfl := List.length_eq_zero_iff.1 (Nat.le_zero.1 room)
    exact ⟨[], [], rfl, rfl, by simp, by simp⟩
  | succ n ih =>
    rw [insertByHalves]
    have whole := List.take_append_drop (xs.length / 2) xs
    have left : (xs.take (xs.length / 2)).length ≤ xs.length / 2 := List.length_take_le _ _
    have right : (xs.drop (xs.length / 2)).length = xs.length - xs.length / 2 := List.length_drop
    -- only the lengths of the halves matter from here on
    generalize xs.take (xs.length / 2) = half at whole left
    generalize xs.drop (xs.length / 2) = tail at whole right
    cases tail with
    | nil =>
      rw [List.length_nil] at right
      obtain rfl := List.length_eq_zero_iff.1 (show xs.length = 0 by omega)
      exact ⟨[], [], rfl, rfl, by simp, by simp⟩
    | cons y rest =>
      rw [List.length_cons] at right
      dsimp only
      split
      next earlier =>
        obtain ⟨front, back, rfl, inserted, behind, ahead⟩ := ih (show half.length ≤ n by omega)
        refine ⟨front, back ++ y :: rest, by rw [← whole, List.append_assoc], ?_, behind, ?_⟩
        · rw [inserted, List.append_assoc, List.cons_append]
        · cases back with
          | nil =>
            rintro _ ⟨⟩
            exact earlier
          | cons b _ => exact ahead
      next later =>
        obtain ⟨front, back, rfl, inserted, behind, ahead⟩ := ih (show rest.length ≤ n by omega)
        refine ⟨half ++ y :: front,
          back, by rw [← whole, List.append_assoc, List.cons_append], ?_, ?_,
          ahead⟩
        · rw [inserted, List.append_assoc, List.cons_append]
        · rw [List.getLast?_append, List.getLast?_cons]
          cases last : front.getLast? with
          | none =>
            rintro _ ⟨⟩
            exact Bool.eq_false_iff.2 later
          | some a =>
            rintro _ ⟨⟩
            exact behind a last

/-- Each element of a run goes on with the run. -/
lemma isChain_run (goesOn : β → β → Bool) (x : β) (xs : List β) :
    (x :: (splitRun goesOn x xs).1).IsChain fun a b => goesOn a b = true := by
  induction xs generalizing x with
  | nil => exact .singleton x
  | cons y rest ih =>
    rw [splitRun]
    split
    next on => exact .cons_cons on (ih y)
    next => exact .singleton x

namespace Ranks

/-- An element that is inserted among others in order is in order with them. -/
lemma inOrder_insertBy (ranks : Ranks before) (sorted : InOrder before xs) :
    InOrder before (insertBy before xs x) := by
  obtain ⟨front, back, rfl, inserted, behind, ahead⟩ :=
    exists_insertByHalves before x (Nat.le_refl xs.length)
  rw [insertBy, inserted]
  obtain ⟨atFront, atBack, across⟩ := List.pairwise_append.1 sorted
  -- the element is to all others what it is to the ones next to it
  have notBefore : ∀ a ∈ front, before x a = false := by
    cases front using List.reverseRecOn with
    | nil => exact fun a mem => absurd mem List.not_mem_nil
    | append_singleton front l =>
      have last := behind l List.getLast?_concat
      intro a mem
      rcases List.mem_append.1 mem with earlier | here
      · refine ranks.trans _ _ _ ?_ last
        exact (List.pairwise_append.1 atFront).2.2 a earlier l (List.mem_singleton_self l)
      · rw [List.mem_singleton.1 here]
        exact last
  have notAfter : ∀ b ∈ back, before b x = false := by
    cases back with
    | nil => exact fun b mem => absurd mem List.not_mem_nil
    | cons h rest =>
      have first := ranks.asymm _ _ (ahead h rfl)
      refine List.forall_mem_cons.2 ⟨first, fun b later => ?_⟩
      exact ranks.trans _ _ _ first ((List.pairwise_cons.1 atBack).1 b later)
  refine List.pairwise_append.2
    ⟨atFront, List.pairwise_cons.2 ⟨notAfter, atBack⟩, fun a ha b hb => ?_⟩
  rcases List.mem_cons.1 hb with rfl | old
  · exact notBefore a ha
  · exact across a ha b old

/-- Inserting elements one after the other keeps a list in order. -/
lemma inOrder_foldl_insertBy (ranks : Ranks before) {start : List β}
    (sorted : InOrder before start) :
    InOrder before (xs.foldl (insertBy before) start) := by
  induction xs generalizing start with
  | nil => exact sorted
  | cons x rest ih => exact ih (ranks.inOrder_insertBy sorted)

/-- A run goes on in one direction. -/
lemma pairwise_run (goesOn : β → β → Bool) (x : β) (xs : List β)
    (trans : ∀ a b c, goesOn a b = true → goesOn b c = true → goesOn a c = true) :
    (x :: (splitRun goesOn x xs).1).Pairwise fun a b => goesOn a b = true :=
  have : IsTrans β fun a b => goesOn a b = true := ⟨trans⟩
  List.isChain_iff_pairwise.1 (isChain_run goesOn x xs)

/-- A sorted list is in order. -/
lemma inOrder_sortBy (ranks : Ranks before) (xs : List β) : InOrder before (sortBy before xs) := by
  match xs with
  | [] => exact List.Pairwise.nil
  | [x] => exact List.pairwise_singleton _ _
  | x :: y :: rest =>
    rw [sortBy]
    split
    next down =>
      -- the run goes down strictly, so it is in order when it is turned around
      have run := pairwise_run (fun a b => before b a) x (y :: rest) ?_
      · rw [splitRun, if_pos down] at run
        refine ranks.inOrder_foldl_insertBy (List.pairwise_reverse.2 (run.imp fun later => ?_))
        exact ranks.asymm _ _ later
      · intro a b c first second
        by_contra reversed
        have below := ranks.trans _ _ _ (ranks.asymm _ _ first) (Bool.eq_false_iff.2 reversed)
        rw [second] at below
        cases below
    next up =>
      have notBefore : before y x = false := Bool.eq_false_iff.2 up
      have run := pairwise_run (fun a b => !before b a) x (y :: rest) ?_
      · rw [splitRun, if_pos (by rw [notBefore]; rfl)] at run
        refine ranks.inOrder_foldl_insertBy (run.imp fun later => ?_)
        simpa using later
      · intro a b c first second
        rw [Bool.not_eq_true'] at *
        exact ranks.trans _ _ _ first second

end Ranks

/-! ### Sorting by a relation that is no order -/

/-- Inserting keeps neighbours in order, whatever the comparison is like otherwise. -/
lemma stepwise_insertBy (asymm : ∀ a b, before a b = true → before b a = false)
    (sorted : Stepwise before xs) : Stepwise before (insertBy before xs x) := by
  obtain ⟨front, back, rfl, inserted, behind, ahead⟩ :=
    exists_insertByHalves before x (Nat.le_refl xs.length)
  rw [insertBy, inserted]
  obtain ⟨atFront, atBack, -⟩ := List.isChain_append.1 sorted
  refine List.isChain_append.2 ⟨atFront, List.isChain_cons.2 ⟨fun b hb => ?_, atBack⟩, ?_⟩
  · exact asymm _ _ (ahead b hb)
  · rintro a last _ ⟨⟩
    exact behind a last

/-- Inserting elements one after the other keeps neighbours in order. -/
lemma stepwise_foldl_insertBy (asymm : ∀ a b, before a b = true → before b a = false)
    {start : List β} (sorted : Stepwise before start) :
    Stepwise before (xs.foldl (insertBy before) start) := by
  induction xs generalizing start with
  | nil => exact sorted
  | cons x rest ih => exact ih (stepwise_insertBy asymm sorted)

/-- Sorting leaves nothing right behind what it comes before, also by a relation that is no
order. -/
lemma stepwise_sortBy (asymm : ∀ a b, before a b = true → before b a = false) (xs : List β) :
    Stepwise before (sortBy before xs) := by
  match xs with
  | [] => exact .nil
  | [x] => exact .singleton x
  | x :: y :: rest =>
    rw [sortBy]
    split
    next down =>
      have run := isChain_run (fun a b => before b a) x (y :: rest)
      rw [splitRun, if_pos down] at run
      refine stepwise_foldl_insertBy asymm (List.isChain_reverse.2 (run.imp fun a b later => ?_))
      exact asymm _ _ later
    next up =>
      have run := isChain_run (fun a b => !before b a) x (y :: rest)
      rw [splitRun, if_pos (by rw [Bool.eq_false_iff.2 up]; rfl)] at run
      refine stepwise_foldl_insertBy asymm (run.imp fun a b later => ?_)
      simpa using later

/-! ### Elements that can be ranked among others that cannot -/

section Map

variable {γ : Type} {f : γ → β}

/-- A run of images is the image of a run. -/
lemma splitRun_map {goesOn : β → β → Bool} {x : γ} {xs : List γ} :
    splitRun goesOn (f x) (xs.map f) =
      ((splitRun (fun a b => goesOn (f a) (f b)) x xs).1.map f,
        (splitRun (fun a b => goesOn (f a) (f b)) x xs).2.map f) := by
  induction xs generalizing x with
  | nil => rfl
  | cons y rest ih =>
    rw [List.map_cons, splitRun, splitRun, ih]
    split <;> rfl

/-- Inserting by halves goes with a map of the elements. -/
lemma insertByHalves_map {x : γ} {n : Nat} {xs : List γ} :
    insertByHalves before (f x) n (xs.map f) =
      (insertByHalves (fun a b => before (f a) (f b)) x n xs).map f := by
  induction n generalizing xs with
  | zero => rfl
  | succ n ih =>
    rw [insertByHalves, insertByHalves, List.length_map, ← List.map_take, ← List.map_drop]
    cases xs.drop (xs.length / 2) with
    | nil => rfl
    | cons y back =>
      simp only [List.map_cons, ih, apply_ite (List.map f), List.map_append]

/-- Inserting elements one after the other goes with a map of them. -/
lemma foldl_insertBy_map {start xs : List γ} :
    (xs.map f).foldl (insertBy before) (start.map f) =
      (xs.foldl (insertBy fun a b => before (f a) (f b)) start).map f := by
  induction xs generalizing start with
  | nil => rfl
  | cons x rest ih =>
    rw [List.map_cons, List.foldl_cons, insertBy, List.length_map, insertByHalves_map]
    exact ih

/-- Sorting goes with a map of the elements. -/
lemma sortBy_map {xs : List γ} :
    sortBy before (xs.map f) = (sortBy (fun a b => before (f a) (f b)) xs).map f := by
  match xs with
  | [] => rfl
  | [x] => rfl
  | x :: y :: rest =>
    simp only [List.map_cons, sortBy]
    split
    · rw [splitRun_map, ← foldl_insertBy_map, List.map_reverse]
      rfl
    · rw [splitRun_map, ← foldl_insertBy_map]
      rfl

end Map

/-- A sorted list is in order if its elements are ranked among each other. -/
lemma inOrder_sortBy_of_forall {p : β → Prop} (ranks : Ranks fun a b : { x // p x } => before a b)
    (all : ∀ x ∈ xs, p x) : InOrder before (sortBy before xs) := by
  have sorted := ranks.inOrder_sortBy (xs.attachWith p all)
  rw [← List.attachWith_map_subtype_val all, sortBy_map]
  exact List.pairwise_map.2 sorted

/-- There is one way to put elements in order if of two different ones one comes first. -/
lemma InOrder.eq_of_perm {ys : List β} (ordered : InOrder before xs) (ordered' : InOrder before ys)
    (perm : xs.Perm ys)
    (apart : ∀ a ∈ xs, ∀ b ∈ xs, before a b = false → before b a = false → a = b) : xs = ys := by
  apply List.Perm.eq_of_pairwise ?_ ordered ordered' perm
  intro a b ha hb first second
  exact apart a ha b (perm.mem_iff.2 hb) second first

/-- A list in which each element goes on is one run. -/
lemma splitRun_of_chain {goesOn : β → β → Bool} {ys : List β}
    (chain : (x :: ys).Pairwise fun a b => goesOn a b = true) :
    splitRun goesOn x ys = (ys, []) := by
  induction ys generalizing x with
  | nil => rfl
  | cons y rest ih =>
    rw [List.pairwise_cons] at chain
    rw [splitRun, if_pos (chain.1 y (by simp)), ih chain.2]

/-- A list in order stays as it is when it is sorted. -/
lemma sortBy_of_pairwise (ordered : xs.Pairwise fun a b => before b a = false) :
    sortBy before xs = xs := by
  match xs with
  | [] => rfl
  | [x] => rfl
  | x :: y :: rest =>
    rw [List.pairwise_cons] at ordered
    have run : splitRun (fun a b => !before b a) y rest = (rest, []) :=
      splitRun_of_chain (ordered.2.imp fun later => by rw [later]; rfl)
    rw [sortBy, if_neg (by rw [ordered.1 y (by simp)]; exact Bool.false_ne_true)]
    simp only [run, List.foldl_nil]

/-! ### Whole numbers -/

section

variable {ids ids' : List Int}

/-- Sorted ids are the ids. -/
lemma perm_sortedIds (ids : List Int) : (sortedIds ids).Perm ids :=
  perm_sortBy _ ids

/-- Sorted ids are in order. -/
lemma pairwise_sortedIds (ids : List Int) : (sortedIds ids).Pairwise (· ≤ ·) := by
  have ranks : Ranks fun a b : Int => decide (a < b) := by
    constructor
    · intro a b
      simp only [decide_eq_true_eq, decide_eq_false_iff_not]
      omega
    · intro a b c
      simp only [decide_eq_false_iff_not]
      omega
  refine (ranks.inOrder_sortBy ids).imp fun notBefore => ?_
  exact Int.not_lt.1 (of_decide_eq_false notBefore)

/-- Sorted ids that are different ascend. -/
lemma ascending_sortedIds (nodup : ids.Nodup) : (sortedIds ids).Pairwise (· < ·) := by
  have apart := (perm_sortedIds ids).nodup_iff.2 nodup
  exact ((pairwise_sortedIds ids).and apart).imp fun both => Int.lt_iff_le_and_ne.2 both

/-- Numbers are sorted alike from every order. -/
lemma sortedIds_of_perm (perm : ids.Perm ids') : sortedIds ids = sortedIds ids' := by
  refine List.Perm.eq_of_pairwise (fun a b _ _ => Int.le_antisymm) (pairwise_sortedIds ids)
    (pairwise_sortedIds ids') ?_
  exact (perm_sortedIds ids).trans (perm.trans (perm_sortedIds ids').symm)

end

end OperatorNet
