/-!
# Sorting

Sorting with a given "comes before". The run at the start of a list is kept, turned around if each
of its elements comes before the one in front of it; every later element is put into its place,
which is found by halving. Elements neither of which comes before the other keep their order.
`perm_sortBy` says that sorting only rearranges, also by a relation that is no order.
-/

namespace OperatorNet

/-- Splits off what goes on with the run that an element ends. -/
def splitRun {β : Type} (goesOn : β → β → Bool) (x : β) : List β → List β × List β
  | [] => ([], [])
  | y :: ys =>
    if goesOn x y then
      let p := splitRun goesOn y ys
      (y :: p.1, p.2)
    else ([], y :: ys)

/-- Inserts an element behind all that it does not come before, which are found by at most `n`
halvings. -/
def insertByHalves {β : Type} (before : β → β → Bool) (x : β) : Nat → List β → List β
  | 0, ys => x :: ys
  | n + 1, ys =>
    let front := ys.take (ys.length / 2)
    match ys.drop (ys.length / 2) with
    | [] => [x]
    | y :: back =>
      if before x y then insertByHalves before x n front ++ y :: back
      else front ++ y :: insertByHalves before x n back

/-- Inserts an element behind all that it does not come before. -/
def insertBy {β : Type} (before : β → β → Bool) (ys : List β) (x : β) : List β :=
  insertByHalves before x ys.length ys

/-- Sorts a list. -/
def sortBy {β : Type} (before : β → β → Bool) : List β → List β
  | [] => []
  | [x] => [x]
  | x :: y :: rest =>
    if before y x then
      let p := splitRun (fun a b => before b a) y rest
      p.2.foldl (insertBy before) (x :: y :: p.1).reverse
    else
      let p := splitRun (fun a b => !before b a) y rest
      p.2.foldl (insertBy before) (x :: y :: p.1)

/-- A run and what comes after it make up the whole list. -/
theorem splitRun_append {β : Type} (goesOn : β → β → Bool) (x : β) (ys : List β) :
    (splitRun goesOn x ys).1 ++ (splitRun goesOn x ys).2 = ys := by
  induction ys generalizing x with
  | nil => rfl
  | cons y rest ih =>
    simp only [splitRun]
    split
    · simp [ih y]
    · rfl

/-- Inserting by halves puts one element in and loses none. -/
theorem perm_insertByHalves {β : Type} (before : β → β → Bool) (x : β) (n : Nat) (ys : List β) :
    (insertByHalves before x n ys).Perm (x :: ys) := by
  induction n generalizing ys with
  | zero => exact List.Perm.refl _
  | succ n ih =>
    simp only [insertByHalves]
    have whole := List.take_append_drop (ys.length / 2) ys
    split
    · next none_left =>
      have no_half := congrArg List.length none_left
      have none_at_all : ys = [] := by
        cases ys with
        | nil => rfl
        | cons y rest =>
          simp only [List.length_drop, List.length_cons, List.length_nil] at no_half
          omega
      subst none_at_all
      exact List.Perm.refl _
    · next y back half =>
      rw [half] at whole
      split
      · exact ((ih _).append_right (y :: back)).trans (by
          rw [List.cons_append, whole])
      · refine (((ih back).cons y).append_left _).trans ?_
        refine ((List.Perm.swap x y back).append_left _).trans ?_
        refine List.perm_middle.trans ?_
        rw [whole]

/-- Inserting puts one element in and loses none. -/
theorem perm_insertBy {β : Type} (before : β → β → Bool) (x : β) (ys : List β) :
    (insertBy before ys x).Perm (x :: ys) :=
  perm_insertByHalves before x ys.length ys

/-- Inserting one element after the other loses none. -/
theorem perm_insertEach {β : Type} (before : β → β → Bool) (start xs : List β) :
    (xs.foldl (insertBy before) start).Perm (start ++ xs) := by
  induction xs generalizing start with
  | nil => simp
  | cons x rest ih =>
    exact (ih _).trans (((perm_insertBy before x start).append_right rest).trans
      List.perm_middle.symm)

/-- A sorted list has the elements of the list. -/
theorem perm_sortBy {β : Type} (before : β → β → Bool) (xs : List β) :
    (sortBy before xs).Perm xs := by
  match xs with
  | [] => exact List.Perm.refl _
  | [x] => exact List.Perm.refl _
  | x :: y :: rest =>
    simp only [sortBy]
    split
    · refine (perm_insertEach before _ _).trans ?_
      refine ((List.reverse_perm _).append_right _).trans ?_
      rw [List.cons_append, List.cons_append, splitRun_append]
    · refine (perm_insertEach before _ _).trans ?_
      rw [List.cons_append, List.cons_append, splitRun_append]

/-- Sorting changes nothing about what is in a list. -/
theorem mem_sortBy {β : Type} {before : β → β → Bool} {x : β} {xs : List β} :
    x ∈ sortBy before xs ↔ x ∈ xs :=
  (perm_sortBy before xs).mem_iff

/-- Whole numbers in increasing order. -/
def sortedIds (ids : List Int) : List Int :=
  sortBy (fun a b => decide (a < b)) ids

end OperatorNet
