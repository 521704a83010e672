import Mathlib.Data.List.Forall2
import OperatorNet.Fault

/-!
# Results that may be faults

What a computation that may end with a fault must have done to give a result: each of its steps gave
one.
-/

namespace OperatorNet

variable {ε β γ : Type}

/-- Two steps succeed when the first one does and the second one with its result. -/
lemma bind_eq_ok {x : Except ε β} {f : β → Except ε γ} {y : γ} :
    (x >>= f) = .ok y ↔ ∃ a, x = .ok a ∧ f a = .ok y := by
  cases x with
  | error e => exact ⟨nofun, nofun⟩
  | ok a =>
    constructor
    · exact fun eq => ⟨a, rfl, eq⟩
    · rintro ⟨a', same, eq⟩
      cases same
      exact eq

/-- Two steps fail when the first one does or the second one with its result. -/
lemma bind_eq_error {x : Except ε β} {f : β → Except ε γ} {e : ε} :
    (x >>= f) = .error e ↔ x = .error e ∨ ∃ a, x = .ok a ∧ f a = .error e := by
  cases x with
  | error e' => exact ⟨fun eq => .inl (congrArg Except.error (Except.error.inj eq)), fun h =>
      h.elim (fun eq => congrArg Except.error (Except.error.inj eq)) fun ⟨_, eq, _⟩ => nomatch eq⟩
  | ok a =>
    constructor
    · exact fun eq => .inr ⟨a, rfl, eq⟩
    · rintro (eq | ⟨a', same, eq⟩)
      · cases eq
      · cases same
        exact eq

/-- A value succeeds as itself. -/
lemma pure_eq_ok {x y : β} : (pure x : Except ε β) = .ok y ↔ x = y :=
  ⟨fun eq => Except.ok.inj eq, fun eq => congrArg Except.ok eq⟩

/-- A mapped result succeeds when the result does. -/
lemma map_eq_ok {x : Except ε β} {f : β → γ} {y : γ} :
    x.map f = .ok y ↔ ∃ a, x = .ok a ∧ f a = y := by
  cases x with
  | error e => exact ⟨nofun, nofun⟩
  | ok a =>
    exact ⟨fun eq => ⟨a, rfl, Except.ok.inj eq⟩, fun ⟨_, eq, same⟩ => by cases eq; rw [← same]; rfl⟩

/-- Sequences with the same first step have results that go together when the second steps do. -/
lemma bind_eq_map_bind {δ : Type} {x : Except ε β} {f : β → Except ε γ} {g : β → Except ε δ}
    {h : γ → δ} (each : ∀ a, g a = (f a).map h) : (x >>= g) = (x >>= f).map h := by
  cases x with
  | error e => rfl
  | ok a => exact each a

/-- What fails does not succeed. -/
lemma fail_ne_ok {cause : Cause} {y : β} : (fail cause : Except Fault β) ≠ .ok y :=
  nofun

/-- A result without its reason is there when it succeeds. -/
lemma toOption_eq_some {x : Except ε β} {y : β} : x.toOption = some y ↔ x = .ok y := by
  cases x with
  | error e => exact ⟨nofun, nofun⟩
  | ok a => exact ⟨fun same => congrArg Except.ok (Option.some.inj same), fun eq => by rw [eq]; rfl⟩

/-- What succeeds is the result that it has. -/
lemma eq_ok_getD [Inhabited β] {x : Except ε β} (succeeds : x.isOk = true) :
    x = .ok (x.toOption.getD default) := by
  cases x with
  | error e => cases succeeds
  | ok y => rfl

/-- Steps for the elements of a list succeed when each one does. -/
lemma mapM_eq_ok {f : β → Except ε γ} {xs : List β} {ys : List γ} :
    xs.mapM f = .ok ys ↔ List.Forall₂ (fun x y => f x = .ok y) xs ys := by
  induction xs generalizing ys with
  | nil =>
    rw [List.mapM_nil, pure_eq_ok, List.forall₂_nil_left_iff]
    exact eq_comm
  | cons x rest ih =>
    rw [List.mapM_cons, List.forall₂_cons_left_iff, bind_eq_ok]
    simp only [bind_eq_ok, pure_eq_ok, ih]
    constructor
    · rintro ⟨y, head, ys', tail, rfl⟩
      exact ⟨y, ys', head, tail, rfl⟩
    · rintro ⟨y, ys', head, tail, rfl⟩
      exact ⟨y, head, ys', tail, rfl⟩

/-- Steps that are the same at the elements of a list have the same results. -/
lemma mapM_congr {f f' : β → Except ε γ} {xs : List β} (same : ∀ x ∈ xs, f' x = f x) :
    xs.mapM f' = xs.mapM f := by
  induction xs with
  | nil => rfl
  | cons x rest ih =>
    rw [List.forall_mem_cons] at same
    rw [List.mapM_cons, List.mapM_cons, same.1, ih same.2]

/-- An element on the right is related to one on the left. -/
lemma exists_of_mem_forall₂ {R : β → γ → Prop} {xs : List β} {ys : List γ} {y : γ}
    (related : List.Forall₂ R xs ys) (mem : y ∈ ys) : ∃ x ∈ xs, R x y := by
  induction related with
  | nil => cases mem
  | cons head _ ih =>
    rcases List.mem_cons.1 mem with rfl | later
    · exact ⟨_, List.mem_cons_self .., head⟩
    · obtain ⟨x, hx, partner⟩ := ih later
      exact ⟨x, List.mem_cons_of_mem _ hx, partner⟩

/-- What is related element by element to a list has partners in the same places. -/
lemma exists_getElem?_of_forall₂ {R : β → γ → Prop} {xs : List β} {ys : List γ}
    (related : List.Forall₂ R xs ys) {i : Nat} {x : β} (there : xs[i]? = some x) :
    ∃ y, ys[i]? = some y ∧ R x y := by
  induction related generalizing i with
  | nil => cases there
  | cons head _ ih =>
    cases i with
    | zero => exact ⟨_, rfl, Option.some.inj there ▸ head⟩
    | succ i => exact ih there

/-- What is related element by element to a list with a certain element has a partner of it in its
place. -/
lemma forall₂_append_cons {R : β → γ → Prop} {before after : List β} {x : β} {ys : List γ}
    (related : List.Forall₂ R (before ++ x :: after) ys) :
    ∃ front y back, ys = front ++ y :: back ∧ List.Forall₂ R before front ∧ R x y ∧
      List.Forall₂ R after back := by
  induction before generalizing ys with
  | nil =>
    obtain ⟨y, back, here, later, rfl⟩ := List.forall₂_cons_left_iff.1 related
    exact ⟨[], y, back, rfl, .nil, here, later⟩
  | cons x' rest ih =>
    obtain ⟨y', ys', head, others, rfl⟩ := List.forall₂_cons_left_iff.1 related
    obtain ⟨front, y, back, rfl, earlier, here, later⟩ := ih others
    exact ⟨y' :: front, y, back, rfl, .cons head earlier, here, later⟩

/-- Lists with the same images are the same if the map keeps their elements apart. -/
lemma eq_of_map_eq {f : β → γ} {xs ys : List β} (same : xs.map f = ys.map f)
    (apart : ∀ a ∈ xs, ∀ b ∈ ys, f a = f b → a = b) : xs = ys := by
  induction xs generalizing ys with
  | nil => exact (List.map_eq_nil_iff.1 same.symm).symm
  | cons a rest ih =>
    cases ys with
    | nil => cases same
    | cons b others =>
      obtain ⟨first, later⟩ := List.cons.inj same
      rw [apart a (List.mem_cons_self ..) b (List.mem_cons_self ..) first]
      exact congrArg (b :: ·) (ih later fun c hc d hd =>
        apart c (List.mem_cons_of_mem _ hc) d (List.mem_cons_of_mem _ hd))

/-- Lists are related element by element when each element has at most one partner, which is
known. -/
lemma forall₂_iff_map {R : β → γ → Prop} {succeeds : β → Prop} {result : β → γ} {xs : List β}
    {ys : List γ} (each : ∀ x ∈ xs, ∀ y, R x y ↔ succeeds x ∧ y = result x) :
    List.Forall₂ R xs ys ↔ (∀ x ∈ xs, succeeds x) ∧ ys = xs.map result := by
  induction xs generalizing ys with
  | nil =>
    rw [List.forall₂_nil_left_iff]
    exact ⟨fun eq => ⟨fun _ mem => absurd mem List.not_mem_nil, eq⟩, fun ⟨_, eq⟩ => eq⟩
  | cons x rest ih =>
    rw [List.forall₂_cons_left_iff, List.forall_mem_cons, List.map_cons]
    simp only [each x (List.mem_cons_self ..), ih fun x hx => each x (List.mem_cons_of_mem _ hx)]
    constructor
    · rintro ⟨y, ys', ⟨head, rfl⟩, ⟨tail, rfl⟩, rfl⟩
      exact ⟨⟨head, tail⟩, rfl⟩
    · rintro ⟨⟨head, tail⟩, rfl⟩
      exact ⟨_, _, ⟨head, rfl⟩, ⟨tail, rfl⟩, rfl⟩

/-- Steps whose results are known give the list of these. -/
lemma mapM_eq_ok_iff {f : β → Except ε γ} {succeeds : β → Prop} {result : β → γ} {xs : List β}
    {ys : List γ} (each : ∀ x ∈ xs, ∀ y, f x = .ok y ↔ succeeds x ∧ y = result x) :
    xs.mapM f = .ok ys ↔ (∀ x ∈ xs, succeeds x) ∧ ys = xs.map result := by
  rw [mapM_eq_ok, forall₂_iff_map each]

/-- What has a partner for each element has a list of them. -/
lemma exists_forall₂ {R : β → γ → Prop} {xs : List β} (each : ∀ x ∈ xs, ∃ y, R x y) :
    ∃ ys, List.Forall₂ R xs ys := by
  induction xs with
  | nil => exact ⟨[], .nil⟩
  | cons x rest ih =>
    rw [List.forall_mem_cons] at each
    obtain ⟨y, head⟩ := each.1
    obtain ⟨ys, tail⟩ := ih each.2
    exact ⟨y :: ys, .cons head tail⟩

/-- When each step for a list succeeds, all of them do. -/
lemma exists_mapM_eq_ok {f : β → Except ε γ} {xs : List β} (each : ∀ x ∈ xs, ∃ y, f x = .ok y) :
    ∃ ys, xs.mapM f = .ok ys :=
  (exists_forall₂ each).imp fun _ => mapM_eq_ok.2

/-- When steps for a list fail, one of them does. -/
lemma exists_of_mapM_eq_error {f : β → Except ε γ} {xs : List β} {e : ε}
    (failed : xs.mapM f = .error e) :
    ∃ x ∈ xs, f x = .error e := by
  induction xs with
  | nil => cases failed
  | cons x rest ih =>
    simp only [List.mapM_cons, bind_eq_error] at failed
    rcases failed with failed | ⟨y, -, failed | ⟨ys, -, failed⟩⟩
    · exact ⟨x, List.mem_cons_self .., failed⟩
    · obtain ⟨x', mem, own⟩ := ih failed
      exact ⟨x', List.mem_cons_of_mem _ mem, own⟩
    · cases failed

/-- What holds at first and is kept by each step holds at the end. -/
lemma of_foldlM_eq_ok {f : γ → β → Except ε γ} {P : γ → Prop} {xs : List β} {first last : γ}
    (start : P first) (done : xs.foldlM f first = .ok last)
    (keeps : ∀ y x y', P y → f y x = .ok y' → P y') : P last := by
  induction xs generalizing first with
  | nil =>
    cases done
    exact start
  | cons x rest ih =>
    rw [List.foldlM_cons, bind_eq_ok] at done
    obtain ⟨y, head, tail⟩ := done
    exact ih (keeps _ _ _ start head) tail

/-- When each step for a list succeeds, going through it does. -/
lemma forM_eq_ok {f : β → Except ε PUnit} {xs : List β} (each : ∀ x ∈ xs, f x = .ok ⟨⟩) :
    xs.forM f = .ok ⟨⟩ := by
  induction xs with
  | nil => rfl
  | cons x rest ih =>
    change (f x >>= fun _ => rest.forM f) = .ok ⟨⟩
    rw [each x (by simp)]
    exact ih fun y hy => each y (by simp [hy])

end OperatorNet
