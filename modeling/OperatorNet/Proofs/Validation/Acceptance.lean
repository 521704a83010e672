import Mathlib.Data.List.Forall2
import OperatorNet.Proofs.Results
import OperatorNet.Validation.Value

/-!
# What checks accept

A check of something with parts accepts exactly when it accepts all of the parts: one equivalence
for each way in which checks are combined. A field of a record is checked by what is listed under
its name.
-/

namespace OperatorNet.Check

variable {β γ : Type}

/-- What is flawed is not accepted. -/
@[simp] lemma flawed_ne_accepted {f : Flaw} {b : β} : flawed f ≠ accepted b :=
  nofun

/-- A mapped check accepts when the check does. -/
@[simp] lemma map_eq_accepted {f : β → γ} {x : Check β} {c : γ} :
    x.map f = accepted c ↔ ∃ b, x = accepted b ∧ f b = c := by
  cases x with
  | accepted b =>
    constructor
    · intro eq
      cases eq
      exact ⟨b, rfl, rfl⟩
    · rintro ⟨b', same, rfl⟩
      cases same
      rfl
  | refused issues => exact ⟨nofun, fun ⟨_, eq, _⟩ => nomatch eq⟩
  | brokenDown => exact ⟨nofun, fun ⟨_, eq, _⟩ => nomatch eq⟩

/-- A check after another one accepts when both do. -/
@[simp] lemma seq_eq_accepted {f : Check (β → γ)} {x : Unit → Check β} {c : γ} :
    seq f x = accepted c ↔ ∃ g, f = accepted g ∧ ∃ b, x () = accepted b ∧ g b = c := by
  cases f with
  | accepted g =>
    rw [seq, map_eq_accepted]
    exact ⟨fun both => ⟨g, rfl, both⟩, fun ⟨g', same, both⟩ => by cases same; exact both⟩
  | refused issues =>
    refine ⟨fun eq => ?_, fun ⟨_, eq, _⟩ => nomatch eq⟩
    rw [seq] at eq
    split at eq <;> cases eq
  | brokenDown => exact ⟨nofun, fun ⟨_, eq, _⟩ => nomatch eq⟩

/-- A mapped check accepts when the check does. -/
@[simp] lemma functor_map_eq_accepted {f : β → γ} {x : Check β} {c : γ} :
    f <$> x = accepted c ↔ ∃ b, x = accepted b ∧ f b = c :=
  map_eq_accepted

/-- Two checks side by side accept when both do. -/
@[simp] lemma applicative_seq_eq_accepted {f : Check (β → γ)} {x : Check β} {c : γ} :
    f <*> x = accepted c ↔ ∃ g, f = accepted g ∧ ∃ b, x = accepted b ∧ g b = c :=
  seq_eq_accepted

/-- A check with another one beside it accepts when both do. -/
@[simp] lemma seqLeft_eq_accepted {x : Check β} {y : Check γ} {b : β} :
    x <* y = accepted b ↔ x = accepted b ∧ ∃ c, y = accepted c := by
  change seq (map (Function.const γ) x) (fun _ => y) = accepted b ↔ _
  rw [seq_eq_accepted]
  simp only [map_eq_accepted]
  constructor
  · rintro ⟨_, ⟨b', rfl, rfl⟩, c, rfl, rfl⟩
    exact ⟨rfl, c, rfl⟩
  · rintro ⟨rfl, c, rfl⟩
    exact ⟨_, ⟨b, rfl, rfl⟩, c, rfl, rfl⟩

/-- A check accepts wherever it stands. -/
@[simp] lemma under_eq_accepted {step : String} {x : Check β} {b : β} :
    x.under step = accepted b ↔ x = accepted b := by
  cases x with
  | accepted b' => exact Iff.rfl
  | refused issues => exact ⟨nofun, nofun⟩
  | brokenDown => exact Iff.rfl

/-- A check that goes on accepts when both parts do. -/
@[simp] lemma andThen_eq_accepted {x : Check β} {f : β → Check γ} {c : γ} :
    x.andThen f = accepted c ↔ ∃ b, x = accepted b ∧ f b = accepted c := by
  cases x with
  | accepted b => exact ⟨fun eq => ⟨b, rfl, eq⟩, fun ⟨b', same, eq⟩ => by cases same; exact eq⟩
  | refused issues => exact ⟨nofun, fun ⟨_, eq, _⟩ => nomatch eq⟩
  | brokenDown => exact ⟨nofun, fun ⟨_, eq, _⟩ => nomatch eq⟩

/-- A check is a success when it accepts. -/
@[simp] lemma toExcept_eq_ok {x : Check β} {b : β} : x.toExcept = .ok b ↔ x = accepted b := by
  cases x with
  | accepted b' => exact ⟨fun eq => congrArg _ (Except.ok.inj eq), fun eq => by cases eq; rfl⟩
  | refused issues => exact ⟨fun eq => absurd eq fail_ne_ok, nofun⟩
  | brokenDown => exact ⟨fun eq => absurd eq fail_ne_ok, nofun⟩

/-- Some checks accept when each one does. -/
lemma all_eq_accepted {xs : List (Check β)} {bs : List β} :
    all xs = accepted bs ↔ xs = bs.map accepted := by
  induction xs generalizing bs with
  | nil =>
    cases bs with
    | nil => exact ⟨fun _ => rfl, fun _ => rfl⟩
    | cons b rest => exact ⟨nofun, nofun⟩
  | cons x rest ih =>
    rw [all, seq_eq_accepted]
    simp only [map_eq_accepted, ih]
    constructor
    · rintro ⟨_, ⟨b, rfl, rfl⟩, bs', rfl, rfl⟩
      rfl
    · intro eq
      cases bs with
      | nil => cases eq
      | cons b bs' =>
        obtain ⟨rfl, rfl⟩ := List.cons.inj eq
        exact ⟨_, ⟨b, rfl, rfl⟩, bs', rfl, rfl⟩

/-- A list is accepted when each item is. -/
lemma list_eq_accepted {item : Data Float → Check β} {ds : List (Data Float)} {bs : List β} :
    list item (.list ds) = accepted bs ↔ List.Forall₂ (fun d b => item d = accepted b) ds bs := by
  rw [list, all_eq_accepted]
  have each : ∀ (place : Nat → String) (bs : List β),
      (ds.mapIdx fun i d => (item d).under (place i)) = bs.map accepted ↔
        List.Forall₂ (fun d b => item d = accepted b) ds bs := by
    induction ds with
    | nil =>
      intro place bs
      rw [List.forall₂_nil_left_iff, List.mapIdx_nil, eq_comm, List.map_eq_nil_iff]
    | cons d rest ih =>
      intro place bs
      rw [List.mapIdx_cons, List.forall₂_cons_left_iff]
      cases bs with
      | nil => exact ⟨nofun, fun ⟨_, _, _, _, eq⟩ => nomatch eq⟩
      | cons b bs' =>
        rw [List.map_cons, List.cons.injEq, under_eq_accepted, ih fun i => place (i + 1)]
        constructor
        · rintro ⟨head, tail⟩
          exact ⟨b, bs', head, tail, rfl⟩
        · rintro ⟨b', bs'', head, tail, same⟩
          cases same
          exact ⟨head, tail⟩
  exact each toString bs

/-- A mapping of any values is accepted as it is. -/
@[simp] lemma mapping_anything (fields : List (String × Data Float)) :
    mapping anything (.mapping fields) = accepted fields := by
  rw [mapping, all_eq_accepted]
  exact List.map_congr_left fun _ _ => rfl

/-- A field with one name is checked by what is listed under it, if anything is. -/
lemma field_single (fields : Fields) (name : String) (read : Data Float → Check β)
    (absent : Option β) : field fields [name] read absent =
      match fetch name fields, absent with
      | some d, _ => (read d).under name
      | none, some b => accepted b
      | none, none => (flawed .missing).under name := by
  unfold field usedName?
  rw [List.find?_cons, List.find?_nil]
  cases listed : fetch name fields with
  | none => cases absent <;> rfl
  | some d => simp only [Option.isSome_some, listed, Option.getD_some]

/-- The first field is checked by its value. -/
@[simp] lemma field_cons_self {fields : Fields} {name : String} {d : Data Float}
    {read : Data Float → Check β} {absent : Option β} :
    field ((name, d) :: fields) [name] read absent = (read d).under name := by
  rw [field_single, fetch, if_pos rfl]

/-- A field with another name does not matter. -/
@[simp] lemma field_cons_of_ne {fields : Fields} {name other : String} {d : Data Float}
    {read : Data Float → Check β} {absent : Option β} (ne : other ≠ name) :
    field ((other, d) :: fields) [name] read absent = field fields [name] read absent := by
  rw [field_single, field_single, fetch, if_neg ne]

/-- A listed field is there. -/
lemma isSome_fetch_of_mem {fields : Fields} {name : String} (mem : name ∈ fields.map Prod.fst) :
    (fetch name fields).isSome := by
  induction fields with
  | nil => cases mem
  | cons p rest ih =>
    rw [fetch]
    split
    next => rfl
    next other => exact ih ((List.mem_cons.1 mem).resolve_left fun same => other same.symm)

/-- There are no other fields than those with the given names. -/
lemma noOthers_of_keys (fields : Fields) {names : List String}
    (keys : fields.map Prod.fst = names) :
    noOthers fields (names.map fun n => [n]) = accepted () := by
  have used : (names.map fun n => [n]).filterMap (usedName? fields) = names := by
    rw [List.filterMap_map]
    have own : ∀ n ∈ names, (usedName? fields ∘ fun n => [n]) n = some n := by
      intro n hn
      have listed : (fetch n fields).isSome := isSome_fetch_of_mem (keys ▸ hn)
      rw [Function.comp_apply, usedName?, List.find?_cons, listed]
    rw [List.filterMap_congr own, List.filterMap_some]
  have none : (fields.filter fun p => !names.contains p.1) = [] := by
    refine List.filter_eq_nil_iff.2 fun p hp other => ?_
    rw [List.contains_iff_mem.2 (keys ▸ List.mem_map_of_mem hp)] at other
    cases other
  rw [noOthers, used]
  simp only [none]
  rfl

end OperatorNet.Check
