import OperatorNet.Operator.Declaration
import OperatorNet.Proofs.Validation.Acceptance

/-!
# Where checks break down

A check of something with parts breaks down when it comes to a part whose check does: one
equivalence for each way in which checks are combined. So the check of a declaration breaks down
exactly at a type whose shape is no row of terms, or whose group is no collection of keys
(`Declaration.ofData_eq_brokenDown`).
-/

namespace OperatorNet

namespace Check

variable {β γ : Type}

/-- A mapped check breaks down when the check does. -/
@[simp] lemma map_eq_brokenDown {f : β → γ} {x : Check β} :
    x.map f = brokenDown ↔ x = brokenDown := by
  cases x <;> simp [map]

/-- A check after another one breaks down when one of them does. -/
@[simp] lemma seq_eq_brokenDown {f : Check (β → γ)} {x : Unit → Check β} :
    seq f x = brokenDown ↔ f = brokenDown ∨ x () = brokenDown := by
  cases f with
  | accepted g => simp [seq]
  | refused issues =>
    rw [seq]
    cases x () <;> simp
  | brokenDown => exact ⟨fun _ => .inl rfl, fun _ => rfl⟩

/-- A mapped check breaks down when the check does. -/
@[simp] lemma functor_map_eq_brokenDown {f : β → γ} {x : Check β} :
    f <$> x = brokenDown ↔ x = brokenDown :=
  map_eq_brokenDown

/-- Two checks side by side break down when one of them does. -/
@[simp] lemma applicative_seq_eq_brokenDown {f : Check (β → γ)} {x : Check β} :
    f <*> x = brokenDown ↔ f = brokenDown ∨ x = brokenDown :=
  seq_eq_brokenDown

/-- A check with another one beside it breaks down when one of them does. -/
@[simp] lemma seqLeft_eq_brokenDown {x : Check β} {y : Check γ} :
    x <* y = brokenDown ↔ x = brokenDown ∨ y = brokenDown := by
  change seq (map (Function.const γ) x) (fun _ => y) = brokenDown ↔ _
  rw [seq_eq_brokenDown, map_eq_brokenDown]

/-- A check breaks down wherever it stands. -/
@[simp] lemma under_eq_brokenDown {step : String} {x : Check β} :
    x.under step = brokenDown ↔ x = brokenDown := by
  cases x <;> simp [under]

lemma accepted_ne_brokenDown {b : β} : accepted b ≠ brokenDown :=
  nofun

@[simp] lemma flawed_ne_brokenDown {f : Flaw} : (flawed f : Check β) ≠ brokenDown :=
  nofun

/-- A check that goes on without breaking down breaks down when its first part does. -/
lemma andThen_eq_brokenDown {x : Check β} {f : β → Check γ} (further : ∀ b, f b ≠ brokenDown) :
    x.andThen f = brokenDown ↔ x = brokenDown := by
  cases x with
  | accepted b => exact ⟨fun broken => absurd broken (further b), nofun⟩
  | refused issues => exact ⟨nofun, nofun⟩
  | brokenDown => exact ⟨fun _ => rfl, fun _ => rfl⟩

/-- Some checks break down when one of them does. -/
@[simp] lemma all_eq_brokenDown {xs : List (Check β)} : all xs = brokenDown ↔ brokenDown ∈ xs := by
  induction xs with
  | nil => exact ⟨nofun, nofun⟩
  | cons x rest ih => rw [all, seq_eq_brokenDown, map_eq_brokenDown, ih, List.mem_cons, eq_comm]

/-- The value of a field under the first of its names that is in use. -/
def used (fields : Fields) (names : List String) : Option (Data Float) :=
  (usedName? fields names).bind fun n => fetch n fields

/-- A field breaks down at its value. -/
@[simp] lemma field_eq_brokenDown {fields : Fields} {names : List String}
    {read : Data Float → Check β} {absent : Option β} :
    field fields names read absent = brokenDown ↔ ∃ d, used fields names = some d ∧
      read d = brokenDown := by
  unfold field used
  cases name : usedName? fields names with
  | none => cases absent <;> simp
  | some n =>
    have listed : (fetch n fields).isSome :=
      List.find?_some (p := fun n => (fetch n fields).isSome) name
    obtain ⟨d, there⟩ := Option.isSome_iff_exists.1 listed
    simp [there]

/-- A field with one name is used under that name. -/
lemma used_single (fields : Fields) (name : String) : used fields [name] = fetch name fields := by
  rw [used, usedName?, List.find?_cons, List.find?_nil]
  cases listed : fetch name fields with
  | none => rfl
  | some d => exact listed

/-- The check of a list breaks down when that of an item does. -/
lemma list_eq_brokenDown {item : Data Float → Check β} {ds : List (Data Float)} :
    list item (.list ds) = brokenDown ↔ ∃ d ∈ ds, item d = brokenDown := by
  rw [list, all_eq_brokenDown, List.mem_mapIdx]
  constructor
  · rintro ⟨i, bound, broken⟩
    exact ⟨_, List.getElem_mem bound, under_eq_brokenDown.1 broken⟩
  · rintro ⟨d, mem, broken⟩
    obtain ⟨i, bound, rfl⟩ := List.getElem_of_mem mem
    exact ⟨i, bound, under_eq_brokenDown.2 broken⟩

/-! ### Values that can always be examined -/

/-- The check of a text does not break down. -/
@[simp] lemma text_ne_brokenDown {d : Data Float} : text d ≠ brokenDown := by
  cases d <;> nofun

/-- A check of nothing does not break down. -/
@[simp] lemma anything_ne_brokenDown {d : Data Float} : anything d ≠ brokenDown := by
  rw [anything]
  nofun

/-- The check of a number does not break down. -/
@[simp] lemma number_ne_brokenDown {d : Data Float} : number d ≠ brokenDown := by
  unfold number
  split
  next => split <;> nofun
  next => nofun
  next => nofun
  next => split <;> nofun
  next => nofun

/-- The check of a truth value does not break down. -/
@[simp] lemma truth_ne_brokenDown {d : Data Float} : truth d ≠ brokenDown := by
  unfold truth
  split
  next => nofun
  next => split; nofun; split <;> nofun
  next => split; nofun; split <;> nofun
  next => dsimp only; split; nofun; split <;> nofun
  next => nofun

/-- The check of a tag does not break down. -/
@[simp] lemma tag_ne_brokenDown {d : Data Float} : tag d ≠ brokenDown := by
  have further : ∀ s, (if (Text.trimmed s).isEmpty then (.flawed .emptyTag : Check String)
      else .accepted (normalizeTag s)) ≠ brokenDown := by
    intro s
    split <;> nofun
  rw [tag, ne_eq, andThen_eq_brokenDown further]
  exact text_ne_brokenDown

/-- The check of what may be missing breaks down only where that of the rest does. -/
lemma optional_ne_brokenDown {inner : Data Float → Check β} (each : ∀ d, inner d ≠ brokenDown)
    {d : Data Float} : optional inner d ≠ brokenDown := by
  unfold optional
  split
  next => nofun
  next => exact fun broken => each _ (map_eq_brokenDown.1 broken)

/-- The check of a list breaks down only where that of an item does. -/
lemma list_ne_brokenDown {item : Data Float → Check β} (each : ∀ d, item d ≠ brokenDown)
    {d : Data Float} :
    list item d ≠ brokenDown := by
  cases d with
  | list ds =>
    rw [ne_eq, list_eq_brokenDown]
    rintro ⟨d, -, broken⟩
    exact each d broken
  | _ => exact flawed_ne_brokenDown

/-- The check of a mapping breaks down only where that of a value does. -/
lemma mapping_ne_brokenDown {value : Data Float → Check β} (each : ∀ d, value d ≠ brokenDown)
    {d : Data Float} : mapping value d ≠ brokenDown := by
  cases d with
  | mapping fields =>
    rw [mapping, ne_eq, all_eq_brokenDown, List.mem_map]
    rintro ⟨p, -, broken⟩
    exact each p.2 (under_eq_brokenDown.1 (map_eq_brokenDown.1 broken))
  | _ => exact flawed_ne_brokenDown

/-- Looking for other fields does not break down. -/
@[simp] lemma noOthers_ne_brokenDown {fields : Fields} {names : List (List String)} :
    noOthers fields names ≠ brokenDown := by
  rw [noOthers, ne_eq, map_eq_brokenDown, all_eq_brokenDown, List.mem_map]
  rintro ⟨p, -, broken⟩
  exact flawed_ne_brokenDown (under_eq_brokenDown.1 broken)

/-! ### Types and declarations -/

/-- A value that is no collection of keys. -/
def Unkeyed : Data Float → Prop
  | .null | .text _ | .mapping _ => False
  | .list items => ∃ d ∈ items, d.key? = none
  | _ => True

/-- A type whose shape is no row of terms, or whose group is no collection of keys. -/
def Unexaminable (d : Data Float) : Prop :=
  ∃ fields, d = .mapping fields ∧
    ((∃ x, fetch "shape" fields = some (.real x)) ∨ ∃ g, fetch "group" fields = some g ∧ Unkeyed g)

/-- The check of a shape breaks down at a number that is not whole. -/
lemma shape_eq_brokenDown {d : Data Float} : shape d = brokenDown ↔ ∃ x, d = .real x := by
  have terms : shapeTerms? d = none ↔ ∃ x, d = .real x := by
    cases d <;> simp [shapeTerms?]
  rw [← terms, shape]
  cases shapeTerms? d with
  | none => exact ⟨fun _ => rfl, fun _ => rfl⟩
  | some ds =>
    dsimp only
    split <;> exact ⟨nofun, nofun⟩

/-- Keys cannot be told apart when one of them is none. -/
lemma distinctKeys?_eq_none {ds : List (Data Float)} :
    distinctKeys? ds = none ↔ ∃ d ∈ ds, d.key? = none := by
  have fold : ∀ acc : List (Data Float), ds.foldlM (fun acc d => do
      let k ← d.key?
      return if acc.any (·.key? = some k) then acc else acc ++ [d]) acc = none ↔
        ∃ d ∈ ds, d.key? = none := by
    induction ds with
    | nil => exact fun acc => ⟨nofun, fun ⟨_, mem, _⟩ => absurd mem List.not_mem_nil⟩
    | cons d rest ih =>
      intro acc
      rw [List.foldlM_cons, List.exists_mem_cons_iff]
      cases key : d.key? with
      | none => exact ⟨fun _ => .inl rfl, fun _ => rfl⟩
      | some k => exact (ih _).trans ⟨.inr, fun h => h.resolve_left nofun⟩
  exact fold []

/-- The check of a group breaks down at a list with an item that is no key. -/
lemma group_eq_brokenDown {d : Data Float} : group d = brokenDown ↔ Unkeyed d := by
  cases d with
  | list items =>
    rw [Unkeyed, ← distinctKeys?_eq_none, group]
    dsimp only
    cases distinctKeys? items with
    | none => exact iff_of_true rfl rfl
    | some es =>
      refine iff_of_false (fun broken => ?_) (Option.some_ne_none es)
      exact list_ne_brokenDown (fun _ => text_ne_brokenDown) (map_eq_brokenDown.1 broken)
  | null | text | mapping => exact iff_of_false accepted_ne_brokenDown not_false
  | bool | int | real => exact ⟨fun _ => trivial, fun _ => rfl⟩

/-- The check of a type breaks down where it cannot be examined. -/
lemma portType_eq_brokenDown {d : Data Float} : portType d = brokenDown ↔ Unexaminable d := by
  cases d with
  | mapping fields =>
    simp [portType, record, required, withDefault, used_single, shape_eq_brokenDown,
      group_eq_brokenDown, Unexaminable]
  | _ =>
    refine iff_of_false flawed_ne_brokenDown ?_
    rintro ⟨fields, same, -⟩
    cases same

/-- The check of a type reference breaks down where it cannot be examined. -/
lemma typeRef_eq_brokenDown {d : Data Float} : typeRef d = brokenDown ↔ Unexaminable d := by
  rw [← portType_eq_brokenDown]
  unfold typeRef
  split
  next => exact ⟨nofun, nofun⟩
  next => split <;> simp [*]

/-- The values in which the input types of a declaration are given. -/
def inputValues : Data Float → List (Data Float)
  | .list ds => ds
  | d => [d]

/-- The check of the inputs breaks down where one of them cannot be examined. -/
lemma inputRefs_eq_brokenDown {d : Data Float} :
    inputRefs d = brokenDown ↔ ∃ t ∈ inputValues d, Unexaminable t := by
  simp only [← typeRef_eq_brokenDown]
  cases d with
  | text | mapping => exact list_eq_brokenDown
  | list ds => exact list_eq_brokenDown
  | _ =>
    refine iff_of_false flawed_ne_brokenDown ?_
    rintro ⟨t, mem, broken⟩
    cases List.mem_singleton.1 mem
    cases broken

end Check

namespace Declaration

open Check

/-- The values in which the types of a declaration are given. -/
def typeValues (fields : Fields) : List (Data Float) :=
  ((used fields ["in_types", "in"]).map inputValues).getD [] ++
    (used fields ["out_type", "out"]).toList

/-- Reading a declaration breaks down at one of its types. -/
theorem ofData_eq_brokenDown {fields : Fields} :
    ofData (.mapping fields) = .brokenDown ↔ ∃ t ∈ typeValues fields, Unexaminable t := by
  have finite : ∀ d : Declaration, d.checkFinite ≠ .brokenDown := by
    intro d
    unfold checkFinite
    split
    next => split <;> nofun
    next => nofun
  have texts : ∀ d, list text d ≠ .brokenDown := fun _ => list_ne_brokenDown fun _ =>
    text_ne_brokenDown
  have numbers : ∀ d, mapping number d ≠ .brokenDown := fun _ => mapping_ne_brokenDown fun _ =>
    number_ne_brokenDown
  have values : ∀ d, mapping anything d ≠ .brokenDown := fun _ => mapping_ne_brokenDown fun _ =>
    anything_ne_brokenDown
  have bound : ∀ d, optional number d ≠ .brokenDown := fun _ => optional_ne_brokenDown fun _ =>
    number_ne_brokenDown
  have name : ∀ d, optional text d ≠ .brokenDown := fun _ => optional_ne_brokenDown fun _ =>
    text_ne_brokenDown
  have inputs : (∃ d, used fields ["in_types", "in"] = some d ∧
      ∃ t ∈ inputValues d, Unexaminable t) ↔
      ∃ t ∈ ((used fields ["in_types", "in"]).map inputValues).getD [], Unexaminable t := by
    cases used fields ["in_types", "in"] <;> simp
  rw [ofData, record, andThen_eq_brokenDown finite, ofFields]
  simp only [required, withDefault, functor_map_eq_brokenDown, applicative_seq_eq_brokenDown,
    seqLeft_eq_brokenDown, field_eq_brokenDown, noOthers_ne_brokenDown, text_ne_brokenDown,
    truth_ne_brokenDown, texts, numbers, values, bound, name, inputRefs_eq_brokenDown,
      typeRef_eq_brokenDown, and_false, exists_false, or_false, false_or, inputs]
  simp only [typeValues, List.mem_append, Option.mem_toList, or_and_right, exists_or]

end Declaration

end OperatorNet
