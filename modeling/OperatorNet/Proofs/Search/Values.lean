import OperatorNet.Proofs.Bindings.History
import OperatorNet.Proofs.Bindings.Renaming
import OperatorNet.Proofs.Faults
import OperatorNet.Proofs.PortType.Keys
import OperatorNet.Search.Enumeration

/-!
# Types of values

The type of the value of an operator does not depend, up to the names of symbols, on how the symbols
of the operator and of what it reads are called, as long as they are kept apart
(`Operator.valueType?_alike`). It has symbols of the operator and of what is read only
(`Operator.mentions_valueType?`).
-/

namespace OperatorNet

open PortType

/-- A type in which no local name with a given suffix occurs. -/
def PortType.Lacks (suffix : String) (t : PortType) : Prop :=
  ∀ base, ¬ t.Mentions (freshName suffix base)

/-- Alike types unify with the same types, when these have other symbols. -/
lemma PortType.Alike.isSome_unify?_iff {out t c : PortType} (alike : Alike t c)
    (apart : ∀ s, out.Mentions s → ¬ t.Mentions s) (apart' : ∀ s, out.Mentions s → ¬ c.Mentions s) :
    (Bindings.empty.unify? out t).isSome ↔ (Bindings.empty.unify? out c).isSome := by
  classical
  obtain ⟨ρ, inj, rfl⟩ := alike
  let π : String → String := fun s => if out.Mentions s then s else ρ s
  have stays : ∀ s, out.Mentions s → π s = s := fun s hs => if_pos hs
  have moves : ∀ s, t.Mentions s → π s = ρ s := fun s hs => if_neg fun own => apart s own hs
  have keeps : Set.InjOn π {s | out.Mentions s ∨ t.Mentions s} := by
    have across : ∀ s s', out.Mentions s → t.Mentions s' → π s ≠ π s' := by
      intro s s' hs hs' same
      rw [stays s hs, moves s' hs'] at same
      exact apart' s hs (mentions_rename.2 ⟨s', hs', same⟩)
    rintro s (hs | hs) s' (hs' | hs') same
    · rwa [stays s hs, stays s' hs'] at same
    · exact absurd same (across s s' hs hs')
    · exact absurd same.symm (across s' s hs' hs)
    · rw [moves s hs, moves s' hs'] at same
      exact inj hs hs' same
  have unified := (Bindings.Renamed.empty _ π).unify keeps
    (within_iff.2 fun s (hs : out.Mentions s) => .inl hs) (within_iff.2 fun s hs => .inr hs)
  rw [out.rename_eq_self (within_iff.2 stays), rename_congr moves] at unified
  exact Bindings.isSome_iff_of_rel unified

variable {α : Type} {op : Operator α} {types : List PortType} {suffix suffix' : String}

namespace Operator

/-- The slots of a use of an operator with the types that are read there. -/
def slotsOn (op : Operator α) (suffix : String) (types : List PortType) :
    List (PortType × PortType) :=
  (op.inTypes.map (·.freshen suffix)).zip types

/-- The type of the value of an operator on given input types, if it takes them. -/
def valueType? (op : Operator α) (suffix : String) (types : List PortType) : Option PortType :=
  (Bindings.empty.unifySlots? (op.slotsOn suffix types)).map fun b =>
    b.resolveType (op.outType.freshen suffix)

/-- The type of the value is given unless a number is too long to be written. -/
lemma words_instantiate (op : Operator α) (suffix : String) (types : List PortType) :
    Words (op.instantiate suffix types) (.ok (op.valueType? suffix types)) := by
  rw [instantiate, valueType?, Bindings.unifySlots?, slotsOn]
  refine .worded ?_
  split
  next unified =>
    rw [unified]
    exact .required (.refl _)
  next refused =>
    rw [refused]
    exact .refl _

/-- The symbols of a use of an operator and of the types that it reads. -/
def Around (suffix : String) (types : List PortType) (s : String) : Prop :=
  (∃ base, s = freshName suffix base) ∨ ∃ t ∈ types, t.Mentions s

/-- A freshened type has symbols around the attempt. -/
lemma freshen_within_around (t : PortType) : (t.freshen suffix).Within (Around suffix types) :=
  freshen_within t fun base => .inl ⟨base, rfl⟩

/-- The slots of an attempt have symbols around it. -/
lemma slotsOn_within :
    ∀ p ∈ op.slotsOn suffix types,
      p.1.Within (Around suffix types) ∧ p.2.Within (Around suffix types) := by
  intro p hp
  obtain ⟨left, right⟩ := List.of_mem_zip hp
  obtain ⟨t, -, eq⟩ := List.mem_map.1 left
  rw [← eq]
  exact ⟨freshen_within_around t, within_iff.2 fun s hs => .inr ⟨p.2, right, hs⟩⟩

/-- The type of a value mentions symbols of the operator and of what is read only. -/
lemma mentions_valueType? {t : PortType} (value : op.valueType? suffix types = some t) {s : String}
    (mentions : t.Mentions s) :
    Around suffix types s := by
  rw [valueType?, Option.map_eq_some_iff] at value
  obtain ⟨b, unified, rfl⟩ := value
  have within := (Bindings.Within.empty _).unifySlots slotsOn_within unified
  obtain ⟨_, mem, hs⟩ := mentions
  obtain ⟨d, hd, rfl⟩ := List.mem_map.1 mem
  exact within.resolve (freshen_within_around op.outType d hd) s hs

open Classical in
/-- New names for what is read, and another suffix for the symbols of the operator. -/
noncomputable def newName (suffix suffix' : String) (ρ : String → String) (s : String) : String :=
  if own : ∃ base, s = freshName suffix base then freshName suffix' own.choose else ρ s

/-- A name of the attempt gets the new suffix. -/
lemma newName_own (suffix suffix' : String) (ρ : String → String) (base : String) :
    newName suffix suffix' ρ (freshName suffix base) = freshName suffix' base := by
  have own : ∃ base', freshName suffix base = freshName suffix base' := ⟨base, rfl⟩
  rw [newName, dif_pos own, ← freshName_injective suffix own.choose_spec]

/-- All other names are renamed as given. -/
lemma newName_other {ρ : String → String} {s : String} (other : ∀ base, s ≠ freshName suffix base) :
    newName suffix suffix' ρ s = ρ s :=
  dif_neg fun ⟨base, same⟩ => other base same

/-- The names that are read are renamed as given. -/
lemma newName_read {ρ : String → String} {t : PortType} (fresh : t.Lacks suffix) {s : String}
    (mentions : t.Mentions s) : newName suffix suffix' ρ s = ρ s :=
  newName_other fun base same => fresh base (same ▸ mentions)

/-- The new names are kept apart. -/
lemma injOn_newName {ρ : String → String} (inj : Set.InjOn ρ {s | ∃ t ∈ types, t.Mentions s})
    (fresh : ∀ t ∈ types, t.Lacks suffix) (fresh' : ∀ t ∈ types, (t.rename ρ).Lacks suffix') :
    Set.InjOn (newName suffix suffix' ρ) {s | Around suffix types s} := by
  have across : ∀ base t s, t ∈ types → t.Mentions s →
      newName suffix suffix' ρ (freshName suffix base) ≠ newName suffix suffix' ρ s := by
    intro base t s ht hs same
    rw [newName_own, newName_read (fresh t ht) hs] at same
    exact fresh' t ht base (mentions_rename.2 ⟨s, hs, same⟩)
  rintro s (⟨base, rfl⟩ | ⟨t, ht, hs⟩) s' (⟨base', rfl⟩ | ⟨t', ht', hs'⟩) same
  · rw [newName_own, newName_own] at same
    rw [freshName_injective suffix' same]
  · exact absurd same (across base t' s' ht' hs')
  · exact absurd same.symm (across base' t s ht hs)
  · rw [newName_read (fresh t ht) hs, newName_read (fresh t' ht') hs'] at same
    exact inj ⟨t, ht, hs⟩ ⟨t', ht', hs'⟩ same

/-- A freshened type gets the new suffix. -/
lemma rename_newName_freshen (ρ : String → String) (t : PortType) :
    (t.freshen suffix).rename (newName suffix suffix' ρ) = t.freshen suffix' := by
  rw [freshen_eq_rename, freshen_eq_rename, rename_rename]
  exact rename_congr fun s _ => newName_own suffix suffix' ρ s

/-- The renamed slots are those of the attempt with the new suffix. -/
lemma slotsOn_rename {ρ : String → String} (fresh : ∀ t ∈ types, t.Lacks suffix) :
    (op.slotsOn suffix types).map (fun p =>
        (p.1.rename (newName suffix suffix' ρ), p.2.rename (newName suffix suffix' ρ))) =
      op.slotsOn suffix' (types.map (PortType.rename ρ)) := by
  have own : (op.inTypes.map (·.freshen suffix)).map (PortType.rename (newName suffix suffix' ρ)) =
      op.inTypes.map (·.freshen suffix') := by
    rw [List.map_map]
    exact List.map_congr_left fun t _ => rename_newName_freshen ρ t
  have read : types.map (PortType.rename (newName suffix suffix' ρ)) =
      types.map (PortType.rename ρ) :=
    List.map_congr_left fun t ht => rename_congr fun s hs => newName_read (fresh t ht) hs
  rw [slotsOn, slotsOn, ← own, ← read]
  exact (List.zip_map ..).symm

/-- What is resolved by bindings and by their images under the new names is alike. -/
lemma alike_resolveType {ρ : String → String} {b b' : Bindings} {t : PortType}
    (keeps : Set.InjOn (newName suffix suffix' ρ) {s | Around suffix types s})
    (renamed : Bindings.Renamed (Around suffix types) (newName suffix suffix' ρ) b b') :
    Alike (b.resolveType (t.freshen suffix)) (b'.resolveType (t.freshen suffix')) := by
  obtain ⟨τ, injective, same⟩ := renamed.exists_rename keeps
  have within : (t.freshen suffix).Within (Around suffix types) := freshen_within_around t
  refine ⟨τ, injective.mono ?_, ?_⟩
  · rintro s ⟨_, mem, hs⟩
    obtain ⟨d, hd, rfl⟩ := List.mem_map.1 mem
    exact ⟨renamed.source.free_of_mem_resolve hs, renamed.within.resolve (within d hd) s hs⟩
  · have own : (t.freshen suffix).rename (newName suffix suffix' ρ) = t.freshen suffix' :=
      rename_newName_freshen ρ t
    rw [← own]
    change ((t.freshen suffix).mapDims (Dim.rename _)).mapDims b'.resolve =
      ((t.freshen suffix).mapDims b.resolve).mapDims (Dim.rename τ)
    rw [mapDims_mapDims, mapDims_mapDims]
    exact mapDims_congr fun d hd => same d (within d hd)

/-- Under other names an operator takes the same types, and its values have alike types. -/
theorem valueType?_rename {ρ : String → String}
    (inj : Set.InjOn ρ {s | ∃ t ∈ types, t.Mentions s}) (fresh : ∀ t ∈ types, t.Lacks suffix)
    (fresh' : ∀ t ∈ types, (t.rename ρ).Lacks suffix') :
    Option.Rel Alike (op.valueType? suffix types)
      (op.valueType? suffix' (types.map (PortType.rename ρ))) := by
  have keeps := injOn_newName inj fresh fresh'
  have covers : ∀ p ∈ op.slotsOn suffix types,
      p.1.Within (Around suffix types) ∧ p.2.Within (Around suffix types) := slotsOn_within
  have unified := (Bindings.Renamed.empty _ (newName suffix suffix' ρ)).unifySlots keeps covers
  rw [slotsOn_rename fresh] at unified
  rw [valueType?, valueType?]
  -- both unify or neither does
  revert unified
  cases Bindings.empty.unifySlots? (op.slotsOn suffix types) <;>
    cases Bindings.empty.unifySlots? (op.slotsOn suffix' (types.map (PortType.rename ρ))) <;>
    intro unified
  · exact .none
  · cases unified
  · cases unified
  · cases unified with
    | some renamed => exact .some (alike_resolveType keeps renamed)

/-- What an operator takes does not depend on the suffix of its symbols, and nor does the type of
its value, up to names. -/
lemma valueType?_suffix (fresh : ∀ t ∈ types, t.Lacks suffix)
    (fresh' : ∀ t ∈ types, t.Lacks suffix') :
    Option.Rel Alike (op.valueType? suffix types) (op.valueType? suffix' types) := by
  have keeps : ∀ t : PortType, t.rename id = t := fun t => t.rename_eq_self fun _ _ _ _ => rfl
  have renamed : Option.Rel Alike (op.valueType? suffix types)
      (op.valueType? suffix' (types.map (PortType.rename id))) :=
    valueType?_rename (Set.injOn_id _) fresh fun t ht => (keeps t).symm ▸ fresh' t ht
  rwa [List.map_congr_left fun t _ => keeps t, List.map_id'] at renamed

/-- On alike types an operator of one input has values of alike types. -/
theorem valueType?_alike {t c : PortType} (alike : Alike t c) (fresh : t.Lacks suffix)
    (fresh' : c.Lacks suffix') :
    Option.Rel Alike (op.valueType? suffix [t]) (op.valueType? suffix' [c]) := by
  obtain ⟨ρ, inj, rfl⟩ := alike
  have inj' : Set.InjOn ρ {s | ∃ u ∈ [t], u.Mentions s} := by
    refine inj.mono ?_
    rintro s ⟨u, hu, hs⟩
    exact List.mem_singleton.1 hu ▸ hs
  exact valueType?_rename inj' (List.forall_mem_singleton.2 fresh)
    (List.forall_mem_singleton.2 fresh')

end Operator

end OperatorNet
