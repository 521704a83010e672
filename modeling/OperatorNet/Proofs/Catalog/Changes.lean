import Mathlib.Logic.Relation
import OperatorNet.Catalog.Load
import OperatorNet.Catalog.Lookup
import OperatorNet.Proofs.Catalog.Order
import OperatorNet.Proofs.PortType.Document
import OperatorNet.Proofs.Tables

/-!
# Changes of catalogs

There are four ways in which a catalog changes (`Catalog.Change`), and whatever is done to a catalog
is a series of them, also where it ends with a fault half-way. A frozen catalog does not change
(`Changes.eq_of_frozen`). In a catalog that came about by changes the kinds are written in the
normal way, the named types are of known kinds, the operators pass the checks, as kinds are never
taken away, and the index lists the operators (`Catalog.Consistent`).
-/

namespace OperatorNet.Catalog

/-- A single change: of the kinds, the named types or the operators of an open catalog, or its
freezing. -/
inductive Change : Catalog Float → Catalog Float → Prop
  | kind {c : Catalog Float} (kind : String) : c.frozen = false →
      Change c { c with kinds := c.kinds.insert (normalizeTag kind) }
  | name {c : Catalog Float} (name : String) (t : PortType) : c.frozen = false → t.kind ∈ c.kinds →
      Change c { c with aliases := c.aliases.insert name t }
  | operator {c : Catalog Float} (op : Operator Float) (distinct) : c.frozen = false →
      c.checkSignature op [] = .ok () → Change c (c.extend [op] distinct)
  | freeze {c : Catalog Float} : Change c c.freeze

/-- Any number of changes. -/
abbrev Changes : Catalog Float → Catalog Float → Prop :=
  Relation.ReflTransGen Change

end OperatorNet.Catalog

/-! ### What is done by changes -/

namespace OperatorNet.Cataloguing

open Catalog (Change Changes Executors)

variable {β : Type} {x : Cataloguing Float β} {c c' : Catalog Float} {executors : Executors}

/-- A call that does one thing or, with a fault, nothing. -/
lemma moves_of_ends {good : β → Catalog Float → Prop} (ends : Ends x c good fun _ c' => c' = c)
    (change : ∀ b c', good b c' → Change c c') : Moves Changes c x :=
  ends.mono (fun b c' done => .single (change b c' done)) fun _ _ same => same ▸ .refl

/-- A result that changes nothing. -/
lemma moves_lift {y : Except Fault β} : Moves Changes c (lift y) := by
  cases y <;> exact .refl

/-- What a call has done stays done when its fault is caught. -/
lemma moves_caught (moves : Moves Changes c x) : Moves Changes c (caught x) :=
  ends_caught.2 moves

/-- A new kind is a change, or a fault and none. -/
lemma moves_registerKind (kind : String) : Moves Changes c (registerKind kind) :=
  moves_of_ends (ends_registerKind c kind) fun _ _ ⟨opened, made⟩ => made ▸ .kind kind opened

/-- A type that is named is a change, or a fault and none. -/
lemma moves_nameType (name : String) (t : PortType) : Moves Changes c (nameType name t) :=
  moves_of_ends (ends_nameType c name t) fun _ _ ⟨opened, known, made⟩ =>
    made ▸ .name name t opened known

/-- A type that is defined is a change, or a fault and none. -/
lemma moves_defineType (name : String) (d : Data Float) : Moves Changes c (defineType name d) :=
  moves_of_ends (ends_defineType c name d) fun _ _ ⟨t, _, opened, known, made⟩ =>
    made ▸ .name name t opened known

/-- A registration is a change, or a fault and none. -/
lemma moves_register (op : Operator Float) (untyped : List Nat) :
    Moves Changes c (register op untyped) := by
  refine moves_of_ends (ends_register c op untyped) ?_
  rintro _ c' ⟨opened, checked, distinct, rfl⟩
  exact .operator op distinct opened (Catalog.checkSignature_of_kinds checked rfl)

/-- An entry of a collection is a change, or a fault and none. -/
lemma moves_enter (e : Entry) : Moves Changes c (enter executors e) := by
  refine moves_bind moves_lift fun d c₁ => moves_get_bind ?_
  exact moves_bind moves_lift fun op c₂ => moves_bind (moves_register op []) fun _ _ => moves_pure

/-- Loading one entry after the other goes by changes, also where it stops. -/
lemma moves_loadFrom (report : LoadReport) (entries : List Entry) :
    Moves Changes c (loadFrom executors report entries) := by
  induction entries generalizing c report with
  | nil => exact moves_pure
  | cons e rest ih =>
    refine moves_bind moves_lift fun name c₁ =>
      moves_bind (moves_caught (moves_enter e)) fun r c₂ => ?_
    cases r with
    | ok registered => exact ih _
    | error f => exact moves_bind moves_lift fun report _ => ih report

/-- Loading a collection goes by changes, also where it stops. -/
lemma moves_load (entries : List Entry) (freeze : Bool) :
    Moves Changes c (load entries executors freeze) := by
  refine moves_bind (moves_loadFrom .empty entries) fun report c₁ => ?_
  cases freeze with
  | true => exact moves_bind (moves_modify (.single .freeze)) fun _ _ => moves_pure
  | false => exact moves_pure

/-- Adding kinds goes by changes, also where it stops. -/
lemma moves_addKinds (kinds : List (Data Float)) : Moves Changes c (addKinds kinds) := by
  induction kinds generalizing c with
  | nil => exact moves_pure
  | cons d rest ih =>
    cases d with
    | text kind => exact moves_bind (moves_registerKind kind) fun _ _ => ih
    | _ => exact moves_lift

/-- Adding named types goes by changes, also where it stops. -/
lemma moves_addTypes (rejected : Table String String) (types : List (String × Data Float)) :
    Moves Changes c (addTypes rejected types) := by
  induction types generalizing c rejected with
  | nil => exact moves_pure
  | cons p rest ih =>
    refine moves_bind (moves_caught (moves_defineType p.1 p.2)) fun r c₁ => ?_
    cases r with
    | ok _ => exact ih rejected
    | error f => exact moves_bind moves_lift fun rejected _ => ih rejected

/-- Loading a registry goes by changes, also where it stops. -/
lemma moves_loadRegistry (registry : Data Float) (freeze : Bool) :
    Moves Changes c (loadRegistry registry executors freeze) := by
  refine moves_get_bind (moves_bind moves_lift fun _ _ => moves_bind moves_lift fun fields _ => ?_)
  refine moves_bind moves_lift fun kinds _ => moves_bind (moves_addKinds kinds) fun _ _ => ?_
  refine moves_bind moves_lift fun types _ => moves_bind (moves_addTypes .empty types) fun _ _ => ?_
  refine moves_bind moves_lift fun atoms _ => moves_bind moves_lift fun operators _ => ?_
  exact moves_bind (moves_load _ freeze) fun _ _ => moves_pure

/-- A catalog that is not given up came about by changes. -/
lemma changes_of_on (moves : Moves Changes c x) (done : x.on c = .ok c') : Changes c c' := by
  obtain ⟨b, run⟩ := on_eq_ok.1 done
  exact moves.of_ok run

end OperatorNet.Cataloguing

namespace OperatorNet.Catalog

variable {c c' : Catalog Float}

/-- Operators registered one after the other are changes. -/
lemma changes_of_registerAll {ops : List (Operator Float)} (done : c.registerAll ops = .ok c') :
    Changes c c' :=
  of_foldlM_eq_ok .refl done fun _ _ _ changes first =>
    changes.trans (Cataloguing.changes_of_on (Cataloguing.moves_register _ _) first)

/-- A catalog is begun by changes of an empty one. -/
lemma changes_of_start {kinds : List String} {aliases : List (String × PortType)}
    {sortMetric : String} (started : start kinds aliases sortMetric = .ok c) :
    Changes (ofKinds kinds sortMetric) c :=
  of_foldlM_eq_ok .refl started fun _ _ _ changes named =>
    changes.trans (Cataloguing.changes_of_on (Cataloguing.moves_nameType _ _) named)

/-! ### What changes leave as it is -/

/-- A catalog whose kinds are normal, whose named types are of these kinds, whose operators pass the
checks, and whose index lists the operators. -/
structure Consistent (c : Catalog Float) : Prop where
  normal : ∀ k ∈ c.kinds, normalizeTag k = k
  known : ∀ p ∈ c.aliases.entries, p.2.kind ∈ c.kinds
  checked : ∀ op ∈ c.registered, c.checkSignature op [] = .ok ()
  indexed : c.Indexed

/-- A normal tag is its own normal form. -/
lemma normalizeTag_normalizeTag (k : String) : normalizeTag (normalizeTag k) = normalizeTag k := by
  have trimmed : Text.trimmed (normalizeTag k) = normalizeTag k := Text.trimmed_lower_trimmed k
  rw [normalizeTag, trimmed]
  exact Text.lower_lower _

/-- A catalog without operators and named types is consistent. -/
lemma consistent_ofKinds (kinds : List String) (sortMetric : String) :
    Consistent (ofKinds kinds sortMetric) where
  normal k known := by
    obtain ⟨kind, -, rfl⟩ := List.mem_map.1 (TagSet.mem_ofList.1 known)
    exact normalizeTag_normalizeTag kind
  known _ mem := absurd mem List.not_mem_nil
  checked _ mem := absurd mem List.not_mem_nil
  indexed := indexed_ofKinds kinds sortMetric

/-- Changes keep a catalog consistent. -/
lemma Consistent.change (consistent : Consistent c) (change : Change c c') : Consistent c' := by
  -- each change touches one part of the catalog; the others are consistent as before
  cases change with
  | kind kind =>
    have more : ∀ k, k ∈ c.kinds → k ∈ c.kinds.insert (normalizeTag kind) :=
      fun k known => mem_insertTag.2 (.inr known)
    constructor
    case normal =>
      intro k known
      rcases mem_insertTag.1 known with rfl | old
      · exact normalizeTag_normalizeTag kind
      · exact consistent.normal k old
    case known => exact fun p mem => more _ (consistent.known p mem)
    case checked => exact fun op mem => checkSignature_mono more (consistent.checked op mem)
    case indexed => exact consistent.indexed
  | name name t _ known =>
    constructor
    case normal => exact consistent.normal
    case known =>
      intro p mem
      rcases mem_put mem with rfl | old
      · exact known
      · exact consistent.known p old
    case checked =>
      exact fun op mem => checkSignature_of_kinds (consistent.checked op mem) rfl
    case indexed => exact consistent.indexed
  | operator op distinct _ checked =>
    constructor
    case normal => exact consistent.normal
    case known => exact consistent.known
    case checked =>
      intro a mem
      have passes : c.checkSignature a [] = .ok () := by
        rcases List.mem_append.1 mem with old | new
        · exact consistent.checked a old
        · rw [List.mem_singleton.1 new]
          exact checked
      exact checkSignature_of_kinds passes rfl
    case indexed => exact consistent.indexed.extend distinct
  | freeze =>
    constructor
    case normal => exact consistent.normal
    case known => exact consistent.known
    case checked =>
      exact fun op mem => checkSignature_of_kinds (consistent.checked op mem) rfl
    case indexed => exact consistent.indexed

/-- Changes keep a catalog consistent. -/
lemma Consistent.changes (consistent : Consistent c) (changes : Changes c c') : Consistent c' := by
  induction changes with
  | refl => exact consistent
  | tail _ change ih => exact ih.change change

end OperatorNet.Catalog
