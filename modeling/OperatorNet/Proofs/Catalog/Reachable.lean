import Mathlib.Data.List.Nodup
import OperatorNet.Catalog.Lookup
import OperatorNet.Proofs.Runs

/-!
# Catalogs that come about

A call on a catalog does all that it has to check before it changes anything, so it changes one
thing or, with a fault, nothing (`ends_registerKind`, `ends_nameType`, `ends_defineType`,
`ends_register`).

A catalog starts with the kinds it knows and changes by what the library offers: more kinds, named
types, registered operators, freezing, and snapshots with more operators (`Catalog.Reachable`). In
every such catalog all operators have passed a check (`Reachable.allChecked`), so that an adapter
takes one input (`Reachable.adapter_arity`), and an operator is found under its name
(`Catalog.find?_name`).

The checks of a signature ask the catalog for its kinds only, so what has passed them passes them in
every catalog with these kinds (`checkSignature_mono`). An open catalog takes in operators one after
the other exactly when each of them passes the checks and no two have the same name, and then it is
the same catalog with these operators at the end (`registerAll_eq_ok_iff`).
-/

namespace OperatorNet

/-! ### What a call does -/

variable {α β γ : Type}

namespace Catalog

variable {c : Catalog α} {op : Operator α} {untyped : List Nat}

/-- The catalog with further operators at the end, whose names are entered into the index. -/
def extend (c : Catalog α) (ops : List (Operator α))
    (distinct : ((c.registered ++ ops).map (·.name)).Nodup) : Catalog α :=
  { c with registered := c.registered ++ ops, distinct, index := ops.foldl KindIndex.enter c.index }

/-- More operators come after those of before. -/
@[simp] lemma registered_extend {ops : List (Operator α)} {distinct} :
    (c.extend ops distinct).registered = c.registered ++ ops :=
  rfl

/-- A catalog is open if it is not frozen. -/
lemma checkOpen_eq_ok : c.checkOpen = .ok () ↔ c.frozen = false := by
  unfold checkOpen
  cases c.frozen
  · exact iff_of_true rfl rfl
  · exact iff_of_false fail_ne_ok nofun

/-- The type that is to be named is of a known kind. -/
lemma checkNamed_eq_ok {name : String} {t : PortType} :
    c.checkNamed name t = .ok () ↔ t.kind ∈ c.kinds := by
  unfold checkNamed
  split
  next known => exact iff_of_true rfl known
  next unknown => exact iff_of_false fail_ne_ok unknown

/-- The name is that of none of the operators. -/
lemma checkNew_eq_ok {name : String} :
    c.checkNew name = .ok () ↔ name ∉ c.registered.map (·.name) := by
  unfold checkNew contains
  by_cases old : name ∈ c.registered.map (·.name)
  · rw [if_pos (decide_eq_true old)]
    exact iff_of_false fail_ne_ok (not_not_intro old)
  · rw [if_neg (by simpa using old)]
    exact iff_of_true rfl old

/-- An operator can come last if its name is that of none of the others. -/
lemma nodup_concat_iff : ((c.registered ++ [op]).map (·.name)).Nodup ↔
    op.name ∉ c.registered.map (·.name) := by
  rw [List.map_append, List.nodup_append_comm]
  exact List.nodup_cons.trans (and_iff_left c.distinct)

/-- An operator with a new name is stored at the end. -/
lemma store_of_new (new : op.name ∉ c.registered.map (·.name)) :
    { c.store op with index := c.index.enter op } = c.extend [op] (nodup_concat_iff.2 new) := by
  simp only [store, extend, storeIn, if_neg new, List.foldl_cons, List.foldl_nil]

end Catalog

namespace Cataloguing

variable {x : Cataloguing α β} {c c' : Catalog α} {op : Operator α} {untyped : List Nat}

/-- A catalog that is not given up is the one that the call leaves. -/
lemma on_eq_ok : x.on c = .ok c' ↔ ∃ b, x.run c = (.ok b, c') := by
  unfold on
  rcases x.run c with ⟨f | b, c₁⟩
  · exact ⟨nofun, fun ⟨_, eq⟩ => nomatch eq⟩
  · exact ⟨fun eq => ⟨b, Except.ok.inj eq ▸ rfl⟩, fun ⟨_, eq⟩ => congrArg (Except.ok ∘ Prod.snd) eq⟩

/-- A fault that is caught is a result, and what was changed stays changed. -/
lemma run_caught : (caught x).run c = (.ok (x.run c).1, (x.run c).2) :=
  rfl

/-- What a call ends with is a result to go on from. -/
lemma ends_caught {good : Except Fault β → Catalog α → Prop} {bad : Fault → Catalog α → Prop} :
    Ends (caught x) c good bad ↔ Ends x c (fun b => good (.ok b)) fun f => good (.error f) := by
  rw [Ends, run_caught, Ends]
  rcases x.run c with ⟨_ | _, _⟩ <;> rfl

/-- A fault changes nothing, and with a result the call goes on. -/
lemma ends_lift_bind {y : Except Fault β} {f : β → Cataloguing α γ} {good : γ → Catalog α → Prop}
    (next : ∀ b, y = .ok b → Ends (f b) c good fun _ c' => c' = c) :
    Ends (lift y >>= f) c good fun _ c' => c' = c := by
  cases y with
  | ok b => exact next b rfl
  | error f => exact rfl

/-- After a result the call goes on with the same catalog. -/
lemma run_lift_bind {y : Except Fault β} {b : β} {f : β → Cataloguing α γ} (there : y = .ok b) :
    (lift y >>= f).run c = (f b).run c := by
  subst there
  rfl

/-- A fault ends the call with the same catalog. -/
lemma run_lift_bind_of_error {y : Except Fault β} {e : Fault} {f : β → Cataloguing α γ}
    (failed : y = .error e) : (lift y >>= f).run c = (.error e, c) := by
  subst failed
  rfl

/-- A kind is added to an open catalog, or nothing changes. -/
lemma ends_registerKind (c : Catalog α) (kind : String) : Ends (registerKind kind) c
    (fun _ c' => c.frozen = false ∧ c' = { c with kinds := c.kinds.insert (normalizeTag kind) })
    fun _ c' => c' = c := by
  refine ends_get_bind (ends_lift_bind fun _ opened => ?_)
  exact ⟨Catalog.checkOpen_eq_ok.1 opened, rfl⟩

/-- A type of a known kind is named in an open catalog, or nothing changes. -/
lemma ends_nameType (c : Catalog α) (name : String) (t : PortType) : Ends (nameType name t) c
    (fun _ c' => c.frozen = false ∧ t.kind ∈ c.kinds ∧
      c' = { c with aliases := c.aliases.insert name t }) fun _ c' => c' = c := by
  refine ends_get_bind (ends_lift_bind fun _ opened => ?_)
  refine ends_get_bind (ends_lift_bind fun _ known => ?_)
  exact ⟨Catalog.checkOpen_eq_ok.1 opened, Catalog.checkNamed_eq_ok.1 known, rfl⟩

/-- The type that a document describes is named, or nothing changes. -/
lemma ends_defineType (c : Catalog α) (name : String) (d : Data Float) : Ends (defineType name d) c
    (fun _ c' => ∃ t, Catalog.describedType name d = .ok t ∧ c.frozen = false ∧ t.kind ∈ c.kinds ∧
      c' = { c with aliases := c.aliases.insert name t }) fun _ c' => c' = c := by
  refine ends_get_bind (ends_lift_bind fun _ _ => ends_lift_bind fun t described => ?_)
  exact (ends_nameType c name t).mono (fun _ _ named => ⟨t, described, named⟩) fun _ _ same => same

/-- An operator that passes the checks is stored and entered in an open catalog, or nothing
changes. -/
lemma ends_register [Scalar α] (c : Catalog α) (op : Operator α) (untyped : List Nat) :
    Ends (register op untyped) c (fun _ c' => c.frozen = false ∧
      c.checkSignature op untyped = .ok () ∧ ∃ distinct, c' = c.extend [op] distinct)
      fun _ c' => c' = c := by
  refine ends_get_bind (ends_lift_bind fun _ opened => ?_)
  refine ends_get_bind (ends_lift_bind fun _ unused => ?_)
  refine ends_get_bind (ends_lift_bind fun _ checked => ?_)
  have new := Catalog.checkNew_eq_ok.1 unused
  exact ⟨Catalog.checkOpen_eq_ok.1 opened, checked, _, Catalog.store_of_new new⟩

/-- An operator that passes the checks and has a name of its own can be registered. -/
lemma run_register [Scalar α] (opened : c.frozen = false)
    (checked : c.checkSignature op untyped = .ok ())
    (distinct : ((c.registered ++ [op]).map (·.name)).Nodup) :
    (register op untyped).run c = (.ok ⟨⟩, c.extend [op] distinct) := by
  have new := Catalog.nodup_concat_iff.1 distinct
  refine (run_lift_bind (Catalog.checkOpen_eq_ok.2 opened)).trans ?_
  refine (run_lift_bind (Catalog.checkNew_eq_ok.2 new)).trans ((run_lift_bind checked).trans ?_)
  exact congrArg (Prod.mk _) (Catalog.store_of_new new)

end Cataloguing

namespace Catalog

variable [Scalar α]

/-- A catalog that comes about by the operations on catalogs. -/
inductive Reachable : Catalog α → Prop where
  | ofKinds (kinds sortMetric) : Reachable (.ofKinds kinds sortMetric)
  | registerKind {c c' kind} : Reachable c → c.registerKind kind = .ok c' → Reachable c'
  | nameType {c c' name t} : Reachable c → c.nameType name t = .ok c' → Reachable c'
  | registerDraft {c c' op untyped} :
    Reachable c → c.registerDraft op untyped = .ok c' → Reachable c'
  | freeze {c} : Reachable c → Reachable c.freeze
  | withOperators {c c' ops} : Reachable c → c.withOperators ops = .ok c' → Reachable c'

variable {c c' : Catalog α}

/-- Every adapter takes one input. -/
def UnaryAdapters (c : Catalog α) : Prop :=
  ∀ op ∈ c.registered, op.adapter → op.arity = 1

/-- Every operator has passed the checks of some catalog. -/
def AllChecked (c : Catalog α) : Prop :=
  ∀ op ∈ c.registered, ∃ (other : Catalog α) (untyped : List Nat),
    other.checkSignature op untyped = .ok ()

/-- What passes the checks has an input, is unary as an adapter, and declares nothing negative. -/
lemma checkSignature_eq_ok {op : Operator α} {untyped : List Nat}
    (checked : c.checkSignature op untyped = .ok ()) :
    0 < op.arity ∧ (op.adapter → op.arity = 1) ∧ (∀ p ∈ op.cost.entries, ¬ p.2 < 0) ∧
      ∀ x, op.stability = some x → ¬ x < 0 := by
  -- each refusal is a fault, whatever would be checked after it
  have refused : ∀ {cause : Cause} {f : Unit → Except Fault Unit},
      (fail cause : Except Fault Unit) >>= f ≠ .ok () := nofun
  unfold checkSignature at checked
  by_cases few : op.arity < 1
  · rw [if_pos few] at checked
    exact absurd checked refused
  rw [if_neg few, bind_eq_ok] at checked
  obtain ⟨-, -, checked⟩ := checked
  by_cases odd : op.adapter = true ∧ op.arity ≠ 1
  · rw [if_pos odd] at checked
    exact absurd checked refused
  rw [if_neg odd] at checked
  refine ⟨by omega, fun adapter => by_contra fun other => odd ⟨adapter, other⟩, ?_⟩
  cases first : op.cost.entries.find? fun p => p.2 < 0 with
  | some q =>
    rw [first] at checked
    exact absurd checked refused
  | none =>
    rw [first] at checked
    refine ⟨fun p hp negative => List.find?_eq_none.1 first p hp (decide_eq_true negative),
      fun x declared negative => ?_⟩
    rw [declared, Option.map_some, Option.getD_some, if_pos (decide_eq_true negative)] at checked
    exact fail_ne_ok checked

/-- Registration adds an operator that passes the checks and has a name of its own to an open
catalog. -/
lemma registerDraft_eq_ok_iff {op : Operator α} {untyped : List Nat} :
    c.registerDraft op untyped = .ok c' ↔ c.frozen = false ∧
      c.checkSignature op untyped = .ok () ∧ ∃ distinct, c' = c.extend [op] distinct := by
  rw [registerDraft, Cataloguing.on_eq_ok]
  constructor
  · rintro ⟨_, run⟩
    exact (Cataloguing.ends_register c op untyped).of_ok run
  · rintro ⟨opened, checked, distinct, rfl⟩
    exact ⟨_, Cataloguing.run_register opened checked distinct⟩

/-- A registered operator has passed the checks and comes last. -/
lemma registerDraft_eq_ok {op : Operator α} {untyped : List Nat}
    (done : c.registerDraft op untyped = .ok c') :
    c.checkSignature op untyped = .ok () ∧ c'.registered = c.registered ++ [op] := by
  obtain ⟨-, checked, -, rfl⟩ := registerDraft_eq_ok_iff.1 done
  exact ⟨checked, rfl⟩

omit [Scalar α] in
/-- A type is named in an open catalog when its kind is known. -/
lemma nameType_eq_ok {name : String} {t : PortType} (done : c.nameType name t = .ok c') :
    c.frozen = false ∧ t.kind ∈ c.kinds ∧ c' = { c with aliases := c.aliases.insert name t } := by
  obtain ⟨_, run⟩ := Cataloguing.on_eq_ok.1 done
  exact (Cataloguing.ends_nameType c name t).of_ok run

omit [Scalar α] in
/-- A new catalog has no operators. -/
lemma registered_start {kinds : List String} {aliases : List (String × PortType)}
    {sortMetric : String} (started : start kinds aliases sortMetric = .ok c) :
    c.registered = [] := by
  refine of_foldlM_eq_ok (P := fun c => c.registered = []) rfl started fun c p c' none named => ?_
  obtain ⟨-, -, rfl⟩ := nameType_eq_ok named
  exact none

/-- A registration brings in no operator that does not pass the checks. -/
lemma AllChecked.registerDraft (all : c.AllChecked) {op : Operator α} {untyped : List Nat}
    (done : c.registerDraft op untyped = .ok c') : c'.AllChecked := by
  obtain ⟨checked, registered⟩ := registerDraft_eq_ok done
  intro a ha
  rw [registered] at ha
  rcases List.mem_append.1 ha with old | new
  · exact all a old
  · rw [List.mem_singleton] at new
    subst new
    exact ⟨c, untyped, checked⟩

/-- Registrations bring in no operator that does not pass the checks. -/
lemma AllChecked.registerAll (all : c.AllChecked) {ops : List (Operator α)}
    (done : c.registerAll ops = .ok c') : c'.AllChecked :=
  of_foldlM_eq_ok all done fun _ _ _ all first => all.registerDraft first

/-- In a catalog that comes about all operators have been checked. -/
theorem Reachable.allChecked (reachable : Reachable c) : c.AllChecked := by
  induction reachable with
  | ofKinds kinds sortMetric => exact fun op mem => absurd mem List.not_mem_nil
  | @registerKind c c' kind _ done ih =>
    obtain ⟨_, run⟩ := Cataloguing.on_eq_ok.1 done
    obtain ⟨-, rfl⟩ := (Cataloguing.ends_registerKind c kind).of_ok run
    exact ih
  | nameType _ done ih =>
    obtain ⟨-, -, rfl⟩ := nameType_eq_ok done
    exact ih
  | registerDraft _ done ih => exact ih.registerDraft done
  | freeze _ ih => exact ih
  | withOperators _ done _ =>
    unfold Catalog.withOperators at done
    simp only [bind_eq_ok, pure_eq_ok] at done
    obtain ⟨fresh, started, c₁, first, c₂, second, rfl⟩ := done
    have empty : fresh.AllChecked := by
      rw [AllChecked, registered_start started]
      exact fun op mem => absurd mem List.not_mem_nil
    have added := (empty.registerAll first).registerAll second
    exact added

/-- In a catalog that comes about adapters take one input. -/
theorem Reachable.unaryAdapters (reachable : Reachable c) : c.UnaryAdapters := fun op mem =>
  have ⟨_, _, checked⟩ := reachable.allChecked op mem
  (checkSignature_eq_ok checked).2.1

omit [Scalar α] in
/-- A registered operator is found under its name. -/
lemma find?_name {op : Operator α} (mem : op ∈ c.registered) : c.find? op.name = some op := by
  unfold find?
  cases found : c.registered.find? (·.name = op.name) with
  | none => exact absurd (decide_eq_true rfl) (List.find?_eq_none.1 found op mem)
  | some first =>
    have name : first.name = op.name := by
      have passed := List.find?_some found
      exact of_decide_eq_true passed
    rw [List.inj_on_of_nodup_map c.distinct (List.mem_of_find?_eq_some found) mem name]

omit [Scalar α] in
/-- The operator that is found has the name that was asked for. -/
lemma name_of_find? {name : String} {op : Operator α} (found : c.find? name = some op) :
    op ∈ c.registered ∧ op.name = name := by
  have passed := List.find?_some found
  exact ⟨List.mem_of_find?_eq_some found, of_decide_eq_true passed⟩

omit [Scalar α] in
/-- An operator that is got is registered. -/
lemma mem_of_get {name : String} {op : Operator α} (found : c.get name = .ok op) :
    op ∈ c.registered := by
  unfold get find? at found
  split at found
  next first there =>
    cases found
    exact List.mem_of_find?_eq_some there
  next => exact absurd found fail_ne_ok

/-- The operators of a catalog have different names. -/
lemma nodup_operators (c : Catalog α) : (c.operators.map (·.name)).Nodup :=
  ((perm_sortBy c.comesBefore c.registered).map _).nodup_iff.2 c.distinct

/-- Operators put in order have names of their own. -/
lemma nodup_inOrder {ops : List (Operator α)} (sublist : ops.Sublist c.operators) :
    ((c.inOrder ops).map (·.name)).Nodup :=
  ((perm_sortBy c.comesBefore ops).map _).nodup_iff.2 (c.nodup_operators.sublist (sublist.map _))

/-- An adapter is a registered operator that is declared as one. -/
lemma mem_registered_of_mem_adapters {a : Operator α} (mem : a ∈ c.adapters) :
    a ∈ c.registered ∧ a.adapter := by
  rw [adapters, List.mem_filter] at mem
  exact ⟨mem_sortBy.1 mem.1, mem.2⟩

/-- The adapters of a catalog take one input. -/
lemma Reachable.adapter_arity (reachable : Reachable c) {a : Operator α} (mem : a ∈ c.adapters) :
    a.arity = 1 :=
  have ⟨registered, adapter⟩ := mem_registered_of_mem_adapters mem
  reachable.unaryAdapters a registered adapter

end Catalog

/-! ### Registering operators -/

namespace Catalog

variable {c c' : Catalog α} {op : Operator α} {ops rest : List (Operator α)} {untyped : List Nat}

/-- No further operators change nothing. -/
lemma extend_nil {distinct} : c.extend [] distinct = c := by
  simp only [extend, List.append_nil, List.foldl_nil]

/-- Further operators may come in two lots. -/
lemma extend_extend {first : ((c.registered ++ ops).map (·.name)).Nodup}
    {both : (((c.extend ops first).registered ++ rest).map (·.name)).Nodup} :
    (c.extend ops first).extend rest both =
      c.extend (ops ++ rest) (List.append_assoc c.registered ops rest ▸ both) := by
  simp only [extend, List.append_assoc, List.foldl_append]

/-- Slots that are in order in one catalog are so in another one with its kinds. -/
lemma checkSlots_mono (kinds : ∀ k, k ∈ c.kinds → k ∈ c'.kinds) {name : String} {i : Nat}
    {slots : List PortType} (checked : c.checkSlots name untyped i slots = .ok ()) :
    c'.checkSlots name [] i slots = .ok () := by
  induction slots generalizing i with
  | nil => rfl
  | cons t rest ih =>
    rw [checkSlots] at checked
    split at checked
    next => exact absurd checked fail_ne_ok
    next =>
      split at checked
      next known =>
        rw [checkSlots, if_neg List.not_mem_nil, if_pos (kinds _ known)]
        exact ih checked
      next => exact absurd checked fail_ne_ok

variable [Scalar α]

/-- A signature that passes does so in a catalog that knows more kinds. -/
lemma checkSignature_mono (kinds : ∀ k, k ∈ c.kinds → k ∈ c'.kinds)
    (checked : c.checkSignature op untyped = .ok ()) : c'.checkSignature op [] = .ok () := by
  unfold checkSignature at checked ⊢
  by_cases few : op.arity < 1
  · rw [if_pos few] at checked
    exact absurd checked nofun
  · rw [if_neg few, bind_eq_ok] at checked ⊢
    obtain ⟨⟨⟩, slots, rest⟩ := checked
    exact ⟨(), checkSlots_mono kinds slots, rest⟩

/-- Whether a signature passes depends on the kinds only. -/
lemma checkSignature_of_kinds (checked : c.checkSignature op untyped = .ok ())
    (same : c.kinds = c'.kinds) :
    c'.checkSignature op [] = .ok () :=
  checkSignature_mono (fun _ known => same ▸ known) checked

/-- An open catalog takes in operators that pass the checks and have names of their own, and no
others. -/
lemma registerAll_eq_ok_iff (opened : c.frozen = false) : c.registerAll ops = .ok c' ↔
    (∀ op ∈ ops, c.checkSignature op [] = .ok ()) ∧ ∃ distinct, c' = c.extend ops distinct := by
  -- one operator at a time; a later one is checked against the same kinds, so its check does not
  -- depend on the earlier ones
  induction ops generalizing c with
  | nil =>
    have distinct : ((c.registered ++ []).map Operator.name).Nodup := by
      rw [List.append_nil]
      exact c.distinct
    constructor
    · intro done
      exact ⟨List.forall_mem_nil _, distinct, (Except.ok.inj done).symm.trans extend_nil.symm⟩
    · rintro ⟨-, _, rfl⟩
      rw [extend_nil]
      rfl
  | cons op rest ih =>
    rw [registerAll, List.foldlM_cons, bind_eq_ok, List.forall_mem_cons]
    constructor
    · rintro ⟨c₁, first, others⟩
      obtain ⟨-, checked, distinct, rfl⟩ := registerDraft_eq_ok_iff.1 first
      obtain ⟨passes, distinct', rfl⟩ := (ih (c := c.extend [op] distinct) opened).1 others
      exact ⟨⟨checked, fun a ha => checkSignature_of_kinds (passes a ha) rfl⟩, _, extend_extend⟩
    · rintro ⟨⟨checked, passes⟩, distinct, rfl⟩
      have both : ((c.registered ++ [op] ++ rest).map (·.name)).Nodup := by
        rw [List.append_assoc]
        exact distinct
      have first : ((c.registered ++ [op]).map (·.name)).Nodup :=
        both.sublist ((List.sublist_append_left _ _).map _)
      refine ⟨c.extend [op] first, registerDraft_eq_ok_iff.2 ⟨opened, checked, first, rfl⟩, ?_⟩
      refine (ih (c := c.extend [op] first) opened).2 ⟨fun a ha => ?_, both, ?_⟩
      · exact checkSignature_of_kinds (passes a ha) rfl
      · exact Eq.symm (extend_extend : (c.extend [op] first).extend rest both = _)

/-- An open catalog that comes about does so with further operators that pass the checks. -/
lemma Reachable.extend (reachable : Reachable c) (opened : c.frozen = false)
    (passes : ∀ op ∈ ops, c.checkSignature op [] = .ok ())
    (distinct : ((c.registered ++ ops).map (·.name)).Nodup) :
    (c.extend ops distinct).Reachable := by
  have done : c.registerAll ops = .ok (c.extend ops distinct) :=
    (registerAll_eq_ok_iff opened).2 ⟨passes, distinct, rfl⟩
  exact of_foldlM_eq_ok reachable done fun _ _ _ reachable first => reachable.registerDraft first

end Catalog

end OperatorNet
