import OperatorNet.Catalog.Load
import OperatorNet.Proofs.Catalog.Reachable
import OperatorNet.Proofs.Tables
import OperatorNet.Proofs.Validation.Breakdown

/-!
# Loading entry by entry

An entry is registered when it is a declaration, its types are known, its name is new and its
signature passes (`Catalog.Admits`); otherwise there is a reason to reject it (`Catalog.Refuses`),
unless one of its values cannot be examined or its name cannot be listed (`Harmless`). So loading is
a run over the entries which registers some and leaves the others out (`Catalog.Loads`), and without
the others it comes to the same catalog. Harmless entries are loaded to the end, and only these
(`Catalog.load_documents`).
-/

namespace OperatorNet

open Check (Fields)

/-- The name that an entry gives itself. -/
def givenName (f : Fields) : Data Float :=
  (fetch "name" f).getD (.text "<unnamed>")

/-- An entry whose values can be examined and whose name can be listed. -/
structure Harmless (f : Fields) : Prop where
  types : ∀ t ∈ Declaration.typeValues f, ¬ Check.Unexaminable t
  name : givenName f |>.key?.isSome

variable {f : Fields} {d : Declaration}

/-- A harmless document does not break the examination down. -/
lemma Harmless.ne_brokenDown (harmless : Harmless f) :
    Declaration.ofData (.mapping f) ≠ .brokenDown := by
  rw [ne_eq, Declaration.ofData_eq_brokenDown]
  exact fun ⟨t, mem, broken⟩ => harmless.types t mem broken

/-- A document that is examined to the end is harmless. -/
lemma harmless_of_ne_brokenDown (examined : Declaration.ofData (.mapping f) ≠ .brokenDown)
    (name : (givenName f).key?.isSome) : Harmless f :=
  ⟨fun t mem broken => examined (Declaration.ofData_eq_brokenDown.2 ⟨t, mem, broken⟩), name⟩

/-- An accepted declaration has the name that the document gives. -/
lemma givenName_of_accepted (accepted : Declaration.ofData (.mapping f) = .accepted d) :
    givenName f = .text d.name := by
  rw [Declaration.ofData, Check.record, Check.andThen_eq_accepted] at accepted
  obtain ⟨d', fields, finite⟩ := accepted
  obtain rfl : d' = d := by
    unfold Declaration.checkFinite at finite
    split at finite
    · split at finite
      · exact Check.accepted.inj finite
      · cases finite
    · exact Check.accepted.inj finite
  rw [Declaration.ofFields, Check.seqLeft_eq_accepted] at fields
  simp only [Check.applicative_seq_eq_accepted, Check.functor_map_eq_accepted] at fields
  -- the name is the first of the fields that were put together
  obtain ⟨⟨_, ⟨_, ⟨_, ⟨_, ⟨_, ⟨_, ⟨_, ⟨_, ⟨_, ⟨_, ⟨name, accepts, rfl⟩,
    -, -, rfl⟩, -, -, rfl⟩, -, -, rfl⟩, -, -, rfl⟩, -, -, rfl⟩, -, -, rfl⟩, -, -, rfl⟩, -, -, rfl⟩,
    -, -, rfl⟩, -, -, rfl⟩, -⟩ := fields
  rw [Check.required, Check.field_single] at accepts
  rw [givenName]
  cases listed : fetch "name" f with
  | none =>
    rw [listed] at accepts
    cases accepts
  | some v =>
    rw [listed, Check.under_eq_accepted] at accepts
    cases v with
    | text n => cases accepts; rfl
    | _ => cases accepts

/-- A key that is inserted is there, and so are the old ones. -/
lemma Keyed.isSome_get?_insert {β : Type} {entries : Keyed β} {key other : Data Float} {value : β} :
    ((entries.insert key value).get? other).isSome ↔
      (entries.get? other).isSome ∨ key.key? = other.key? := by
  rw [get?_insert]
  split
  next same => simp [same]
  next other => simp [other]

namespace Catalog

/-- An entry is a declaration of an operator that the catalog lacks and whose signature passes. -/
structure Admits (c : Catalog Float) (executors : Executors) (f : Fields) (d : Declaration)
    (op : Operator Float) : Prop where
  declared : Declaration.ofData (.mapping f) = .accepted d
  resolved : ∀ r ∈ d.inTypes ++ [d.outType], ∃ t, c.resolveRef d.name r = .ok t
  built : c.build d (chooseExecutor executors d) = .ok op
  new : op.name ∉ c.registered.map (·.name)
  checked : c.checkSignature op [] = .ok ()

/-- An entry is rejected for a reason. -/
inductive Refuses (c : Catalog Float) (executors : Executors) (f : Fields) : String → Prop
  | invalid {issues} : Declaration.ofData (.mapping f) = .refused issues →
      Refuses c executors f
        ("invalid declaration: " ++ ((issues.head?.map (·.flaw.message)).getD ""))
  | unresolved {d fault reason} : Declaration.ofData (.mapping f) = .accepted d →
      c.build d (chooseExecutor executors d) = .error fault → rejection? fault = some reason →
      Refuses c executors f reason
  | taken {d op} : Declaration.ofData (.mapping f) = .accepted d →
      c.build d (chooseExecutor executors d) = .ok op → op.name ∈ c.registered.map (·.name) →
      Refuses c executors f ("Operator '" ++ op.name ++ "' is already registered")
  | malformed {d op} {flaw : SignatureFlaw} : Declaration.ofData (.mapping f) = .accepted d →
      c.build d (chooseExecutor executors d) = .ok op → op.name ∉ c.registered.map (·.name) →
      c.checkSignature op [] = fail (.signature op.name flaw) →
      Refuses c executors f
        ("Operator '" ++ op.name ++ "' has a malformed signature: " ++ flaw.message)

/-- A run over entries that registers some and rejects the others, each for a reason. -/
inductive Loads (executors : Executors) : Catalog Float → List Fields → List Fields →
    List (Data Float × String) → Catalog Float → Prop
  | done {c} : Loads executors c [] [] [] c
  | keep {c c₁ c' f d op rest kept dropped} : c.Admits executors f d op → c.register op = .ok c₁ →
      Loads executors c₁ rest kept dropped c' → Loads executors c (f :: rest) (f :: kept) dropped c'
  | drop {c c' f reason rest kept dropped} : (∀ d op, ¬ c.Admits executors f d op) →
      c.Refuses executors f reason → Loads executors c rest kept dropped c' →
      Loads executors c (f :: rest) kept ((givenName f, reason) :: dropped) c'

variable {c c₁ c' : Catalog Float} {executors : Executors} {op : Operator Float} {reason : String}
  {fault : Fault} {docs kept : List Fields} {dropped : List (Data Float × String)}

/-! ### One entry -/

/-- A type reference that fails is a reason to reject the declaration. -/
lemma resolveRef_error {owner : String} {r : TypeRef}
    (failed : c.resolveRef owner r = .error fault) :
    ∃ reason, rejection? fault = some reason := by
  cases r with
  | given t => cases failed
  | named name =>
    rw [resolveRef, resolveName] at failed
    split at failed
    next => cases failed
    next =>
      dsimp only at failed
      split at failed
      next =>
        split at failed
        next => cases failed; exact ⟨_, rfl⟩
        next => cases failed
      next => cases failed; exact ⟨_, rfl⟩

/-- An operator is built when all its type references resolve. -/
lemma exists_build_iff {executor : Option (Executor Float)} : (∃ op, c.build d executor = .ok op) ↔
    ∀ r ∈ d.inTypes ++ [d.outType], ∃ t, c.resolveRef d.name r = .ok t := by
  rw [List.forall_mem_append, List.forall_mem_singleton]
  simp only [build, bind_eq_ok, pure_eq_ok]
  constructor
  · rintro ⟨_, inTypes, each, outType, out, -⟩
    refine ⟨fun r hr => ?_, outType, out⟩
    obtain ⟨t, -, own⟩ := exists_of_mem_forall₂ (mapM_eq_ok.1 each).flip hr
    exact ⟨t, own⟩
  · rintro ⟨each, outType, out⟩
    obtain ⟨inTypes, all⟩ := exists_mapM_eq_ok each
    exact ⟨_, inTypes, all, outType, out, rfl⟩

/-- An operator that is not built is rejected for a reason. -/
lemma build_error {executor : Option (Executor Float)}
    (failed : c.build d executor = .error fault) :
    ∃ reason, rejection? fault = some reason := by
  simp only [build, bind_eq_error] at failed
  rcases failed with failed | ⟨_, -, failed | ⟨_, -, failed⟩⟩
  · obtain ⟨r, -, failed⟩ := exists_of_mapM_eq_error failed
    exact resolveRef_error failed
  · exact resolveRef_error failed
  · cases failed

/-- A signature that does not pass has a flaw. -/
lemma checkSignature_error {α : Type} [Scalar α] {c : Catalog α} {op : Operator α}
    {untyped : List Nat} (failed : c.checkSignature op untyped = .error fault) :
    ∃ flaw, fault = .of (.signature op.name flaw) := by
  -- every check below reports through the same constructor, so only the loop over slots is an
  -- induction
  have slots : ∀ types i, c.checkSlots op.name untyped i types = .error fault →
      ∃ flaw, fault = .of (.signature op.name flaw) := by
    intro types
    induction types with
    | nil => exact fun i failed => nomatch failed
    | cons t rest ih =>
      intro i failed
      rw [checkSlots] at failed
      split at failed
      next => cases failed; exact ⟨_, rfl⟩
      next =>
        split at failed
        next => exact ih _ failed
        next => cases failed; exact ⟨_, rfl⟩
  unfold checkSignature at failed
  by_cases few : op.arity < 1
  · rw [if_pos few] at failed
    cases failed
    exact ⟨_, rfl⟩
  rw [if_neg few, bind_eq_error] at failed
  rcases failed with failed | ⟨-, -, failed⟩
  · exact slots _ _ failed
  by_cases odd : op.adapter = true ∧ op.arity ≠ 1
  · rw [if_pos odd] at failed
    cases failed
    exact ⟨_, rfl⟩
  rw [if_neg odd] at failed
  cases first : op.cost.entries.find? fun p => p.2 < 0 with
  | some q =>
    rw [first] at failed
    cases failed
    exact ⟨_, rfl⟩
  | none =>
    rw [first] at failed
    change (if _ then _ else _) = _ at failed
    split at failed
    next => cases failed; exact ⟨_, rfl⟩
    next => cases failed

/-- In an open catalog what is new and passes the checks is registered. -/
lemma exists_register (opened : c.frozen = false) (new : op.name ∉ c.registered.map (·.name))
    (checked : c.checkSignature op [] = .ok ()) : ∃ c₁, c.register op = .ok c₁ :=
  ⟨_, registerDraft_eq_ok_iff.2 ⟨opened, checked, nodup_concat_iff.2 new, rfl⟩⟩

/-- A catalog in which something is registered stays open. -/
lemma frozen_register (registered : c.register op = .ok c₁) : c₁.frozen = c.frozen := by
  obtain ⟨-, -, distinct, rfl⟩ := registerDraft_eq_ok_iff.1 registered
  rfl

/-- An entry that is admitted is entered under its name. -/
lemma run_enter_of_admits (admits : c.Admits executors f d op)
    (registered : c.register op = .ok c₁) :
    (Cataloguing.enter executors (.document (.mapping f))).run c = (.ok d.name, c₁) := by
  have read : readEntry (.document (.mapping f)) = .ok d := by
    rw [readEntry, admits.declared]
    rfl
  obtain ⟨_, run⟩ := Cataloguing.on_eq_ok.1 registered
  refine (Cataloguing.run_lift_bind read).trans ((Cataloguing.run_lift_bind admits.built).trans ?_)
  rw [run_bind, run]
  rfl

/-- An operator that cannot be built or registered is not entered, and the catalog stays as it
is. -/
lemma run_enter_of_error (accepted : Declaration.ofData (.mapping f) = .accepted d)
    (failed : c.build d (chooseExecutor executors d) = .error fault ∨
      ∃ op, c.build d (chooseExecutor executors d) = .ok op ∧
        (Cataloguing.register op []).run c = (.error fault, c)) :
    (Cataloguing.enter executors (.document (.mapping f))).run c = (.error fault, c) := by
  have read : readEntry (.document (.mapping f)) = .ok d := by
    rw [readEntry, accepted]
    rfl
  refine (Cataloguing.run_lift_bind read).trans ?_
  rcases failed with failed | ⟨op, built, failed⟩
  · exact run_get_bind.trans (Cataloguing.run_lift_bind_of_error failed)
  · refine (Cataloguing.run_lift_bind built).trans ?_
    rw [run_bind, failed]

/-- An entry that is refused is not entered, and the catalog stays as it is. -/
lemma run_enter_of_refuses (opened : c.frozen = false) (refuses : c.Refuses executors f reason) :
    ∃ fault, (Cataloguing.enter executors (.document (.mapping f))).run c = (.error fault, c) ∧
      rejection? fault = some reason := by
  have checkOpen := checkOpen_eq_ok.2 opened
  cases refuses with
  | @invalid issues refused =>
    refine ⟨.of (.invalid issues), Cataloguing.run_lift_bind_of_error ?_, rfl⟩
    rw [readEntry, refused]
    rfl
  | unresolved accepted failed rejects =>
    exact ⟨_, run_enter_of_error accepted (.inl failed), rejects⟩
  | @taken d op accepted built old =>
    refine ⟨.of (.duplicate op.name), run_enter_of_error accepted (.inr ⟨op, built, ?_⟩), rfl⟩
    refine (Cataloguing.run_lift_bind checkOpen).trans ?_
    refine run_get_bind.trans (Cataloguing.run_lift_bind_of_error ?_)
    exact if_pos (decide_eq_true old)
  | @malformed d op flaw accepted built new flawed =>
    refine ⟨.of (.signature op.name flaw), run_enter_of_error accepted (.inr ⟨op, built, ?_⟩), rfl⟩
    refine (Cataloguing.run_lift_bind checkOpen).trans ?_
    refine (Cataloguing.run_lift_bind (checkNew_eq_ok.2 new)).trans ?_
    exact run_get_bind.trans (Cataloguing.run_lift_bind_of_error flawed)

/-- An entry that is entered is admitted; otherwise the catalog stays as it is. -/
lemma ends_enter : Ends (Cataloguing.enter executors (.document (.mapping f))) c
    (fun name c' => ∃ d op distinct, c.Admits executors f d op ∧ name = d.name ∧
      c' = c.extend [op] distinct)
    fun _ c' => c' = c := by
  refine Cataloguing.ends_lift_bind fun d read =>
    ends_get_bind (Cataloguing.ends_lift_bind fun op built => ?_)
  refine ends_bind.2 ((Cataloguing.ends_register c op []).mono ?_ fun _ _ same => same)
  rintro _ c' ⟨opened, checked, distinct, rfl⟩
  refine ⟨d, op, distinct,
    ⟨?_, exists_build_iff.1 ⟨op, built⟩, built, nodup_concat_iff.1 distinct, checked⟩,
    rfl, rfl⟩
  exact Check.toExcept_eq_ok.1 read

/-- A harmless entry is admitted or refused. -/
lemma admits_or_refuses (c : Catalog Float) (executors : Executors) (harmless : Harmless f) :
    (∃ d op, c.Admits executors f d op) ∨
      (∀ d op, ¬ c.Admits executors f d op) ∧ ∃ reason, c.Refuses executors f reason := by
  -- the stages of an entry in their order: each either refuses it for its own reason or passes it
  -- on
  cases declared : Declaration.ofData (.mapping f) with
  | brokenDown => exact absurd declared harmless.ne_brokenDown
  | refused issues =>
    exact .inr ⟨fun d op admits => (nomatch declared.symm.trans admits.declared), _,
      .invalid declared⟩
  | accepted d =>
    have only : ∀ d' op, c.Admits executors f d' op → d' = d := fun d' op admits =>
      Check.accepted.inj (admits.declared.symm.trans declared)
    cases built : c.build d (chooseExecutor executors d) with
    | error fault =>
      obtain ⟨reason, rejects⟩ := build_error built
      refine .inr ⟨fun d' op admits => ?_, reason, .unresolved declared built rejects⟩
      obtain rfl := only d' op admits
      exact nomatch built.symm.trans admits.built
    | ok op =>
      have same : ∀ d' op', c.Admits executors f d' op' → op' = op := by
        intro d' op' admits
        obtain rfl := only d' op' admits
        exact Except.ok.inj (admits.built.symm.trans built)
      by_cases new : op.name ∈ c.registered.map (·.name)
      · refine .inr ⟨fun d' op' admits => ?_, _, .taken declared built new⟩
        exact admits.new (same d' op' admits ▸ new)
      · cases checked : c.checkSignature op [] with
        | ok u => exact .inl ⟨d, op, declared, exists_build_iff.1 ⟨op, built⟩, built, new, checked⟩
        | error fault =>
          obtain ⟨flaw, rfl⟩ := checkSignature_error checked
          refine .inr ⟨fun d' op' admits => ?_, _, .malformed declared built new checked⟩
          have passed := admits.checked
          rw [same d' op' admits, checked] at passed
          cases passed

/-! ### All entries -/

/-- Entries as they are handed in. -/
def documents (docs : List Fields) : List Entry :=
  docs.map fun f => .document (.mapping f)

/-- What is listed about rejected entries: for each name the last reason, in the place of the
first. -/
def rejections (dropped : List (Data Float × String)) : Keyed String :=
  dropped.foldl (fun acc q => acc.insert q.1 q.2) []

/-- After an entry loading goes on with what became of it. -/
lemma run_loadFrom_cons {report : LoadReport} :
    (Cataloguing.loadFrom executors report (documents (f :: docs))).run c =
      match (Cataloguing.enter executors (.document (.mapping f))).run c with
      | (.ok registered, c₁) => (Cataloguing.loadFrom executors
          { report with registered := report.registered ++ [registered] } (documents docs)).run c₁
      | (.error fault, c₁) =>
        match Cataloguing.rejected report (givenName f) fault with
        | .ok report => (Cataloguing.loadFrom executors report (documents docs)).run c₁
        | .error e => (.error e, c₁) := by
  refine (Cataloguing.run_lift_bind (b := givenName f) rfl).trans ?_
  rw [run_bind, Cataloguing.run_caught]
  rcases (Cataloguing.enter executors (.document (.mapping f))).run c with ⟨fault | registered, c₁⟩
  · dsimp only
    cases outcome : Cataloguing.rejected report (givenName f) fault with
    | ok report => exact Cataloguing.run_lift_bind rfl
    | error e => exact Cataloguing.run_lift_bind_of_error rfl
  · rfl

/-- Harmless entries can be run over to the end. -/
lemma exists_loads (opened : c.frozen = false) (executors : Executors)
    (harmless : ∀ f ∈ docs, Harmless f) :
    ∃ kept dropped c', Loads executors c docs kept dropped c' := by
  induction docs generalizing c with
  | nil => exact ⟨[], [], c, .done⟩
  | cons f rest ih =>
    rw [List.forall_mem_cons] at harmless
    rcases admits_or_refuses c executors harmless.1 with ⟨d, op, admits⟩ | ⟨none, reason, refuses⟩
    · obtain ⟨c₁, registered⟩ := exists_register opened admits.new admits.checked
      obtain ⟨kept, dropped, c', loads⟩ := ih ((frozen_register registered).trans opened) harmless.2
      exact ⟨f :: kept, dropped, c', .keep admits registered loads⟩
    · obtain ⟨kept, dropped, c', loads⟩ := ih opened harmless.2
      exact ⟨kept, (givenName f, reason) :: dropped, c', .drop none refuses loads⟩

/-- What a run registers and rejects is what loading registers and rejects. -/
lemma Loads.loadFrom_eq (loads : Loads executors c docs kept dropped c') (opened : c.frozen = false)
    (listed : ∀ f ∈ docs, (givenName f).key?.isSome) (report : LoadReport) :
    ∃ names : List String, names.map Data.text = kept.map givenName ∧
      (Cataloguing.loadFrom executors report (documents docs)).run c =
        (.ok ⟨report.registered ++ names,
        dropped.foldl (fun acc q => acc.insert q.1 q.2) report.rejected⟩, c') := by
  induction loads generalizing report with
  | done => exact ⟨[], rfl, by rw [List.append_nil]; rfl⟩
  | @keep c c₁ _ f d op _ _ _ admits registered _ ih =>
    rw [List.forall_mem_cons] at listed
    obtain ⟨names, same, loaded⟩ := ih ((frozen_register registered).trans opened) listed.2
      { report with registered := report.registered ++ [d.name] }
    refine ⟨d.name :: names, ?_, ?_⟩
    · rw [List.map_cons, List.map_cons, same, givenName_of_accepted admits.declared]
    · rw [run_loadFrom_cons, run_enter_of_admits admits registered]
      dsimp only
      rw [loaded, List.append_assoc]
      rfl
  | @drop c _ f reason _ _ _ _ refuses _ ih =>
    rw [List.forall_mem_cons] at listed
    obtain ⟨names, same, loaded⟩ := ih opened listed.2
      { report with rejected := report.rejected.insert (givenName f) reason }
    obtain ⟨fault, failed, rejects⟩ := run_enter_of_refuses opened refuses
    obtain ⟨key, isKey⟩ := Option.isSome_iff_exists.1 listed.1
    refine ⟨names, same, ?_⟩
    rw [run_loadFrom_cons, failed]
    dsimp only
    rw [Cataloguing.rejected, rejects, isKey]
    exact loaded

/-- The documents that are kept would be kept without the others too. -/
lemma Loads.of_kept (loads : Loads executors c docs kept dropped c') :
    Loads executors c kept kept [] c' := by
  induction loads with
  | done => exact .done
  | keep admits registered _ ih => exact .keep admits registered ih
  | drop _ _ _ ih => exact ih

/-- The kept documents come in the order of all. -/
lemma Loads.sublist (loads : Loads executors c docs kept dropped c') : kept.Sublist docs := by
  induction loads with
  | done => exact .slnil
  | keep _ _ _ ih => exact ih.cons_cons _
  | drop _ _ _ ih => exact ih.cons _

/-- An entry that is entered, or rejected in a report, is harmless. -/
lemma harmless_of_run_enter {run : Except Fault String × Catalog Float}
    (ended : (Cataloguing.enter executors (.document (.mapping f))).run c = run)
    (goesOn : ∀ fault, run.1 = .error fault →
      ∃ report report', Cataloguing.rejected report (givenName f) fault = .ok report') :
      Harmless f := by
  cases declared : Declaration.ofData (.mapping f) with
  -- a fault that is not one of a declaration would have left the handler
  | brokenDown =>
    have broken : readEntry (.document (.mapping f)) = fail .wrongForm := by
      rw [readEntry, declared]
      rfl
    obtain ⟨report, report', done⟩ := goesOn (.of .wrongForm) (by
      rw [← ended]
      exact congrArg Prod.fst (Cataloguing.run_lift_bind_of_error broken))
    cases done
  | refused issues =>
    have refused : readEntry (.document (.mapping f)) = fail (.invalid issues) := by
      rw [readEntry, declared]
      rfl
    obtain ⟨report, report', done⟩ := goesOn (.of (.invalid issues)) (by
      rw [← ended]
      exact congrArg Prod.fst (Cataloguing.run_lift_bind_of_error refused))
    refine harmless_of_ne_brokenDown (declared ▸ nofun) ?_
    rw [Cataloguing.rejected] at done
    split at done
    next => cases done
    next => cases done
    next key _ isKey =>
      rw [isKey]
      rfl
  | accepted d =>
    refine harmless_of_ne_brokenDown (declared ▸ nofun) ?_
    rw [givenName_of_accepted declared]
    rfl

/-- Loading comes to the end of harmless entries only. -/
lemma harmless_of_loadFrom {report r : LoadReport}
    (loaded : ((Cataloguing.loadFrom executors report (documents docs)).run c).1 = .ok r) :
    ∀ f ∈ docs, Harmless f := by
  induction docs generalizing c report with
  | nil => exact fun _ mem => absurd mem List.not_mem_nil
  | cons f rest ih =>
    rw [run_loadFrom_cons] at loaded
    rw [List.forall_mem_cons]
    split at loaded
    next registered c₁ entered => exact ⟨harmless_of_run_enter entered nofun, ih loaded⟩
    next fault c₁ failed =>
      split at loaded
      next report' rejected =>
        refine ⟨harmless_of_run_enter failed fun fault' same => ?_, ih loaded⟩
        obtain rfl := Except.error.inj same
        exact ⟨report, report', rejected⟩
      next => cases loaded

/-- After the entries the catalog is frozen if that is asked for. -/
lemma load_of_loadFrom {report : LoadReport} {entries : List Entry} {freeze : Bool}
    (loaded : (Cataloguing.loadFrom executors .empty entries).run c = (.ok report, c')) :
    c.load entries executors freeze = ⟨if freeze then c'.freeze else c', .ok report⟩ := by
  rw [load, Cataloguing.attempt, Cataloguing.load, run_bind, loaded]
  cases freeze <;> rfl

/-- The rejections are listed under the names of the documents that are dropped. -/
lemma get?_rejections (dropped : List (Data Float × String)) (key : Data Float) :
    ((rejections dropped).get? key).isSome ↔ ∃ q ∈ dropped, q.1.key? = key.key? := by
  have fold : ∀ acc : Keyed String,
      ((dropped.foldl (fun acc q => acc.insert q.1 q.2) acc).get? key).isSome ↔
      (acc.get? key).isSome ∨ ∃ q ∈ dropped, q.1.key? = key.key? := by
    induction dropped with
    | nil => simp
    | cons q rest ih =>
      intro acc
      rw [List.foldl_cons, ih, Keyed.isSome_get?_insert, List.exists_mem_cons_iff, or_assoc,
        or_left_comm]
  rw [rejections, fold]
  exact or_iff_right nofun

/-- An open catalog loads entries to the end exactly when all of them are harmless. Then those are
registered that are admitted when it is their turn, the others are rejected, each under its name,
and without the others the catalog would be the same. -/
theorem load_documents (opened : c.frozen = false) (executors : Executors) (docs : List Fields)
    (freeze : Bool) :
    ((∃ report, (c.load (documents docs) executors freeze).outcome = .ok report) ↔
      ∀ f ∈ docs, Harmless f) ∧
    ((∀ f ∈ docs, Harmless f) → ∃ kept dropped c', Loads executors c docs kept dropped c' ∧
      (∀ q ∈ dropped, ((rejections dropped).get? q.1).isSome) ∧
      ∃ names : List String, names.map Data.text = kept.map givenName ∧
        c.load (documents docs) executors freeze =
          ⟨if freeze then c'.freeze else c', .ok ⟨names, rejections dropped⟩⟩ ∧
        c.load (documents kept) executors freeze =
          ⟨if freeze then c'.freeze else c', .ok ⟨names, []⟩⟩) := by
  -- what is kept and dropped is found by going through the documents; both loadings then end alike
  have onward : (∀ f ∈ docs, Harmless f) → ∃ kept dropped c',
      Loads executors c docs kept dropped c' ∧
      ∃ names : List String, names.map Data.text = kept.map givenName ∧
        c.load (documents docs) executors freeze =
          ⟨if freeze then c'.freeze else c', .ok ⟨names, rejections dropped⟩⟩ ∧
        c.load (documents kept) executors freeze =
          ⟨if freeze then c'.freeze else c', .ok ⟨names, []⟩⟩ := by
    intro harmless
    obtain ⟨kept, dropped, c', loads⟩ := exists_loads opened executors harmless
    have listed : ∀ f ∈ docs, (givenName f).key?.isSome := fun f hf => (harmless f hf).name
    obtain ⟨names, same, loaded⟩ := loads.loadFrom_eq opened listed .empty
    obtain ⟨names', same', alone⟩ := loads.of_kept.loadFrom_eq opened
      (fun f hf => listed f (loads.sublist.subset hf)) .empty
    obtain rfl : names' = names :=
      List.map_injective_iff.2 (fun _ _ => Data.text.inj) (same'.trans same.symm)
    exact ⟨kept, dropped, c', loads, names', same', load_of_loadFrom loaded, load_of_loadFrom alone⟩
  constructor
  case left =>
    constructor
    · rintro ⟨report, done⟩
      rcases loaded :
          (Cataloguing.loadFrom executors .empty (documents docs)).run c with ⟨_ | r, c'⟩
      · rw [load, Cataloguing.attempt, Cataloguing.load, run_bind, loaded] at done
        cases done
      · exact harmless_of_loadFrom (congrArg Prod.fst loaded)
    · intro harmless
      obtain ⟨_, _, _, -, _, -, loaded, -⟩ := onward harmless
      rw [loaded]
      exact ⟨_, rfl⟩
  case right =>
    intro harmless
    obtain ⟨kept, dropped, c', loads, rest⟩ := onward harmless
    exact ⟨kept, dropped, c', loads, fun q mem =>
      (get?_rejections dropped q.1).2 ⟨q, mem, rfl⟩, rest⟩

/-! ### Types that are known, unknown and unexaminable -/

namespace Sample

/-- A catalog with two kinds. -/
def plain : Catalog Float :=
  .ofKinds ["path", "feature"] "cost"

/-- An entry with one input. -/
def unary (name : String) (input : Data Float) : Fields :=
  [("name", .text name), ("in", input), ("out", .text "feature")]

/-- An entry that can be registered between two that cannot. -/
def mixed : List Fields :=
  [unary "lost" (.text "nowhere"), unary "good" (.text "path"), unary "good" (.text "feature")]

/-- A type whose shape is no row of terms. -/
def shapeless : Data Float :=
  .mapping [("kind", .text "path"), ("shape", .real 2.5)]

/-- None of the mixed documents breaks the loading down. -/
lemma harmless_mixed : ∀ f ∈ mixed, Harmless f := by
  have texts : ∀ name ref : String, Harmless (unary name (.text ref)) := by
    intro name ref
    refine ⟨?_, rfl⟩
    rintro t mem ⟨fields, rfl, -⟩
    simp [unary, Declaration.typeValues, Check.used, Check.usedName?, fetch,
      Check.inputValues] at mem
  simp [mixed, texts]

end Sample

open Sample in
/-- Of three entries the second one is registered, and it would be without the others. -/
theorem load_documents_mixed : plain.frozen = false ∧ (∀ f ∈ mixed, Harmless f) ∧
    ∃ kept dropped c', Loads [] plain mixed kept dropped c' ∧
      plain.load (documents mixed) [] true = ⟨c'.freeze, .ok ⟨["good"], rejections dropped⟩⟩ ∧
      plain.load (documents kept) [] true = ⟨c'.freeze, .ok ⟨["good"], []⟩⟩ ∧
      (rejections dropped).map Prod.snd = [
        "Operator 'lost' has a malformed signature: unknown type alias or kind 'nowhere'",
        "Operator 'good' is already registered"] := by
  obtain ⟨kept, dropped, c', loads, -, names, -, loaded, alone⟩ :=
    (load_documents (c := plain) rfl [] mixed true).2 harmless_mixed
  have shown : (plain.load (documents mixed) [] true).outcome.toOption.map
      (fun r => (r.registered, r.rejected.map Prod.snd)) = some (["good"], [
        "Operator 'lost' has a malformed signature: unknown type alias or kind 'nowhere'",
        "Operator 'good' is already registered"]) := by
    decide +kernel
  rw [loaded] at shown
  obtain ⟨rfl, rejected⟩ := Prod.mk.inj (Option.some.inj shown)
  exact ⟨rfl, harmless_mixed, kept, dropped, c', loads, loaded, alone, rejected⟩

open Sample in
/-- A type that cannot be examined ends the loading, and the entry after it, which could be
registered, is lost. -/
theorem load_shapeless_ne_ok :
    let entries := [unary "bad" shapeless, unary "good" (.text "path")]
    plain.frozen = false ∧
      (∀ report, (plain.load (documents entries) [] true).outcome ≠ .ok report) ∧
      (plain.load (documents entries) [] true).catalog = plain ∧
      (plain.load (documents [unary "good" (.text "path")]) [] true).outcome.toOption.map
        (·.registered) = some ["good"] := by
  intro entries
  have broken : plain.load (documents entries) [] true = ⟨plain, fail .wrongForm⟩ := by
    rfl
  refine ⟨rfl, fun report => ?_, ?_, by decide +kernel⟩
  · rw [broken]
    exact fail_ne_ok
  · rw [broken]

end Catalog

end OperatorNet
