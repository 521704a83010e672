import OperatorNet.Proofs.Results

/-!
# Runs that may fail

What holds after a computation that changes a state and may end with a fault: `Ends x s good bad`
says that from the state `s` a result of `x` is `good` together with the state afterwards, and a
fault `bad`. Each way to put computations together has one rule; a fold keeps an invariant. What
every part of a computation does to the state, whether it fails or not, all of it does (`Moves`).
-/

namespace OperatorNet

variable {ε σ β γ : Type}

/-- A run that does not succeed ends with a fault, in some state. -/
lemma exists_of_isOk_eq_false {run : Except ε β × σ} (failed : run.1.isOk = false) :
    ∃ e s, run = (.error e, s) := by
  obtain ⟨result, s⟩ := run
  cases result with
  | error e => exact ⟨e, s, rfl⟩
  | ok b => cases failed

/-- From a state, a computation gives a good result or a bad fault, together with another state. -/
def Ends (x : ExceptT ε (StateM σ) β) (s : σ) (good : β → σ → Prop) (bad : ε → σ → Prop) : Prop :=
  match x.run s with
  | (.ok b, s') => good b s'
  | (.error e, s') => bad e s'

variable {x : ExceptT ε (StateM σ) β} {s s' : σ} {good good' : β → σ → Prop}
  {bad bad' : ε → σ → Prop}

/-- How a run ends is said for both its ways to end. -/
lemma ends_iff :
    Ends x s good bad ↔ (∀ b s', x.run s = (.ok b, s') → good b s') ∧
      ∀ e s', x.run s = (.error e, s') → bad e s' := by
  rw [Ends]
  split
  next b s' eq =>
    rw [eq]
    exact ⟨fun h => ⟨fun b' t same => by cases same; exact h, nofun⟩, fun h => h.1 _ _ rfl⟩
  next e s' eq =>
    rw [eq]
    exact ⟨fun h => ⟨nofun, fun e' t same => by cases same; exact h⟩, fun h => h.2 _ _ rfl⟩

/-- A run that succeeds ends well. -/
lemma Ends.of_ok {b : β} (ends : Ends x s good bad) (run : x.run s = (.ok b, s')) : good b s' :=
  (ends_iff.1 ends).1 b s' run

/-- A run that fails ends as failures do. -/
lemma Ends.of_error {e : ε} (ends : Ends x s good bad) (run : x.run s = (.error e, s')) :
    bad e s' :=
  (ends_iff.1 ends).2 e s' run

/-- What holds at the end may be weakened. -/
lemma Ends.mono (ends : Ends x s good bad) (weaker : ∀ b s', good b s' → good' b s')
    (worse : ∀ e s', bad e s' → bad' e s') : Ends x s good' bad' := by
  rw [ends_iff] at ends ⊢
  exact ⟨fun b s' run => weaker b s' (ends.1 b s' run),
    fun e s' run => worse e s' (ends.2 e s' run)⟩

/-- Two accounts of what holds at the end hold together. -/
lemma Ends.and (first : Ends x s good bad) (second : Ends x s good' bad') :
    Ends x s (fun b s' => good b s' ∧ good' b s') fun e s' => bad e s' ∧ bad' e s' :=
  ends_iff.2 ⟨fun _ _ run => ⟨first.of_ok run, second.of_ok run⟩,
    fun _ _ run => ⟨first.of_error run, second.of_error run⟩⟩

/-- A run ends as everything does. -/
lemma ends_of_forall (all : ∀ b s', good b s') (worse : ∀ e s', bad e s') : Ends x s good bad :=
  ends_iff.2 ⟨fun b s' _ => all b s', fun e s' _ => worse e s'⟩

/-- A value ends in the state at hand. -/
@[simp] lemma ends_pure {b : β} : Ends (pure b) s good bad ↔ good b s :=
  Iff.rfl

/-- A sequence goes on where its first part has ended well. -/
lemma run_bind {f : β → ExceptT ε (StateM σ) γ} :
    (x >>= f).run s = match x.run s with
      | (.ok b, s') => (f b).run s'
      | (.error e, s') => (.error e, s') := by
  rw [ExceptT.run_bind]
  change StateT.bind x.run _ s = _
  rw [StateT.bind]
  rcases x.run s with ⟨_ | _, s'⟩ <;> rfl

/-- The state that is read is the one at hand. -/
lemma run_get_bind {f : σ → ExceptT ε (StateM σ) γ} : (get >>= f).run s = (f s).run s :=
  rfl

/-- Two steps end as the second one does where the first one ends. -/
@[simp] lemma ends_bind {f : β → ExceptT ε (StateM σ) γ} {good : γ → σ → Prop} :
    Ends (x >>= f) s good bad ↔ Ends x s (fun b s' => Ends (f b) s' good bad) bad := by
  rw [Ends, run_bind, Ends]
  rcases x.run s with ⟨_ | _, s'⟩ <;> rfl

/-- Looking at the state ends with it. -/
@[simp] lemma ends_get {good : σ → σ → Prop} :
    Ends (get : ExceptT ε (StateM σ) σ) s good bad ↔ good s s :=
  Iff.rfl

/-- A run that looks at the state first goes on with it. -/
lemma ends_get_bind {f : σ → ExceptT ε (StateM σ) γ} {good : γ → σ → Prop}
    (next : Ends (f s) s good bad) :
    Ends (get >>= f) s good bad :=
  next

/-- Setting a state ends there. -/
@[simp] lemma ends_set {t : σ} {good : PUnit → σ → Prop} :
    Ends (set t : ExceptT ε (StateM σ) PUnit) s good bad ↔ good ⟨⟩ t :=
  Iff.rfl

/-- Changing the state ends in the changed one. -/
@[simp] lemma ends_modify {f : σ → σ} {good : PUnit → σ → Prop} :
    Ends (modify f : ExceptT ε (StateM σ) PUnit) s good bad ↔ good ⟨⟩ (f s) :=
  Iff.rfl

/-- A fold keeps an invariant about the elements that it has gone through, if each step does. -/
lemma ends_foldlM {f : γ → β → ExceptT ε (StateM σ) γ} {xs : List β} {a : γ}
    (inv : List β → γ → σ → Prop) (start : inv [] a s)
    (step : ∀ a s, ∀ y ∈ xs, ∀ done, inv done a s → Ends (f a y) s (inv (done ++ [y])) bad) :
    Ends (xs.foldlM f a) s (inv xs) bad := by
  have onward : ∀ done a s, inv done a s → Ends (xs.foldlM f a) s (inv (done ++ xs)) bad := by
    clear start
    induction xs with
    | nil =>
      intro done a s kept
      rw [List.append_nil]
      exact kept
    | cons y rest ih =>
      intro done a s kept
      rw [List.foldlM_cons, ends_bind, List.append_cons]
      refine (step a s y (List.mem_cons_self ..) done kept).mono (fun a' s' kept => ?_)
        fun _ _ h => h
      exact ih (fun a s z mem => step a s z (List.mem_cons_of_mem _ mem)) _ _ _ kept
  exact onward [] a s start

/-! ### Runs that move a state -/

/-- However a computation ends, the state afterwards is related to the one before. -/
def Moves (R : σ → σ → Prop) (s : σ) (x : ExceptT ε (StateM σ) β) : Prop :=
  Ends x s (fun _ s' => R s s') fun _ s' => R s s'

section Moves

variable {R : σ → σ → Prop}

/-- A run that moves by a relation ends where the relation leads. -/
lemma Moves.run (moves : Moves R s x) : R s (x.run s).2 := by
  rcases run : x.run s with ⟨_ | _, s'⟩
  · exact moves.of_error run
  · exact moves.of_ok run

/-- A run that looks at the state first moves as it goes on. -/
lemma moves_get_bind {f : σ → ExceptT ε (StateM σ) γ} (next : Moves R s (f s)) :
    Moves R s (get >>= f) :=
  next

/-- Changing the state moves to the changed one. -/
lemma moves_modify {g : σ → σ} (moved : R s (g s)) :
    Moves R s (modify g : ExceptT ε (StateM σ) PUnit) :=
  moved

/-- A value moves nowhere. -/
lemma moves_pure [Std.Refl R] {b : β} : Moves R s (pure b : ExceptT ε (StateM σ) β) :=
  refl s

variable [IsTrans σ R] {f : β → ExceptT ε (StateM σ) γ}

/-- What moves on from a state moves on from every state before it. -/
lemma Moves.after (moves : Moves R s' x) (moved : R s s') :
    Ends x s' (fun _ s'' => R s s'') fun _ s'' => R s s'' :=
  moves.mono (fun _ _ => IsTrans.trans _ _ _ moved) fun _ _ => IsTrans.trans _ _ _ moved

/-- A first part that moves the state goes on from where it has moved to. -/
lemma Moves.ends_bind {s₀ : σ} {good : γ → σ → Prop} (first : Moves R s x) (before : R s₀ s)
    (next : ∀ b s', R s₀ s' → Ends (f b) s' good fun _ => R s₀) :
    Ends (x >>= f) s good fun _ => R s₀ := by
  rw [OperatorNet.ends_bind]
  exact (first.after before).mono next fun _ _ moved => moved

/-- A step that is taken on a condition only may be passed over. -/
lemma Moves.ends_when {s₀ : σ} {good : γ → σ → Prop} {c : Prop} [Decidable c]
    {x : ExceptT ε (StateM σ) PUnit} {f : PUnit → ExceptT ε (StateM σ) γ} (first : Moves R s x)
    (before : R s₀ s) (next : ∀ s', R s₀ s' → Ends (f ⟨⟩) s' good fun _ => R s₀) :
    Ends (if c then x >>= f else f ⟨⟩) s good fun _ => R s₀ := by
  split
  · exact first.ends_bind before fun _ => next
  · exact next s before

/-- Two steps move when each one does. -/
lemma moves_bind (first : Moves R s x) (next : ∀ b s', Moves R s' (f b)) : Moves R s (x >>= f) := by
  rw [Moves, ends_bind]
  exact first.mono (fun b s' moved => (next b s').after moved) fun _ _ moved => moved

/-- A run that sets the state first moves on from there. -/
lemma moves_set_bind {f : PUnit → ExceptT ε (StateM σ) γ} (moved : R s s')
    (next : Moves R s' (f ⟨⟩)) :
    Moves R s (set s' >>= f) := by
  rw [Moves, ends_bind, ends_set]
  exact next.after moved

variable [Std.Refl R]

/-- Steps for the elements of a list move when each one does. -/
lemma moves_forM {f : β → ExceptT ε (StateM σ) PUnit} {xs : List β}
    (each : ∀ b s, Moves R s (f b)) :
    Moves R s (xs.forM f) := by
  induction xs generalizing s with
  | nil => exact moves_pure
  | cons b rest ih => exact moves_bind (each b s) fun _ _ => ih

/-- Steps for the elements of a list with results move when each one does. -/
lemma moves_mapM {xs : List β} (each : ∀ b s, Moves R s (f b)) : Moves R s (xs.mapM f) := by
  induction xs generalizing s with
  | nil => exact moves_pure
  | cons b rest ih =>
    rw [List.mapM_cons]
    exact moves_bind (each b s) fun _ _ => moves_bind ih fun _ _ => moves_pure

end Moves

end OperatorNet
