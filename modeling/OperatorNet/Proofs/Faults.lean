import OperatorNet.Proofs.Results
import OperatorNet.Ref.Find

/-!
# Faults

Three causes tell how a search itself goes: nothing takes its input, nothing answers it, or a
position cannot go on to a state. A computation is `Unconcerned` when it never fails for one of
them. Each way to put computations together has one rule, and a function has one lemma.

What is put into words fails where a number is too long to be written. A computation that does so is
the one that does not, unless it fails for that cause (`Words`).
-/

namespace OperatorNet

variable {β γ : Type}

/-! ### Words -/

section

variable {writable : Bool} {r : Except Mismatch β} {b : β} {m : Mismatch}
    {f : PUnit → Except Fault γ} {c : γ}

/-- What needs something writable goes on when it is. -/
lemma requireWritable_bind_eq_ok :
    (requireWritable writable >>= f) = .ok c ↔ writable ∧ f ⟨⟩ = .ok c := by
  cases writable with
  | true => exact (and_iff_right rfl).symm
  | false => exact ⟨nofun, fun both => nomatch both.1⟩

/-- What is worded succeeds just when it does. -/
lemma worded_eq_ok : worded r = .ok (.ok b) ↔ r = .ok b := by
  cases r with
  | ok _ => rw [worded, Except.ok.injEq]
  | error m => simp only [worded, requireWritable_bind_eq_ok, pure_eq_ok, reduceCtorEq, and_false]

end

section

variable {x y : Except Fault β}

/-- The first computation is the second one, unless a number in it is too long to be written. -/
def Words (x y : Except Fault β) : Prop :=
  x = y ∨ x = .error .unwritable

/-- A result words itself. -/
lemma Words.refl (x : Except Fault β) : Words x x :=
  .inl rfl

/-- Wording keeps what succeeds. -/
lemma Words.eq_ok {b : β} (words : Words x y) (done : x = .ok b) : y = .ok b := by
  rcases words with rfl | long
  · exact done
  · exact absurd (long.symm.trans done) nofun

/-- Wording goes through step by step. -/
lemma Words.bind {h k : β → Except Fault γ} (first : Words x y)
    (rest : ∀ b, y = .ok b → Words (h b) (k b)) : Words (x >>= h) (y >>= k) := by
  rcases first with rfl | rfl
  · cases x with
    | ok b => exact rest b rfl
    | error f => exact .refl _
  · exact .inr rfl

/-- What is known to come out is gone on with. -/
lemma Words.bind_ok {b : β} {h : β → Except Fault γ} {z : Except Fault γ} (first : Words x (.ok b))
    (rest : Words (h b) z) : Words (x >>= h) z := by
  rcases first with rfl | rfl
  · exact rest
  · exact .inr rfl

/-- What is required to be written is left out. -/
lemma Words.required {writable : Bool} {z : PUnit → Except Fault β} (rest : Words (z ⟨⟩) y) :
    Words (requireWritable writable >>= z) y := by
  cases writable with
  | true => exact rest
  | false => exact .inr rfl

/-- What fails is put into words before it is looked at. -/
lemma Words.worded {r : Except Mismatch β} {h : Except Mismatch β → Except Fault γ}
    {z : Except Fault γ} (rest : Words (h r) z) : Words (worded r >>= h) z := by
  cases r with
  | ok b => exact rest
  | error m => exact bind_assoc (m := Except Fault) .. ▸ .required rest

/-- A mismatch that is not there needs no words. -/
lemma Words.worded_some {b : β} {r : Except Mismatch β} {h : Except Mismatch β → Except Fault γ}
    {z : Except Fault γ} (done : r.toOption = some b) (rest : Words (h (.ok b)) z) :
    Words (OperatorNet.worded r >>= h) z := by
  cases r with
  | ok b' =>
    cases done
    exact rest
  | error m => cases done

/-- A mismatch is put into words, whatever they are. -/
lemma Words.worded_none {r : Except Mismatch β} {h : Except Mismatch β → Except Fault γ}
    {z : Except Fault γ} (refused : r.toOption = none) (rest : ∀ m, Words (h (.error m)) z) :
    Words (OperatorNet.worded r >>= h) z := by
  cases r with
  | ok b => cases refused
  | error m => exact .worded (rest m)

/-- A choice whose steps only word things is a plain choice. -/
lemma words_filterM {keep : β → Except Fault Bool} {f : β → Bool}
    (each : ∀ b, Words (keep b) (.ok (f b))) (xs : List β) :
    Words (xs.filterM keep) (.ok (xs.filter f)) := by
  have onward : ∀ found, Words (xs.filterAuxM keep found)
      (.ok ((xs.filter f).reverse ++ found)) := by
    induction xs with
    | nil => exact fun _ => .refl _
    | cons x rest ih =>
      intro found
      refine (each x).bind_ok ?_
      rw [List.filter_cons]
      cases f x with
      | false => exact ih found
      | true =>
        rw [if_pos rfl, List.reverse_cons, List.append_assoc]
        exact ih (x :: found)
  refine (onward []).bind_ok ?_
  rw [List.append_nil, List.reverse_reverse]
  exact .refl _

end

/-! ### Faults about a search -/

/-- A cause tells that nothing answers a request. -/
@[simp]
def Cause.Unanswered (c : Cause) : Prop :=
  (∃ type, c = .noConsumer type) ∨ ∃ bound source target, c = .noRoute bound source target

/-- A cause tells how a search itself goes. -/
@[simp]
def Cause.AboutSearch (c : Cause) : Prop :=
  c.Unanswered ∨ ∃ node source target, c = .transition node source target

/-- A computation never fails for a cause that tells how a search itself goes. -/
def Unconcerned (x : Except Fault β) : Prop :=
  ∀ f, x = .error f → ¬ f.cause.AboutSearch

section

variable {x : Except Fault β} {f : β → Except Fault γ} {xs : List β}

@[simp] lemma unconcerned_ok {b : β} : Unconcerned (.ok b) :=
  fun _ same => by cases same

@[simp] lemma unconcerned_pure {b : β} : Unconcerned (pure b) :=
  unconcerned_ok

@[simp] lemma unconcerned_error {e : Fault} :
    Unconcerned (.error e : Except Fault β) ↔ ¬ e.cause.AboutSearch :=
  ⟨fun h => h e rfl, fun other _ same => Except.error.inj same ▸ other⟩

@[simp] lemma unconcerned_fail {c : Cause} :
    Unconcerned (fail c : Except Fault β) ↔ ¬ c.AboutSearch :=
  unconcerned_error

@[simp] lemma unconcerned_requireWritable {writable : Bool} :
    Unconcerned (requireWritable writable) := by
  cases writable with
  | true => exact unconcerned_ok
  | false => exact unconcerned_error.2 (by simp [Fault.unwritable, Fault.of])

/-- Two steps are unconcerned when the first one is and the second one after it. -/
@[simp] lemma unconcerned_bind_iff :
    Unconcerned (x >>= f) ↔ Unconcerned x ∧ ∀ b, x = .ok b → Unconcerned (f b) := by
  constructor
  · exact fun h => ⟨fun e failed => h e (bind_eq_error.2 (.inl failed)), fun b done e failed =>
      h e (bind_eq_error.2 (.inr ⟨b, done, failed⟩))⟩
  · rintro ⟨first, next⟩ e failed
    rcases bind_eq_error.1 failed with failed | ⟨b, done, failed⟩
    · exact first e failed
    · exact next b done e failed

lemma unconcerned_bind (first : Unconcerned x) (next : ∀ b, x = .ok b → Unconcerned (f b)) :
    Unconcerned (x >>= f) :=
  unconcerned_bind_iff.2 ⟨first, next⟩

@[simp] lemma unconcerned_ite {c : Prop} [Decidable c] {y : Except Fault β} :
    Unconcerned (if c then x else y) ↔ (c → Unconcerned x) ∧ (¬ c → Unconcerned y) := by
  split
  next h => simp [h]
  next h => simp [h]

@[simp] lemma unconcerned_map {g : β → γ} : Unconcerned (g <$> x) ↔ Unconcerned x := by
  rw [map_eq_pure_bind, unconcerned_bind_iff]
  exact and_iff_left fun _ _ => unconcerned_pure

@[simp] lemma unconcerned_mapM (each : ∀ b ∈ xs, Unconcerned (f b)) : Unconcerned (xs.mapM f) := by
  induction xs with
  | nil => exact unconcerned_pure
  | cons x rest ih =>
    rw [List.forall_mem_cons] at each
    rw [List.mapM_cons]
    refine unconcerned_bind each.1 fun _ _ => unconcerned_bind (ih each.2) fun _ _ => ?_
    exact unconcerned_pure

@[simp] lemma unconcerned_foldlM {step : γ → β → Except Fault γ} {c : γ}
    (each : ∀ c, ∀ b ∈ xs, Unconcerned (step c b)) : Unconcerned (xs.foldlM step c) := by
  induction xs generalizing c with
  | nil => exact unconcerned_pure
  | cons x rest ih =>
    rw [List.foldlM_cons]
    refine unconcerned_bind (each c x (List.mem_cons_self ..)) fun c' _ => ?_
    exact ih fun c b mem => each c b (List.mem_cons_of_mem _ mem)

end

@[simp] lemma unconcerned_worded {r : Except Mismatch β} : Unconcerned (worded r) := by
  cases r with
  | ok b => exact unconcerned_ok
  | error m => exact unconcerned_bind unconcerned_requireWritable fun _ _ => unconcerned_pure

/-! ### References -/

@[simp] lemma Ref.unconcerned_check (r : Ref) : Unconcerned r.check := by
  unfold Ref.check
  split <;> simp

@[simp] lemma Ref.unconcerned_find {lookup : Int → Option β} (r : Ref) :
    Unconcerned (r.find lookup) := by
  refine unconcerned_bind r.unconcerned_check fun _ _ => ?_
  split <;> simp

end OperatorNet
