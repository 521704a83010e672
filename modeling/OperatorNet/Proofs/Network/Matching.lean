import OperatorNet.Proofs.Network.Edits
import OperatorNet.Proofs.Network.Recheck
import OperatorNet.Proofs.Search.Attempts

/-!
# Matching and building

A catalog tells whether an operator takes given types without building a network. It does so with
one set of symbols for each adapter, while a network gives an adapter new symbols each time it is
put in. So both agree on what is taken directly, and they agree altogether as long as no adapter
with symbols comes into question again after it was put in (`relate_iff_addNode`). Either of them
may fail where the other one does not because it puts a number into words that is too long.
-/

namespace OperatorNet

open PortType

variable {α : Type}

/-- Types that differ in their dimensions only. -/
def PortType.SameForm (t c : PortType) : Prop :=
  t.kind = c.kind ∧ t.metric = c.metric ∧ t.group = c.group ∧ t.shape.length = c.shape.length

instance (t c : PortType) : Decidable (t.SameForm c) :=
  inferInstanceAs (Decidable (_ ∧ _))

/-- An operator whose types have no symbols. -/
def Operator.Closed (op : Operator α) : Prop :=
  ∀ t ∈ op.types, t.Within fun _ => False

instance (op : Operator α) : Decidable op.Closed :=
  inferInstanceAs (Decidable (∀ t ∈ op.types, _))

/-- An operator leads from one type to another if dimensions do not count. -/
def Operator.Spans (op : Operator α) (actual expected : PortType) : Prop :=
  (∃ t ∈ op.inTypes, t.SameForm actual) ∧ expected.SameForm op.outType

instance (op : Operator α) (actual expected : PortType) : Decidable (op.Spans actual expected) :=
  inferInstanceAs (Decidable (_ ∧ _))

/-- While slots are fitted one after the other, no adapter with symbols comes into question for a
slot that needs one after it was taken for an earlier slot. -/
def spares (adapters : List (Operator α)) (taken : List String) (b : Bindings) :
    List (PortType × PortType) → Bool
  | [] => true
  | (slot, requested) :: rest =>
    match b.unify? slot requested with
    | some b' => spares adapters taken b' rest
    | none =>
      decide (∀ a ∈ adapters, a.name ∈ taken → a.Closed ∨ ¬ a.Spans requested slot) &&
        match bridge b requested slot 0 adapters with
        | .ok (.through name b') => spares adapters (name :: taken) b' rest
        | _ => true

/-- No adapter with symbols comes into question again when an operator is matched with types. -/
def Catalog.spares [Scalar α] (c : Catalog α) (op : Operator α) (types : List PortType) : Bool :=
  OperatorNet.spares (c.adapters.filter (·.name ≠ op.name)) [] .empty (op.slotsOn "q" types)

/-- Types that are unified have the same form. -/
lemma Bindings.sameForm_of_unify? {b b' : Bindings} {t c : PortType}
    (unified : b.unify? t c = some b') : t.SameForm c := by
  rw [unify?_eq] at unified
  split at unified
  next same => exact same
  next => cases unified

/-- A freshened type has the form of the type. -/
lemma PortType.sameForm_freshen {suffix : String} {t c : PortType} :
    (t.freshen suffix).SameForm c ↔ t.SameForm c := by
  unfold SameForm
  rw [show (t.freshen suffix).shape.length = t.shape.length from List.length_map ..]
  rfl

/-- A freshened type on the right has the form of the type. -/
lemma PortType.sameForm_freshen_right {suffix : String} {t c : PortType} :
    t.SameForm (c.freshen suffix) ↔ t.SameForm c := by
  unfold SameForm
  rw [show (c.freshen suffix).shape.length = c.shape.length from List.length_map ..]
  rfl

/-- An adapter that does not lead from one type to another is not put in between. -/
lemma Bindings.unifySlots?_of_not_spans {b : Bindings} {a : Operator α}
    {input requested slot : PortType} {suffix : String} (types : a.inTypes = [input])
    (apart : ¬ a.Spans requested slot) :
    b.unifySlots? [(input.freshen suffix, requested), (slot, a.outType.freshen suffix)] = none := by
  refine Option.eq_none_iff_forall_ne_some.2 fun b' unified => apart ?_
  simp only [unifySlots?_cons, Option.bind_eq_some_iff] at unified
  obtain ⟨b₁, first, b₂, second, -⟩ := unified
  refine ⟨⟨input, types ▸ List.mem_singleton_self input, ?_⟩, ?_⟩
  · exact sameForm_freshen.1 (sameForm_of_unify? first)
  · exact sameForm_freshen_right.1 (sameForm_of_unify? second)

/-- Related outcomes are related by what follows. -/
lemma rel_mono {β γ : Type} {R S : β → γ → Prop} {x : Option β} {y : Option γ}
    (related : Option.Rel R x y) (follows : ∀ b c, R b c → S b c) : Option.Rel S x y := by
  cases related with
  | none => exact .none
  | some related => exact .some (follows _ _ related)

/-- A type without symbols stays as it is when it is freshened. -/
lemma PortType.freshen_of_closed {t : PortType} (closed : t.Within fun _ => False)
    (suffix : String) :
    t.freshen suffix = t :=
  t.rename_eq_self fun d hd s hs => (closed d hd s hs).elim

/-- The slots that come after another one are fitted under the bindings of its fit. -/
lemma Catalog.words_adaptInputs_cons {adapters : List (Operator α)} {b : Bindings}
    {slot requested : PortType} {x : Except Fault Fit}
    (words : Words (compatible b requested slot adapters) x) (rest : List (PortType × PortType)) :
    Words (adaptInputs adapters b ((slot, requested) :: rest))
      (x >>= fun fit => fit.bindings?.elim (.ok none) (adaptInputs adapters · rest)) := by
  refine words.bind fun fit _ => ?_
  cases fit.bindings? <;> exact .refl _

namespace Matching

/-- The suffix of the adapter that is tried in a given place. -/
def tried (i : Nat) : String :=
  "a" ++ toString i

/-- The suffix of a trial is plain. -/
lemma plainSuffix_tried (i : Nat) : PlainSuffix (tried i) :=
  plainSuffix_marked (by unfold PlainSuffix; decide) i

/-- The suffix of the request is none of a trial. -/
lemma query_ne_tried (i : Nat) : "q" ≠ tried i := by
  intro same
  have heads := congrArg (fun s : String => s.toList.head?) same
  simp only [tried, String.toList_append] at heads
  cases heads

/-- The symbols of requested types, of the operator and of the adapters that were taken. -/
def Seen (all : List (Operator α)) (taken : List String) (s : String) : Prop :=
  '#' ∉ s.toList ∨ (∃ base, s = freshName "q" base) ∨
    ∃ i a base, all[i]? = some a ∧ a.name ∈ taken ∧ s = freshName (tried i) base

variable {all adapters : List (Operator α)} {taken : List String} {a : Operator α} {i k m : Nat}
  {ρ : String → String} {b₁ b₂ : Bindings}

/-- An adapter that is taken brings in its freshened symbols. -/
lemma seen_cons_iff (distinct : (all.map (·.name)).Nodup) (there : all[i]? = some a) {s : String} :
    Seen all (a.name :: taken) s ↔ Seen all taken s ∨ ∃ base, s = freshName (tried i) base := by
  constructor
  · rintro (plain | query | ⟨j, c, base, hc, name, rfl⟩)
    · exact .inl (.inl plain)
    · exact .inl (.inr (.inl query))
    · rcases List.mem_cons.1 name with same | before
      · have place : j = i := by
          have bound : j < (all.map (·.name)).length := by
            rw [List.length_map]
            exact (List.getElem?_eq_some_iff.1 hc).1
          refine (List.getElem?_inj bound distinct).1 ?_
          rw [List.getElem?_map, List.getElem?_map, hc, there, Option.map_some,
            Option.map_some, same]
        exact .inr ⟨base, by rw [place]⟩
      · exact .inl (.inr (.inr ⟨j, c, base, hc, before, rfl⟩))
  · rintro ((plain | query | ⟨j, c, base, hc, name, rfl⟩) | ⟨base, rfl⟩)
    · exact .inl plain
    · exact .inr (.inl query)
    · exact .inr (.inr ⟨j, c, base, hc, List.mem_cons_of_mem _ name, rfl⟩)
    · exact .inr (.inr ⟨i, a, base, there, List.mem_cons_self .., rfl⟩)

/-- An adapter that was not taken has symbols that were not seen. -/
lemma not_seen (there : all[i]? = some a)
    (new : a.name ∉ taken) (base : String) : ¬ Seen all taken (freshName (tried i) base) := by
  rintro (plain | ⟨base', same⟩ | ⟨j, c, base', hc, name, same⟩)
  · exact plain (numberSign_mem_freshName _ _)
  · exact query_ne_tried i (freshName_inj (plainSuffix_tried i) plainSuffix_query same).1.symm
  · have place : i = j :=
      marked_inj (freshName_inj (plainSuffix_tried i) (plainSuffix_tried j) same).1
    rw [← place, there] at hc
    cases hc
    exact new name

/-- The bindings of a match and those of a network that is built, which has given the number `m` to
the operator and goes on with the number `k`. -/
structure Mirrors (all : List (Operator α)) (taken : List String) (m k : Nat) (ρ : String → String)
    (b₁ b₂ : Bindings) : Prop where
  renamed : Bindings.Renamed (Seen all taken) ρ b₁ b₂
  injective : Set.InjOn ρ {s | Seen all taken s}
  plain : ∀ s, '#' ∉ s.toList → ρ s = s
  own : ∀ base, ρ (freshName "q" base) = freshName (toString m) base
  below : ∀ s, Seen all taken s → '#' ∈ s.toList → ∃ j < k, ∃ base,
    ρ s = freshName (toString j) base

/-- A match fits all slots and a network feeds them, or both refuse one of them. -/
inductive Agrees {β : Type} : Except Fault (Option Bindings) → Except Fault β → Prop where
  | fits {b fed} : Agrees (.ok (some b)) (.ok fed)
  | refuses {f e} : f.cause = .slot e → Agrees (.ok none) (.error f)

/-- What is done with the feeds in the end does not matter. -/
lemma Agrees.bind {β γ : Type} {x : Except Fault (Option Bindings)} {y : Except Fault β}
    (agrees : Agrees x y) (h : β → γ) : Agrees x (y >>= fun fed => pure (h fed)) := by
  cases agrees with
  | fits => exact .fits
  | refuses cause => exact .refuses cause

/-- Outcomes that agree do so when the second one is mapped. -/
lemma Agrees.map {β γ : Type} {x : Except Fault (Option Bindings)} {y : Except Fault β}
    (agrees : Agrees x y) (h : β → γ) : Agrees x (y.map h) := by
  cases agrees with
  | fits => exact .fits
  | refuses cause => exact .refuses cause

namespace Mirrors

variable (mirrors : Mirrors all taken m k ρ b₁ b₂)

include mirrors

/-- The slots of the operator have the symbols that it has in the network. -/
lemma rename_slot (t : PortType) : (t.freshen "q").rename ρ = t.freshen (toString m) := by
  rw [freshen_eq_rename, freshen_eq_rename, rename_rename]
  exact congrArg (t.rename ·) (funext mirrors.own)

/-- Requested types have the same symbols in the network. -/
lemma rename_requested {t : PortType} (plain : ∀ s, t.Mentions s → '#' ∉ s.toList) :
    t.rename ρ = t :=
  t.rename_eq_self (within_iff.2 fun s hs => mirrors.plain s (plain s hs))

omit mirrors in
/-- The slots of the operator have symbols that were seen. -/
lemma within_slot (t : PortType) : (t.freshen "q").Within (Seen all taken) :=
  freshen_within t fun base => .inr (.inl ⟨base, rfl⟩)

omit mirrors in
/-- The requested types have symbols that were seen. -/
lemma within_requested {t : PortType} (plain : ∀ s, t.Mentions s → '#' ∉ s.toList) :
    t.Within (Seen all taken) :=
  within_iff.2 fun s hs => .inl (plain s hs)

/-- What mirrors up to a number does so up to a larger one. -/
lemma mono {k' : Nat} (le : k ≤ k') : Mirrors all taken m k' ρ b₁ b₂ :=
  { mirrors with
    below := fun s seen mark =>
      have ⟨j, less, named⟩ := mirrors.below s seen mark
      ⟨j, Nat.lt_of_lt_of_le less le, named⟩ }

/-- A new adapter has new symbols on both sides. -/
lemma extend (distinct : (all.map (·.name)).Nodup) (there : all[i]? = some a)
    (new : a.name ∉ taken) :
    Mirrors all (a.name :: taken) m (k + 1) (Operator.newName (tried i) (toString k) ρ) b₁ b₂ := by
  have old : ∀ s, Seen all taken s → Operator.newName (tried i) (toString k) ρ s = ρ s :=
    fun s seen => Operator.newName_other fun base same => not_seen there new base (same ▸ seen)
  -- a renamed symbol is never one of the new names: its number is smaller, or it has no mark
  have apart : ∀ s base, Seen all taken s → ρ s ≠ freshName (toString k) base := by
    intro s base seen same
    by_cases mark : '#' ∈ s.toList
    · obtain ⟨j, less, base', named⟩ := mirrors.below s seen mark
      have numbers := (freshName_inj (plainSuffix_toString j) (plainSuffix_toString k)
        (named.symm.trans same)).1
      exact absurd (toString_inj numbers) (Nat.ne_of_lt less)
    · rw [mirrors.plain s mark] at same
      exact mark (same ▸ numberSign_mem_freshName _ _)
  constructor
  · refine ⟨mirrors.renamed.source, mirrors.renamed.target, mirrors.renamed.within.mono
      fun s seen => (seen_cons_iff distinct there).2 (.inl seen), fun σ => ?_⟩
    rw [mirrors.renamed.satisfies_iff]
    exact mirrors.renamed.within.satisfies_congr fun s seen => by rw [old s seen]
  · intro s hs s' hs' same
    rcases (seen_cons_iff distinct there).1 hs with seen | ⟨base, rfl⟩ <;>
      rcases (seen_cons_iff distinct there).1 hs' with seen' | ⟨base', rfl⟩
    · rw [old s seen, old s' seen'] at same
      exact mirrors.injective seen seen' same
    · rw [old s seen, Operator.newName_own] at same
      exact absurd same (apart s base' seen)
    · rw [old s' seen', Operator.newName_own] at same
      exact absurd same.symm (apart s' base seen')
    · rw [Operator.newName_own, Operator.newName_own] at same
      rw [freshName_injective _ same]
  · intro s unmarked
    rw [old s (.inl unmarked), mirrors.plain s unmarked]
  · intro base
    rw [old _ (.inr (.inl ⟨base, rfl⟩)), mirrors.own]
  · intro s hs mark
    rcases (seen_cons_iff distinct there).1 hs with seen | ⟨base, rfl⟩
    · obtain ⟨j, less, base, named⟩ := mirrors.below s seen mark
      exact ⟨j, Nat.lt_succ_of_lt less, base, by rw [old s seen, named]⟩
    · exact ⟨k, Nat.lt_succ_self k, base, Operator.newName_own ..⟩

/-- Mirrored bindings unify slots alike. -/
lemma unifySlots? (slots : List (PortType × PortType))
    (covers : ∀ p ∈ slots, p.1.Within (Seen all taken) ∧ p.2.Within (Seen all taken)) :
    Option.Rel (Mirrors all taken m k ρ) (b₁.unifySlots? slots)
      (b₂.unifySlots? (slots.map fun p => (p.1.rename ρ, p.2.rename ρ))) := by
  have unified := mirrors.renamed.unifySlots mirrors.injective covers
  exact rel_mono unified fun _ _ renamed => { mirrors with renamed }

/-- Mirrored bindings unify the output type with the requested one alike. -/
lemma unify? (t : PortType) {requested : PortType}
    (plain : ∀ s, requested.Mentions s → '#' ∉ s.toList) :
    Option.Rel (Mirrors all taken m k ρ) (b₁.unify? (t.freshen "q") requested)
      (b₂.unify? (t.freshen (toString m)) requested) := by
  have unified := mirrors.unifySlots? [(t.freshen "q", requested)]
    (List.forall_mem_singleton.2 ⟨within_slot t, within_requested plain⟩)
  simp only [List.map_cons, List.map_nil, mirrors.rename_slot, mirrors.rename_requested plain,
    Bindings.unifySlots?_cons, Bindings.unifySlots?_nil, Option.bind_fun_some] at unified
  exact unified

/-- The same adapter with one more number. -/
lemma again (before : a.name ∈ taken) : Mirrors all (a.name :: taken) m (k + 1) ρ b₁ b₂ := by
  have same : Seen all (a.name :: taken) = Seen all taken := by
    funext s
    have names : ∀ c : Operator α, c.name ∈ a.name :: taken ↔ c.name ∈ taken := fun c => by
      rw [List.mem_cons, or_iff_right_of_imp fun eq => eq ▸ before]
    simp only [Seen, names]
  have next := mirrors.mono (Nat.le_succ k)
  exact ⟨same ▸ next.renamed, same ▸ next.injective, next.plain, next.own, same ▸ next.below⟩

/-- An adapter is put in on both sides or on neither, unless it has symbols and comes into question
again. -/
lemma unifyAdapter (distinct : (all.map (·.name)).Nodup) (there : all[i]? = some a)
    {input : PortType} (types : a.inTypes = [input]) (t : PortType) {requested : PortType}
    (plain : ∀ s, requested.Mentions s → '#' ∉ s.toList)
    (spare : a.name ∈ taken → a.Closed ∨ ¬ a.Spans requested (t.freshen "q")) :
    Option.Rel (fun b₁' b₂' => ∃ ρ', Mirrors all (a.name :: taken) m (k + 1) ρ' b₁' b₂')
      (b₁.unifySlots?
        [(input.freshen (tried i), requested), (t.freshen "q", a.outType.freshen (tried i))])
      (b₂.unifySlots? [(input.freshen (toString k), requested),
        (t.freshen (toString m), a.outType.freshen (toString k))]) := by
  -- the step once the adapter's symbols are known to the renaming, whichever way they came to be
  have both : ∀ {ρ'}, Mirrors all (a.name :: taken) m (k + 1) ρ' b₁ b₂ →
      (∀ u ∈ a.types, (u.freshen (tried i)).Within (Seen all (a.name :: taken)) ∧
        (u.freshen (tried i)).rename ρ' = u.freshen (toString k)) →
      Option.Rel (fun b₁' b₂' => ∃ ρ', Mirrors all (a.name :: taken) m (k + 1) ρ' b₁' b₂')
        (b₁.unifySlots?
          [(input.freshen (tried i), requested), (t.freshen "q", a.outType.freshen (tried i))])
        (b₂.unifySlots? [(input.freshen (toString k), requested),
          (t.freshen (toString m), a.outType.freshen (toString k))]) := by
    intro ρ' mirrors' own
    obtain ⟨inner, in'⟩ := own input (by simp [Operator.types, types])
    obtain ⟨outer, out'⟩ := own a.outType (by simp [Operator.types])
    have unified := mirrors'.unifySlots?
      [(input.freshen (tried i), requested), (t.freshen "q", a.outType.freshen (tried i))]
      (by simpa using ⟨⟨inner, within_requested plain⟩, within_slot t, outer⟩)
    simp only [List.map_cons, List.map_nil, in', out', mirrors'.rename_slot,
      mirrors'.rename_requested plain] at unified
    exact rel_mono unified fun _ _ mirrors => ⟨ρ', mirrors⟩
  by_cases before : a.name ∈ taken
  -- an adapter used before: its symbols are taken, so it must have none or not fit at all
  · rcases spare before with closed | apart
    · refine both (mirrors.again before) fun u hu => ?_
      rw [freshen_of_closed (closed u hu), freshen_of_closed (closed u hu)]
      exact ⟨within_iff.2 fun s hs => (within_iff.1 (closed u hu) s hs).elim,
        u.rename_eq_self (within_iff.2 fun s hs => (within_iff.1 (closed u hu) s hs).elim)⟩
    · have apart' : ¬ a.Spans requested (t.freshen (toString m)) := fun spans =>
        apart ⟨spans.1, sameForm_freshen.2 (sameForm_freshen.1 spans.2)⟩
      rw [Bindings.unifySlots?_of_not_spans types apart,
        Bindings.unifySlots?_of_not_spans types apart']
      exact .none
  · refine both (mirrors.extend distinct there before) fun u _ => ⟨?_, ?_⟩
    · exact freshen_within u fun base => (seen_cons_iff distinct there).2 (.inr ⟨base, rfl⟩)
    · rw [freshen_eq_rename, freshen_eq_rename, rename_rename]
      exact congrArg (u.rename ·) (funext fun base => Operator.newName_own ..)

/-- Both sides put the same adapter in, or none. -/
lemma bridge (distinct : (all.map (·.name)).Nodup) (unary : ∀ a ∈ all, a.arity = 1) (t : PortType)
    {requested : PortType} (plain : ∀ s, requested.Mentions s → '#' ∉ s.toList)
    (spare : ∀ a ∈ all, a.name ∈ taken → a.Closed ∨ ¬ a.Spans requested (t.freshen "q"))
    (done : List (Operator α)) {rest : List (Operator α)} (split : all = done ++ rest) :
    (Words (OperatorNet.bridge b₁ requested (t.freshen "q") done.length rest) (.ok .none) ∧
      Network.findAdapter (toString k) b₂ requested (t.freshen (toString m)) rest = .ok none) ∨
    ∃ a type b₁' b₂' ρ',
      Words (OperatorNet.bridge b₁ requested (t.freshen "q") done.length rest)
        (.ok (.through a.name b₁')) ∧
      Network.findAdapter (toString k) b₂ requested (t.freshen (toString m)) rest =
        .ok (some (a, type, b₂')) ∧
      Mirrors all (a.name :: taken) m (k + 1) ρ' b₁' b₂' := by
  -- by induction on the adapters that are left; how many were tried gives the suffix of the next
  induction rest generalizing done with
  | nil => exact .inl ⟨.refl _, rfl⟩
  | cons a rest ih =>
    have mem : a ∈ all := split ▸ List.mem_append_right done (List.mem_cons_self ..)
    have there : all[done.length]? = some a := by
      rw [split, List.getElem?_append_right (Nat.le_refl _), Nat.sub_self]
      rfl
    obtain ⟨input, types⟩ := List.length_eq_one_iff.1 (unary a mem)
    have first : a.firstInput = pure input := by
      rw [Operator.firstInput, types]
      rfl
    have both := mirrors.unifyAdapter distinct there types t plain (spare a mem)
    rw [OperatorNet.bridge, Network.findAdapter, first, pure_bind, pure_bind]
    dsimp only
    revert both
    cases left : b₁.unifySlots? [(input.freshen (tried done.length), requested),
        (t.freshen "q", a.outType.freshen (tried done.length))] <;>
      cases b₂.unifySlots? [(input.freshen (toString k), requested),
        (t.freshen (toString m), a.outType.freshen (toString k))] <;> intro both
    -- one that does not fit leaves no trace but the words of its mismatch
    case none.none =>
      have length : (done ++ [a]).length = done.length + 1 := by simp
      have next := ih (done ++ [a]) (by rw [split]; simp)
      rw [length] at next
      refine next.imp (And.imp_left fun words => .worded_none left fun _ => words) ?_
      rintro ⟨a, type, b₁', b₂', ρ', words, found⟩
      exact ⟨a, type, b₁', b₂', ρ', .worded_none left fun _ => words, found⟩
    case some.some =>
      cases both with
      | some mirrored =>
        obtain ⟨ρ', mirrored⟩ := mirrored
        exact .inr ⟨a, _, _, _, ρ', .worded_some left (.refl _), rfl, mirrored⟩
    case none.some | some.none => cases both

/-- All slots are fitted by a match and fed in a network, or one of them is refused by both, unless
a number is too long to be written. -/
lemma adaptInputs (distinct : (all.map (·.name)).Nodup) (unary : ∀ a ∈ all, a.arity = 1)
    {g : Network α} {reads : List (PortType × Node α)} (slot : Nat)
    (there : ∀ p ∈ reads, g.find? p.2.id = some p.2)
    (plain : ∀ p ∈ reads, ∀ s, p.2.template.Mentions s → '#' ∉ s.toList)
    (sparing : spares all taken b₁ (reads.map fun p => (p.1.freshen "q", p.2.template)) = true) :
    Agrees (Catalog.adaptInputs all b₁ (reads.map fun p => (p.1.freshen "q", p.2.template)))
        (g.feed all slot b₂ k (reads.map fun p => (p.1.freshen (toString m), p.2.id))) ∨
      Catalog.adaptInputs all b₁ (reads.map fun p => (p.1.freshen "q", p.2.template)) =
        .error .unwritable := by
  -- by induction on the slots, with the bindings of both sides mirrored after each
  induction reads generalizing slot taken k ρ b₁ b₂ with
  | nil => exact .inl .fits
  | cons p rest ih =>
    obtain ⟨here, later⟩ := List.forall_mem_cons.1 there
    obtain ⟨clear, others⟩ := List.forall_mem_cons.1 plain
    have direct := mirrors.unify? p.1 clear
    rw [List.map_cons, spares] at sparing
    rw [List.map_cons, List.map_cons]
    revert direct sparing
    cases first : b₁.unify? (p.1.freshen "q") p.2.template <;>
      cases second : b₂.unify? (p.1.freshen (toString m)) p.2.template <;> intro sparing direct
    case some.some b₁' b₂' =>
      cases direct with
      | some mirrored =>
        rcases Catalog.words_adaptInputs_cons (x := .ok (.direct b₁'))
          (.worded_some first (.refl _))
          (rest.map fun p => (p.1.freshen "q", p.2.template)) with same | long
        · rw [same, Network.feed_direct here second]
          exact (ih mirrored (slot + 1) later others sparing).imp_left fun agrees => agrees.bind _
        · exact .inr long
    case none.none =>
      simp only [Bool.and_eq_true, decide_eq_true_eq] at sparing
      have bridged {x : Except Fault Fit}
          (words : Words (OperatorNet.bridge b₁ p.2.template (p.1.freshen "q") 0 all) x) :=
        Catalog.words_adaptInputs_cons (.worded_none first fun _ => words)
          (rest.map fun p => (p.1.freshen "q", p.2.template))
      rcases mirrors.bridge distinct unary p.1 clear sparing.1 [] rfl with
        ⟨none, nothing⟩ | ⟨a, type, b₁', b₂', ρ', through, found, mirrored⟩
      · obtain ⟨f, e, refused, cause⟩ := Network.exists_feed_refused here second nothing slot
          (rest.map fun p => (p.1.freshen (toString m), p.2.id))
        rw [refused]
        refine (bridged none).imp_left fun same => ?_
        rw [same]
        exact .refuses cause
      · rcases through with told | long
        · rcases bridged (.inl told) with same | long
          · rw [List.length_nil] at told
            rw [told] at sparing
            rw [same, Network.feed_adapted here second found]
            exact (ih mirrored (slot + 1) later others sparing.2).imp_left fun agrees =>
              agrees.bind _
          · exact .inr long
        · exact .inr (or_self_iff.1 (bridged (.inl long)))
    case some.none | none.some => cases direct

end Mirrors

/-- At first only the operator has symbols. -/
lemma Mirrors.start (all : List (Operator α)) {b : Bindings} (unknown : b.solved = []) (m : Nat) :
    Mirrors all [] m (m + 1) (Operator.newName "q" (toString m) fun s => s) .empty b := by
  have same : ∀ s, '#' ∉ s.toList → Operator.newName "q" (toString m) (fun s => s) s = s :=
    fun s plain =>
    Operator.newName_other fun base eq => plain (eq ▸ numberSign_mem_freshName _ _)
  -- at the start no adapter has been used, so a symbol is plain or one of the query
  have cases_of_seen : ∀ s, Seen all [] s → '#' ∉ s.toList ∨ ∃ base, s = freshName "q" base := by
    rintro s (plain | query | ⟨i, a, base, -, name, -⟩)
    · exact .inl plain
    · exact .inr query
    · exact absurd name List.not_mem_nil
  have satisfied : ∀ σ, b.Satisfies σ := fun σ p hp => by
    rw [unknown] at hp
    cases hp
  have wellFormed : b.WellFormed := ⟨unknown ▸ .nil, fun p hp => by rw [unknown] at hp; cases hp⟩
  refine ⟨⟨.empty, wellFormed, .empty _, fun σ => ?_⟩, ?_, same,
    fun base => Operator.newName_own .., fun s seen mark => ?_⟩
  · exact ⟨fun _ => Bindings.satisfies_empty _, fun _ => satisfied σ⟩
  · intro s hs s' hs' eq
    rcases cases_of_seen s hs with plain | ⟨base, rfl⟩ <;>
      rcases cases_of_seen s' hs' with plain' | ⟨base', rfl⟩
    · rwa [same s plain, same s' plain'] at eq
    · rw [same s plain, Operator.newName_own] at eq
      exact absurd (eq ▸ numberSign_mem_freshName _ _) plain
    · rw [same s' plain', Operator.newName_own] at eq
      exact absurd (eq ▸ numberSign_mem_freshName _ _) plain'
    · rw [Operator.newName_own, Operator.newName_own] at eq
      rw [freshName_injective _ eq]
  · rcases cases_of_seen s seen with plain | ⟨base, rfl⟩
    · exact absurd mark plain
    · exact ⟨m, Nat.lt_succ_self m, base, Operator.newName_own ..⟩

end Matching

namespace Network

/-- A network that has inputs only, with given names and types. -/
structure InputsOnly (g : Network α) (inputs : List (String × PortType)) : Prop where
  wired : g.Wired
  names : g.nodes.map (·.name) = inputs.map Prod.fst
  types : g.nodes.map (·.template) = inputs.map Prod.snd
  inputIds : g.inputIds = g.ids
  direct : g.adapterNodes = []
  unknown : g.bindings.solved = []
  suffixes : g.suffixes = 0

/-- The network to which given inputs are added. -/
def onInputs (id : String) (inputs : List (String × PortType)) : Except Fault (Network α) :=
  inputs.foldlM (fun g p => Prod.snd <$> (Edit.addInput p.1 p.2).on g) (empty id)

/-- An input with a new name is added when its type can be written. -/
lemma InputsOnly.exists_addInput {g : Network α} {inputs : List (String × PortType)}
    (only : g.InputsOnly inputs) {name : String} (new : name ∉ inputs.map Prod.fst)
    {type : PortType} (writable : type.Writable) :
    ∃ id g', (Edit.addInput name type).on g = .ok (id, g') ∧
      g'.InputsOnly (inputs ++ [(name, type)]) := by
  have free : ¬ ((g.nodes.filter fun n => n.id ∈ g.inputIds).any (·.name = name)) = true := by
    intro named
    obtain ⟨n, hn, same⟩ := List.any_eq_true.1 named
    rw [← only.names] at new
    exact new (of_decide_eq_true same ▸ List.mem_map_of_mem (List.mem_filter.1 hn).1)
  let b := g.bindings.meet (type.shape.flatMap Dim.symbols)
  let g' : Network α := { g.append (inputNode b g.nextId name type) with
    bindings := b, inputIds := g.inputIds ++ [g.nextId] }
  have added : g.addInput name type = .ok (g.nextId, g') := by
    rw [addInput, if_neg free]
    rfl
  have open_ : g.bindings.resolveType type = type := by
    have each : ∀ d ∈ type.shape, g.bindings.resolve d = d := fun d _ => by
      rw [Bindings.resolve, only.unknown]
      rfl
    rw [Bindings.resolveType, mapDims_congr each, mapDims, List.map_id']
  have run : (Edit.addInput name type).on g = .ok (g.nextId, g') :=
    (Edit.on_addInput added).elim And.right fun cannot => absurd (open_.symm ▸ writable) cannot.1
  refine ⟨g.nextId, g', run, ?_⟩
  have node : (inputNode b g.nextId name type : Node α).Wired :=
    ⟨rfl, fun _ mem => absurd mem List.not_mem_nil, rfl⟩
  have wired := only.wired.append node rfl
  have nodes : g'.nodes = g.nodes ++ [inputNode b g.nextId name type] := rfl
  refine ⟨⟨wired.ids, wired.next, wired.nodes⟩, ?_, ?_, ?_, ?_, only.unknown, only.suffixes⟩
  · rw [nodes, List.map_append, List.map_append, only.names]
    rfl
  · rw [nodes, List.map_append, List.map_append, only.types]
    rfl
  · rw [Network.ids, nodes, List.map_append, ← Network.ids, ← only.inputIds]
    rfl
  · rw [adapterNodes, nodes, List.filter_append, ← adapterNodes, only.direct]
    rfl

/-- Inputs with different names and types that can be written make a network. -/
lemma exists_onInputs (id : String) {inputs : List (String × PortType)}
    (names : (inputs.map Prod.fst).Nodup) (writable : ∀ p ∈ inputs, p.2.Writable) :
    ∃ g : Network α, onInputs id inputs = .ok g ∧ g.InputsOnly inputs := by
  induction inputs using List.reverseRecOn with
  | nil => exact ⟨empty id, rfl, .empty id, rfl, rfl, rfl, rfl, rfl, rfl⟩
  | append_singleton inputs p ih =>
    rw [List.map_append, List.map_singleton, List.nodup_append] at names
    obtain ⟨before, -, apart⟩ := names
    obtain ⟨earlier, last⟩ := List.forall_mem_append.1 writable
    obtain ⟨g, built, only⟩ := ih before earlier
    have new : p.1 ∉ inputs.map Prod.fst := fun mem =>
      apart p.1 mem p.1 (List.mem_singleton_self p.1) rfl
    obtain ⟨i, g', added, only'⟩ := only.exists_addInput new (last p (List.mem_singleton_self p))
    refine ⟨g', ?_, only'⟩
    rw [onInputs, List.foldlM_append, bind_eq_ok]
    exact ⟨g, built, by rw [List.foldlM_cons, added]; rfl⟩

/-- Slots are all fed directly exactly when they unify one after the other. -/
lemma feed_directly_iff {g : Network α} (wired : g.Wired) (adapters : List (Operator α))
    (b : Bindings) (slot k : Nat) {reads : List (PortType × Node α)}
    (there : ∀ p ∈ reads, p.2 ∈ g.nodes) :
    (∃ fed, g.feed adapters slot b k (reads.map fun p => (p.1, p.2.id)) = .ok fed ∧
        ∀ feed ∈ fed.1, ∃ source, feed = .direct source) ↔
      (b.unifySlots? (reads.map fun p => (p.1, p.2.template))).isSome := by
  constructor
  · rintro ⟨⟨feeds, b', k'⟩, fed, direct⟩
    have steps := feeds_of_feed fed
    have unified := steps.unifySlots?_of_direct wired direct
    rw [steps.eq_map_direct direct, List.map_map, List.map_map, List.map_map,
      List.zip_map'] at unified
    have types : (reads.map fun p => (p.1, p.2.template)) =
        reads.map fun p => (p.1, g.feedType (.direct p.2.id)) :=
      List.map_congr_left fun p hp => by rw [feedType, wired.templateAt_id (there p hp)]
    rw [types]
    exact Option.isSome_iff_exists.2 ⟨b', unified⟩
  · intro unifies
    obtain ⟨b', unified⟩ := Option.isSome_iff_exists.1 unifies
    refine ⟨_, feed_of_unifySlots (fun p hp => wired.find?_id (there p hp)) unified,
      fun feed hf => ?_⟩
    obtain ⟨source, -, rfl⟩ := List.mem_map.1 hf
    exact ⟨source, rfl⟩

/-- Adapters that fail may be left out. -/
lemma findAdapter_filter {suffix : String} {b : Bindings} {actual expected : PortType}
    {adapters : List (Operator α)} {p : Operator α → Bool}
    (fail : ∀ a ∈ adapters, p a = false → ∃ input, a.inTypes = [input] ∧
      b.unifySlots? [(input.freshen suffix, actual), (expected, a.outType.freshen suffix)] = none) :
    findAdapter suffix b actual expected (adapters.filter p) =
      findAdapter suffix b actual expected adapters := by
  induction adapters with
  | nil => rfl
  | cons a rest ih =>
    obtain ⟨here, later⟩ := List.forall_mem_cons.1 fail
    cases kept : p a with
    | true =>
      rw [List.filter_cons_of_pos kept, findAdapter, findAdapter, ih later]
    | false =>
      obtain ⟨input, types, fails⟩ := here kept
      rw [List.filter_cons_of_neg (by rw [kept]; exact Bool.false_ne_true), findAdapter, ih later,
        Operator.firstInput, types]
      simp only [bind, Except.bind, fails]

/-- The slots of an operator with the inputs of a network. -/
def inputReads (g : Network α) (op : Operator α) : List (PortType × Node α) :=
  op.inTypes.zip g.nodes

namespace InputsOnly

variable {g : Network α} {op : Operator α} {inputs : List (String × PortType)}
    (only : g.InputsOnly inputs)

include only

/-- Inputs are found by their ids, and their types are those that were requested. -/
lemma inputReads (op : Operator α) (plain : ∀ p ∈ inputs, ∀ s, p.2.Mentions s → '#' ∉ s.toList) :
    (∀ p ∈ g.inputReads op, g.find? p.2.id = some p.2) ∧
      ∀ p ∈ g.inputReads op, ∀ s, p.2.template.Mentions s → '#' ∉ s.toList := by
  refine ⟨fun p hp => only.wired.find?_id (List.of_mem_zip hp).2, fun p hp => ?_⟩
  have mem : p.2.template ∈ g.nodes.map (·.template) := List.mem_map_of_mem (List.of_mem_zip hp).2
  rw [only.types] at mem
  obtain ⟨input, hi, same⟩ := List.mem_map.1 mem
  exact same ▸ plain input hi

/-- The slots of a match are those on the inputs. -/
lemma slotsOn_eq : op.slotsOn "q" (inputs.map Prod.snd) =
    (g.inputReads op).map fun p => (p.1.freshen "q", p.2.template) := by
  rw [Operator.slotsOn, ← only.types, Network.inputReads, List.zip_map]
  rfl

/-- The open slots of a network on inputs are those on the inputs. -/
lemma openSlots_eq : g.openSlots op g.inputIds =
    (g.inputReads op).map fun p => (p.1.freshen (toString 0), p.2.id) := by
  rw [openSlots, only.suffixes, only.inputIds, Network.ids, Network.inputReads, List.zip_map]
  rfl

/-- The slots unify in a request exactly when they do in the network. -/
lemma isSome_unifySlots?_iff
    (clear : ∀ p ∈ g.inputReads op, ∀ s, p.2.template.Mentions s → '#' ∉ s.toList) :
    (Bindings.empty.unifySlots?
      ((g.inputReads op).map fun p => (p.1.freshen "q", p.2.template))).isSome ↔
    (g.bindings.unifySlots?
      ((g.inputReads op).map fun p => (p.1.freshen (toString 0), p.2.template))).isSome := by
  have mirrors := Matching.Mirrors.start ([] : List (Operator α)) only.unknown 0
  have both := mirrors.unifySlots?
    ((g.inputReads op).map fun p => (p.1.freshen "q", p.2.template))
    (List.forall_mem_map.2 fun p hp =>
      ⟨Matching.Mirrors.within_slot p.1, Matching.Mirrors.within_requested (clear p hp)⟩)
  rw [List.map_map] at both
  have renamed : ∀ p ∈ g.inputReads op, ((p.1.freshen "q").rename
      (Operator.newName "q" (toString 0) fun s => s),
        p.2.template.rename (Operator.newName "q" (toString 0) fun s => s)) =
      (p.1.freshen (toString 0), p.2.template) := fun p hp => by
    rw [mirrors.rename_slot, mirrors.rename_requested (clear p hp)]
  rw [Bindings.isSome_iff_of_rel both, ← List.map_congr_left renamed]
  rfl

/-- The inputs are all fed directly exactly when they fit as they were requested. -/
lemma feed_directly_iff (adapters : List (Operator α))
    (clear : ∀ p ∈ g.inputReads op, ∀ s, p.2.template.Mentions s → '#' ∉ s.toList) :
    (∃ fed, g.feed adapters 0 g.bindings 1
        ((g.inputReads op).map fun p => (p.1.freshen (toString 0), p.2.id)) = .ok fed ∧
        ∀ feed ∈ fed.1, ∃ source, feed = .direct source) ↔
      (Bindings.empty.unifySlots?
        ((g.inputReads op).map fun p => (p.1.freshen "q", p.2.template))).isSome := by
  have there : ∀ p ∈ (g.inputReads op).map (fun p => (p.1.freshen (toString 0), p.2)),
      p.2 ∈ g.nodes :=
    List.forall_mem_map.2 fun p hp => (List.of_mem_zip hp).2
  have direct := Network.feed_directly_iff only.wired adapters g.bindings 0 1 there
  rw [List.map_map, List.map_map] at direct
  rw [only.isSome_unifySlots?_iff clear]
  exact direct

end InputsOnly

section Catalog

variable [Scalar α] {c : Catalog α} {op : Operator α} {g : Network α}

/-- An operator is not put in front of itself where it does not fit. -/
lemma InputsOnly.feed_eq {inputs : List (String × PortType)} (only : g.InputsOnly inputs)
    (reachable : c.Reachable) (registered : op ∈ c.registered)
    (plain : ∀ p ∈ inputs, ∀ s, p.2.Mentions s → '#' ∉ s.toList)
    (unfit : Bindings.empty.unifySlots?
      ((g.inputReads op).map fun p => (p.1.freshen "q", p.2.template)) = none) :
    g.feed c.adapters 0 g.bindings 1
        ((g.inputReads op).map fun p => (p.1.freshen (toString 0), p.2.id)) =
      g.feed (c.adapters.filter (·.name ≠ op.name)) 0 g.bindings 1
        ((g.inputReads op).map fun p => (p.1.freshen (toString 0), p.2.id)) := by
  have same : ∀ a ∈ c.adapters, a.name = op.name → a = op := fun a ha name =>
    List.inj_on_of_nodup_map c.distinct (Catalog.mem_registered_of_mem_adapters ha).1
      registered name
  by_cases adapter : op.adapter
  · obtain ⟨input, types⟩ :=
      List.length_eq_one_iff.1 (reachable.unaryAdapters op registered adapter)
    obtain ⟨there, clear⟩ := only.inputReads op plain
    revert there clear unfit
    rw [Network.inputReads, types]
    cases g.nodes with
    | nil => exact fun _ _ _ => rfl
    | cons n rest =>
      intro unfit there clear
      have found := there (input, n) (List.mem_cons_self ..)
      have own := clear (input, n) (List.mem_cons_self ..)
      rw [List.zip_cons_cons, List.zip_nil_left, List.map_singleton, Bindings.unifySlots?_cons]
        at unfit
      have direct : Bindings.empty.unify? (input.freshen "q") n.template = none := by
        cases first : Bindings.empty.unify? (input.freshen "q") n.template with
        | none => rfl
        | some b => rw [first] at unfit; cases unfit
      -- whatever number the operator gets, it does not take the type
      have fails : ∀ m : Nat, g.bindings.unify? (input.freshen (toString m)) n.template = none := by
        intro m
        have both := (Matching.Mirrors.start (c.adapters) only.unknown m).unify? input own
        rw [direct] at both
        exact Option.not_isSome_iff_eq_none.1 fun some =>
          nomatch (Bindings.isSome_iff_of_rel both).2 some
      obtain ⟨reason, refused⟩ := Bindings.unify?_eq_none_iff.1 (fails 0)
      rw [List.zip_cons_cons, List.zip_nil_left, List.map_singleton, feed, feed,
        node_eq_ok.2 found]
      simp only [bind, Except.bind, refused]
      rw [findAdapter_filter fun a ha left => ?_]
      · rfl
      · have eq := same a ha (by simpa using left)
        subst eq
        refine ⟨input, types, ?_⟩
        rw [Bindings.unifySlots?_cons, fails 1]
        rfl
  · rw [List.filter_eq_self.2 fun a ha => ?_]
    rw [decide_eq_true_eq]
    rintro name
    exact adapter (same a ha name ▸ (Catalog.mem_registered_of_mem_adapters ha).2)

/-- An operator that does not take given types answers a request of them as its slots can be
adapted. -/
lemma words_relate {types : List PortType} (arity : types.length = op.arity)
    (unfit : Bindings.empty.unifySlots? (op.slotsOn "q" types) = none) :
    Words (c.relate op types none)
      ((Catalog.adaptInputs (c.adapters.filter (·.name ≠ op.name)) .empty
      (op.slotsOn "q" types)).map fun b => if b.isSome then .adaptable else .incompatible) := by
  have slots : Catalog.requestSlots op types none = op.slotsOn "q" types := List.append_nil _
  rw [Catalog.relate, slots, if_neg (not_not.2 arity)]
  refine .worded_none unfit fun _ => .inl ?_
  change Catalog.adaptInputs _ _ (op.slotsOn "q" types) >>= _ = _
  cases Catalog.adaptInputs (c.adapters.filter (·.name ≠ op.name)) .empty
    (op.slotsOn "q" types) with
  | error f => rfl
  | ok b => cases b <;> rfl

namespace InputsOnly

variable {inputs : List (String × PortType)} (only : g.InputsOnly inputs)

include only

/-- A node is added on the inputs by feeding its open slots. -/
lemma addNode_eq (c : Catalog α) (arity : inputs.length = op.arity) (params : Params α) :
    g.addNode c op g.inputIds params =
      (g.feed c.adapters 0 g.bindings 1
        ((g.inputReads op).map fun p => (p.1.freshen (toString 0), p.2.id))).map fun fed =>
          ((g.place fed.1).2.nextId, (g.withUse op fed.1 fed.2.1 fed.2.2 params).refresh) := by
  have length : g.inputIds.length = op.arity := by
    rw [only.inputIds, Network.ids, List.length_map, ← List.length_map (·.template), only.types,
      List.length_map, arity]
  have located : ∀ i ∈ g.inputIds, i ∈ g.ids := fun i hi => only.inputIds ▸ hi
  have added := Network.addNode_eq (c := c) located length params
  rwa [only.suffixes, only.openSlots_eq] at added

/-- A use is added without an adapter exactly when its slots unify as they were requested. -/
lemma addNode_directly_iff (arity : inputs.length = op.arity)
    (plain : ∀ p ∈ inputs, ∀ s, p.2.Mentions s → '#' ∉ s.toList) (params : Params α) :
    (∃ i g', g.addNode c op g.inputIds params = .ok (i, g') ∧ g'.adapterNodes = []) ↔
      (Bindings.empty.unifySlots? (op.slotsOn "q" (inputs.map Prod.snd))).isSome := by
  rw [only.slotsOn_eq, ← only.feed_directly_iff c.adapters (only.inputReads op plain).2,
    only.addNode_eq c arity]
  constructor
  · rintro ⟨i, g', added, nothing⟩
    obtain ⟨fed, there, same⟩ := map_eq_ok.1 added
    cases same
    exact ⟨fed, there, (adapterNodes_withUse.1 nothing).2⟩
  · rintro ⟨fed, there, direct⟩
    exact ⟨_, _, map_eq_ok.2 ⟨fed, there, rfl⟩, adapterNodes_withUse.2 ⟨only.direct, direct⟩⟩

/-- Where the slots do not unify as they were requested, they are adapted in a request exactly when
a use is added, as long as no adapter with symbols comes into question again. -/
lemma adaptInputs_agrees (reachable : c.Reachable) (registered : op ∈ c.registered)
    (arity : inputs.length = op.arity) (plain : ∀ p ∈ inputs, ∀ s, p.2.Mentions s → '#' ∉ s.toList)
    (params : Params α) (sparing : c.spares op (inputs.map Prod.snd) = true)
    (unfit : Bindings.empty.unifySlots? (op.slotsOn "q" (inputs.map Prod.snd)) = none) :
    Matching.Agrees (Catalog.adaptInputs (c.adapters.filter (·.name ≠ op.name)) .empty
        (op.slotsOn "q" (inputs.map Prod.snd))) (g.addNode c op g.inputIds params) ∨
      Catalog.adaptInputs (c.adapters.filter (·.name ≠ op.name)) .empty
        (op.slotsOn "q" (inputs.map Prod.snd)) = .error .unwritable := by
  obtain ⟨there, clear⟩ := only.inputReads op plain
  have distinct : ((c.adapters.filter (·.name ≠ op.name)).map (·.name)).Nodup :=
    c.nodup_operators.sublist ((List.filter_sublist.trans List.filter_sublist).map _)
  rw [Catalog.spares] at sparing
  rw [only.slotsOn_eq] at sparing unfit ⊢
  have fed := (Matching.Mirrors.start (c.adapters.filter (·.name ≠ op.name)) only.unknown
    0).adaptInputs distinct (fun a ha => reachable.adapter_arity (List.mem_filter.1 ha).1) 0 there
    clear sparing
  rw [Nat.zero_add, ← only.feed_eq reachable registered plain unfit] at fed
  rw [only.addNode_eq c arity]
  exact fed.imp_left fun agrees => agrees.map _

/-- A catalog and a network with inputs of the given types agree, whatever numbers there are in
it. -/
lemma relate_iff (reachable : c.Reachable) (registered : op ∈ c.registered)
    (arity : inputs.length = op.arity)
    (plain : ∀ p ∈ inputs, p.2.Within fun s => '#' ∉ s.toList) (params : Params α) :
    (c.relate op (inputs.map Prod.snd) none = .ok .equal ↔
        ∃ i g', g.addNode c op g.inputIds params = .ok (i, g') ∧ g'.adapterNodes = []) ∧
      (c.relate op (inputs.map Prod.snd) none ≠ .error .unwritable →
        c.spares op (inputs.map Prod.snd) = true →
        (c.relate op (inputs.map Prod.snd) none = .ok .adaptable ↔
          ∃ i g', g.addNode c op g.inputIds params = .ok (i, g') ∧ g'.adapterNodes ≠ []) ∧
        (c.relate op (inputs.map Prod.snd) none = .ok .incompatible ↔
          ∃ f e, g.addNode c op g.inputIds params = .error f ∧ f.cause = .slot e)) := by
  have plain : ∀ p ∈ inputs, ∀ s, p.2.Mentions s → '#' ∉ s.toList := fun p hp =>
    within_iff.1 (plain p hp)
  have lengths : (inputs.map Prod.snd).length = op.arity := (List.length_map ..).trans arity
  -- where every slot fits the inputs as they are, both sides are decided by one unification
  have directly := only.addNode_directly_iff (c := c) arity plain params
  have equal : c.relate op (inputs.map Prod.snd) none = .ok .equal ↔
      (Bindings.empty.unifySlots? (op.slotsOn "q" (inputs.map Prod.snd))).isSome := by
    rw [Catalog.relate_eq_equal, and_iff_right lengths, Operator.valueType?, Option.isSome_map]
  refine ⟨equal.trans directly.symm, fun short sparing => ?_⟩
  cases fitted : Bindings.empty.unifySlots? (op.slotsOn "q" (inputs.map Prod.snd)) with
  | some b =>
    rw [fitted] at directly equal
    obtain ⟨i, g', added, none⟩ := directly.2 rfl
    rw [equal.2 rfl, added]
    simp [none]
  | none =>
    rw [fitted] at directly
    have needs : ∀ i g', g.addNode c op g.inputIds params = .ok (i, g') → g'.adapterNodes ≠ [] :=
      fun i g' added nothing => absurd (directly.1 ⟨i, g', added, nothing⟩) Bool.false_ne_true
    -- otherwise adapters are looked for, under one suffix here and under one for each slot there
    have agrees := only.adaptInputs_agrees reachable registered arity plain params sparing fitted
    have adapted := (words_relate (c := c) lengths fitted).resolve_right short
    rw [adapted] at short ⊢
    revert short needs agrees
    generalize Catalog.adaptInputs _ _ _ = x
    generalize g.addNode c op g.inputIds params = y
    intro short needs agrees
    rcases agrees with agrees | long
    · cases agrees with
      | @fits b added =>
        obtain ⟨i, g'⟩ := added
        simp [Except.map, needs i g' rfl]
      | refuses cause => simp [Except.map, cause]
    · exact absurd (long ▸ rfl) short

end InputsOnly

/-- A catalog says that an operator takes given types directly exactly when a network with inputs of
these types takes a use of the operator without an adapter, as long as this does not fail because of
a number that is too long. If the catalog does not fail for that reason either, and no adapter with
symbols comes into question again after it was put in, it says that the types can be adapted exactly
when the use is taken with adapters, and that they are incompatible exactly when a slot refuses what
is wired into it. -/
theorem relate_iff_addNode (reachable : c.Reachable) (registered : op ∈ c.registered) (id : String)
    {inputs : List (String × PortType)} (names : (inputs.map Prod.fst).Nodup)
    (writable : ∀ p ∈ inputs, p.2.Writable) (arity : inputs.length = op.arity)
    (plain : ∀ p ∈ inputs, p.2.Within fun s => '#' ∉ s.toList) (params : Params α) :
    ∃ g : Network α, onInputs id inputs = .ok g ∧
      let added := (Edit.addNode c op (g.inputIds.map .int) params).on g
      (added ≠ .error .unwritable →
        (c.relate op (inputs.map Prod.snd) none = .ok .equal ↔
          ∃ i g', added = .ok (i, g') ∧ g'.adapterNodes = []) ∧
        (c.relate op (inputs.map Prod.snd) none ≠ .error .unwritable →
          c.spares op (inputs.map Prod.snd) = true →
          (c.relate op (inputs.map Prod.snd) none = .ok .adaptable ↔
            ∃ i g', added = .ok (i, g') ∧ g'.adapterNodes ≠ []) ∧
          (c.relate op (inputs.map Prod.snd) none = .ok .incompatible ↔
            ∃ f e, added = .error f ∧ f.cause = .slot e))) := by
  obtain ⟨g, built, only⟩ := exists_onInputs (α := α) id names writable
  refine ⟨g, built, fun short => ?_⟩
  have same := (Edit.words_addNode only.wired.numbered c op g.inputIds params).resolve_right short
  rw [same]
  exact only.relate_iff reachable registered arity plain params

end Catalog

namespace Sample

/-- An adapter from paths to features. -/
def cast : Operator Float :=
  typed "Cast" [typeOf "path" [.symbol "T"]] (typeOf "feature" [.symbol "T"]) true

/-- An adapter from spectra to features. -/
def flatten : Operator Float :=
  typed "Flatten" [typeOf "spectrum" [.symbol "T"]] (typeOf "feature" [.symbol "T"]) true

/-- An operator that puts two features side by side. -/
def join : Operator Float :=
  typed "Join" [typeOf "feature" [.symbol "A"], typeOf "feature" [.symbol "B"]]
    (typeOf "feature" [.symbol "A" + .symbol "B"]) false

/-- The catalog with these operators. -/
def joining : Catalog Float :=
  bare.extend [cast, flatten, join] (by decide)

/-- The three operators can be registered. -/
lemma reachable_joining : joining.Reachable := by
  refine .extend (.ofKinds _ _) rfl ?_ _
  exact List.forall_mem_cons.2 ⟨rfl, List.forall_mem_cons.2 ⟨rfl, List.forall_mem_singleton.2 rfl⟩⟩

/-- A path and a value of another kind. -/
def pair (kind : String) : List (String × PortType) :=
  [("x", typeOf "path" [.ofNat 3]), ("y", typeOf kind [.ofNat 4])]

end Sample

open Sample in
/-- Two slots that need different adapters. -/
theorem relate_joining :
    joining.Reachable ∧ join ∈ joining.registered ∧ ((pair "spectrum").map Prod.fst).Nodup ∧
      (∀ p ∈ pair "spectrum", p.2.Writable) ∧ (pair "spectrum").length = join.arity ∧
      (∀ p ∈ pair "spectrum", p.2.Within fun s => '#' ∉ s.toList) ∧
      joining.spares join ((pair "spectrum").map Prod.snd) = true ∧
      ∃ g : Network Float, onInputs "g" (pair "spectrum") = .ok g ∧
        (Edit.addNode joining join (g.inputIds.map .int) .empty).on g ≠ .error .unwritable ∧
        ∃ i g', (Edit.addNode joining join (g.inputIds.map .int) .empty).on g = .ok (i, g') ∧
          g'.adapterNodes ≠ [] := by
  have registered : join ∈ joining.registered := by simp [joining, Catalog.extend]
  have names : ((pair "spectrum").map Prod.fst).Nodup := by decide
  have writable : ∀ p ∈ pair "spectrum", p.2.Writable := by decide +kernel
  have plain : ∀ p ∈ pair "spectrum", p.2.Within fun s => '#' ∉ s.toList := by decide +kernel
  have spares : joining.spares join ((pair "spectrum").map Prod.snd) = true := by decide +kernel
  have adaptable : joining.relate join ((pair "spectrum").map Prod.snd) none = .ok .adaptable :=
    toOption_eq_some.1 (by decide +kernel)
  -- the call is evaluated to have an answer; which one it is, the theorem says
  have fed : ((onInputs "g" (pair "spectrum") : Except Fault (Network Float)) >>= fun g =>
      (Edit.addNode joining join (g.inputIds.map .int) .empty).on g).isOk := by decide +kernel
  obtain ⟨g, built, agree⟩ :=
    relate_iff_addNode reachable_joining registered "g" names writable rfl plain .empty
  have short : (Edit.addNode joining join (g.inputIds.map .int) .empty).on g ≠
      .error .unwritable := by
    intro long
    rw [built] at fed
    change ((Edit.addNode joining join (g.inputIds.map .int) .empty).on g).isOk at fed
    rw [long] at fed
    cases fed
  have told : joining.relate join ((pair "spectrum").map Prod.snd) none ≠ .error .unwritable := by
    intro long
    rw [adaptable] at long
    cases long
  exact ⟨reachable_joining, registered, names, writable, rfl, plain, spares, g, built, short,
    ((agree short).2 told spares).1.1 adaptable⟩

open Sample in
/-- Two slots that need the same adapter are fed in a network, but a catalog finds them
incompatible. -/
theorem relate_joining_ne_adaptable :
    ¬ ∀ c : Catalog Float, c.Reachable → ∀ op ∈ c.registered,
      ∀ id (inputs : List (String × PortType)),
      (inputs.map Prod.fst).Nodup → inputs.length = op.arity →
      (∀ p ∈ inputs, p.2.Within fun s => '#' ∉ s.toList) → ∀ params (g : Network Float),
      onInputs id inputs = .ok g →
        let added := (Edit.addNode c op (g.inputIds.map .int) params).on g
        (c.relate op (inputs.map Prod.snd) none = .ok .equal ↔
          ∃ i g', added = .ok (i, g') ∧ g'.adapterNodes = []) ∧
        (c.relate op (inputs.map Prod.snd) none = .ok .adaptable ↔
          ∃ i g', added = .ok (i, g') ∧ g'.adapterNodes ≠ []) ∧
        (c.relate op (inputs.map Prod.snd) none = .ok .incompatible ↔
          ∃ f e, added = .error f ∧ f.cause = .slot e) := by
  intro always
  have names : ((pair "path").map Prod.fst).Nodup := by decide
  have writable : ∀ p ∈ pair "path", p.2.Writable := by decide +kernel
  have plain : ∀ p ∈ pair "path", p.2.Within fun s => '#' ∉ s.toList := by decide +kernel
  obtain ⟨g, built, -⟩ := exists_onInputs (α := Float) "g" names writable
  have incompatible : joining.relate join ((pair "path").map Prod.snd) none = .ok .incompatible :=
    toOption_eq_some.1 (by decide +kernel)
  obtain ⟨f, e, failed, -⟩ :=
    (always joining reachable_joining join (by simp [joining, Catalog.extend]) "g"
    (pair "path") names rfl plain .empty g built).2.2.1 incompatible
  have fed : ((onInputs "g" (pair "path") : Except Fault (Network Float)) >>= fun g =>
      (Edit.addNode joining join (g.inputIds.map .int) .empty).on g).isOk := by decide +kernel
  rw [built] at fed
  change ((Edit.addNode joining join (g.inputIds.map .int) .empty).on g).isOk at fed
  rw [failed] at fed
  cases fed

end Network

end OperatorNet
