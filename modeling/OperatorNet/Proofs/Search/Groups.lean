import OperatorNet.Proofs.Search.Values

/-!
# Groups of candidates

The attempts that succeed are grouped by what is read and by the key of the type of the value
(`grouped_groupAttempts`): no two groups have both in common, a group has the operators that belong
to it in the order in which they were tried, and its type is that of one of them.
-/

namespace OperatorNet

variable {α : Type}

/-- An operator that takes what it is tried on, with the type of its value. -/
structure Entrant (α : Type) where
  operator : Operator α
  inputs : List (Option Int)
  type : PortType

/-- The attempts that succeed, when suffixes are counted from a number. -/
def entrants (suffix : Nat) : List (Operator α × List Source) → List (Entrant α)
  | [] => []
  | (op, row) :: rest =>
    match op.valueType? ("s" ++ toString suffix) (row.map (·.type)) with
    | some t => ⟨op, row.map (·.id), t⟩ :: entrants (suffix + 1) rest
    | none => entrants (suffix + 1) rest

/-- An operator competes for the position of a group. -/
def Entrant.Joins (e : Entrant α) (g : CandidateGroup α) : Prop :=
  e.inputs = g.inputs ∧ e.type.signatureKey = g.key

instance (e : Entrant α) (g : CandidateGroup α) : Decidable (e.Joins g) :=
  inferInstanceAs (Decidable (_ ∧ _))

/-- The group that an operator opens. -/
def Entrant.group (e : Entrant α) : CandidateGroup α :=
  { inputs := e.inputs, key := e.type.signatureKey, outType := e.type, operators := [e.operator] }

/-- The attempts that succeed are put into groups one after the other, unless a number is too
long. -/
lemma words_groupAttempts (suffix : Nat) (groups : List (CandidateGroup α))
    (attempts : List (Operator α × List Source)) :
    Words (groupAttempts suffix groups attempts) (.ok ((entrants suffix attempts).foldl
      (fun groups e => addToGroup e.operator e.inputs e.type groups) groups)) := by
  induction attempts generalizing suffix groups with
  | nil => exact .refl _
  | cons a rest ih =>
    obtain ⟨op, row⟩ := a
    rw [groupAttempts, entrants]
    refine (op.words_instantiate ("s" ++ toString suffix) (row.map (·.type))).bind_ok ?_
    cases op.valueType? ("s" ++ toString suffix) (row.map (·.type)) with
    | none => exact ih (suffix + 1) groups
    | some t => exact ih (suffix + 1) _

/-- An attempt that succeeds is one of the attempts, with the suffix of its place. -/
lemma mem_entrants_iff {suffix : Nat} {attempts : List (Operator α × List Source)} {e : Entrant α} :
    e ∈ entrants suffix attempts ↔ ∃ i op row, attempts[i]? = some (op, row) ∧
      ∃ t, op.valueType? ("s" ++ toString (suffix + i)) (row.map (·.type)) = some t ∧
        e = ⟨op, row.map (·.id), t⟩ := by
  induction attempts generalizing suffix with
  | nil => simp [entrants]
  | cons a rest ih =>
    obtain ⟨op, row⟩ := a
    have later : (∃ i op' row', ((op, row) :: rest)[i + 1]? = some (op', row') ∧
        ∃ t, op'.valueType? ("s" ++ toString (suffix + (i + 1))) (row'.map (·.type)) = some t ∧
          e = ⟨op', row'.map (·.id), t⟩) ↔ e ∈ entrants (suffix + 1) rest := by
      simp only [ih, List.getElem?_cons_succ, Nat.add_assoc, Nat.add_comm 1]
    have split : ∀ P : Nat → Prop, (∃ i, P i) ↔ P 0 ∨ ∃ i, P (i + 1) := fun P =>
      ⟨fun ⟨i, h⟩ => by cases i with
        | zero => exact .inl h
        | succ i => exact .inr ⟨i, h⟩, fun h => h.elim (fun h => ⟨0, h⟩) fun ⟨i, h⟩ => ⟨i + 1, h⟩⟩
    rw [split, later, entrants]
    cases value : op.valueType? ("s" ++ toString suffix) (row.map (·.type)) with
    | none =>
      refine ⟨.inr, ?_⟩
      rintro (⟨op', row', first, t, found, rfl⟩ | h)
      · cases first
        rw [Nat.add_zero, value] at found
        cases found
      · exact h
    | some t =>
      rw [List.mem_cons]
      refine or_congr ⟨?_, ?_⟩ Iff.rfl
      · rintro rfl
        exact ⟨op, row, rfl, t, value, rfl⟩
      · rintro ⟨op', row', first, t', found, rfl⟩
        cases first
        rw [Nat.add_zero, value] at found
        cases found
        rfl

/-- The attempts that succeed come in the order of all. -/
lemma sublist_entrants (suffix : Nat) (attempts : List (Operator α × List Source)) :
    ((entrants suffix attempts).map fun e => (e.operator, e.inputs)).Sublist
      (attempts.map fun a => (a.1, a.2.map (·.id))) := by
  induction attempts generalizing suffix with
  | nil => exact List.Sublist.refl _
  | cons a rest ih =>
    obtain ⟨op, row⟩ := a
    rw [entrants]
    cases op.valueType? ("s" ++ toString suffix) (row.map (·.type)) with
    | none => exact (ih (suffix + 1)).cons _
    | some t => exact (ih (suffix + 1)).cons_cons _

/-- What some operators that succeeded are grouped to. -/
structure Grouped (es : List (Entrant α)) (groups : List (CandidateGroup α)) : Prop where
  apart : groups.Pairwise fun g h => ¬ (g.inputs = h.inputs ∧ g.key = h.key)
  keyed : ∀ g ∈ groups, g.key = g.outType.signatureKey
  represented : ∀ g ∈ groups, ∃ e ∈ es, e.inputs = g.inputs ∧ e.type = g.outType
  operators : ∀ g ∈ groups, g.operators = (es.filter fun e => e.Joins g).map (·.operator)
  covers : ∀ e ∈ es, ∃ g ∈ groups, e.Joins g

/-- An operator joins the group that it belongs to, or opens one at the end. -/
lemma addToGroup_cases (op : Operator α) (inputs : List (Option Int)) (t : PortType)
    (groups : List (CandidateGroup α)) :
    (∃ front g back, groups = front ++ g :: back ∧ (⟨op, inputs, t⟩ : Entrant α).Joins g ∧
        addToGroup op inputs t groups =
          front ++ { g with operators := g.operators ++ [op] } :: back) ∨
      (∀ g ∈ groups, ¬ (⟨op, inputs, t⟩ : Entrant α).Joins g) ∧ addToGroup op inputs t groups =
        groups ++ [(⟨op, inputs, t⟩ : Entrant α).group] := by
  induction groups with
  | nil => exact .inr ⟨fun _ mem => absurd mem List.not_mem_nil, rfl⟩
  | cons g rest ih =>
    rw [addToGroup]
    split
    next here => exact .inl ⟨[], g, rest, rfl, ⟨here.1.symm, here.2.symm⟩, rfl⟩
    next elsewhere =>
      have not : ¬ (⟨op, inputs, t⟩ : Entrant α).Joins g := fun joins =>
        elsewhere ⟨joins.1.symm, joins.2.symm⟩
      rcases ih with ⟨front, g', back, rfl, joins, eq⟩ | ⟨none, eq⟩
      · exact .inl ⟨g :: front, g', back, rfl, joins, congrArg (g :: ·) eq⟩
      · exact .inr ⟨List.forall_mem_cons.2 ⟨not, none⟩, congrArg (g :: ·) eq⟩

section Add

variable {es : List (Entrant α)} {groups front back : List (CandidateGroup α)}
  {g h : CandidateGroup α} {e : Entrant α}

/-- An attempt that joins elsewhere leaves a group as it is. -/
lemma filter_joins_append (elsewhere : ¬ e.Joins h) :
    ((es ++ [e]).filter fun e => e.Joins h) = es.filter fun e => e.Joins h := by
  rw [List.filter_append, List.filter_singleton, decide_eq_false elsewhere]
  exact List.append_nil _

/-- What holds of all of a list holds when one of them is exchanged for something it holds of. -/
lemma forall_mem_exchanged {β : Type} {P : β → Prop} {front back : List β} {x y : β}
    (each : ∀ z ∈ front ++ x :: back, P z) (changed : P y) : ∀ z ∈ front ++ y :: back, P z := by
  simp only [List.forall_mem_append, List.forall_mem_cons] at each ⊢
  exact ⟨each.1, changed, each.2.2⟩

/-- What joins one group joins no other. -/
lemma Grouped.not_joins (grouped : Grouped es (front ++ g :: back)) (joins : e.Joins g)
    (beside : h ∈ front ∨ h ∈ back) : ¬ e.Joins h := by
  intro joins'
  have same : g.inputs = h.inputs ∧ g.key = h.key :=
    ⟨joins.1.symm.trans joins'.1, joins.2.symm.trans joins'.2⟩
  obtain ⟨-, behind, across⟩ := List.pairwise_append.1 grouped.apart
  rcases beside with before | after
  · exact across h before g (List.mem_cons_self ..) ⟨same.1.symm, same.2.symm⟩
  · exact (List.pairwise_cons.1 behind).1 h after same

/-- One more operator joins its group. -/
lemma Grouped.join (grouped : Grouped es (front ++ g :: back)) (joins : e.Joins g) :
    Grouped (es ++ [e]) (front ++ { g with operators := g.operators ++ [e.operator] } :: back) where
  apart := by
    have apart := grouped.apart
    rw [List.pairwise_append, List.pairwise_cons] at apart ⊢
    refine ⟨apart.1, ⟨apart.2.1.1, apart.2.1.2⟩, fun a ha b hb => ?_⟩
    rcases List.mem_cons.1 hb with rfl | later
    · exact apart.2.2 a ha g (List.mem_cons_self ..)
    · exact apart.2.2 a ha b (List.mem_cons_of_mem _ later)
  keyed := forall_mem_exchanged grouped.keyed (grouped.keyed g (by simp))
  represented := by
    have each : ∀ h ∈ front ++ g :: back, ∃ e' ∈ es ++ [e], e'.inputs = h.inputs ∧
        e'.type = h.outType :=
      fun h hh => (grouped.represented h hh).imp fun e' ⟨he, same⟩ =>
        ⟨List.mem_append_left _ he, same⟩
    exact forall_mem_exchanged each (each g (by simp))
  operators h mem := by
    rcases List.mem_append.1 mem with before | behind
    · rw [filter_joins_append (grouped.not_joins joins (.inl before))]
      exact grouped.operators h (List.mem_append_left _ before)
    rcases List.mem_cons.1 behind with rfl | after
    · change g.operators ++ [e.operator] = ((es ++ [e]).filter fun e => e.Joins g).map (·.operator)
      rw [List.filter_append, List.map_append, ← grouped.operators g (by simp),
        List.filter_singleton, decide_eq_true joins]
      rfl
    · rw [filter_joins_append (grouped.not_joins joins (.inr after))]
      exact grouped.operators h (List.mem_append_right _ (List.mem_cons_of_mem _ after))
  covers e' he' := by
    -- to join a group does not depend on its operators
    have found : ∀ h ∈ front ++ g :: back, e'.Joins h →
        ∃ h ∈ front ++ { g with operators := g.operators ++ [e.operator] } :: back, e'.Joins h := by
      intro h mem joins'
      rcases List.mem_append.1 mem with before | behind
      · exact ⟨h, List.mem_append_left _ before, joins'⟩
      rcases List.mem_cons.1 behind with rfl | after
      · exact ⟨_, List.mem_append_right _ (List.mem_cons_self ..), joins'⟩
      · exact ⟨h, List.mem_append_right _ (List.mem_cons_of_mem _ after), joins'⟩
    rcases List.mem_append.1 he' with old | new
    · obtain ⟨h, mem, joins'⟩ := grouped.covers e' old
      exact found h mem joins'
    · exact found g (by simp) (List.mem_singleton.1 new ▸ joins)

/-- One more operator opens a group. -/
lemma Grouped.opened (grouped : Grouped es groups) (none : ∀ g ∈ groups, ¬ e.Joins g) :
    Grouped (es ++ [e]) (groups ++ [e.group]) where
  apart := by
    refine List.pairwise_append.2
      ⟨grouped.apart, List.pairwise_singleton _ _, fun g hg h hh same => ?_⟩
    rw [List.mem_singleton] at hh
    subst hh
    exact none g hg ⟨same.1.symm, same.2.symm⟩
  keyed := List.forall_mem_append.2 ⟨grouped.keyed, List.forall_mem_singleton.2 rfl⟩
  represented g hg := by
    rcases List.mem_append.1 hg with old | new
    · obtain ⟨e', he', same⟩ := grouped.represented g old
      exact ⟨e', List.mem_append_left _ he', same⟩
    · rw [List.mem_singleton.1 new]
      exact ⟨e, List.mem_append_right _ (List.mem_singleton.2 rfl), rfl, rfl⟩
  operators g hg := by
    rcases List.mem_append.1 hg with old | new
    · rw [filter_joins_append (none g old)]
      exact grouped.operators g old
    · -- what joins the new group would have joined a group before
      have fresh : (es.filter fun e' => e'.inputs = e.inputs ∧
          e'.type.signatureKey = e.type.signatureKey) = [] := by
        refine List.filter_eq_nil_iff.2 fun e' he' same => ?_
        rw [decide_eq_true_eq] at same
        obtain ⟨h, hh, joins⟩ := grouped.covers e' he'
        exact none h hh ⟨same.1.symm.trans joins.1, same.2.symm.trans joins.2⟩
      rw [List.mem_singleton.1 new, List.filter_append, List.filter_singleton]
      change [e.operator] = ((es.filter fun e' => e'.inputs = e.inputs ∧
        e'.type.signatureKey = e.type.signatureKey) ++ _).map (·.operator)
      rw [fresh, decide_eq_true ⟨rfl, rfl⟩]
      rfl
  covers e' he' := by
    rcases List.mem_append.1 he' with old | new
    · obtain ⟨g, hg, joins⟩ := grouped.covers e' old
      exact ⟨g, List.mem_append_left _ hg, joins⟩
    · rw [List.mem_singleton.1 new]
      exact ⟨_, List.mem_append_right _ (List.mem_singleton.2 rfl), rfl, rfl⟩

end Add

/-- The attempts that succeed are grouped. -/
theorem grouped_groupAttempts {suffix : Nat} {attempts : List (Operator α × List Source)}
    {groups : List (CandidateGroup α)} (done : groupAttempts suffix [] attempts = .ok groups) :
    Grouped (entrants suffix attempts) groups := by
  have onward : ∀ (es : List (Entrant α)) done groups, Grouped done groups →
      Grouped (done ++ es)
        (es.foldl (fun groups e => addToGroup e.operator e.inputs e.type groups) groups) := by
    intro es
    induction es with
    | nil => exact fun done groups grouped => (List.append_nil done).symm ▸ grouped
    | cons e rest ih =>
      intro done groups grouped
      rw [List.foldl_cons, List.append_cons]
      refine ih _ _ ?_
      rcases addToGroup_cases e.operator e.inputs e.type groups with
        ⟨front, g, back, rfl, joins, eq⟩ | ⟨none, eq⟩
      · rw [eq]
        exact grouped.join joins
      · rw [eq]
        exact grouped.opened none
  cases (words_groupAttempts suffix [] attempts).eq_ok done
  refine onward (entrants suffix attempts) [] [] ⟨.nil, ?_, ?_, ?_, ?_⟩ <;>
    exact fun _ mem => absurd mem List.not_mem_nil

end OperatorNet
