import Mathlib.Data.List.Nodup
import OperatorNet.Proofs.Results
import OperatorNet.Proofs.Search.Values

/-!
# Attempts of a stage

What is tried when a stage is laid out: every operator on offer on every row of different sources of
which at least one is of the stage before, each once (`mem_stageAttempts_iff`). Unary operators are
looked up in the catalog and the others tried one by one, so of the former only those come up that
take their source. The operators that are tried on one row come in catalog order
(`sublist_operators_of_stageAttempts`).
-/

namespace OperatorNet

variable {α β γ κ : Type}

/-! ### Ordered choices -/

/-- An element is picked from between the others. -/
lemma mem_picks {x : β} {rest xs : List β} :
    (x, rest) ∈ picks xs ↔ ∃ front back, xs = front ++ x :: back ∧ rest = front ++ back := by
  induction xs generalizing rest with
  | nil => simp [picks]
  | cons y ys ih =>
    rw [picks, List.mem_cons, List.mem_map]
    constructor
    · rintro (first | ⟨⟨z, left⟩, later, eq⟩)
      · cases first
        exact ⟨[], ys, rfl, rfl⟩
      · cases eq
        obtain ⟨front, back, rfl, rfl⟩ := ih.1 later
        exact ⟨y :: front, back, rfl, rfl⟩
    · rintro ⟨front, back, eq, rfl⟩
      cases front with
      | nil =>
        cases eq
        exact .inl rfl
      | cons z front =>
        cases eq
        exact .inr ⟨(x, front ++ back), ih.2 ⟨front, back, rfl, rfl⟩, rfl⟩

/-- Each element of a list is picked once. -/
lemma map_fst_picks (xs : List β) : (picks xs).map Prod.fst = xs := by
  induction xs with
  | nil => rfl
  | cons x rest ih =>
    rw [picks, List.map_cons, List.map_map]
    exact congrArg (x :: ·) ih

/-- What is left where an element was picked are the others. -/
lemma mem_picks_of_nodup {x : β} {rest xs : List β} (distinct : xs.Nodup)
    (mem : (x, rest) ∈ picks xs) :
    rest.Nodup ∧ x ∈ xs ∧ ∀ y, y ∈ rest ↔ y ∈ xs ∧ y ≠ x := by
  obtain ⟨front, back, rfl, rfl⟩ := mem_picks.1 mem
  obtain ⟨absent, others⟩ := List.nodup_middle.1 distinct |> List.nodup_cons.1
  refine ⟨others, by simp, fun y => ?_⟩
  simp only [List.mem_append, List.mem_cons]
  constructor
  · intro here
    refine ⟨by tauto, ?_⟩
    rintro rfl
    exact absent (List.mem_append.2 here)
  · rintro ⟨front | rfl | back, ne⟩
    · exact .inl front
    · exact absurd rfl ne
    · exact .inr back

/-- The ordered choices from different elements are the lists of different elements. -/
lemma mem_arrangements {k : Nat} {xs l : List β} (distinct : xs.Nodup) :
    l ∈ arrangements k xs ↔ l.length = k ∧ l.Nodup ∧ ∀ x ∈ l, x ∈ xs := by
  induction k generalizing xs l with
  | zero =>
    rw [arrangements, List.mem_singleton, List.length_eq_zero_iff]
    exact ⟨fun eq => ⟨eq, eq ▸ List.nodup_nil, fun x hx => absurd (eq ▸ hx) List.not_mem_nil⟩,
      And.left⟩
  | succ k ih =>
    rw [arrangements, List.mem_flatMap]
    constructor
    · rintro ⟨⟨x, rest⟩, picked, mem⟩
      obtain ⟨tail, chosen, rfl⟩ := List.mem_map.1 mem
      obtain ⟨others, here, left⟩ := mem_picks_of_nodup distinct picked
      obtain ⟨length, nodup, within⟩ := (ih others).1 chosen
      refine ⟨congrArg (· + 1) length, List.nodup_cons.2 ⟨fun again => ?_, nodup⟩, ?_⟩
      · exact ((left x).1 (within x again)).2 rfl
      · exact List.forall_mem_cons.2 ⟨here, fun y hy => ((left y).1 (within y hy)).1⟩
    · rintro ⟨length, nodup, within⟩
      cases l with
      | nil => cases length
      | cons x tail =>
        obtain ⟨absent, nodup⟩ := List.nodup_cons.1 nodup
        obtain ⟨here, within⟩ := List.forall_mem_cons.1 within
        obtain ⟨front, back, rfl⟩ := List.append_of_mem here
        have picked : (x, front ++ back) ∈ picks (front ++ x :: back) :=
          mem_picks.2 ⟨front, back, rfl, rfl⟩
        obtain ⟨others, -, left⟩ := mem_picks_of_nodup distinct picked
        refine ⟨_, picked, List.mem_map.2 ⟨tail, (ih others).2 ?_, rfl⟩⟩
        refine ⟨Nat.succ.inj length, nodup, fun y hy => (left y).2 ⟨within y hy, ?_⟩⟩
        rintro rfl
        exact absent hy

/-- No ordered choice comes twice. -/
lemma nodup_arrangements (k : Nat) {xs : List β} (distinct : xs.Nodup) :
    (arrangements k xs).Nodup := by
  induction k generalizing xs with
  | zero => exact List.nodup_singleton _
  | succ k ih =>
    rw [arrangements, List.nodup_flatMap]
    constructor
    · rintro ⟨x, rest⟩ picked
      exact (ih (mem_picks_of_nodup distinct picked).1).map fun l l' eq => (List.cons.inj eq).2
    · have firsts : ((picks xs).map Prod.fst).Nodup := (map_fst_picks xs).symm ▸ distinct
      refine (List.pairwise_map.1 firsts).imp fun {p q} ne => ?_
      intro l left right
      obtain ⟨_, -, rfl⟩ := List.mem_map.1 left
      obtain ⟨_, -, eq⟩ := List.mem_map.1 right
      exact ne (List.cons.inj eq).1.symm

/-! ### Tests that may fail -/

/-- What passes a test is collected in reverse. -/
lemma filterAuxM_eq_ok {ε : Type} {test : β → Except ε Bool} {xs acc zs : List β}
    (done : List.filterAuxM test xs acc = .ok zs) :
    ∃ ys : List β, zs = ys.reverse ++ acc ∧ ys.Sublist xs ∧
      ∀ x, x ∈ ys ↔ x ∈ xs ∧ test x = .ok true := by
  induction xs generalizing acc with
  | nil =>
    cases done
    exact ⟨[], rfl, List.Sublist.refl _, by simp⟩
  | cons x rest ih =>
    rw [List.filterAuxM, bind_eq_ok] at done
    obtain ⟨b, first, done⟩ := done
    obtain ⟨ys, rfl, sublist, members⟩ := ih done
    cases b with
    | false =>
      refine ⟨ys, rfl, sublist.cons x, fun y => ?_⟩
      rw [members, List.mem_cons]
      refine ⟨fun h => ⟨.inr h.1, h.2⟩, ?_⟩
      rintro ⟨rfl | later, passes⟩
      · rw [first] at passes
        cases passes
      · exact ⟨later, passes⟩
    | true =>
      refine ⟨x :: ys, by simp, sublist.cons_cons x, fun y => ?_⟩
      rw [List.mem_cons, members, List.mem_cons]
      constructor
      · rintro (rfl | h)
        · exact ⟨.inl rfl, first⟩
        · exact ⟨.inr h.1, h.2⟩
      · rintro ⟨rfl | later, passes⟩
        · exact .inl rfl
        · exact .inr ⟨later, passes⟩

/-- A list is filtered by a test that gives a result on each of its elements. -/
lemma filterM_eq_ok {ε : Type} {test : β → Except ε Bool} {xs ys : List β}
    (done : xs.filterM test = .ok ys) :
    ys.Sublist xs ∧ ∀ x, x ∈ ys ↔ x ∈ xs ∧ test x = .ok true := by
  rw [List.filterM, bind_eq_ok] at done
  obtain ⟨zs, collected, last⟩ := done
  rw [pure_eq_ok] at last
  obtain ⟨ys', rfl, sublist, members⟩ := filterAuxM_eq_ok collected
  rw [List.append_nil, List.reverse_reverse] at last
  subst last
  exact ⟨sublist, members⟩

/-- Operators that are not left out. -/
lemma filterM_not_eq_ok {excluded : Exclusion α} {xs ys : List (Operator α)}
    (done : (xs.filterM fun op => return !(← excluded op)) = .ok ys) :
    ys.Sublist xs ∧ ∀ op, op ∈ ys ↔ op ∈ xs ∧ excluded op = .ok false := by
  obtain ⟨sublist, members⟩ := filterM_eq_ok done
  refine ⟨sublist, fun op => (members op).trans (and_congr_right fun _ => ?_)⟩
  cases excluded op with
  | error f => exact ⟨nofun, nofun⟩
  | ok b =>
    cases b with
    | false => exact ⟨fun _ => rfl, fun _ => rfl⟩
    | true => exact ⟨nofun, nofun⟩

/-! ### Lists by key -/

section

variable [DecidableEq κ] {f : β → κ} {g : β → γ} {ops : List γ}

/-- Among different keys at most one is a given one. -/
lemma filter_key_cases {l : List β} (distinct : (l.map f).Nodup) (k : κ) :
    l.filter (f · = k) = [] ∨ ∃ x ∈ l, l.filter (f · = k) = [x] := by
  induction l with
  | nil => exact .inl rfl
  | cons x rest ih =>
    obtain ⟨absent, others⟩ := List.nodup_cons.1 distinct
    by_cases here : f x = k
    · refine .inr ⟨x, List.mem_cons_self .., ?_⟩
      rw [List.filter_cons_of_pos (by simpa using here), List.filter_eq_nil_iff.2]
      intro y hy again
      rw [decide_eq_true_eq] at again
      exact absent (here.trans again.symm ▸ List.mem_map_of_mem hy)
    · rw [List.filter_cons_of_neg (by simpa using here)]
      rcases ih others with none | ⟨y, hy, one⟩
      · exact .inl none
      · exact .inr ⟨y, List.mem_cons_of_mem x hy, one⟩

/-- Where each operator comes up at most once for every key, the operators for one key come in the
order of all. -/
lemma sublist_filter_flatMap {m : γ → List β} (own : ∀ op ∈ ops, ∀ x ∈ m op, g x = op)
    (once : ∀ op ∈ ops, ((m op).map f).Nodup) (k : κ) :
    (((ops.flatMap m).filter (f · = k)).map g).Sublist ops := by
  induction ops with
  | nil => exact List.Sublist.refl _
  | cons op rest ih =>
    obtain ⟨here, own⟩ := List.forall_mem_cons.1 own
    obtain ⟨head, once⟩ := List.forall_mem_cons.1 once
    rw [List.flatMap_cons, List.filter_append, List.map_append]
    rcases filter_key_cases head k with none | ⟨x, hx, one⟩
    · rw [none]
      exact (ih own once).cons op
    · rw [one, List.map_singleton, here x hx]
      exact (ih own once).cons_cons op

/-- Where every list has a key of its own, the operators for one key come in the order of all. -/
lemma sublist_filter_flatten {keys : List κ} {ls : List (List β)}
    (own : List.Forall₂ (fun k l => ∀ x ∈ l, f x = k) keys ls) (distinct : keys.Nodup)
    (ordered : ∀ l ∈ ls, (l.map g).Sublist ops) (k : κ) :
    ((ls.flatten.filter (f · = k)).map g).Sublist ops := by
  induction own with
  | nil => exact List.nil_sublist _
  | @cons k₀ l keys ls here own ih =>
    obtain ⟨absent, others⟩ := List.nodup_cons.1 distinct
    obtain ⟨head, ordered⟩ := List.forall_mem_cons.1 ordered
    rw [List.flatten_cons, List.filter_append, List.map_append]
    by_cases same : k₀ = k
    · have rest : ls.flatten.filter (f · = k) = [] := by
        refine List.filter_eq_nil_iff.2 fun x hx again => ?_
        obtain ⟨l', hl', mem⟩ := List.mem_flatten.1 hx
        obtain ⟨k', hk', key⟩ := exists_of_mem_forall₂ own hl'
        rw [decide_eq_true_eq, key x mem] at again
        exact absent (same.trans again.symm ▸ hk')
      rw [rest, List.map_nil, List.append_nil]
      exact (List.filter_sublist.map g).trans head
    · have none : l.filter (f · = k) = [] := by
        refine List.filter_eq_nil_iff.2 fun x hx again => ?_
        rw [decide_eq_true_eq, here x hx] at again
        exact same again
      rw [none]
      exact ih others ordered

end

/-! ### Attempts -/

/-- The operators that take part in a search: they are registered and not left out, and they have
one input, or several but not too many. -/
structure Catalog.Offers [Scalar α] (c : Catalog α) (excluded : Exclusion α) (maxFanIn : Number α)
    (op : Operator α) : Prop where
  registered : op ∈ c.registered
  admitted : excluded op = .ok false
  inputs : op.arity = 1 ∨ 1 < op.arity ∧ (Number.whole op.arity).atMost maxFanIn = true

/-- A row of different sources of stages before a given one, not all of them of earlier stages than
the last of these. -/
structure Row (sources : List Source) (stage : Nat) (row : List Source) : Prop where
  within : ∀ s ∈ row, s ∈ sources
  earlier : ∀ s ∈ row, s.stage < stage
  distinct : row.Nodup
  last : ∃ s ∈ row, s.stage + 1 = stage

variable [Scalar α] {c : Catalog α} {excluded : Exclusion α} {maxFanIn : Number α}

/-- An operator answers a request of input types directly when it takes these. -/
lemma Catalog.relate_eq_equal {op : Operator α} {types : List PortType} :
    c.relate op types none = .ok .equal ↔
      types.length = op.arity ∧ (op.valueType? "q" types).isSome := by
  have slots : requestSlots op types none = op.slotsOn "q" types := List.append_nil _
  rw [Operator.valueType?, Option.isSome_map, Bindings.unifySlots?, relate, slots]
  split
  next other =>
    refine ⟨fun related => ?_, fun h => absurd h.1 other⟩
    cases related
  next arity =>
    cases Bindings.empty.unifySlots (op.slotsOn "q" types) with
    | ok b => exact ⟨fun _ => ⟨not_not.1 arity, rfl⟩, fun _ => rfl⟩
    | error reason =>
      -- what is not taken is adapted or refused
      refine ⟨fun related => ?_, fun h => absurd h.2 Bool.false_ne_true⟩
      rw [bind_eq_ok] at related
      obtain ⟨word, told, related⟩ := related
      cases word with
      | ok b => cases worded_eq_ok.1 told
      | error reason =>
        rw [bind_eq_ok] at related
        obtain ⟨adapted, -, related⟩ := related
        cases adapted <;> cases related

/-- The operators that take a type are looked up in catalog order. -/
lemma Catalog.consumers_eq_ok {t : PortType} {ops : List (Operator α)}
    (found : c.consumers t = .ok ops) :
    ops.Sublist c.operators ∧
      ∀ op, op ∈ ops ↔ op ∈ c.registered ∧ op.arity = 1 ∧ (op.valueType? "q" [t]).isSome := by
  simp only [consumers, lookup, bind_eq_ok, pure_eq_ok] at found
  obtain ⟨answers, each, rfl⟩ := found
  rw [mapM_eq_ok] at each
  have related : List.Forall₂ (fun op a => a.1 = op ∧ c.relate op [t] none = .ok a.2) c.operators
      answers := each.imp fun op a answer => by
    simp only [bind_eq_ok, pure_eq_ok] at answer
    obtain ⟨r, relation, rfl⟩ := answer
    exact ⟨rfl, relation⟩
  have all : answers.map Prod.fst = c.operators := by
    rw [← List.forall₂_eq_eq_eq, List.forall₂_map_left_iff]
    exact related.flip.imp fun _ _ h => h.1
  refine ⟨?_, fun op => ?_⟩
  · rw [← all]
    exact List.filter_sublist.map _
  · have member : op ∈ c.registered ↔ op ∈ c.operators := mem_sortBy.symm
    rw [member, eq_comm (a := op.arity)]
    change _ ↔ _ ∧ [t].length = op.arity ∧ _
    rw [← relate_eq_equal, List.mem_map]
    constructor
    · rintro ⟨a, kept, rfl⟩
      obtain ⟨mem, equal⟩ := List.mem_filter.1 kept
      obtain ⟨op, there, rfl, relation⟩ := exists_of_mem_forall₂ related mem
      have direct : a.2 = .equal := by simpa using equal
      exact ⟨there, direct ▸ relation⟩
    · rintro ⟨there, relation⟩
      obtain ⟨a, mem, same, answer⟩ := exists_of_mem_forall₂ related.flip there
      rw [relation] at answer
      refine ⟨a, List.mem_filter.2 ⟨mem, ?_⟩, same⟩
      rw [← Except.ok.inj answer]
      rfl

/-- The operators of one input that are tried on a source. -/
lemma unaryAttempts_eq_ok {source : Source} {attempts : List (Operator α × List Source)}
    (done : unaryAttempts c excluded source = .ok attempts) :
    (attempts.map Prod.fst).Sublist c.operators ∧ ∀ op row, (op, row) ∈ attempts ↔
      row = [source] ∧ op ∈ c.registered ∧ op.arity = 1 ∧ excluded op = .ok false ∧
        (op.valueType? "q" [source.type]).isSome := by
  simp only [unaryAttempts, bind_eq_ok, pure_eq_ok] at done
  obtain ⟨ops, found, open_, admitted, rfl⟩ := done
  obtain ⟨ordered, takes⟩ := Catalog.consumers_eq_ok found
  obtain ⟨sublist, members⟩ := filterM_not_eq_ok admitted
  refine ⟨?_, fun op row => ?_⟩
  · rw [List.map_map]
    change (open_.map fun op => op).Sublist c.operators
    rw [List.map_id']
    exact (sublist.trans List.filter_sublist).trans ordered
  · have single : op.arity = 1 → (!op.isCombinator) = true := fun unary => by
      rw [Operator.isCombinator, unary]
      rfl
    rw [List.mem_map]
    constructor
    · rintro ⟨op', mem, eq⟩
      cases eq
      obtain ⟨consumer, admitted⟩ := (members op).1 mem
      obtain ⟨registered, unary, fits⟩ := (takes op).1 (List.mem_filter.1 consumer).1
      exact ⟨rfl, registered, unary, admitted, fits⟩
    · rintro ⟨rfl, registered, unary, admitted, fits⟩
      refine ⟨op, (members op).2 ⟨List.mem_filter.2 ⟨?_, single unary⟩, admitted⟩, rfl⟩
      exact (takes op).2 ⟨registered, unary, fits⟩

/-- What a search combines several inputs with. -/
structure Combines (c : Catalog α) (excluded : Exclusion α) (maxFanIn : Number α)
    (combinators : List (Operator α)) : Prop where
  ordered : combinators.Sublist c.operators
  members : ∀ op, op ∈ combinators ↔ c.Offers excluded maxFanIn op ∧ 1 < op.arity

/-- The combinators that are left are those that are not excluded. -/
lemma combines_of_filterM {combinators : List (Operator α)}
    (done : ((c.combinators.filter fun op => (Number.whole op.arity).atMost maxFanIn).filterM
      fun op => return !(← excluded op)) = .ok combinators) :
    Combines c excluded maxFanIn combinators := by
  obtain ⟨sublist, members⟩ := filterM_not_eq_ok done
  refine ⟨(sublist.trans List.filter_sublist).trans List.filter_sublist, fun op => ?_⟩
  rw [members, List.mem_filter, Catalog.combinators, List.mem_filter]
  constructor
  · rintro ⟨⟨⟨there, several⟩, few⟩, admitted⟩
    rw [Operator.isCombinator, decide_eq_true_eq] at several
    exact ⟨⟨mem_sortBy.1 there, admitted, .inr ⟨several, few⟩⟩, several⟩
  · rintro ⟨⟨registered, admitted, inputs⟩, several⟩
    refine ⟨⟨⟨mem_sortBy.2 registered, decide_eq_true several⟩, ?_⟩, admitted⟩
    exact inputs.elim (fun unary => absurd unary (Nat.ne_of_gt several)) And.right

section Stage

variable {combinators : List (Operator α)} {stage : Nat} {sources : List Source}
  {attempts : List (Operator α × List Source)}

/-- The attempts of a stage with operators of one input and with others. -/
lemma stageAttempts_eq_ok
    (done : stageAttempts c excluded combinators stage sources = .ok attempts) :
    ∃ unary, List.Forall₂ (fun s l => unaryAttempts c excluded s = .ok l)
        (sources.filter (·.stage + 1 = stage)) unary ∧
      attempts = unary.flatten ++ combinators.flatMap fun op =>
        ((arrangements op.arity sources).filter fun row => row.any (·.stage + 1 = stage)).map
          (op, ·) := by
  simp only [stageAttempts, bind_eq_ok, pure_eq_ok] at done
  obtain ⟨unary, each, rfl⟩ := done
  exact ⟨unary, mapM_eq_ok.1 each, rfl⟩

/-- Every operator on offer is tried on every row, but one of one input only where it takes what it
reads. -/
theorem mem_stageAttempts_iff (combines : Combines c excluded maxFanIn combinators)
    (distinct : sources.Nodup) (earlier : ∀ s ∈ sources, s.stage < stage)
    (done : stageAttempts c excluded combinators stage sources = .ok attempts) {op : Operator α}
    {row : List Source} :
    (op, row) ∈ attempts ↔ c.Offers excluded maxFanIn op ∧ Row sources stage row ∧
      row.length = op.arity ∧
        (op.arity = 1 → (op.valueType? "q" (row.map (·.type))).isSome) := by
  obtain ⟨unary, each, rfl⟩ := stageAttempts_eq_ok done
  rw [List.mem_append, List.mem_flatten, List.mem_flatMap]
  constructor
  -- one input from the stage before, or several inputs of which one comes from there
  · rintro (⟨l, hl, mem⟩ | ⟨op', hop, mem⟩)
    · obtain ⟨s, hs, tried⟩ := exists_of_mem_forall₂ each hl
      obtain ⟨there, before⟩ := List.mem_filter.1 hs
      rw [decide_eq_true_eq] at before
      obtain ⟨rfl, registered, single, admitted, fits⟩ :=
        ((unaryAttempts_eq_ok tried).2 op row).1 mem
      refine ⟨⟨registered, admitted, .inl single⟩, ?_, single.symm, fun _ => fits⟩
      exact ⟨List.forall_mem_singleton.2 there, List.forall_mem_singleton.2 (earlier s there),
        List.nodup_singleton s, s, List.mem_singleton.2 rfl, before⟩
    · obtain ⟨row', kept, eq⟩ := List.mem_map.1 mem
      cases eq
      obtain ⟨arranged, last⟩ := List.mem_filter.1 kept
      obtain ⟨length, different, within⟩ := (mem_arrangements distinct).1 arranged
      obtain ⟨offers, several⟩ := (combines.members op).1 hop
      obtain ⟨s, hs, before⟩ := List.any_eq_true.1 last
      refine ⟨offers, ⟨within, fun s hs => earlier s (within s hs), different, s, hs,
        of_decide_eq_true before⟩, length, fun single => absurd single (Nat.ne_of_gt several)⟩
  · rintro ⟨offers, chosen, length, fits⟩
    obtain ⟨s, hs, before⟩ := chosen.last
    rcases offers.inputs with single | ⟨several, -⟩
    · rw [single, List.length_eq_one_iff] at length
      obtain ⟨s', rfl⟩ := length
      obtain rfl := List.mem_singleton.1 hs
      have there : s ∈ sources.filter (·.stage + 1 = stage) :=
        List.mem_filter.2 ⟨chosen.within s hs, decide_eq_true before⟩
      obtain ⟨l, hl, tried⟩ := exists_of_mem_forall₂ each.flip there
      refine .inl ⟨l, hl, ((unaryAttempts_eq_ok tried).2 op [s]).2 ?_⟩
      exact ⟨rfl, offers.registered, single, offers.admitted, fits single⟩
    · refine .inr ⟨op, (combines.members op).2 ⟨offers, several⟩, List.mem_map_of_mem ?_⟩
      refine List.mem_filter.2
        ⟨(mem_arrangements distinct).2 ⟨length, chosen.distinct, chosen.within⟩, ?_⟩
      exact List.any_eq_true.2 ⟨s, hs, decide_eq_true before⟩

/-- The row of an attempt with a combinator has several sources. -/
lemma one_lt_length_of_combines (combines : Combines c excluded maxFanIn combinators)
    (distinct : sources.Nodup) {keep : List Source → Bool} {a : Operator α × List Source}
    (mem : a ∈ combinators.flatMap fun op =>
      ((arrangements op.arity sources).filter keep).map (op, ·)) :
    1 < a.2.length := by
  obtain ⟨op, hop, mem⟩ := List.mem_flatMap.1 mem
  obtain ⟨row, kept, rfl⟩ := List.mem_map.1 mem
  obtain ⟨length, -⟩ := (mem_arrangements distinct).1 (List.mem_filter.1 kept).1
  rw [length]
  exact ((combines.members op).1 hop).2

/-- For each source the operators of one input are tried in catalog order. -/
lemma sublist_operators_of_unaryAttempts {unary : List (List (Operator α × List Source))}
    (distinct : (sources.map (·.id)).Nodup)
    (each : List.Forall₂ (fun s l => unaryAttempts c excluded s = .ok l) sources unary)
    (ids : List (Option Int)) :
    ((unary.flatten.filter fun a => a.2.map (·.id) = ids).map Prod.fst).Sublist c.operators := by
  have own : List.Forall₂ (fun k l => ∀ x ∈ l, x.2.map (·.id) = k)
      (sources.map fun s => [s.id]) unary := by
    rw [List.forall₂_map_left_iff]
    refine each.imp fun s l tried x mem => ?_
    rw [(((unaryAttempts_eq_ok tried).2 x.1 x.2).1 mem).1]
    rfl
  refine sublist_filter_flatten own ?_ ?_ ids
  · have wrapped := distinct.map fun (i j : Option Int) (eq : [i] = [j]) => (List.cons.inj eq).1
    rwa [List.map_map] at wrapped
  · intro l hl
    obtain ⟨s, -, tried⟩ := exists_of_mem_forall₂ each hl
    exact (unaryAttempts_eq_ok tried).1

omit [Scalar α] in
/-- For each row the combinators are tried in the order in which they are given. -/
lemma sublist_combinators (distinct : (sources.map (·.id)).Nodup) (keep : List Source → Bool)
    (ids : List (Option Int)) :
    (((combinators.flatMap fun op => ((arrangements op.arity sources).filter keep).map
      (op, ·)).filter
      fun a => a.2.map (·.id) = ids).map Prod.fst).Sublist combinators := by
  refine sublist_filter_flatMap ?_ ?_ ids
  · intro op _ x mem
    obtain ⟨row, -, rfl⟩ := List.mem_map.1 mem
    rfl
  · intro op _
    rw [List.map_map]
    refine ((nodup_arrangements op.arity distinct.of_map).filter _).map_on ?_
    intro row hrow row' hrow' same
    have within := ((mem_arrangements distinct.of_map).1 (List.mem_filter.1 hrow).1).2.2
    have within' := ((mem_arrangements distinct.of_map).1 (List.mem_filter.1 hrow').1).2.2
    refine eq_of_map_eq same fun s hs s' hs' eq => ?_
    exact List.inj_on_of_nodup_map distinct (within s hs) (within' s' hs') eq

/-- The operators that are tried on one row come in catalog order. -/
theorem sublist_operators_of_stageAttempts (combines : Combines c excluded maxFanIn combinators)
    (distinct : (sources.map (·.id)).Nodup)
    (done : stageAttempts c excluded combinators stage sources = .ok attempts)
    (ids : List (Option Int)) :
    ((attempts.filter fun a => a.2.map (·.id) = ids).map Prod.fst).Sublist c.operators := by
  obtain ⟨unary, each, rfl⟩ := stageAttempts_eq_ok done
  rw [List.filter_append, List.map_append]
  -- rows of one source and longer rows have different ids, so one of the two parts has none of them
  by_cases single : ids.length = 1
  · have none : (combinators.flatMap fun op =>
        ((arrangements op.arity sources).filter fun row => row.any (·.stage + 1 = stage)).map
          (op, ·)).filter (fun a => a.2.map (·.id) = ids) = [] := by
      refine List.filter_eq_nil_iff.2 fun x mem same => ?_
      have several := one_lt_length_of_combines combines distinct.of_map mem
      rw [decide_eq_true_eq] at same
      rw [← same, List.length_map] at single
      exact Nat.ne_of_gt several single
    rw [none, List.map_nil, List.append_nil]
    exact sublist_operators_of_unaryAttempts (distinct.sublist (List.filter_sublist.map _)) each ids
  · have none : unary.flatten.filter (fun a => a.2.map (·.id) = ids) = [] := by
      refine List.filter_eq_nil_iff.2 fun x hx same => ?_
      obtain ⟨l, hl, mem⟩ := List.mem_flatten.1 hx
      obtain ⟨s, -, tried⟩ := exists_of_mem_forall₂ each hl
      rw [decide_eq_true_eq, (((unaryAttempts_eq_ok tried).2 x.1 x.2).1 mem).1] at same
      exact single (same ▸ rfl)
    rw [none, List.map_nil, List.nil_append]
    exact (sublist_combinators distinct _ ids).trans combines.ordered

end Stage

end OperatorNet
