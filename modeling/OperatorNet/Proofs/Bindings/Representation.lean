import OperatorNet.Proofs.Bindings.Forest
import OperatorNet.Proofs.Bindings.Roots
import OperatorNet.Proofs.Bindings.Unification

/-!
# Forests represent bindings

A forest represents bindings (`Forest.Represents`) when its links lead upwards in the order of
solving, to the roots of the bindings, and its roots carry what the bindings let them stand for. The
four changes of a forest keep this up: a symbol is met (`register`), its way to the root is
shortened (`shorten`), a free root is linked to another one (`solve_link`) or given a dimension
(`solve_carry`).
-/

namespace OperatorNet

namespace Bindings

variable {b : Bindings} {s t : String} {l : List String}

/-- After symbols are met, these are known and those of before. -/
lemma mem_known_meet : s ∈ (b.meet l).known ↔ s ∈ b.known ∨ s ∈ l := by
  have key : ∀ (l acc : List String),
      s ∈ l.foldl (fun acc s => if s ∈ acc then acc else acc ++ [s]) acc ↔ s ∈ acc ∨ s ∈ l := by
    intro l
    induction l with
    | nil => simp
    | cons x rest ih =>
      intro acc
      rw [List.foldl_cons, ih]
      split
      next there =>
        constructor
        · rintro (old | new)
          · exact .inl old
          · exact .inr (List.mem_cons_of_mem _ new)
        · rintro (old | new)
          · exact .inl old
          · rcases List.mem_cons.1 new with rfl | new
            · exact .inl there
            · exact .inr new
      next => simp [or_assoc]
  exact key l b.known

/-- Meeting symbols that are known changes nothing. -/
lemma meet_of_known (known : ∀ s ∈ l, s ∈ b.known) : b.meet l = b := by
  have key : ∀ l : List String, (∀ s ∈ l, s ∈ b.known) →
      l.foldl (fun acc s => if s ∈ acc then acc else acc ++ [s]) b.known = b.known := by
    intro l
    induction l with
    | nil => exact fun _ => rfl
    | cons x rest ih =>
      intro known
      rw [List.foldl_cons, if_pos (known x (by simp))]
      exact ih fun s hs => known s (by simp [hs])
  rw [meet, key l known]

/-- Symbols are met one after the other. -/
lemma meet_append (l m : List String) : b.meet (l ++ m) = (b.meet l).meet m := by
  rw [meet, List.foldl_append]
  rfl

/-- A root is free or has a value that is no symbol. -/
lemma WellFormed.free_or_value (wf : b.WellFormed) (root : b.root s = s) :
    b.Free s ∨ ∃ e, (s, e) ∈ b.solved ∧ e.symbol? = none := by
  rcases wf.root_cases s with ⟨t, -, later, same⟩ | ⟨-, values⟩
  · have := wf.place_le_root t
    rw [← same, root] at this
    omega
  · rcases b.free_or_solved s with free | ⟨e, mem⟩
    · exact .inl free
    · exact .inr ⟨e, mem, values e mem⟩

/-- The symbol that is solved last comes last. -/
lemma solvedSymbols_solving {e : Dim} (b : Bindings) :
    (b.solving s e).solvedSymbols = b.solvedSymbols ++ [s] := by
  rw [solvedSymbols, solving, List.map_append]
  rfl

/-- Symbols solved before keep their places. -/
lemma place_solving_of_solved {e : Dim} (solved : ¬ b.Free t) :
    (b.solving s e).place t = b.place t := by
  rw [place, solvedSymbols_solving, List.idxOf_append_of_mem (not_not.1 solved)]
  rfl

/-- A symbol that is solved takes the place after all others. -/
lemma place_solving_self {e : Dim} (free : b.Free s) :
    (b.solving s e).place s = b.solved.length := by
  rw [place, solvedSymbols_solving, List.idxOf_append_of_notMem free, List.idxOf_cons_self]
  exact List.length_map ..

/-- Symbols that stay free move up by one place. -/
lemma place_solving_of_free {e : Dim} (free : b.Free t) (ne : t ≠ s) :
    (b.solving s e).place t = b.solved.length + 1 := by
  have still : (b.solving s e).Free t := by
    rw [Free, solvedSymbols_solving, List.mem_append, List.mem_singleton, not_or]
    exact ⟨free, ne⟩
  rw [place_of_free still, solving, List.length_append, List.length_singleton]

/-- Solving a symbol keeps the places in order. -/
lemma place_solving_lt {e : Dim} {u : String} (lt : b.place u < b.place t) :
    (b.solving s e).place u < (b.solving s e).place t := by
  have solved : ¬ b.Free u := place_lt_length_iff.1 (lt.trans_le (b.place_le_length t))
  rw [place_solving_of_solved solved]
  by_cases free : b.Free t
  · have := place_lt_length_iff.2 solved
    by_cases same : t = s
    · subst same
      rwa [place_solving_self free]
    · rw [place_solving_of_free free same]
      omega
  · rwa [place_solving_of_solved free]

/-- The root of a symbol after another one has been solved. -/
lemma root_solving {e : Dim} {u : String} (b : Bindings) :
    (b.solving s e).root u = if s = b.root u then e.symbol?.getD (b.root u) else b.root u := by
  rw [root_eq_foldl, solving, List.foldl_append]
  rfl

end Bindings

open Bindings

namespace Forest

variable {F : Forest} {b : Bindings} {s t : String} {d e : Dim}

/-- A forest keeps what bindings say. -/
structure Represents (F : Forest) (b : Bindings) : Prop where
  wellFormed : b.WellFormed
  closed : ∀ s e, (s, e) ∈ b.solved → s ∈ b.known ∧ ∀ t ∈ e.symbols, t ∈ b.known
  met : ∀ s, s ∈ b.known ↔ ∃ p, F.parent s = some p
  upward : ∀ s p, F.parent s = some p → p ≠ s →
    p ∈ b.known ∧ b.place s < b.place p ∧ b.root p = b.root s
  self : ∀ s, F.parent s = some s → b.root s = s
  value : ∀ s e, F.value s = some e ↔ (s, e) ∈ b.solved ∧ e.symbol? = none

/-- The forest without symbols represents bindings that know nothing. -/
lemma represents_empty : empty.Represents .empty where
  wellFormed := .empty
  closed _ _ mem := absurd mem List.not_mem_nil
  met _ := ⟨fun mem => absurd mem List.not_mem_nil, fun ⟨_, parent⟩ => nomatch parent⟩
  upward _ _ parent := nomatch parent
  self _ parent := nomatch parent
  value _ _ := ⟨fun value => (nomatch value), fun ⟨mem, _⟩ => absurd mem List.not_mem_nil⟩

namespace Represents

variable (rep : F.Represents b)

include rep

/-- A symbol that was never met is free. -/
lemma free_of_unknown (unknown : s ∉ b.known) : b.Free s := by
  rcases b.free_or_solved s with free | ⟨e, mem⟩
  · exact free
  · exact absurd (rep.closed s e mem).1 unknown

/-- What occurs in a resolved dimension occurs in the dimension or is known. -/
lemma known_of_mem_resolve (mem : t ∈ (b.resolve d).symbols) : t ∈ d.symbols ∨ t ∈ b.known := by
  by_contra neither
  rw [not_or] at neither
  refine notMem_symbols_replaceAll neither.1 (fun p hp occurs => ?_) mem
  exact neither.2 ((rep.closed p.1 p.2 hp).2 t occurs)

/-- The root of a symbol that has been met has been met. -/
lemma known_root (known : s ∈ b.known) : b.root s ∈ b.known := by
  induction s using place_induction (b := b) with
  | _ s ih =>
    rcases rep.wellFormed.root_cases s with ⟨t, mem, later, same⟩ | ⟨self, -⟩
    · rw [same]
      exact ih t later ((rep.closed _ _ mem).2 t (by simp))
    · rwa [self]

/-- A symbol becomes a root when it is met. -/
lemma register (unknown : s ∉ b.known) : (F.link s s).Represents (b.meet [s]) where
  wellFormed := ⟨rep.wellFormed.apart, rep.wellFormed.proper⟩
  closed u e mem := by
    obtain ⟨known, symbols⟩ := rep.closed u e mem
    exact ⟨mem_known_meet.2 (.inl known), fun t ht => mem_known_meet.2 (.inl (symbols t ht))⟩
  met u := by
    rw [mem_known_meet, List.mem_singleton, rep.met]
    simp only [parent_link_eq_some]
    by_cases same : u = s
    · simp [same]
    · simp [same]
  upward u p parent ne := by
    rcases parent_link_eq_some.1 parent with ⟨rfl, rfl⟩ | ⟨-, parent⟩
    · exact absurd rfl ne
    · obtain ⟨known, upward⟩ := rep.upward u p parent ne
      exact ⟨mem_known_meet.2 (.inl known), upward⟩
  self u parent := by
    rcases parent_link_eq_some.1 parent with ⟨rfl, -⟩ | ⟨-, parent⟩
    · exact root_of_free (rep.free_of_unknown unknown)
    · exact rep.self u parent
  value := rep.value

/-- A shorter way to the root says the same. -/
lemma shorten (known : s ∈ b.known) (ne : b.root s ≠ s) : (F.link s (b.root s)).Represents b := by
  obtain ⟨p, parent⟩ := (rep.met s).1 known
  have linked : p ≠ s := fun self => ne (rep.self s (self ▸ parent))
  obtain ⟨-, upward, same⟩ := rep.upward s p parent linked
  have above : b.place s < b.place (b.root s) := by
    rw [← same]
    exact lt_of_lt_of_le upward (rep.wellFormed.place_le_root p)
  refine ⟨rep.wellFormed, rep.closed, fun u => ?_, fun u q parent' ne' => ?_,
    fun u parent' => ?_, rep.value⟩
  · rw [rep.met]
    simp only [parent_link_eq_some]
    by_cases here : u = s
    · simp [here, parent]
    · simp [here]
  · rcases parent_link_eq_some.1 parent' with ⟨rfl, rfl⟩ | ⟨-, parent'⟩
    · exact ⟨rep.known_root known, above, rep.wellFormed.root_root u⟩
    · exact rep.upward u q parent' ne'
  · rcases parent_link_eq_some.1 parent' with ⟨rfl, self⟩ | ⟨-, parent'⟩
    · exact self.symm
    · exact rep.self u parent'

/-- A free symbol that is linked to another free one is solved by it. -/
lemma solve_link (known : s ∈ b.known) (free : b.Free s) (known' : t ∈ b.known) (free' : b.Free t)
    (ne : t ≠ s) : (F.link s t).Represents (b.solving s (.symbol t)) where
  wellFormed := rep.wellFormed.solving free (by simpa using free') (by simpa using Ne.symm ne)
  closed u e mem := by
    rcases List.mem_append.1 mem with old | new
    · exact rep.closed u e old
    · rw [List.mem_singleton] at new
      cases new
      refine ⟨known, fun u hu => ?_⟩
      rw [Dim.symbols_symbol, List.mem_singleton] at hu
      exact hu ▸ known'
  met u := by
    change u ∈ b.known ↔ _
    rw [rep.met]
    simp only [parent_link_eq_some]
    by_cases here : u = s
    · simp [here, (rep.met s).1 known]
    · simp [here]
  -- the linked symbol now lies before its parent; all other links keep their direction
  upward u p parent ne' := by
    rcases parent_link_eq_some.1 parent with ⟨rfl, rfl⟩ | ⟨-, parent⟩
    · refine ⟨known', ?_, ?_⟩
      · rw [place_solving_self free, place_solving_of_free free' ne]
        exact Nat.lt_succ_self _
      · rw [root_solving, root_solving, root_of_free free, root_of_free free', if_pos rfl,
          if_neg (Ne.symm ne), Dim.symbol?_eq_some_iff.2 rfl, Option.getD_some]
    · obtain ⟨there, upward, same⟩ := rep.upward u p parent ne'
      refine ⟨there, place_solving_lt upward, ?_⟩
      rw [root_solving, root_solving, same]
  self u parent := by
    rcases parent_link_eq_some.1 parent with ⟨rfl, rfl⟩ | ⟨here, parent⟩
    · exact absurd rfl ne
    · rw [root_solving, rep.self u parent, if_neg (Ne.symm here)]
  -- a link gives no value, so what is solved by a sum or a number is what was
  value u e := by
    rw [value_link, rep.value]
    refine and_congr_left fun value => ?_
    constructor
    · exact fun mem => List.mem_append_left _ mem
    · intro mem
      rcases List.mem_append.1 mem with old | new
      · exact old
      · rw [List.mem_singleton] at new
        cases new
        rw [Dim.symbol?_eq_some_iff.2 rfl] at value
        cases value

/-- A free root that carries a dimension is solved by it. -/
lemma solve_carry (known : s ∈ b.known) (free : b.Free s)
    (covers : ∀ t ∈ e.symbols, t ∈ b.known ∧ b.Free t) (proper : s ∉ e.symbols)
    (value : e.symbol? = none) : (F.carry s e).Represents (b.solving s e) where
  wellFormed := rep.wellFormed.solving free (fun t ht => (covers t ht).2) proper
  closed u d mem := by
    rcases List.mem_append.1 mem with old | new
    · exact rep.closed u d old
    · rw [List.mem_singleton] at new
      cases new
      exact ⟨known, fun t ht => (covers t ht).1⟩
  met := rep.met
  upward u p parent ne := by
    obtain ⟨there, upward, same⟩ := rep.upward u p parent ne
    refine ⟨there, place_solving_lt upward, ?_⟩
    rw [root_solving, root_solving, same]
  self u parent := by
    rw [root_solving, rep.self u parent, value, Option.getD_none, ite_self]
  value u d := by
    rw [value_carry_eq_some, rep.value]
    change _ ↔ (u, d) ∈ b.solved ++ [(s, e)] ∧ _
    rw [List.mem_append, List.mem_singleton, Prod.mk.injEq]
    constructor
    · rintro (⟨rfl, rfl⟩ | ⟨-, mem, kind⟩)
      · exact ⟨.inr ⟨rfl, rfl⟩, value⟩
      · exact ⟨.inl mem, kind⟩
    · rintro ⟨mem | new, kind⟩
      · exact .inr ⟨fun here => free (here ▸ List.mem_map_of_mem mem), mem, kind⟩
      · exact .inl new

end Represents

end Forest

end OperatorNet
