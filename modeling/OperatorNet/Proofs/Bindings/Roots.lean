import Mathlib.Data.List.Nodup
import OperatorNet.Proofs.Bindings.Solutions

/-!
# Roots of symbols

A solved symbol is linked to another symbol, or it stands for a dimension that is no symbol. Links
lead from symbols solved earlier to symbols solved later or not at all, so they end: a symbol has a
`place` in the order of solving, which grows along links and from a symbol to the symbols of what it
stands for (`place_lt_of_mem_symbols`). The root of a symbol is where its links end
(`root_of_link`, `root_of_value`), and a symbol resolves like its root (`resolve_symbol_root`).
-/

namespace OperatorNet.Bindings

variable {b : Bindings} {s t : String} {e : Dim}

/-- How many symbols were solved before a symbol; symbols that are not solved come last. -/
def place (b : Bindings) (s : String) : Nat :=
  b.solvedSymbols.idxOf s

/-- One step towards the root, over one solved symbol. -/
def rootStep (r : String) (p : String × Dim) : String :=
  if p.1 = r then p.2.symbol?.getD r else r

/-- The root of a symbol is found by going through what is solved. -/
lemma root_eq_foldl (b : Bindings) (s : String) : b.root s = b.solved.foldl rootStep s :=
  rfl

/-- A symbol that is not solved stays when the solved ones are gone through. -/
lemma foldl_rootStep_of_ne {l : List (String × Dim)} (ne : ∀ p ∈ l, p.1 ≠ s) :
    l.foldl rootStep s = s := by
  induction l with
  | nil => rfl
  | cons p rest ih =>
    have stays : rootStep s p = s := if_neg (ne p (by simp))
    rw [List.foldl_cons, stays]
    exact ih fun q hq => ne q (by simp [hq])

/-- A free symbol is its own root. -/
lemma root_of_free (free : b.Free s) : b.root s = s :=
  foldl_rootStep_of_ne fun _ hp eq => free (eq ▸ List.mem_map_of_mem hp)

/-- A symbol is solved once. -/
lemma WellFormed.eq_of_mem (wf : b.WellFormed) {e' : Dim} (mem : (s, e) ∈ b.solved)
    (mem' : (s, e') ∈ b.solved) : e = e' := by
  have apart : b.solvedSymbols.Nodup := List.pairwise_map.2 (wf.apart.imp And.left)
  exact congrArg Prod.snd (List.inj_on_of_nodup_map apart mem mem' rfl)

/-- Each symbol is free or solved. -/
lemma free_or_solved (b : Bindings) (s : String) : b.Free s ∨ ∃ e, (s, e) ∈ b.solved := by
  by_cases free : b.Free s
  · exact .inl free
  · obtain ⟨⟨u, e⟩, mem, rfl⟩ := List.mem_map.1 (not_not.1 free)
    exact .inr ⟨e, mem⟩

/-- No place lies behind that of the free symbols. -/
lemma place_le_length (b : Bindings) (s : String) : b.place s ≤ b.solved.length := by
  have places := List.idxOf_le_length (a := s) (l := b.solvedSymbols)
  rwa [solvedSymbols, List.length_map] at places

/-- Free symbols share the last place. -/
lemma place_of_free (free : b.Free s) : b.place s = b.solved.length := by
  rw [place, List.idxOf_of_notMem free]
  exact List.length_map ..

/-- The symbols before the last place are the solved ones. -/
lemma place_lt_length_iff : b.place s < b.solved.length ↔ ¬ b.Free s := by
  have places := List.idxOf_lt_length_iff (a := s) (l := b.solvedSymbols)
  rw [solvedSymbols, List.length_map] at places
  exact places.trans not_not.symm

/-- What is solved splits into what was solved before a symbol and after it; what was solved before
does not touch the symbol or what it stands for. -/
lemma WellFormed.split (wf : b.WellFormed) (mem : (s, e) ∈ b.solved) :
    ∃ before after, b.solved = before ++ (s, e) :: after ∧
      (∀ p ∈ before, p.1 ≠ s ∧ p.1 ∉ e.symbols) ∧ (∀ p ∈ after, p.1 ≠ s) ∧ s ∉ e.symbols := by
  have apart := wf.apart
  obtain ⟨before, after, split⟩ := List.append_of_mem mem
  rw [split, List.pairwise_append, List.pairwise_cons] at apart
  refine ⟨before, after, split, fun p hp => apart.2.2 p hp (s, e) (by simp), fun p hp => ?_,
    wf.proper _ mem⟩
  exact ((apart.2.1.1 p hp).1).symm

/-- What a symbol is solved by is solved after it, or free. -/
lemma WellFormed.place_lt_of_mem_symbols (wf : b.WellFormed) (mem : (s, e) ∈ b.solved)
    (occurs : t ∈ e.symbols) : b.place s < b.place t := by
  obtain ⟨before, after, split, earlier, -, proper⟩ := wf.split mem
  have symbols : b.solvedSymbols = before.map Prod.fst ++ s :: after.map Prod.fst := by
    rw [solvedSymbols, split, List.map_append, List.map_cons]
  have here : s ∉ before.map Prod.fst := by
    intro again
    obtain ⟨p, hp, eq⟩ := List.mem_map.1 again
    exact (earlier p hp).1 eq
  have there : t ∉ before.map Prod.fst := by
    intro again
    obtain ⟨p, hp, eq⟩ := List.mem_map.1 again
    exact (earlier p hp).2 (eq ▸ occurs)
  have ne : s ≠ t := fun eq => proper (eq ▸ occurs)
  rw [place, place, symbols, List.idxOf_append_of_notMem here, List.idxOf_append_of_notMem there,
    List.idxOf_cons_self, List.idxOf_cons_ne _ ne]
  omega

/-- A symbol that is solved by a symbol has its root. -/
lemma WellFormed.root_of_link (wf : b.WellFormed) (mem : (s, .symbol t) ∈ b.solved) :
    b.root s = b.root t := by
  obtain ⟨before, after, split, earlier, -, proper⟩ := wf.split mem
  rw [Dim.symbols_symbol, List.mem_singleton] at proper
  have stays : before.foldl rootStep t = t := by
    refine foldl_rootStep_of_ne fun p hp eq => (earlier p hp).2 ?_
    rw [Dim.symbols_symbol, List.mem_singleton, eq]
  have goes : rootStep s (s, .symbol t) = t := by
    rw [rootStep, if_pos rfl, Dim.symbol?_eq_some_iff.2 rfl, Option.getD_some]
  have ends : rootStep t (s, .symbol t) = t := if_neg proper
  rw [root_eq_foldl, root_eq_foldl, split, List.foldl_append, List.foldl_append, List.foldl_cons,
    List.foldl_cons, foldl_rootStep_of_ne fun p hp => (earlier p hp).1, stays, goes, ends]

/-- A symbol that is solved by a sum or a number is its own root. -/
lemma WellFormed.root_of_value (wf : b.WellFormed) (mem : (s, e) ∈ b.solved)
    (value : e.symbol? = none) : b.root s = s := by
  obtain ⟨before, after, split, earlier, later, -⟩ := wf.split mem
  have stays : rootStep s (s, e) = s := by
    rw [rootStep, if_pos rfl, value, Option.getD_none]
  rw [root_eq_foldl, split, List.foldl_append, List.foldl_cons,
    foldl_rootStep_of_ne fun p hp => (earlier p hp).1, stays, foldl_rootStep_of_ne later]

/-- To show something of a symbol, one may use it of all symbols that were solved later. -/
lemma place_induction {P : String → Prop}
    (step : ∀ s, (∀ t, b.place s < b.place t → P t) → P s) (s : String) : P s := by
  -- The number of places left above a symbol falls.
  induction h : b.solved.length - b.place s using Nat.strong_induction_on generalizing s with
  | _ n ih =>
    refine step s fun t later => ih _ ?_ t rfl
    have := b.place_le_length t
    omega

/-- The ways in which a symbol can have a root: it is linked to another symbol, or it is a root. -/
lemma WellFormed.root_cases (wf : b.WellFormed) (s : String) :
    (∃ t, (s, .symbol t) ∈ b.solved ∧ b.place s < b.place t ∧ b.root s = b.root t) ∨
      b.root s = s ∧ ∀ e, (s, e) ∈ b.solved → e.symbol? = none := by
  rcases b.free_or_solved s with free | ⟨e, mem⟩
  · exact .inr ⟨root_of_free free, fun e mem => absurd (List.mem_map_of_mem mem) free⟩
  · cases kind : e.symbol? with
    | none =>
      refine .inr ⟨wf.root_of_value mem kind, fun e' mem' => ?_⟩
      rw [← wf.eq_of_mem mem mem', kind]
    | some t =>
      obtain rfl := Dim.symbol?_eq_some_iff.1 kind
      exact .inl ⟨t, mem, wf.place_lt_of_mem_symbols mem (by simp), wf.root_of_link mem⟩

/-- A root does not lie before the symbol. -/
lemma WellFormed.place_le_root (wf : b.WellFormed) (s : String) :
    b.place s ≤ b.place (b.root s) := by
  induction s using place_induction (b := b) with
  | _ s ih =>
    rcases wf.root_cases s with ⟨t, -, later, same⟩ | ⟨self, -⟩
    · rw [same]
      exact later.le.trans (ih t later)
    · rw [self]

/-- A root is its own root. -/
lemma WellFormed.root_root (wf : b.WellFormed) (s : String) : b.root (b.root s) = b.root s := by
  induction s using place_induction (b := b) with
  | _ s ih =>
    rcases wf.root_cases s with ⟨t, -, later, same⟩ | ⟨self, -⟩
    · rw [same]
      exact ih t later
    · rw [self, self]

/-- A symbol and its root are resolved alike. -/
lemma WellFormed.resolve_symbol_root (wf : b.WellFormed) (s : String) :
    b.resolve (.symbol (b.root s)) = b.resolve (.symbol s) := by
  induction s using place_induction (b := b) with
  | _ s ih =>
    rcases wf.root_cases s with ⟨t, mem, later, same⟩ | ⟨self, -⟩
    · rw [same, ih t later]
      exact (wf.resolve_symbol_of_mem mem).symm
    · rw [self]

/-- Symbols that are linked have one value. -/
lemma Satisfies.eq_root {σ : String → Nat} (satisfied : b.Satisfies σ) (wf : b.WellFormed)
    (s : String) : σ (b.root s) = σ s := by
  have same := congrArg (Dim.eval σ) (wf.resolve_symbol_root s)
  rwa [eval_resolve satisfied, eval_resolve satisfied, Dim.eval_symbol, Dim.eval_symbol] at same

end OperatorNet.Bindings
