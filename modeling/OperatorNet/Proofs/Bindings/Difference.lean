import Mathlib.Tactic.Ring
import OperatorNet.Bindings.Unify
import OperatorNet.Proofs.Dim.Meaning

/-!
# Differences of dimensions

The difference of two dimensions lists the symbols whose multiplicities differ, each once
(`Dim.mem_difference_iff`), and weighs under every assignment what the values of the two differ by
apart from their numbers (`Dim.weigh_difference`).
-/

namespace OperatorNet

/-- The value of a sum of symbols with whole multiplicities. -/
def weigh (σ : String → Nat) : List (String × Int) → Int
  | [] => 0
  | p :: rest => p.2 * σ p.1 + weigh σ rest

/-- Writing a multiplicity replaces the one that was there. -/
lemma weigh_put (σ : String → Nat) (s : String) (n : Int) (l : List (String × Int)) :
    weigh σ (put s n l) = weigh σ l + (n - (fetch s l).getD 0) * σ s := by
  induction l with
  | nil => simp [put, fetch, weigh]
  | cons p rest ih =>
    obtain ⟨t, m⟩ := p
    by_cases eq : t = s
    · subst eq
      simp only [put, fetch, if_true, weigh, Option.getD_some]
      ring
    · simp only [put, fetch, eq, if_false, weigh, ih]
      ring

/-- Terms with the multiplicity zero weigh nothing. -/
lemma weigh_filter (σ : String → Nat) (l : List (String × Int)) :
    weigh σ (l.filter (·.2 ≠ 0)) = weigh σ l := by
  induction l with
  | nil => rfl
  | cons p rest ih =>
    by_cases zero : p.2 = 0
    · simp [zero, weigh, ← ih]
    · simp [zero, weigh, ← ih]

/-- A symbol that a list of signed multiplicities does not have weighs nothing. -/
lemma weigh_indicator_of_notMem {s : String} {l : List (String × Int)}
    (absent : s ∉ l.map Prod.fst) : weigh (indicator s) l = 0 := by
  induction l with
  | nil => rfl
  | cons p rest ih =>
    simp only [List.map_cons, List.mem_cons, not_or] at absent
    rw [weigh, indicator_of_ne (Ne.symm absent.1), ih absent.2]
    simp

/-- A symbol weighs what the list gives it, if no symbol stands there twice. -/
lemma weigh_indicator_of_mem {s : String} {n : Int} {l : List (String × Int)}
    (nodup : (l.map Prod.fst).Nodup) (mem : (s, n) ∈ l) : weigh (indicator s) l = n := by
  induction l with
  | nil => cases mem
  | cons p rest ih =>
    rw [List.map_cons, List.nodup_cons] at nodup
    rw [weigh]
    rcases List.mem_cons.1 mem with rfl | later
    · rw [weigh_indicator_of_notMem nodup.1, indicator_self]
      simp
    · have ne : p.1 ≠ s := fun eq => nodup.1 (eq ▸ List.mem_map_of_mem later)
      rw [indicator_of_ne ne, ih nodup.2 later]
      simp

namespace Dim

/-- The steps by which a difference is formed, before zeros are dropped. -/
private lemma weigh_subtract (σ : String → Nat) (l : List (String × Nat))
    (acc : List (String × Int)) :
    weigh σ (l.foldl (fun acc p => put p.1 ((fetch p.1 acc).getD 0 - (p.2 : Int)) acc) acc) =
      weigh σ acc - evalTerms σ l := by
  induction l generalizing acc with
  | nil => simp [evalTerms]
  | cons p rest ih =>
    rw [List.foldl_cons, ih, weigh_put, evalTerms]
    push_cast
    ring

/-- Taking terms away never makes a symbol stand twice. -/
private lemma nodup_subtract (l : List (String × Nat)) {acc : List (String × Int)}
    (nodup : (acc.map Prod.fst).Nodup) :
    ((l.foldl (fun acc p => put p.1 ((fetch p.1 acc).getD 0 - (p.2 : Int)) acc) acc).map
      Prod.fst).Nodup := by
  induction l generalizing acc with
  | nil => exact nodup
  | cons p rest ih => exact ih (nodup_put _ _ _ nodup)

/-- A difference weighs what the symbols of the two dimensions differ by. -/
lemma weigh_difference (σ : String → Nat) (x y : Dim) :
    weigh σ (x.difference y) = (evalTerms σ x.terms : Int) - evalTerms σ y.terms := by
  have start : ∀ l : List (String × Nat),
      weigh σ (l.map fun p => (p.1, (p.2 : Int))) = evalTerms σ l := by
    intro l
    induction l with
    | nil => rfl
    | cons p rest ih =>
      rw [List.map_cons, weigh, evalTerms, ih]
      push_cast
      ring
  rw [difference, weigh_filter, weigh_subtract, start]

/-- A difference lists each symbol once. -/
lemma nodup_difference (x y : Dim) : ((x.difference y).map Prod.fst).Nodup := by
  have start : ((x.terms.map fun p => (p.1, (p.2 : Int))).map Prod.fst).Nodup := by
    rw [List.map_map]
    exact x.nodup_symbols
  exact (nodup_subtract y.terms start).sublist (List.filter_sublist.map Prod.fst)

/-- The difference has each symbol with what its multiplicities differ by, unless that is zero. -/
lemma mem_difference_iff {x y : Dim} {s : String} {n : Int} :
    (s, n) ∈ x.difference y ↔ (x.coeff s : Int) - y.coeff s = n ∧ n ≠ 0 := by
  have weight : weigh (indicator s) (x.difference y) = (x.coeff s : Int) - y.coeff s :=
    weigh_difference (indicator s) x y
  constructor
  · intro mem
    have ne : n ≠ 0 := by
      have kept := (List.mem_filter.1 mem).2
      simpa using kept
    exact ⟨weight.symm.trans (weigh_indicator_of_mem (nodup_difference x y) mem), ne⟩
  · rintro ⟨rfl, ne⟩
    by_contra absent
    refine ne (weight.symm.trans (weigh_indicator_of_notMem fun listed => ?_))
    obtain ⟨⟨t, m⟩, mem, rfl⟩ := List.mem_map.1 listed
    have value := weigh_indicator_of_mem (nodup_difference x y) mem
    simp only at weight absent
    rw [← weight, value] at absent
    exact absent mem

/-- A difference is a single term when the multiplicities of one symbol alone differ. -/
lemma difference_eq_singleton_iff {x y : Dim} {s : String} {n : Int} :
    x.difference y = [(s, n)] ↔
      n ≠ 0 ∧ (x.coeff s : Int) - y.coeff s = n ∧ ∀ t, t ≠ s → x.coeff t = y.coeff t := by
  constructor
  · intro single
    have here := mem_difference_iff.1 (single ▸ List.mem_singleton_self (s, n) :
      (s, n) ∈ x.difference y)
    refine ⟨here.2, here.1, fun t ne => ?_⟩
    by_contra differ
    have listed : (t, (x.coeff t : Int) - y.coeff t) ∈ x.difference y :=
      mem_difference_iff.2 ⟨rfl, by omega⟩
    rw [single, List.mem_singleton] at listed
    exact ne (congrArg Prod.fst listed)
  · rintro ⟨ne, here, elsewhere⟩
    have nodup : (x.difference y).Nodup := (nodup_difference x y).of_map
    refine List.perm_singleton.1 ((List.perm_ext_iff_of_nodup nodup (by simp)).2 ?_)
    rintro ⟨t, m⟩
    rw [mem_difference_iff, List.mem_singleton, Prod.mk.injEq]
    constructor
    · rintro ⟨value, nonzero⟩
      by_cases eq : t = s
      · subst eq
        exact ⟨rfl, by omega⟩
      · have := elsewhere t eq
        omega
    · rintro ⟨rfl, rfl⟩
      exact ⟨here, ne⟩

end Dim

end OperatorNet
