import Mathlib.Data.Option.Basic
import OperatorNet.Proofs.Bindings.Symmetry
import OperatorNet.Proofs.Dim.Writing

/-!
# Unification commutes with renaming

Dimensions list their symbols in the order of their names, so new names put their parts in another
order. Unification does not look at this order: under names that are kept apart it solves the same
symbols by the same dimensions, apart from their names (`Mirrors`), and where it fails it fails for
the same reason (`Mirrors.follows`). So bindings for renamed slots resolve a renamed type to what
the bindings for the slots resolve the type to, renamed (`unifySlots_replace`).
-/

namespace OperatorNet

section Dimensions

variable {P : String → Prop} {ρ : String → String} (inj : Set.InjOn ρ {s | P s})

include inj

/-- Renaming that confuses no symbols confuses no dimensions. -/
lemma Dim.rename_inj {x y : Dim} (left : x.Within P) (right : y.Within P) :
    x.rename ρ = y.rename ρ ↔ x = y := by
  refine ⟨fun same => ?_, fun same => same ▸ rfl⟩
  obtain ⟨ρ', -, backX, backY, -⟩ :=
    Bindings.exists_rename_back (inj.mono fun s mem => mem.elim (left s) (right s))
  rw [← backX, same, backY]

/-- A renamed dimension is one symbol when the dimension is, and then the renamed one. -/
lemma Dim.symbol?_rename {x : Dim} (covers : x.Within P) :
    (x.rename ρ).symbol? = x.symbol?.map ρ := by
  refine Option.ext fun t => ?_
  rw [Dim.symbol?_eq_some_iff, Option.map_eq_some_iff]
  constructor
  · intro alone
    obtain ⟨ρ', -, back, -, -⟩ :=
      Bindings.exists_rename_back (x := x) (y := x)
        (inj.mono fun s mem => mem.elim (covers s) (covers s))
    rw [alone, Dim.rename_symbol] at back
    refine ⟨ρ' t, Dim.symbol?_eq_some_iff.2 back.symm, ?_⟩
    have again := congrArg Dim.symbols alone
    rw [← back, Dim.rename_symbol] at again
    exact List.singleton_inj.1 again
  · rintro ⟨s, alone, rfl⟩
    rw [Dim.symbol?_eq_some_iff.1 alone, Dim.rename_symbol]

/-- A renamed symbol occurs in a renamed dimension just when the symbol occurs in the dimension. -/
lemma Dim.mem_symbols_rename_iff {x : Dim} {s : String} (covers : x.Within P) (known : P s) :
    ρ s ∈ (x.rename ρ).symbols ↔ s ∈ x.symbols := by
  rw [Dim.mem_symbols_rename]
  refine ⟨fun ⟨t, ht, same⟩ => ?_, fun mem => ⟨s, mem, rfl⟩⟩
  rwa [inj known (covers t ht) same]

omit inj in
/-- Renaming leaves numbers numbers, and makes no others. -/
lemma Dim.isConcrete_rename (ρ : String → String) (x : Dim) :
    (x.rename ρ).isConcrete = x.isConcrete := by
  rw [Bool.eq_iff_iff, Dim.isConcrete_iff, Dim.isConcrete_iff, List.eq_nil_iff_forall_not_mem,
    List.eq_nil_iff_forall_not_mem]
  refine ⟨fun none s mem => none (ρ s) (Dim.mem_symbols_rename.2 ⟨s, mem, rfl⟩),
    fun none t mem => ?_⟩
  obtain ⟨s, hs, -⟩ := Dim.mem_symbols_rename.1 mem
  exact none s hs

/-- Replacing a symbol and renaming commute. -/
lemma Dim.substitute_onlySymbol_rename {d e : Dim} {s : String} (covers : d.Within P)
    (known : P s) :
    (d.rename ρ).substitute (onlySymbol (ρ s) (e.rename ρ)) =
      (d.substitute (onlySymbol s e)).rename ρ := by
  refine Dim.eval_ext fun σ => ?_
  rw [Dim.eval_substitute, Dim.eval_rename, Dim.eval_rename, Dim.eval_substitute]
  refine Dim.eval_congr fun t ht => ?_
  by_cases same : t = s
  · rw [same, onlySymbol, onlySymbol, if_pos rfl, if_pos rfl, Dim.eval_rename]
  · rw [onlySymbol, onlySymbol, if_neg same, if_neg fun eq => same (inj (covers t ht) known eq),
      Dim.eval_symbol, Dim.eval_symbol]

end Dimensions

namespace Bindings

/-- Bindings over the symbols in `P`, and bindings with the same solved symbols under other
names. -/
structure Mirrors (P : String → Prop) (ρ : String → String) (b₁ b₂ : Bindings) : Prop where
  within : b₁.Within P
  solved : b₂.solved = b₁.solved.map fun p => (ρ p.1, p.2.rename ρ)

/-- Bindings that know nothing have no names. -/
lemma Mirrors.empty (P : String → Prop) (ρ : String → String) : Mirrors P ρ empty empty :=
  ⟨.empty P, rfl⟩

section Names

variable {P : String → Prop} {ρ : String → String} {b₁ b₂ : Bindings}
  (inj : Set.InjOn ρ {s | P s})

include inj

/-- What a dimension stands for is the same under other names. -/
lemma Mirrors.resolve (mirrors : Mirrors P ρ b₁ b₂) {d : Dim} (covers : d.Within P) :
    b₂.resolve (d.rename ρ) = (b₁.resolve d).rename ρ := by
  have within := mirrors.within
  rw [resolve_eq_replaceAll, resolve_eq_replaceAll, mirrors.solved]
  unfold Bindings.Within at within
  generalize b₁.solved = l at within
  induction l generalizing d with
  | nil => rfl
  | cons p rest ih =>
    rw [List.forall_mem_cons] at within
    obtain ⟨⟨known, value⟩, within⟩ := within
    have next : (d.substitute (onlySymbol p.1 p.2)).Within P := fun s mem =>
      (Dim.mem_symbols_onlySymbol mem).elim (value s) fun old => covers s old.1
    rw [List.map_cons, replaceAll_cons, replaceAll_cons,
      Dim.substitute_onlySymbol_rename inj covers known]
    exact ih next within

/-- A symbol is solved under other names exactly when it is solved. -/
lemma Mirrors.assign (mirrors : Mirrors P ρ b₁ b₂) {s : String} {e : Dim} (known : P s)
    (covers : e.Within P) :
    Option.Rel (Mirrors P ρ) (b₁.assign s e) (b₂.assign (ρ s) (e.rename ρ)) := by
  simp only [Bindings.assign, Dim.mem_symbols_rename_iff inj covers known]
  split
  next => exact .none
  next =>
    refine .some ⟨List.forall_mem_append.2 ⟨mirrors.within, ?_⟩, ?_⟩
    · exact List.forall_mem_singleton.2 ⟨known, covers⟩
    · rw [mirrors.solved, List.map_append, List.map_singleton]

/-- Bindings that mirror each other solve an equation for one symbol alike. -/
lemma Mirrors.solveOne (mirrors : Mirrors P ρ b₁ b₂) {x y : Dim} (left : x.Within P)
    (right : y.Within P) :
    Option.Rel (Mirrors P ρ) (b₁.solveOne x y) (b₂.solveOne (x.rename ρ) (y.rename ρ)) := by
  have mono : Set.InjOn ρ {s | s ∈ x.symbols ∨ s ∈ y.symbols} :=
    inj.mono fun s mem => mem.elim (left s) (right s)
  by_cases single : ∃ s n, x.difference y = [(s, n)]
  · obtain ⟨s, n, single⟩ := single
    have known : P s := by
      have here := Dim.mem_difference_iff.1 (single ▸ List.mem_singleton_self (s, n) :
        (s, n) ∈ x.difference y)
      have occurs : s ∈ x.symbols ∨ s ∈ y.symbols := by
        rw [Dim.mem_symbols_iff, Dim.mem_symbols_iff]
        omega
      exact occurs.elim (left s) (right s)
    have number : ∀ k, (Dim.ofNat k).Within P := fun k s mem => absurd mem List.not_mem_nil
    have same : ∀ k, (Dim.ofNat k).rename ρ = .ofNat k := fun k => rfl
    rw [Bindings.solveOne, Bindings.solveOne, difference_rename mono single, single]
    dsimp only
    rw [Dim.const_rename, Dim.const_rename]
    split
    next => exact same _ ▸ mirrors.assign inj known (number _)
    next => exact .none
  · -- a single symbol under the new names would be one under the old ones
    have several : ∀ s n, (x.rename ρ).difference (y.rename ρ) ≠ [(s, n)] := by
      intro s n again
      obtain ⟨ρ', -, backX, backY, apart⟩ := exists_rename_back mono
      have back := difference_rename apart again
      rw [backX, backY] at back
      exact single ⟨_, _, back⟩
    have refused : ∀ {b : Bindings} {x y : Dim}, (∀ s n, x.difference y ≠ [(s, n)]) →
        b.solveOne x y = none := by
      intro b x y several
      rw [Bindings.solveOne]
      split
      next s n found => exact absurd found (several s n)
      next => rfl
    rw [refused several, refused fun s n found => single ⟨s, n, found⟩]
    exact .none

/-- Bindings that mirror each other solve an equation alike. -/
lemma Mirrors.solve (mirrors : Mirrors P ρ b₁ b₂) {x y : Dim} (left : x.Within P)
    (right : y.Within P) :
    Option.Rel (Mirrors P ρ) (b₁.solve x y) (b₂.solve (x.rename ρ) (y.rename ρ)) := by
  have symbolOf : ∀ {d : Dim} {s : String}, d.Within P → d.symbol? = some s → P s := by
    intro d s covers alone
    obtain rfl := Dim.symbol?_eq_some_iff.1 alone
    exact covers s (List.mem_singleton_self s)
  simp only [Bindings.solve, Dim.rename_inj inj left right, Dim.isConcrete_rename,
    Dim.symbol?_rename inj left, Dim.symbol?_rename inj right]
  split
  next => exact .some mirrors
  next =>
    split
    next => exact .none
    next =>
      cases first : x.symbol? with
      | some s => exact mirrors.assign inj (symbolOf left first) right
      | none =>
        cases second : y.symbol? with
        | some s => exact mirrors.assign inj (symbolOf right second) left
        | none => exact mirrors.solveOne inj left right

/-- Dimensions unify under other names as they do. -/
lemma Mirrors.unifyDim (mirrors : Mirrors P ρ b₁ b₂) {x y : Dim} (left : x.Within P)
    (right : y.Within P) :
    Option.Rel (Mirrors P ρ) (b₁.unifyDim x y) (b₂.unifyDim (x.rename ρ) (y.rename ρ)) := by
  have met : Mirrors P ρ (b₁.meetBoth x y) (b₂.meetBoth (x.rename ρ) (y.rename ρ)) :=
    ⟨mirrors.within, mirrors.solved⟩
  rw [Bindings.unifyDim, Bindings.unifyDim, mirrors.resolve inj left, mirrors.resolve inj right]
  exact met.solve inj (mirrors.within.resolve left) (mirrors.within.resolve right)

/-- Unification fails under other names for the same reasons. -/
lemma Mirrors.follows : Follows P ρ (Mirrors P ρ) fun m n => n = m.rename ρ where
  unifyDim mirrors _ _ left right := mirrors.unifyDim inj left right
  axis mirrors place x y left right := by
    rw [mirrors.resolve inj left, mirrors.resolve inj right]
    rfl
  heads _ same := same.symm

/-- What a type stands for is the same under other names. -/
lemma Mirrors.resolveType (mirrors : Mirrors P ρ b₁ b₂) {t : PortType} (covers : t.Within P) :
    b₂.resolveType (t.rename ρ) = (b₁.resolveType t).rename ρ := by
  rw [Bindings.resolveType, Bindings.resolveType, PortType.rename, PortType.rename,
    PortType.mapDims_mapDims, PortType.mapDims_mapDims]
  exact PortType.mapDims_congr fun d hd => mirrors.resolve inj (covers d hd)

end Names

end Bindings

/-! ### Terms that name symbols anew -/

/-- Terms give each symbol in `P` a name of its own; a symbol without a term keeps its name. -/
structure Renames (terms : List (String × Data Float)) (P : String → Prop) (ρ : String → String) :
    Prop where
  reads : ∀ s, P s → Dim.ofData ((fetch s terms).getD (.text s)) = .ok (.symbol (ρ s))
  apart : Set.InjOn ρ {s | P s}

namespace Renames

variable {terms : List (String × Data Float)} {P : String → Prop} {ρ : String → String}
  (renames : Renames terms P ρ)

include renames

/-- Replacing the names in a dimension renames it. -/
lemma replaceDim_eq_ok {d : Dim} (covers : d.Within P) :
    PortType.replaceDim terms d = .ok (d.rename ρ) := by
  rw [PortType.replaceDim, Dim.rename, Dim.substitute]
  unfold Dim.Within Dim.symbols at covers
  generalize Dim.ofNat d.const = sum
  generalize d.terms = l at covers
  induction l generalizing sum with
  | nil => rfl
  | cons p rest ih =>
    rw [List.map_cons, List.forall_mem_cons] at covers
    rw [List.foldlM_cons, renames.reads p.1 covers.1]
    exact ih _ covers.2

/-- Replacing the names in a type renames it. -/
lemma replace_eq_ok {t : PortType} (covers : t.Within P) : t.replace terms = .ok (t.rename ρ) := by
  have each : ∀ d ∈ t.shape, ∀ e, PortType.replaceDim terms d = .ok e ↔ True ∧ e = d.rename ρ := by
    intro d hd e
    rw [renames.replaceDim_eq_ok (covers d hd), true_and, Except.ok.injEq, eq_comm]
  rw [PortType.replace, (mapM_eq_ok_iff each).2 ⟨fun _ _ => trivial, rfl⟩]
  rfl

end Renames

/-- A name reads as the symbol of that name. -/
lemma IsName.ofData {s : String} (name : IsName s) : Dim.ofData (.text s) = .ok (.symbol s) := by
  have names : (Dim.symbol s).Within IsName := List.forall_mem_singleton.2 name
  have written : (Dim.symbol s).toTerm = .text s := by
    rw [Dim.toTerm, if_neg (by simp [Dim.isConcrete, Dim.symbol])]
    simp [Dim.pieces, Dim.symbol]
  have short : (Dim.symbol s).const < Text.unwritable := by
    obtain ⟨k, -, -, least⟩ := exists_unwritable_eq
    exact least ▸ Nat.pow_pos (by decide)
  have read := (Dim.ofData_toTerm_eq_ok_iff names).2 ⟨.inr short, rfl⟩
  rwa [written] at read

namespace Bindings

/-- Terms that name symbols anew, each by a name of its own, change nothing about unification but
the names: the renamed slots unify exactly when the slots do, they fail for the same reason, and the
bindings that they give resolve a renamed type to what the bindings of the slots resolve it to,
renamed. -/
theorem unifySlots_replace {terms : List (String × Data Float)} {P : String → Prop}
    {ρ : String → String} (renames : Renames terms P ρ) {slots : List (PortType × PortType)}
    (covers : ∀ p ∈ slots, p.1.Within P ∧ p.2.Within P) :
    ∃ renamed, (slots.mapM fun p => do return (← p.1.replace terms, ← p.2.replace terms)) =
      .ok renamed ∧
      ((empty.unifySlots? slots).isSome ↔ (empty.unifySlots? renamed).isSome) ∧
      (∀ m, empty.unifySlots slots = .error m → empty.unifySlots renamed = .error (m.rename ρ)) ∧
      ∀ b c, empty.unifySlots? slots = some b → empty.unifySlots? renamed = some c →
        ∀ t : PortType, t.Within P → ∃ u, t.replace terms = .ok u ∧
          (b.resolveType t).replace terms = .ok (c.resolveType u) := by
  -- replacing by terms is renaming, as every symbol of the slots is given a term that is a symbol
  have each : ∀ p ∈ slots, ∀ q : PortType × PortType,
      (do return (← p.1.replace terms, ← p.2.replace terms)) = Except.ok q ↔
        True ∧ q = (p.1.rename ρ, p.2.rename ρ) := by
    intro p hp q
    obtain ⟨left, right⟩ := covers p hp
    rw [renames.replace_eq_ok left, renames.replace_eq_ok right, true_and]
    exact ⟨fun same => (Except.ok.inj same).symm, fun same => congrArg Except.ok same.symm⟩
  have alike := (Mirrors.follows renames.apart).unifySlots (Mirrors.empty P ρ) covers
  refine ⟨_, (mapM_eq_ok_iff each).2 ⟨fun _ _ => trivial, rfl⟩, ?_⟩
  rw [unifySlots?, unifySlots?]
  generalize empty.unifySlots slots = first at alike
  generalize empty.unifySlots (slots.map fun p => (p.1.rename ρ, p.2.rename ρ)) = second at alike
  cases alike with
  | error same =>
    subst same
    refine ⟨iff_of_false nofun nofun, fun m' eq => ?_, nofun⟩
    cases eq
    rfl
  | @ok b c mirrors =>
    refine ⟨iff_of_true rfl rfl, nofun, fun b' c' first second t known => ?_⟩
    cases first
    cases second
    refine ⟨_, renames.replace_eq_ok known, ?_⟩
    rw [renames.replace_eq_ok (mirrors.within.resolveType known),
      mirrors.resolveType renames.apart known]

namespace Sample

/-- Each of five symbols is given the name of the one before it, and the first one that of the
last. -/
def turned : String → String
  | "A" => "E"
  | "B" => "A"
  | "C" => "B"
  | "D" => "C"
  | "E" => "D"
  | s => s

/-- Five names, each for the next. -/
def circle : List (String × Data Float) :=
  ["A", "B", "C", "D", "E"].map fun s => (s, .text (turned s))

/-- The five names are renamed in a circle. -/
lemma renames_circle : Renames circle (· ∈ ["A", "B", "C", "D", "E"]) turned := by
  have read : ∀ s ∈ ["A", "B", "C", "D", "E"],
      (fetch s circle).getD (.text s) = .text (turned s) ∧ IsName (turned s) := by
    simp only [List.forall_mem_cons]
    exact ⟨⟨rfl, by decide⟩, ⟨rfl, by decide⟩, ⟨rfl, by decide⟩, ⟨rfl, by decide⟩, ⟨rfl, by decide⟩,
      List.forall_mem_nil _⟩
  have apart : ∀ s ∈ ["A", "B", "C", "D", "E"], ∀ t ∈ ["A", "B", "C", "D", "E"],
      turned s = turned t → s = t := by
    decide
  exact ⟨fun s known => (read s known).1 ▸ (read s known).2.ofData,
    fun s hs t ht => apart s hs t ht⟩

/-- Slots that make `A` three and `B` four, and then `D` two and `C` two more than `E`. -/
def chained : List (PortType × PortType) :=
  [(pair (.symbol "A") (.symbol "A" + .symbol "B"), pair (.ofNat 3) (.ofNat 7)),
    (pair (.symbol "B") (.symbol "C"), pair (.symbol "D" + .ofNat 2) (.symbol "D" + .symbol "E"))]

end Sample

open Sample in
/-- Under names that put the parts of sums in another order, the sum of `C` and `A` is again five
more than what `E` has become. -/
theorem unifySlots_replace_circle :
    Renames circle (· ∈ ["A", "B", "C", "D", "E"]) turned ∧
      (∀ p ∈ chained, p.1.Within (· ∈ ["A", "B", "C", "D", "E"]) ∧
        p.2.Within (· ∈ ["A", "B", "C", "D", "E"])) ∧
      ∃ renamed b c,
        (chained.mapM fun p => do return (← p.1.replace circle, ← p.2.replace circle)) =
          .ok renamed ∧
        empty.unifySlots? chained = some b ∧ empty.unifySlots? renamed = some c ∧
        b.resolveType (pair (.symbol "C" + .symbol "A") (.symbol "E")) =
          pair (.symbol "E" + .ofNat 5) (.symbol "E") ∧
        c.resolveType (pair (.symbol "B" + .symbol "E") (.symbol "D")) =
          pair (.symbol "D" + .ofNat 5) (.symbol "D") := by
  have covers : ∀ p ∈ chained, p.1.Within (· ∈ ["A", "B", "C", "D", "E"]) ∧
      p.2.Within (· ∈ ["A", "B", "C", "D", "E"]) := by
    decide +kernel
  have known : (pair (.symbol "C" + .symbol "A") (.symbol "E")).Within
      (· ∈ ["A", "B", "C", "D", "E"]) := by
    decide +kernel
  have value : (empty.unifySlots? chained).map
      (·.resolveType (pair (.symbol "C" + .symbol "A") (.symbol "E"))) =
        some (pair (.symbol "E" + .ofNat 5) (.symbol "E")) := by
    decide +kernel
  obtain ⟨b, first, resolved⟩ := Option.map_eq_some_iff.1 value
  obtain ⟨renamed, made, accepted, -, same⟩ := unifySlots_replace renames_circle covers
  obtain ⟨c, second⟩ := Option.isSome_iff_exists.1 (accepted.1 (first ▸ rfl))
  obtain ⟨u, read, again⟩ := same b c first second _ known
  refine ⟨renames_circle, covers, renamed, b, c, made, first, second, resolved, ?_⟩
  -- the renamed types, read off what renaming gives
  rw [renames_circle.replace_eq_ok known, Except.ok.injEq] at read
  have within : (pair (.symbol "E" + .ofNat 5) (.symbol "E")).Within
      (· ∈ ["A", "B", "C", "D", "E"]) := by
    decide +kernel
  rw [resolved, renames_circle.replace_eq_ok within, Except.ok.injEq] at again
  have given : u = pair (.symbol "B" + .symbol "E") (.symbol "D") :=
    read.symm.trans (by decide +kernel)
  rw [← given, ← again]
  decide +kernel

end Bindings

end OperatorNet
