import OperatorNet.Proofs.Bindings.Unification

/-!
# Histories of bindings

What bindings already say may be put into two types before they are unified: then unifying from
nothing finds the same equations (`Bindings.unify?_resolveType`). So what becomes known where types
meet depends on what they resolve to, and not on how the bindings came about.

Bindings come about by looking symbols up, resolving dimensions and attempts to unify, whether they
succeed or not; a copy is the same bindings again. Whatever the history, the bindings are well
formed, and what has become equal stays equal. `unifyDim_mostGeneral` says what an attempt to unify
does to the assignments that satisfy such bindings.
-/

namespace OperatorNet.Bindings

/-! ### Unification from nothing -/

/-- The bindings `b'` say what `b` says, and then what `l` says. -/
def Chains (b l b' : Bindings) : Prop :=
  b'.solved = b.solved ++ l.solved

variable {b b' l : Bindings}

/-- Nothing more is said than what is said already. -/
lemma Chains.empty (b : Bindings) : Chains b empty b :=
  (List.append_nil _).symm

/-- What was said first is put in first. -/
lemma Chains.resolve (chains : Chains b l b') (d : Dim) :
    b'.resolve d = l.resolve (b.resolve d) := by
  rw [Bindings.resolve, chains, List.foldl_append]
  rfl

/-- Resolving a type in chained bindings is resolving it in one after the other. -/
lemma Chains.resolveType (chains : Chains b l b') (t : PortType) :
    b'.resolveType t = l.resolveType (b.resolveType t) := by
  rw [Bindings.resolveType, Bindings.resolveType, Bindings.resolveType, PortType.mapDims_mapDims]
  exact PortType.mapDims_congr fun d _ => chains.resolve d

/-- A symbol is added to what was said last. -/
lemma Chains.assign (chains : Chains b l b') (s : String) (e : Dim) :
    Option.Rel (Chains b) (l.assign s e) (b'.assign s e) := by
  unfold Bindings.assign
  split
  · exact .none
  · refine .some ?_
    rw [Chains, chains, List.append_assoc]

/-- Whether an equation can be solved, and how, does not depend on what was said before. -/
lemma Chains.solve (chains : Chains b l b') (x y : Dim) :
    Option.Rel (Chains b) (l.solve x y) (b'.solve x y) := by
  unfold Bindings.solve
  split
  · exact .some chains
  split
  · exact .none
  split
  · exact chains.assign _ _
  · exact chains.assign _ _
  · unfold solveOne
    split
    · dsimp only
      split
      · exact chains.assign _ _
      · exact .none
    · exact .none

/-- Bindings that are chained stay so when dimensions are unified. -/
lemma Chains.unifyDim (chains : Chains b l b') (x y : Dim) :
    Option.Rel (Chains b) (l.unifyDim (b.resolve x) (b.resolve y)) (b'.unifyDim x y) := by
  rw [Bindings.unifyDim, Bindings.unifyDim, chains.resolve, chains.resolve]
  have met : Chains b (l.meetBoth (b.resolve x) (b.resolve y)) (b'.meetBoth x y) := chains
  exact met.solve _ _

/-- Axes are unified by what they resolve to. -/
lemma Chains.unifyAxes (chains : Chains b l b') (place : Nat) (axes : List (Dim × Dim)) :
    Option.Rel (Chains b)
      (l.unifyAxes place (axes.map fun p => (b.resolve p.1, b.resolve p.2))).toOption
      (b'.unifyAxes place axes).toOption := by
  induction axes generalizing l b' place with
  | nil => exact .some chains
  | cons p rest ih =>
    have head := chains.unifyDim p.1 p.2
    rw [List.map_cons, Bindings.unifyAxes, Bindings.unifyAxes]
    revert head
    cases l.unifyDim (b.resolve p.1) (b.resolve p.2) <;> cases b'.unifyDim p.1 p.2 <;> intro head
    · exact .none
    · cases head
    · cases head
    · cases head with
      | some head => exact ih head (place + 1)

/-- Types are unified by what they resolve to. -/
theorem unify?_resolveType (b : Bindings) (t c : PortType) :
    Option.Rel (Chains b) (empty.unify? (b.resolveType t) (b.resolveType c)) (b.unify? t c) := by
  have zips : (b.resolveType t).shape.zip (b.resolveType c).shape =
      (t.shape.zip c.shape).map fun p => (b.resolve p.1, b.resolve p.2) :=
    List.zip_map ..
  have rank : ∀ d : PortType, (b.resolveType d).shape.length = d.shape.length := fun _ =>
    List.length_map ..
  rw [unify?_eq, unify?_eq, zips, rank, rank]
  change Option.Rel _ (if t.kind = c.kind ∧ t.metric = c.metric ∧ t.group = c.group ∧
    t.shape.length = c.shape.length then _ else none) _
  split
  next => exact (Chains.empty b).unifyAxes 0 _
  next => exact .none

/-! ### Uses one after the other -/

/-- One use of bindings. -/
inductive Use where
  /-- Asking for the root, the dimension or the size that a symbol stands for. -/
  | look (s : String)
  | resolve (d : Dim)
  | unify (x y : Dim)
  | copy
  deriving DecidableEq

/-- The bindings after a use. A failed attempt to unify still notes the symbols it has met. -/
def after (b : Bindings) : Use → Bindings
  | .look s => b.meet [s]
  | .resolve d => b.meet d.symbols
  | .unify x y => (b.unifyDim x y).getD (b.meetBoth x y)
  | .copy => b

/-- The bindings after some uses, one after the other. -/
def afterAll (b : Bindings) (uses : List Use) : Bindings :=
  uses.foldl after b

/-- A use adds the condition that the sides of a successful attempt to unify are equal, and nothing
else. -/
lemma Refines.of_after (wf : b.WellFormed) (use : Use) :
    ∃ C, Refines b (b.after use) C := by
  have kept : ∀ known, Refines b { b with known } fun _ => True :=
    fun known => ⟨⟨wf.apart, wf.proper⟩, fun σ => by simp [Satisfies]⟩
  cases use with
  | look s => exact ⟨_, kept _⟩
  | resolve d => exact ⟨_, kept _⟩
  | copy => exact ⟨_, kept _⟩
  | unify x y =>
    rw [after]
    cases attempt : b.unifyDim x y with
    | none => exact ⟨_, kept _⟩
    | some b' => exact ⟨_, Refines.of_unifyDim wf attempt⟩

/-- What bindings say after some uses, they say in addition to what they said before. -/
lemma Refines.of_afterAll (wf : b.WellFormed) (uses : List Use) :
    ∃ C, Refines b (b.afterAll uses) C := by
  induction uses generalizing b with
  | nil => exact ⟨fun _ => True, wf, fun σ => by simp [afterAll]⟩
  | cons use rest ih =>
    obtain ⟨C, first⟩ := Refines.of_after wf use
    obtain ⟨D, others⟩ := ih first.wellFormed
    exact ⟨_, first.trans others⟩

/-- Dimensions that are resolved alike are resolved alike ever after. -/
lemma resolve_eq_afterAll (wf : b.WellFormed) {x y : Dim} (same : b.resolve x = b.resolve y)
    (uses : List Use) : (b.afterAll uses).resolve x = (b.afterAll uses).resolve y := by
  obtain ⟨C, refines⟩ := Refines.of_afterAll wf uses
  refine refines.wellFormed.resolve_eq_iff.2 fun σ satisfied => ?_
  exact wf.resolve_eq_iff.1 same σ ((refines.satisfies_iff σ).1 satisfied).1

/-- Unification is sound and most general, whatever has been done to the bindings before. Every
choice of values for the free symbols extends to exactly one assignment that satisfies the bindings.
A successful attempt to unify leaves exactly those that make the two sides equal, which resolve
alike from then on; a failed one leaves all of them. Fitting slots leaves those under which all
agree. -/
theorem unifyDim_mostGeneral (uses : List Use) (x y : Dim) :
    let b := empty.afterAll uses
    (∀ σ : String → Nat, ∃! τ, b.Satisfies τ ∧ ∀ s, b.Free s → τ s = σ s) ∧
    (∀ b', b.unifyDim x y = some b' →
      (∀ σ, b'.Satisfies σ ↔ b.Satisfies σ ∧ x.eval σ = y.eval σ) ∧
      ∀ later, (b'.afterAll later).resolve x = (b'.afterAll later).resolve y) ∧
    (b.unifyDim x y = none → ∀ σ, (b.after (.unify x y)).Satisfies σ ↔ b.Satisfies σ) ∧
    (∀ slots b', b.unifySlots slots = .ok b' →
      ∀ σ, b'.Satisfies σ ↔ b.Satisfies σ ∧ ∀ p ∈ slots, PortType.Agree σ p.1 p.2) := by
  intro b
  obtain ⟨_, history⟩ := Refines.of_afterAll WellFormed.empty uses
  have wf : b.WellFormed := history.wellFormed
  refine ⟨wf.existsUnique_satisfies, ?_, ?_, ?_⟩
  · intro b' unified
    have refines := Refines.of_unifyDim wf unified
    refine ⟨refines.satisfies_iff, fun later => resolve_eq_afterAll refines.wellFormed ?_ later⟩
    refine refines.wellFormed.resolve_eq_iff.2 fun σ satisfied => ?_
    exact ((refines.satisfies_iff σ).1 satisfied).2
  · intro failed σ
    rw [after, failed]
    rfl
  · intro slots b' unified
    exact (Refines.of_unifySlots wf unified).satisfies_iff

/-- Once `A` and `B` are equal, `2 B = 6` is solved, and `A` is 3 as well. -/
theorem unifyDim_mostGeneral_twice :
    let b := empty.afterAll [.unify (.symbol "A") (.symbol "B")]
    let x := (Dim.symbol "B").scale 2
    let y := Dim.ofNat 6
    ∃ b', b.unifyDim x y = some b' ∧ b'.resolve (.symbol "A") = .ofNat 3 ∧
      (∀ σ, b'.Satisfies σ ↔ b.Satisfies σ ∧ x.eval σ = y.eval σ) ∧
      ∀ later, (b'.afterAll later).resolve x = (b'.afterAll later).resolve y := by
  intro b x y
  let b' := (b.unifyDim x y).get (by decide +kernel)
  have unified : b.unifyDim x y = some b' := (Option.some_get _).symm
  have general := unifyDim_mostGeneral [.unify (.symbol "A") (.symbol "B")] x y
  exact ⟨b', unified, by decide +kernel, general.2.1 b' unified⟩

end OperatorNet.Bindings
