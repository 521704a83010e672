import OperatorNet.Proofs.Bindings.Representation

/-!
# Walks through forests

A walk through a forest that represents bindings ends, gives what the bindings give, and leaves a
forest that represents the bindings afterwards (`Forest.Gives`). This is shown walk by walk:
`find_gives`, `resolveSymbol_gives`, `resolve_gives`, `assign_gives`, `unifyDim_gives`. Unifying
types may stop half way, so it is told apart by what it ends with (`Forest.Fits`).
-/

namespace OperatorNet

open Bindings

namespace Forest

variable {F F' : Forest} {b b' : Bindings} {s t : String} {d e x y : Dim} {β γ : Type}

/-- A walk ends with a result and a forest that represents given bindings. -/
def Gives (walk : Walk β) (F : Forest) (x : β) (b : Bindings) : Prop :=
  ∃ F', walk F = some (x, F') ∧ F'.Represents b

/-- A walk goes on from where the first part of it ends. -/
lemma bind_apply_of_eq {walk : Walk β} {next : β → Walk γ} {x : β} (done : walk F = some (x, F')) :
    (walk >>= next) F = next x F' := by
  change (walk F >>= fun p => next p.1 p.2) = _
  rw [done]
  rfl

/-- A walk that goes nowhere gives its value and leaves the forest as it is. -/
lemma pure_gives {x : β} (rep : F.Represents b) : Gives (pure x) F x b :=
  ⟨F, rfl, rep⟩

/-- A walk goes on where its first part has led. -/
lemma Gives.bind {walk : Walk β} {next : β → Walk γ} {x : β} {y : γ} (first : Gives walk F x b)
    (others : ∀ F', F'.Represents b → Gives (next x) F' y b') : Gives (walk >>= next) F y b' := by
  obtain ⟨F₁, done, rep⟩ := first
  obtain ⟨F₂, goes, rep'⟩ := others F₁ rep
  exact ⟨F₂, (bind_apply_of_eq done).trans goes, rep'⟩

/-- Looking at the forest gives it. -/
lemma get_apply (F : Forest) : (get : Walk Forest) F = some (F, F) :=
  rfl

/-- A walk that looks at the forest first goes on with it. -/
lemma gives_get_bind {next : Forest → Walk γ} {y : γ} (gives : Gives (next F) F y b) :
    Gives (get >>= next) F y b :=
  gives

/-- A change of the forest is a walk without a result. -/
lemma modify_gives {f : Forest → Forest} (rep : (f F).Represents b) : Gives (modify f) F ⟨⟩ b :=
  ⟨f F, rfl, rep⟩

/-- A symbol with a parent has it, and the forest stays. -/
lemma parentOf_of_some {p : String} (parent : F.parent s = some p) :
    parentOf s F = some (p, F) := by
  rw [parentOf, bind_apply_of_eq (get_apply F), parent]
  rfl

/-- A symbol without a parent becomes its own. -/
lemma parentOf_of_none (parent : F.parent s = none) : parentOf s F = some (s, F.link s s) := by
  rw [parentOf, bind_apply_of_eq (get_apply F), parent]
  rfl

/-- A symbol is looked up from one parent to the next. -/
lemma find_eq (s : String) : find s = (do
    let p ← parentOf s
    if p = s then return s
    let r ← find p
    modify (·.link s r)
    return r) := by
  funext F
  change F.rootOf s = _
  rw [rootOf]
  refine congrArg (Option.bind (parentOf s F)) (funext fun x => ?_)
  obtain ⟨p, F'⟩ := x
  dsimp only
  split <;> rfl

/-- What is added up one after the other. -/
lemma foldlM_apply {f : Dim → String × Nat → Walk Dim} {l : List (String × Nat)} {acc : Dim} :
    l.foldlM f acc F = l.foldlM (fun x p => f x.1 p x.2) (acc, F) := by
  induction l generalizing acc F with
  | nil => rfl
  | cons p rest ih =>
    rw [List.foldlM_cons, List.foldlM_cons]
    exact congrArg (Option.bind (f acc p F)) (funext fun x => ih)

/-- A root stands for itself, or for its dimension with all symbols resolved. -/
lemma resolveSymbol_eq (s : String) : resolveSymbol s = (do
    let r ← find s
    match (← get).value r with
    | none => return .symbol r
    | some e =>
      e.terms.foldlM (fun acc p => do return acc + (← resolveSymbol p.1).scale p.2)
        (.ofNat e.const)) := by
  funext F
  change F.meaningOf s = _
  rw [meaningOf]
  refine congrArg (Option.bind (F.rootOf s)) (funext fun x => ?_)
  obtain ⟨r, F'⟩ := x
  dsimp only
  rw [bind_apply_of_eq (get_apply F')]
  cases F'.value r with
  | none => rfl
  | some e =>
    exact (foldlM_apply (f := fun acc p => do
      return acc + (← resolveSymbol p.1).scale p.2)).symm

/-- Looking a symbol up finds its root. -/
lemma find_gives (rep : F.Represents b) (s : String) :
    Gives (find s) F (b.root s) (b.meet [s]) := by
  induction s using place_induction (b := b) generalizing F with
  | _ s ih =>
    rw [find_eq]
    cases parent : F.parent s with
    | none =>
      have unknown : s ∉ b.known := by simp [rep.met, parent]
      rw [root_of_free (rep.free_of_unknown unknown)]
      refine Gives.bind ⟨_, parentOf_of_none parent, rep.register unknown⟩ fun F' rep' => ?_
      rw [if_pos rfl]
      exact pure_gives rep'
    | some p =>
      have known : s ∈ b.known := (rep.met s).2 ⟨p, parent⟩
      rw [meet_of_known (by simpa using known)]
      refine Gives.bind ⟨_, parentOf_of_some parent, rep⟩ fun F₁ rep₁ => ?_
      by_cases self : p = s
      · rw [if_pos self, rep.self s (self ▸ parent)]
        exact pure_gives rep₁
      · obtain ⟨known', upward, same⟩ := rep.upward s p parent self
        have ne : b.root s ≠ s := by
          intro eq
          have := rep.wellFormed.place_le_root p
          rw [same, eq] at this
          omega
        have above : Gives (find p) F₁ (b.root s) b := by
          rw [← same]
          have gives := ih p upward rep₁
          rwa [meet_of_known (by simpa using known')] at gives
        rw [if_neg self]
        refine above.bind fun F₂ rep₂ => ?_
        exact (modify_gives (rep₂.shorten known ne)).bind fun F₃ rep₃ => pure_gives rep₃

/-- Symbols that are resolved one after the other give the sum of what they stand for. -/
lemma terms_gives {l : List (String × Nat)} (acc : Dim)
    (each : ∀ p ∈ l, ∀ F b', b'.solved = b.solved → F.Represents b' →
      Gives (resolveSymbol p.1) F (b.resolve (.symbol p.1)) (b'.meet [p.1]))
    (same : b'.solved = b.solved) (rep : F.Represents b') :
    Gives (l.foldlM (fun acc p => do return acc + (← resolveSymbol p.1).scale p.2) acc) F
      (l.foldl (fun acc p => acc + (b.resolve (.symbol p.1)).scale p.2) acc)
      (b'.meet (l.map Prod.fst)) := by
  induction l generalizing acc F b' with
  | nil => exact pure_gives rep
  | cons p rest ih =>
    rw [List.foldlM_cons, List.foldl_cons, List.map_cons, ← List.singleton_append, meet_append]
    have head : Gives (do return acc + (← resolveSymbol p.1).scale p.2) F
        (acc + (b.resolve (.symbol p.1)).scale p.2) (b'.meet [p.1]) :=
      (each p (by simp) F b' same rep).bind fun F' rep' => pure_gives rep'
    exact head.bind fun F' rep' => ih _ (fun q hq => each q (by simp [hq])) same rep'

/-- Resolving a symbol gives what it stands for, however many symbols have been met. -/
lemma resolveSymbol_gives_of_solved_eq (wf : b.WellFormed) (s : String)
    (same : b'.solved = b.solved) (rep : F.Represents b') :
    Gives (resolveSymbol s) F (b.resolve (.symbol s)) (b'.meet [s]) := by
  -- on the place of a symbol among the equations: a value holds symbols of later places only
  induction s using place_induction (b := b) generalizing F b' with
  | _ s ih =>
    have root : b'.root s = b.root s := by rw [root_eq_foldl, root_eq_foldl, same]
    rw [resolveSymbol_eq]
    refine (find_gives rep s).bind fun F₁ rep₁ => gives_get_bind ?_
    rw [root, ← wf.resolve_symbol_root s]
    have solved : (b'.meet [s]).solved = b.solved := same
    cases value : F₁.value (b.root s) with
    | none =>
      have free : b.Free (b.root s) := by
        rcases wf.free_or_value (wf.root_root s) with free | ⟨e, mem, kind⟩
        · exact free
        · rw [← solved] at mem
          rw [(rep₁.value _ e).2 ⟨mem, kind⟩] at value
          cases value
      rw [resolve_symbol_of_free free]
      exact pure_gives rep₁
    | some e =>
      obtain ⟨mem, -⟩ := (rep₁.value _ e).1 value
      have known := (rep₁.closed _ e mem).2
      rw [solved] at mem
      rw [wf.resolve_symbol_of_mem mem, ← substitute_resolve_symbol, Dim.substitute]
      have later : ∀ p ∈ e.terms, b.place s < b.place p.1 := fun p hp =>
        lt_of_le_of_lt (wf.place_le_root s)
          (wf.place_lt_of_mem_symbols mem (List.mem_map_of_mem hp))
      have terms := terms_gives (.ofNat e.const) (fun p hp F b' => ih p.1 (later p hp)) solved rep₁
      change Gives _ _ _ ((b'.meet [s]).meet e.symbols) at terms
      rwa [meet_of_known known] at terms

/-- The walk for a symbol gives what the symbol resolves to. -/
lemma resolveSymbol_gives (rep : F.Represents b) (s : String) :
    Gives (resolveSymbol s) F (b.resolve (.symbol s)) (b.meet [s]) :=
  resolveSymbol_gives_of_solved_eq rep.wellFormed s rfl rep

/-- Resolving a dimension gives what the bindings let it stand for. -/
lemma resolve_gives (rep : F.Represents b) (d : Dim) :
    Gives (resolve d) F (b.resolve d) (b.meet d.symbols) := by
  rw [← substitute_resolve_symbol]
  exact terms_gives _ (fun p _ F b' => resolveSymbol_gives_of_solved_eq rep.wellFormed p.1) rfl rep

/-- The walk for some axes gives what they resolve to. -/
lemma resolveAxes_gives (rep : F.Represents b) (axes : List Dim) :
    Gives (resolveAxes axes) F (axes.map b.resolve) (b.meet (axes.flatMap Dim.symbols)) := by
  induction axes generalizing F b with
  | nil => exact pure_gives rep
  | cons d rest ih =>
    rw [List.flatMap_cons, meet_append]
    refine (resolve_gives rep d).bind fun F₁ rep₁ => ?_
    exact (ih rep₁).bind fun F₂ rep₂ => pure_gives rep₂

/-- Letting a free symbol stand for a dimension succeeds when it does for the bindings. -/
lemma assign_gives (rep : F.Represents b) (known : s ∈ b.known) (free : b.Free s)
    (covers : ∀ t ∈ e.symbols, t ∈ b.known ∧ b.Free t) (ne : e ≠ .symbol s) :
    Gives (assign s e) F (b.assign s e).isSome ((b.assign s e).getD b) := by
  have found : ∀ {t F}, F.Represents b → t ∈ b.known → b.Free t → Gives (find t) F t b := by
    intro t F rep known free
    have gives := find_gives rep t
    rwa [root_of_free free, meet_of_known (by simpa using known)] at gives
  rw [assign]
  refine (found rep known free).bind fun F₁ rep₁ => ?_
  cases kind : e.symbol? with
  | some t =>
    obtain rfl := Dim.symbol?_eq_some_iff.1 kind
    have other : t ≠ s := fun eq => ne (by rw [eq])
    obtain ⟨known', free'⟩ := covers t (by simp)
    rw [assign_eq_some_iff.2 ⟨by simpa using Ne.symm other, rfl⟩]
    refine (found rep₁ known' free').bind fun F₂ rep₂ => ?_
    rw [if_pos other]
    exact (modify_gives (rep₂.solve_link known free known' free' other)).bind
      fun F₃ rep₃ => pure_gives rep₃
  | none =>
    by_cases occurs : s ∈ e.symbols
    · rw [Bindings.assign, if_pos occurs]
      simp only [if_pos occurs]
      exact pure_gives rep₁
    · rw [assign_eq_some_iff.2 ⟨occurs, rfl⟩]
      simp only [if_neg occurs]
      exact (modify_gives (rep₁.solve_carry known free covers occurs kind)).bind
        fun F₂ rep₂ => pure_gives rep₂

/-- The symbols of a dimension have been met and are free. -/
def Open (b : Bindings) (d : Dim) : Prop :=
  ∀ t ∈ d.symbols, t ∈ b.known ∧ b.Free t

/-- Solving for the only symbol whose multiplicities differ succeeds when it does for the
bindings. -/
lemma solveOne_gives (rep : F.Represents b) (openX : Open b x) (openY : Open b y) :
    Gives (solveOne x y) F (b.solveOne x y).isSome ((b.solveOne x y).getD b) := by
  rw [solveOne, Bindings.solveOne]
  rcases difference : x.difference y with _ | ⟨⟨s, n⟩, _ | ⟨q, rest⟩⟩
  · exact pure_gives rep
  · obtain ⟨ne, here, -⟩ := Dim.difference_eq_singleton_iff.1 difference
    have mentioned : s ∈ b.known ∧ b.Free s := by
      have occurs : s ∈ x.symbols ∨ s ∈ y.symbols := by
        rw [Dim.mem_symbols_iff, Dim.mem_symbols_iff]
        omega
      exact occurs.elim (openX s) (openY s)
    by_cases whole : n ∣ (y.const : Int) - x.const ∧ 0 ≤ ((y.const : Int) - x.const) / n
    · simp only [if_pos whole]
      refine assign_gives rep mentioned.1 mentioned.2 (fun t ht => ?_) fun eq => ?_
      · rw [Dim.symbols_ofNat] at ht
        exact absurd ht List.not_mem_nil
      · have symbols := congrArg Dim.symbols eq
        rw [Dim.symbols_ofNat, Dim.symbols_symbol] at symbols
        exact absurd symbols (List.cons_ne_nil s []).symm
    · simp only [if_neg whole]
      exact pure_gives rep
  · exact pure_gives rep

/-- Making resolved dimensions equal succeeds when it does for the bindings. -/
lemma solve_gives (rep : F.Represents b) (openX : Open b x) (openY : Open b y) :
    Gives (solve x y) F (b.solve x y).isSome ((b.solve x y).getD b) := by
  rw [solve, Bindings.solve]
  by_cases same : x = y
  · rw [if_pos same, if_pos same]
    exact pure_gives rep
  · rw [if_neg same, if_neg same]
    by_cases concrete : (x.isConcrete && y.isConcrete) = true
    · rw [if_pos concrete, if_pos concrete]
      exact pure_gives rep
    · rw [if_neg concrete, if_neg concrete]
      cases left : x.symbol? with
      | some s =>
        obtain rfl := Dim.symbol?_eq_some_iff.1 left
        obtain ⟨known, free⟩ := openX s (by simp)
        exact assign_gives rep known free openY (Ne.symm same)
      | none =>
        cases right : y.symbol? with
        | some s =>
          obtain rfl := Dim.symbol?_eq_some_iff.1 right
          obtain ⟨known, free⟩ := openY s (by simp)
          exact assign_gives rep known free openX same
        | none => exact solveOne_gives rep openX openY

/-- Unifying two dimensions succeeds when it does for the bindings; a failed attempt only meets
their symbols. -/
lemma unifyDim_gives (rep : F.Represents b) (x y : Dim) :
    Gives (unifyDim x y) F (b.unifyDim x y).isSome ((b.unifyDim x y).getD (b.meetBoth x y)) := by
  refine (resolve_gives rep x).bind fun F₁ rep₁ => (resolve_gives rep₁ y).bind fun F₂ rep₂ => ?_
  have opened : ∀ d, (∀ t ∈ d.symbols, t ∈ x.symbols ∨ t ∈ y.symbols) →
      Open (b.meetBoth x y) (b.resolve d) := by
    intro d within t ht
    refine ⟨?_, rep.wellFormed.free_of_mem_resolve ht⟩
    rw [meetBoth, mem_known_meet, mem_known_meet]
    rcases rep.known_of_mem_resolve ht with own | known
    · rcases within t own with left | right
      · exact .inl (.inr left)
      · exact .inr right
    · exact .inl (.inl known)
  exact solve_gives rep₂ (opened x fun t ht => .inl ht) (opened y fun t ht => .inr ht)

/-- A walk that makes types fit ends as it does for the bindings: without a mismatch and with a
forest that represents the new bindings, or with the same mismatch. -/
def Fits (walk : Walk (Option Mismatch)) (F : Forest) (result : Except Mismatch Bindings) : Prop :=
  ∃ failure F', walk F = some (failure, F') ∧
    match result with
    | .ok b => failure = none ∧ F'.Represents b
    | .error m => failure = some m

/-- A mismatch that is known at once. -/
lemma mismatch_fits (F : Forest) (m : Mismatch) : Fits (pure (some m)) F (.error m) :=
  ⟨_, F, rfl, rfl⟩

/-- The walk that unifies axes does what unification of axes does. -/
lemma unifyAxes_fits (rep : F.Represents b) (place : Nat) (axes : List (Dim × Dim)) :
    Fits (unifyAxes place axes) F (b.unifyAxes place axes) := by
  induction axes generalizing F b place with
  | nil => exact ⟨none, F, rfl, rfl, rep⟩
  | cons p rest ih =>
    obtain ⟨t, c⟩ := p
    obtain ⟨F₁, done, rep₁⟩ := unifyDim_gives rep t c
    rw [unifyAxes, Bindings.unifyAxes, Fits, bind_apply_of_eq done]
    cases unified : b.unifyDim t c with
    | some b₁ =>
      rw [unified] at rep₁
      exact ih rep₁ (place + 1)
    | none =>
      rw [unified] at rep₁
      obtain ⟨F₂, first, rep₂⟩ := resolve_gives rep₁ c
      obtain ⟨F₃, second, -⟩ := resolve_gives rep₂ t
      refine ⟨some (.axis place (b.resolve c) (b.resolve t)), F₃, ?_, rfl⟩
      rw [if_neg (by simp), bind_apply_of_eq first, bind_apply_of_eq second]
      rfl

/-- The walk that unifies types does what unification of types does. -/
lemma unifyInto_fits (rep : F.Represents b) (t c : PortType) :
    Fits (unifyInto t c) F (b.unify t c) := by
  rw [unifyInto, Bindings.unify]
  split
  next => exact mismatch_fits F _
  next =>
    split
    next => exact mismatch_fits F _
    next =>
      split
      next => exact mismatch_fits F _
      next =>
        split
        next => exact mismatch_fits F _
        next => exact unifyAxes_fits rep 0 _

/-- The walk that unifies slots does what unification of slots does. -/
lemma unifyAll_fits (rep : F.Represents b) (slots : List (PortType × PortType)) :
    Fits (unifyAll slots) F (b.unifySlots slots) := by
  induction slots generalizing F b with
  | nil => exact ⟨none, F, rfl, rfl, rep⟩
  | cons p rest ih =>
    obtain ⟨t, c⟩ := p
    obtain ⟨failure, F₁, done, ends⟩ := unifyInto_fits rep t c
    rw [unifyAll, Bindings.unifySlots, List.foldlM_cons, Fits, bind_apply_of_eq done]
    cases unified : b.unify t c with
    | ok b₁ =>
      rw [unified] at ends
      obtain ⟨rfl, rep₁⟩ := ends
      exact ih rep₁
    | error m =>
      rw [unified] at ends
      subst ends
      exact mismatch_fits F₁ m

end Forest

end OperatorNet
