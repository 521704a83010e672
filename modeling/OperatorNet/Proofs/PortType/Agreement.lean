import Std.Data.String.ToNat
import OperatorNet.PortType.Basic
import OperatorNet.Proofs.Dim.Meaning

/-!
# Agreement of port types

Two port types agree under an assignment (`PortType.Agree`) when their kind, metric and group are
the same and their axes have the same values. What symbols are replaced by may be asked for instead
(`agree_substitute`); the local names of a use of an operator are a renaming (`freshen_eq_rename`).

A local name is a symbol, a number sign and a suffix. Suffixes are written without a number sign, so
the symbol and the suffix can be told from the name (`freshName_inj`). While a network is built the
suffixes are numbers; when it is checked they are places, marked by a letter.
-/

namespace OperatorNet

/-- A suffix keeps names apart. -/
lemma freshName_injective (suffix : String) : Function.Injective (freshName suffix) := by
  intro s t eq
  have lists := congrArg String.toList eq
  simp only [freshName, String.toList_append, List.append_left_inj] at lists
  exact String.toList_inj.1 lists

namespace PortType

/-- Two types of the same kind, metric and group whose axes have the same values. -/
structure Agree (σ : String → Nat) (t c : PortType) : Prop where
  kind : t.kind = c.kind
  metric : t.metric = c.metric
  group : t.group = c.group
  values : t.shape.map (Dim.eval σ) = c.shape.map (Dim.eval σ)

/-- The type with its symbols under other names. -/
def rename (ρ : String → String) (t : PortType) : PortType :=
  t.mapDims (Dim.rename ρ)

/-- A type is freshened by renaming its symbols. -/
lemma freshen_eq_rename (suffix : String) (t : PortType) :
    t.freshen suffix = t.rename (freshName suffix) :=
  rfl

/-- Two maps of the dimensions make one. -/
lemma mapDims_mapDims (f g : Dim → Dim) (t : PortType) :
    (t.mapDims f).mapDims g = t.mapDims fun d => g (f d) := by
  simp only [mapDims, List.map_map, Function.comp_def]

/-- Maps that agree on the dimensions of a type do the same to it. -/
lemma mapDims_congr {f g : Dim → Dim} {t : PortType} (same : ∀ d ∈ t.shape, f d = g d) :
    t.mapDims f = t.mapDims g := by
  simp only [mapDims, List.map_congr_left same]

/-- Renaming one after the other is one renaming. -/
lemma rename_rename (ρ π : String → String) (t : PortType) :
    (t.rename ρ).rename π = t.rename fun s => π (ρ s) := by
  rw [rename, rename, mapDims_mapDims]
  refine mapDims_congr fun d _ => Dim.eval_ext fun σ => ?_
  rw [Dim.eval_rename, Dim.eval_rename, Dim.eval_rename]

/-- What symbols are replaced by may be asked for instead. -/
lemma agree_substitute {σ : String → Nat} {f : String → Dim} {t c : PortType} :
    Agree σ (t.substitute f) (c.substitute f) ↔ Agree (fun s => (f s).eval σ) t c := by
  have values : ∀ d : PortType, (d.substitute f).shape.map (Dim.eval σ) =
      d.shape.map (Dim.eval fun s => (f s).eval σ) := by
    intro d
    simp only [substitute, mapDims, List.map_map]
    exact List.map_congr_left fun x _ => Dim.eval_substitute σ f x
  constructor
  · rintro ⟨kind, metric, group, same⟩
    exact ⟨kind, metric, group, by rw [← values, ← values, same]⟩
  · rintro ⟨kind, metric, group, same⟩
    exact ⟨kind, metric, group, by rw [values, values, same]⟩

/-- A type over the symbols in `P`. -/
def Within (P : String → Prop) (t : PortType) : Prop :=
  ∀ d ∈ t.shape, d.Within P

instance (P : String → Prop) [DecidablePred P] : DecidablePred (Within P) :=
  fun _ => inferInstanceAs (Decidable (∀ d ∈ _, Dim.Within P d))

/-- The symbols of a renamed type are the new names. -/
lemma rename_within {P : String → Prop} {ρ : String → String} {t : PortType}
    (covers : t.Within fun s => P (ρ s)) : (t.rename ρ).Within P := by
  intro d hd s hs
  obtain ⟨e, he, rfl⟩ := List.mem_map.1 hd
  obtain ⟨u, hu, rfl⟩ := Dim.mem_symbols_rename.1 hs
  exact covers e he u hu

/-- Renaming that keeps all names of a type keeps the type. -/
lemma rename_eq_self {ρ : String → String} (t : PortType) (keeps : t.Within fun s => ρ s = s) :
    t.rename ρ = t := by
  have same : t.mapDims (Dim.rename ρ) = t.mapDims fun d => d := by
    refine mapDims_congr fun d hd => Dim.eval_ext fun σ => ?_
    rw [Dim.eval_rename]
    exact Dim.eval_congr fun s hs => by rw [keeps d hd s hs]
  rw [rename, same, mapDims, List.map_id']

/-- The symbols of a use of an operator are local names. -/
lemma freshen_within {P : String → Prop} {suffix : String} (t : PortType)
    (names : ∀ base, P (freshName suffix base)) : (t.freshen suffix).Within P :=
  rename_within fun _ _ base _ => names base

end PortType

/-! ### Local names -/

/-- A suffix without a number sign. -/
def PlainSuffix (suffix : String) : Prop :=
  '#' ∉ suffix.toList

/-- A row up to the first number sign is determined. -/
private lemma eq_of_append_numberSign {a a' b b' : List Char} (plain : '#' ∉ a) (plain' : '#' ∉ a')
    (same : a ++ '#' :: b = a' ++ '#' :: b') : a = a' ∧ b = b' := by
  induction a generalizing a' with
  | nil =>
    cases a' with
    | nil => exact ⟨rfl, (List.cons.inj same).2⟩
    | cons c rest =>
      obtain ⟨rfl, -⟩ := List.cons.inj same
      exact absurd (List.mem_cons_self ..) plain'
  | cons c rest ih =>
    cases a' with
    | nil =>
      obtain ⟨rfl, -⟩ := List.cons.inj same
      exact absurd (List.mem_cons_self ..) plain
    | cons c' rest' =>
      obtain ⟨rfl, tail⟩ := List.cons.inj same
      rw [List.mem_cons, not_or] at plain plain'
      obtain ⟨rfl, rfl⟩ := ih plain.2 plain'.2 tail
      exact ⟨rfl, rfl⟩

/-- A freshened name has a number sign. -/
lemma numberSign_mem_freshName (suffix base : String) : '#' ∈ (freshName suffix base).toList := by
  rw [freshName, String.toList_append, String.toList_append]
  exact List.mem_append_left _ (List.mem_append_right _ (by decide))

/-- The symbol and the suffix can be told from a local name. -/
lemma freshName_inj {suffix suffix' s s' : String} (plain : PlainSuffix suffix)
    (plain' : PlainSuffix suffix') (same : freshName suffix s = freshName suffix' s') :
    suffix = suffix' ∧ s = s' := by
  have lists := congrArg (fun t : String => t.toList.reverse) same
  simp only [freshName, String.toList_append, List.reverse_append] at lists
  have mark : ("#" : String).toList.reverse = ['#'] := rfl
  rw [mark] at lists
  rw [PlainSuffix, ← List.mem_reverse] at plain plain'
  obtain ⟨suffixes, symbols⟩ := eq_of_append_numberSign plain plain' lists
  exact ⟨String.toList_inj.1 (List.reverse_inj.1 suffixes),
    String.toList_inj.1 (List.reverse_inj.1 symbols)⟩

/-- A numeral is a plain suffix. -/
lemma plainSuffix_toString (n : Nat) : PlainSuffix (toString n) := by
  intro mem
  have digit := Nat.isDigit_of_mem_toDigits (b := 10) (n := n) (c := '#') (by decide) (by decide)
    (by simpa using mem)
  revert digit
  decide

/-- Different numbers have different numerals. -/
lemma toString_inj {m n : Nat} (same : toString m = toString n) : m = n :=
  Nat.repr_injective same

/-- A plain mark before a numeral makes a plain suffix. -/
lemma plainSuffix_marked {mark : String} (plain : PlainSuffix mark) (n : Nat) :
    PlainSuffix (mark ++ toString n) := by
  intro mem
  rw [String.toList_append, List.mem_append] at mem
  exact mem.elim plain (plainSuffix_toString n)

/-- Numbers behind a mark are told apart. -/
lemma marked_inj {mark : String} {m n : Nat} (same : mark ++ toString m = mark ++ toString n) :
    m = n := by
  have lists := congrArg String.toList same
  simp only [String.toList_append, List.append_cancel_left_eq] at lists
  exact toString_inj (String.toList_inj.1 lists)

/-- The suffix of a place in a network that is checked. -/
def placeSuffix (n : Nat) : String :=
  "v" ++ toString n

/-- The suffix of a place is plain. -/
lemma plainSuffix_placeSuffix (n : Nat) : PlainSuffix (placeSuffix n) :=
  plainSuffix_marked (by unfold PlainSuffix; decide) n

/-- Different places have different suffixes. -/
lemma placeSuffix_inj {m n : Nat} (same : placeSuffix m = placeSuffix n) : m = n :=
  marked_inj same

/-- No suffix of a place is a numeral. -/
lemma placeSuffix_ne_toString (m n : Nat) : placeSuffix m ≠ toString n := by
  intro same
  have mem : 'v' ∈ (toString n).toList := by
    rw [← same, placeSuffix, String.toList_append]
    exact List.mem_append_left _ (by decide)
  have digit := Nat.isDigit_of_mem_toDigits (b := 10) (n := n) (c := 'v') (by decide) (by decide)
    (by simpa using mem)
  revert digit
  decide

/-- The suffix of a request is plain. -/
lemma plainSuffix_query : PlainSuffix "q" := by
  unfold PlainSuffix
  decide

/-- A name that a use of an operator may get, when a network is built or when it is checked. -/
def IsLocal (s : String) : Prop :=
  ∃ base n, s = freshName (toString (n : Nat)) base ∨ s = freshName (placeSuffix n) base

/-- A local name has a number sign. -/
lemma IsLocal.numberSign_mem {s : String} (isLocal : IsLocal s) : '#' ∈ s.toList := by
  obtain ⟨base, n, rfl | rfl⟩ := isLocal <;>
    simp only [freshName, String.toList_append, List.mem_append] <;>
    exact .inl (.inr (by decide))

end OperatorNet
