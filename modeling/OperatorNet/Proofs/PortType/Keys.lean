import OperatorNet.PortType.Signature
import OperatorNet.Proofs.Bindings.Solvable
import OperatorNet.Proofs.Results
import OperatorNet.Proofs.Sorting

/-!
# Types up to names, and their keys

Two types are alike when one is the other with its symbols under other names, kept apart
(`PortType.Alike`). To be alike is an equivalence.

The key of a type numbers its symbols by first occurrence: dimensions are gone through from left to
right, and the symbols that a dimension brings in are taken in the order of their names
(`extendSeen_eq`). So types with the same key are alike (`alike_of_signatureKey`): the numbers lead
from the symbols of the one type to those of the other. The converse holds of renamings that keep
the order of the names that one dimension brings in (`signatureKey_eq_iff`), hence of all renamings
where no dimension brings in two (`signatureKey_eq_iff_alike`).
-/

namespace OperatorNet

/-! ### Being alike -/

namespace PortType

/-- A symbol that occurs in a type. -/
def Mentions (t : PortType) (s : String) : Prop :=
  ∃ d ∈ t.shape, s ∈ d.symbols

/-- Types that differ in the names of symbols only. -/
def Alike (t c : PortType) : Prop :=
  ∃ ρ : String → String, Set.InjOn ρ {s | t.Mentions s} ∧ c = t.rename ρ

variable {t c u : PortType} {ρ π : String → String} {P : String → Prop}

/-- All symbols of a type are of some kind when each one that it mentions is. -/
lemma within_iff : t.Within P ↔ ∀ s, t.Mentions s → P s :=
  ⟨fun within s ⟨d, hd, hs⟩ => within d hd s hs, fun all d hd s hs => all s ⟨d, hd, hs⟩⟩

/-- The symbols of a renamed type are the new names. -/
lemma mentions_rename {s : String} : (t.rename ρ).Mentions s ↔ ∃ u, t.Mentions u ∧ s = ρ u := by
  constructor
  · rintro ⟨_, mem, hs⟩
    obtain ⟨d, hd, rfl⟩ := List.mem_map.1 mem
    obtain ⟨u, hu, rfl⟩ := Dim.mem_symbols_rename.1 hs
    exact ⟨u, ⟨d, hd, hu⟩, rfl⟩
  · rintro ⟨u, ⟨d, hd, hu⟩, rfl⟩
    exact ⟨_, List.mem_map_of_mem hd, Dim.mem_symbols_rename.2 ⟨u, hu, rfl⟩⟩

/-- Only the new names of the symbols that occur matter. -/
lemma rename_congr (same : ∀ s, t.Mentions s → ρ s = π s) : t.rename ρ = t.rename π :=
  mapDims_congr fun d hd => Dim.substitute_congr fun s hs => by rw [same s ⟨d, hd, hs⟩]

namespace Alike

/-- A type is like itself. -/
protected lemma refl (t : PortType) : Alike t t :=
  ⟨id, Set.injOn_id _, (t.rename_eq_self fun _ _ _ _ => rfl).symm⟩

/-- Being alike goes both ways. -/
protected lemma symm (alike : Alike t c) : Alike c t := by
  obtain ⟨ρ, inj, rfl⟩ := alike
  have back : ∀ s, t.Mentions s → Function.invFunOn ρ {s | t.Mentions s} (ρ s) = s := fun s hs =>
    inj.leftInvOn_invFunOn hs
  refine ⟨Function.invFunOn ρ {s | t.Mentions s}, ?_, ?_⟩
  · intro s hs s' hs' same
    obtain ⟨u, hu, rfl⟩ := mentions_rename.1 hs
    obtain ⟨u', hu', rfl⟩ := mentions_rename.1 hs'
    rw [back u hu, back u' hu'] at same
    rw [same]
  · rw [rename_rename]
    exact (t.rename_eq_self fun d hd s hs => back s ⟨d, hd, hs⟩).symm

/-- Types that are like the same type are alike. -/
protected lemma trans (first : Alike t c) (second : Alike c u) : Alike t u := by
  obtain ⟨ρ, inj, rfl⟩ := first
  obtain ⟨π, inj', rfl⟩ := second
  refine ⟨fun s => π (ρ s), fun s hs s' hs' same => inj hs hs' (inj' ?_ ?_ same), ?_⟩
  · exact mentions_rename.2 ⟨s, hs, rfl⟩
  · exact mentions_rename.2 ⟨s', hs', rfl⟩
  · rw [rename_rename]

end Alike

end PortType

/-! ### Numbered symbols -/

/-- The symbols seen after some dimensions. -/
def seenAfter (seen : List String) (shape : List Dim) : List String :=
  shape.foldl extendSeen seen

section

variable {seen seen' : List String} {shape before after : List Dim} {d e : Dim} {s u : String}
  {ρ : String → String}

/-- The new symbols of a dimension follow in the order of their names. -/
lemma extendSeen_eq (seen : List String) (d : Dim) :
    extendSeen seen d = seen ++ d.symbols.filter (· ∉ seen) := by
  have onward : ∀ (symbols acc : List String), symbols.Nodup →
      symbols.foldl (fun acc s => if s ∈ acc then acc else acc ++ [s]) acc =
        acc ++ symbols.filter (· ∉ acc) := by
    intro symbols
    induction symbols with
    | nil => exact fun acc _ => (List.append_nil acc).symm
    | cons s rest ih =>
      intro acc distinct
      obtain ⟨notLater, distinct⟩ := List.nodup_cons.1 distinct
      rw [List.foldl_cons]
      by_cases old : s ∈ acc
      · rw [if_pos old, ih acc distinct, List.filter_cons_of_neg (by simpa using old)]
      · have same : rest.filter (· ∉ acc ++ [s]) = rest.filter (· ∉ acc) := by
          refine List.filter_congr fun u hu => ?_
          have ne : u ≠ s := fun eq => notLater (eq ▸ hu)
          simp [ne]
        rw [if_neg old, ih _ distinct, same, List.filter_cons_of_pos (by simpa using old),
          List.append_assoc, List.singleton_append]
  exact onward d.symbols seen d.nodup_symbols

/-- After a dimension its symbols have been seen, and those of before. -/
lemma mem_extendSeen : s ∈ extendSeen seen d ↔ s ∈ seen ∨ s ∈ d.symbols := by
  rw [extendSeen_eq, List.mem_append, List.mem_filter, decide_eq_true_eq]
  tauto

/-- After a shape the symbols of its dimensions have been seen, and those of before. -/
lemma mem_seenAfter : s ∈ seenAfter seen shape ↔ s ∈ seen ∨ ∃ d ∈ shape, s ∈ d.symbols := by
  induction shape generalizing seen with
  | nil => simp [seenAfter]
  | cons d rest ih =>
    rw [seenAfter, List.foldl_cons]
    refine ih.trans ?_
    rw [mem_extendSeen, List.exists_mem_cons_iff, or_assoc]

/-- What has been seen stays in front. -/
lemma prefix_seenAfter (seen : List String) (shape : List Dim) : seen <+: seenAfter seen shape := by
  induction shape generalizing seen with
  | nil => exact List.prefix_rfl
  | cons d rest ih =>
    refine List.IsPrefix.trans ?_ (ih (extendSeen seen d))
    rw [extendSeen_eq]
    exact List.prefix_append _ _

/-- More symbols behind those that have been seen do not change the numbers of these. -/
lemma numbered_extend (covers : ∀ s ∈ d.symbols, s ∈ seen) (more : seen <+: seen') :
    numbered seen' d = numbered seen d := by
  obtain ⟨new, rfl⟩ := more
  unfold numbered
  congr 2
  refine List.map_congr_left fun p hp => ?_
  rw [List.idxOf_append_of_mem (covers p.1 (List.mem_map_of_mem hp))]

/-- The numbers of the symbols of a shape are their places among the symbols seen in the end. -/
lemma numberedShape_eq (seen : List String) (shape : List Dim) :
    numberedShape seen shape = shape.map (numbered (seenAfter seen shape)) := by
  induction shape generalizing seen with
  | nil => rfl
  | cons d rest ih =>
    rw [numberedShape, ih, List.map_cons]
    refine congrArg (· :: _) (numbered_extend (fun s hs => ?_) (prefix_seenAfter _ rest)).symm
    exact mem_extendSeen.2 (.inr hs)

/-- Of two symbols that one dimension brings in, the one with the earlier name has the smaller
number. -/
lemma idxOf_lt_idxOf (hs : s ∈ d.symbols) (hu : u ∈ d.symbols) (newS : s ∉ seenAfter seen before)
    (newU : u ∉ seenAfter seen before) (earlier : s < u) :
    (seenAfter seen (before ++ d :: after)).idxOf s <
      (seenAfter seen (before ++ d :: after)).idxOf u := by
  have split : seenAfter seen (before ++ d :: after) =
      seenAfter (extendSeen (seenAfter seen before) d) after := by
    rw [seenAfter, List.foldl_append, List.foldl_cons]
    rfl
  obtain ⟨more, whole⟩ := prefix_seenAfter (extendSeen (seenAfter seen before) d) after
  rw [split, ← whole, extendSeen_eq]
  generalize eq : d.symbols.filter (· ∉ seenAfter seen before) = new
  have inNew : ∀ v ∈ d.symbols, v ∉ seenAfter seen before → v ∈ new := fun v hv fresh =>
    eq ▸ List.mem_filter.2 ⟨hv, decide_eq_true fresh⟩
  have ascending : new.Pairwise (· < ·) := eq ▸ d.ascending.filter _
  have hs' := inNew s hs newS
  have hu' := inNew u hu newU
  rw [List.idxOf_append_of_mem (List.mem_append_right _ hs'),
    List.idxOf_append_of_mem (List.mem_append_right _ hu'), List.idxOf_append_of_notMem newS,
    List.idxOf_append_of_notMem newU, Nat.add_lt_add_iff_left]
  -- in an ascending list the earlier of two names stands in front
  rcases Nat.lt_trichotomy (new.idxOf s) (new.idxOf u) with less | same | more
  · exact less
  · exact absurd ((List.idxOf_inj hs').1 same) fun eq => String.lt_irrefl u (eq ▸ earlier)
  · have apart := List.pairwise_iff_getElem.1 ascending _ _ (List.idxOf_lt_length_iff.2 hu')
      (List.idxOf_lt_length_iff.2 hs') more
    rw [List.getElem_idxOf, List.getElem_idxOf] at apart
    exact absurd (String.lt_trans earlier apart) (String.lt_irrefl s)

end

/-! ### Keys of types that are renamed -/

section

variable {seen : List String} {shape : List Dim} {d : Dim} {ρ : String → String}

/-- Symbols that are renamed apart, the new ones in the order of their names, are seen in the same
order. -/
lemma extendSeen_rename (inj : Set.InjOn ρ {s | s ∈ seen ∨ s ∈ d.symbols})
    (ordered : ∀ s ∈ d.symbols, ∀ u ∈ d.symbols, s ∉ seen → u ∉ seen → s < u → ρ s < ρ u) :
    extendSeen (seen.map ρ) (d.rename ρ) = (extendSeen seen d).map ρ := by
  rw [extendSeen_eq, extendSeen_eq, List.map_append]
  refine congrArg _ ?_
  have fresh : ∀ s ∈ d.symbols, ρ s ∈ seen.map ρ → s ∈ seen := by
    intro s hs old
    obtain ⟨u, hu, eq⟩ := List.mem_map.1 old
    exact inj (.inl hu) (.inr hs) eq ▸ hu
  have ascending : ((d.symbols.filter (· ∉ seen)).map ρ).Pairwise (· < ·) := by
    refine List.pairwise_map.2 ((d.ascending.filter _).imp_of_mem fun hs hu earlier => ?_)
    obtain ⟨hs, newS⟩ := List.mem_filter.1 hs
    obtain ⟨hu, newU⟩ := List.mem_filter.1 hu
    exact ordered _ hs _ hu (of_decide_eq_true newS) (of_decide_eq_true newU) earlier
  have ascending' := (d.rename ρ).ascending.filter (· ∉ seen.map ρ)
  have nodup : ∀ {l : List String}, l.Pairwise (· < ·) → l.Nodup := fun {l} sorted =>
    List.Pairwise.imp (fun {a b} (less : a < b) (eq : a = b) =>
      String.lt_irrefl b (eq ▸ less)) sorted
  -- two ascending lists with the same elements are the same
  refine List.Perm.eq_of_pairwise ?_ ascending' ascending
    ((List.perm_ext_iff_of_nodup (nodup ascending') (nodup ascending)).2 fun v => ?_)
  · exact fun a b _ _ less more => absurd (String.lt_trans less more) (String.lt_irrefl a)
  · constructor
    · intro mem
      obtain ⟨mem, new⟩ := List.mem_filter.1 mem
      obtain ⟨s, hs, rfl⟩ := Dim.mem_symbols_rename.1 mem
      refine List.mem_map_of_mem (List.mem_filter.2 ⟨hs, decide_eq_true fun old => ?_⟩)
      exact of_decide_eq_true new (List.mem_map_of_mem old)
    · intro mem
      obtain ⟨s, isNew, rfl⟩ := List.mem_map.1 mem
      obtain ⟨hs, new⟩ := List.mem_filter.1 isNew
      refine List.mem_filter.2 ⟨Dim.mem_symbols_rename.2 ⟨s, hs, rfl⟩, decide_eq_true fun old => ?_⟩
      exact of_decide_eq_true new (fresh s hs old)

/-- A symbol keeps its place when symbols are renamed apart. -/
lemma idxOf_map (inj : Set.InjOn ρ {s | s ∈ seen}) {s : String} (mem : s ∈ seen) :
    (seen.map ρ).idxOf (ρ s) = seen.idxOf s := by
  induction seen with
  | nil => cases mem
  | cons u rest ih =>
    by_cases eq : u = s
    · subst eq
      rw [List.map_cons, List.idxOf_cons_self, List.idxOf_cons_self]
    · have ne : ρ u ≠ ρ s := fun same => eq (inj (List.mem_cons_self ..) mem same)
      have later : s ∈ rest := (List.mem_cons.1 mem).resolve_left (Ne.symm eq)
      rw [List.map_cons, List.idxOf_cons_ne _ ne, List.idxOf_cons_ne _ eq,
        ih (inj.mono fun v hv => List.mem_cons_of_mem _ hv) later]

/-- Numbered terms are sorted alike from every order. -/
lemma sortNumbered_of_perm {l l' : List (Nat × Nat)} (perm : l.Perm l') :
    sortNumbered l = sortNumbered l' := by
  have ranks : Ranks fun p q : Nat × Nat => decide (p.1 < q.1 ∨ (p.1 = q.1 ∧ p.2 < q.2)) := by
    constructor
    · intro a b
      simp only [decide_eq_true_eq, decide_eq_false_iff_not]
      omega
    · intro a b c
      simp only [decide_eq_false_iff_not]
      omega
  refine (ranks.inOrder_sortBy l).eq_of_perm (ranks.inOrder_sortBy l')
    ((perm_sortBy _ l).trans (perm.trans (perm_sortBy _ l').symm)) fun a _ b _ first second => ?_
  simp only [decide_eq_false_iff_not] at first second
  exact Prod.ext (by omega) (by omega)

/-- Dimensions that are renamed together with the symbols seen have the same numbers. -/
lemma numbered_rename (inj : Set.InjOn ρ {s | s ∈ seen}) (covers : ∀ s ∈ d.symbols, s ∈ seen) :
    numbered (seen.map ρ) (d.rename ρ) = numbered seen d := by
  -- a renaming may change the order of the terms, so they agree as a permutation only; sorting by
  -- number puts that right
  have terms : (d.rename ρ).terms.Perm (d.terms.map fun p => (ρ p.1, p.2)) := by
    have nodup : (d.terms.map fun p => (ρ p.1, p.2)).Nodup := by
      refine List.Nodup.of_map Prod.fst ?_
      have names : (d.terms.map fun p => (ρ p.1, p.2)).map Prod.fst = d.symbols.map ρ := by
        rw [Dim.symbols, List.map_map, List.map_map]
        rfl
      rw [names]
      exact d.nodup_symbols.map_on fun s hs u hu eq => inj (covers s hs) (covers u hu) eq
    refine (List.perm_ext_iff_of_nodup (d.rename ρ).nodup_symbols.of_map nodup).2 ?_
    rintro ⟨v, n⟩
    have keep : ∀ s ∈ d.symbols, (d.rename ρ).coeff (ρ s) = d.coeff s := fun s hs =>
      Dim.coeff_rename fun t ht eq => inj (covers t ht) (covers s hs) eq
    rw [Dim.mem_terms_iff, List.mem_map]
    constructor
    · rintro ⟨value, positive⟩
      have occurs : v ∈ (d.rename ρ).symbols := Dim.mem_symbols_iff.2 (by rw [value]; omega)
      obtain ⟨s, hs, rfl⟩ := Dim.mem_symbols_rename.1 occurs
      exact ⟨(s, n), Dim.mem_terms_iff.2 ⟨keep s hs ▸ value, positive⟩, rfl⟩
    · rintro ⟨⟨s, m⟩, term, eq⟩
      cases eq
      obtain ⟨value, positive⟩ := Dim.mem_terms_iff.1 term
      exact ⟨(keep s (List.mem_map_of_mem (f := Prod.fst) term)).trans value, positive⟩
  unfold numbered
  rw [Dim.const_rename]
  refine congrArg (·, d.const) ((sortNumbered_of_perm (terms.map _)).trans ?_)
  rw [List.map_map]
  refine congrArg sortNumbered (List.map_congr_left fun p hp => ?_)
  rw [Function.comp_apply, idxOf_map inj (covers p.1 (List.mem_map_of_mem hp))]

/-- The symbols of renamed dimensions are seen in the same order, if the new names that one
dimension brings in are in the order of the old ones. -/
lemma seenAfter_rename (inj : Set.InjOn ρ {s | s ∈ seenAfter seen shape})
    (ordered : ∀ before d after, shape = before ++ d :: after → ∀ s ∈ d.symbols, ∀ u ∈ d.symbols,
      s ∉ seenAfter seen before → u ∉ seenAfter seen before → s < u → ρ s < ρ u) :
    seenAfter (seen.map ρ) (shape.map (Dim.rename ρ)) = (seenAfter seen shape).map ρ := by
  induction shape generalizing seen with
  | nil => rfl
  | cons d rest ih =>
    have head : extendSeen (seen.map ρ) (d.rename ρ) = (extendSeen seen d).map ρ := by
      refine extendSeen_rename (inj.mono fun s hs => ?_) (ordered [] d rest rfl)
      exact (prefix_seenAfter (extendSeen seen d) rest).subset (mem_extendSeen.2 hs)
    rw [List.map_cons, seenAfter, List.foldl_cons, head]
    refine ih inj fun before e after split => ordered (d :: before) e after (by rw [split]; rfl)

end

namespace PortType

/-- A renaming that keeps the order of names wherever two symbols first occur in the same
dimension. -/
def KeepsOrder (ρ : String → String) (t : PortType) : Prop :=
  ∀ before d after, t.shape = before ++ d :: after → ∀ s ∈ d.symbols, ∀ u ∈ d.symbols,
    (∀ e ∈ before, s ∉ e.symbols ∧ u ∉ e.symbols) → s < u → ρ s < ρ u

variable {t c : PortType} {ρ : String → String}

/-- A symbol has not been seen when no dimension before has it. -/
lemma notMem_seenAfter_nil {before : List Dim} {s : String} :
    s ∉ seenAfter [] before ↔ ∀ e ∈ before, s ∉ e.symbols := by
  rw [mem_seenAfter]
  simp

/-- A renaming that keeps the order of new names keeps the key. -/
lemma signatureKey_rename (inj : Set.InjOn ρ {s | t.Mentions s}) (keeps : t.KeepsOrder ρ) :
    (t.rename ρ).signatureKey = t.signatureKey := by
  have seen : seenAfter [] (t.shape.map (Dim.rename ρ)) = (seenAfter [] t.shape).map ρ := by
    change seenAfter (([] : List String).map ρ) _ = _
    refine seenAfter_rename (inj.mono fun s hs => ?_)
      fun before d after split s hs u hu newS newU => ?_
    · exact (mem_seenAfter.1 hs).resolve_left List.not_mem_nil
    · rw [notMem_seenAfter_nil] at newS newU
      exact keeps before d after split s hs u hu fun e he => ⟨newS e he, newU e he⟩
  have shape : numberedShape [] (t.rename ρ).shape = numberedShape [] t.shape := by
    rw [numberedShape_eq, numberedShape_eq, rename, mapDims, List.map_map]
    refine List.map_congr_left fun d hd => ?_
    rw [seen]
    refine numbered_rename (inj.mono fun s hs => ?_) fun s hs => mem_seenAfter.2 (.inr ⟨d, hd, hs⟩)
    exact (mem_seenAfter.1 hs).resolve_left List.not_mem_nil
  rw [signatureKey, signatureKey, shape]
  rfl

end PortType

/-! ### Types with the same key -/

section

variable {seen seen' : List String} {ρ : String → String} {d e : Dim}

/-- Dimensions with the same numbers have the same multiplicities under these. -/
lemma terms_of_numbered_eq (same : numbered seen d = numbered seen' e) :
    (∀ i n, (∃ s, seen.idxOf s = i ∧ (s, n) ∈ d.terms) ↔ ∃ s, seen'.idxOf s = i ∧
      (s, n) ∈ e.terms) ∧
      d.const = e.const := by
  obtain ⟨terms, const⟩ := Prod.mk.inj same
  refine ⟨fun i n => ?_, const⟩
  have members : ∀ {seen : List String} {d : Dim},
      (i, n) ∈ sortNumbered (d.terms.map fun p => (seen.idxOf p.1, p.2)) ↔
        ∃ s, seen.idxOf s = i ∧ (s, n) ∈ d.terms := by
    intro seen d
    rw [sortNumbered, mem_sortBy, List.mem_map]
    constructor
    · rintro ⟨⟨s, m⟩, mem, eq⟩
      cases eq
      exact ⟨s, rfl, mem⟩
    · rintro ⟨s, rfl, mem⟩
      exact ⟨(s, n), mem, rfl⟩
  rw [← members, ← members, terms]

/-- Symbols of dimensions that have the same numbers are partners when their numbers are the
same. -/
lemma exists_partner (same : numbered seen d = numbered seen' e) {s : String}
    (mem : s ∈ d.symbols) :
    ∃ u ∈ e.symbols, seen'.idxOf u = seen.idxOf s ∧ e.coeff u = d.coeff s := by
  obtain ⟨⟨s, n⟩, term, rfl⟩ := List.mem_map.1 mem
  obtain ⟨u, number, term'⟩ := ((terms_of_numbered_eq same).1 _ n).1 ⟨s, rfl, term⟩
  refine ⟨u, List.mem_map_of_mem (f := Prod.fst) term', number, ?_⟩
  rw [(Dim.mem_terms_iff.1 term').1, (Dim.mem_terms_iff.1 term).1]

/-- Dimensions with the same numbers are the same up to a renaming that leads from partner to
partner. -/
lemma eq_rename_of_numbered_eq (inj : Set.InjOn ρ {s | s ∈ d.symbols})
    (same : numbered seen d = numbered seen' e)
    (leads : ∀ s ∈ d.symbols, ∀ u ∈ e.symbols, seen'.idxOf u = seen.idxOf s → ρ s = u) :
    e = d.rename ρ := by
  refine Dim.ext_coeff (fun v => ?_) ?_
  · by_cases occurs : v ∈ e.symbols
    · obtain ⟨s, mem, number, coeff⟩ := exists_partner same.symm occurs
      have name : ρ s = v := leads s mem v occurs number.symm
      rw [← coeff, ← name, Dim.coeff_rename fun t ht eq => inj ht mem eq]
    · have absent : v ∉ (d.rename ρ).symbols := by
        intro renamed
        obtain ⟨s, mem, rfl⟩ := Dim.mem_symbols_rename.1 renamed
        obtain ⟨u, mem', number, -⟩ := exists_partner same mem
        exact occurs (leads s mem u mem' number ▸ mem')
      rw [Dim.mem_symbols_iff, not_not] at occurs absent
      rw [occurs, absent]
  · rw [Dim.const_rename, (terms_of_numbered_eq same).2]

end

namespace PortType

variable {t c : PortType} {ρ : String → String}

/-- After all of a type the symbols that it mentions have been seen. -/
lemma mem_seenAfter_nil {s : String} : s ∈ seenAfter [] t.shape ↔ t.Mentions s :=
  mem_seenAfter.trans (or_iff_right List.not_mem_nil)

/-- The numbers of two types with the same key lead from the symbols of the one to those of the
other. -/
lemma exists_rename_of_signatureKey (same : t.signatureKey = c.signatureKey) :
    ∃ ρ : String → String, Set.InjOn ρ {s | t.Mentions s} ∧ c = t.rename ρ ∧
      ∀ s, t.Mentions s → (seenAfter [] c.shape).idxOf (ρ s) = (seenAfter [] t.shape).idxOf s := by
  obtain ⟨kind, shape, metric, group⟩ := SignatureKey.mk.injEq .. ▸ same
  generalize numbering : seenAfter [] t.shape = seen
  generalize numbering' : seenAfter [] c.shape = seen'
  have known : ∀ {s}, s ∈ seen ↔ t.Mentions s := numbering ▸ mem_seenAfter_nil
  have known' : ∀ {s}, s ∈ seen' ↔ c.Mentions s := numbering' ▸ mem_seenAfter_nil
  have each : List.Forall₂ (fun d e => numbered seen d = numbered seen' e) t.shape c.shape := by
    rw [numberedShape_eq, numberedShape_eq, numbering, numbering', ← List.forall₂_eq_eq_eq,
      List.forall₂_map_left_iff, List.forall₂_map_right_iff] at shape
    exact shape
  -- a symbol becomes the one at its place in the other list
  let ρ : String → String := fun s => (seen'[seen.idxOf s]?).getD s
  have leads : ∀ s, ∀ u ∈ seen', seen'.idxOf u = seen.idxOf s → ρ s = u := by
    intro s u known number
    change (seen'[seen.idxOf s]?).getD s = u
    rw [← number, List.getElem?_idxOf known, Option.getD_some]
  have partner : ∀ s, t.Mentions s → ∃ u ∈ seen', seen'.idxOf u = seen.idxOf s := by
    rintro s ⟨d, hd, hs⟩
    obtain ⟨e, he, same⟩ := exists_of_mem_forall₂ each.flip hd
    obtain ⟨u, hu, number, -⟩ := exists_partner same hs
    exact ⟨u, known'.2 ⟨e, he, hu⟩, number⟩
  have inj : Set.InjOn ρ {s | t.Mentions s} := by
    intro s hs s' hs' eq
    obtain ⟨u, hu, number⟩ := partner s hs
    obtain ⟨u', hu', number'⟩ := partner s' hs'
    rw [leads s u hu number, leads s' u' hu' number'] at eq
    rw [eq, number'] at number
    exact (List.idxOf_inj (known.2 hs)).1 number.symm
  have renamed : List.Forall₂ (fun d e => e = d.rename ρ) t.shape c.shape := by
    obtain ⟨length, all⟩ := List.forall₂_iff_zip.1 each
    refine List.forall₂_iff_zip.2 ⟨length, fun {d e} mem => ?_⟩
    obtain ⟨hd, he⟩ := List.of_mem_zip mem
    refine eq_rename_of_numbered_eq (inj.mono ?_) (all mem) fun s _ u hu => ?_
    · exact fun s hs => ⟨d, hd, hs⟩
    · exact leads s u (known'.2 ⟨e, he, hu⟩)
  refine ⟨ρ, inj, ?_, fun s hs => ?_⟩
  · have shape' : c.shape = t.shape.map (Dim.rename ρ) := by
      rw [← List.forall₂_eq_eq_eq, List.forall₂_map_right_iff]
      exact renamed.flip
    rw [rename, mapDims, ← shape', kind, metric, group]
  · obtain ⟨u, hu, number⟩ := partner s hs
    rw [leads s u hu number, number]

/-- Types with the same key differ in the names of symbols only. -/
theorem alike_of_signatureKey (same : t.signatureKey = c.signatureKey) : Alike t c := by
  obtain ⟨ρ, inj, eq, -⟩ := exists_rename_of_signatureKey same
  exact ⟨ρ, inj, eq⟩

/-- A renaming that leads from number to number keeps the order of new names. -/
lemma keepsOrder_of_idxOf (inj : Set.InjOn ρ {s | t.Mentions s})
    (numbers : ∀ s, t.Mentions s →
      (seenAfter [] (t.rename ρ).shape).idxOf (ρ s) = (seenAfter [] t.shape).idxOf s) :
    t.KeepsOrder ρ := by
  intro before d after split s hs u hu new earlier
  have occurs : ∀ {v}, v ∈ d.symbols → t.Mentions v := fun hv => ⟨d, by simp [split], hv⟩
  have less : (seenAfter [] t.shape).idxOf s < (seenAfter [] t.shape).idxOf u := by
    rw [split]
    exact idxOf_lt_idxOf hs hu (notMem_seenAfter_nil.2 fun e he => (new e he).1)
      (notMem_seenAfter_nil.2 fun e he => (new e he).2) earlier
  have split' : (t.rename ρ).shape =
      before.map (Dim.rename ρ) ++ d.rename ρ :: after.map (Dim.rename ρ) := by
    rw [rename, mapDims, split, List.map_append, List.map_cons]
  have new' : ∀ {v}, v ∈ d.symbols → (∀ e ∈ before, v ∉ e.symbols) →
      ρ v ∉ seenAfter [] (before.map (Dim.rename ρ)) := by
    intro v hv fresh
    refine notMem_seenAfter_nil.2 fun _ mem old => ?_
    obtain ⟨e, he, rfl⟩ := List.mem_map.1 mem
    obtain ⟨w, hw, same⟩ := Dim.mem_symbols_rename.1 old
    exact fresh e he (inj (occurs hv) ⟨e, by simp [split, he], hw⟩ same ▸ hw)
  by_contra notEarlier
  have apart : ρ u ≠ ρ s := fun same =>
    String.lt_irrefl u (inj (occurs hu) (occurs hs) same ▸ earlier)
  have later : ρ u < ρ s := by
    by_contra notLater
    exact apart (String.le_antisymm (String.not_lt.1 notEarlier) (String.not_lt.1 notLater))
  -- the new names would have got their numbers the other way round
  have more : (seenAfter [] (t.rename ρ).shape).idxOf (ρ u) <
      (seenAfter [] (t.rename ρ).shape).idxOf (ρ s) := by
    rw [split']
    exact idxOf_lt_idxOf (Dim.mem_symbols_rename.2 ⟨u, hu, rfl⟩)
      (Dim.mem_symbols_rename.2 ⟨s, hs, rfl⟩) (new' hu fun e he => (new e he).2)
      (new' hs fun e he => (new e he).1) later
  rw [numbers u (occurs hu), numbers s (occurs hs)] at more
  exact absurd (Nat.lt_trans less more) (Nat.lt_irrefl _)

/-- Types have the same key exactly when a renaming, one to one from the symbols of the one to those
of the other, leads from the one to the other and keeps the order of the names that one dimension
brings in. -/
theorem signatureKey_eq_iff : t.signatureKey = c.signatureKey ↔
    ∃ ρ : String → String, Set.BijOn ρ {s | t.Mentions s} {s | c.Mentions s} ∧ c = t.rename ρ ∧
      t.KeepsOrder ρ := by
  constructor
  · intro same
    obtain ⟨ρ, inj, rfl, numbers⟩ := exists_rename_of_signatureKey same
    refine ⟨ρ, ⟨?_, inj, ?_⟩, rfl, keepsOrder_of_idxOf inj numbers⟩
    · exact fun s hs => mentions_rename.2 ⟨s, hs, rfl⟩
    · rintro _ hv
      obtain ⟨s, hs, rfl⟩ := mentions_rename.1 hv
      exact ⟨s, hs, rfl⟩
  · rintro ⟨ρ, ⟨-, inj, -⟩, rfl, keeps⟩
    exact (signatureKey_rename inj keeps).symm

/-- Where no dimension brings in two symbols, the types with the same key are those that differ in
the names of symbols only. -/
theorem signatureKey_eq_iff_alike
    (single : ∀ before d after, t.shape = before ++ d :: after → ∀ s ∈ d.symbols, ∀ u ∈ d.symbols,
      (∀ e ∈ before, s ∉ e.symbols ∧ u ∉ e.symbols) → s = u) :
    t.signatureKey = c.signatureKey ↔ Alike t c := by
  refine ⟨alike_of_signatureKey, fun ⟨ρ, inj, eq⟩ => ?_⟩
  rw [eq, signatureKey_rename inj]
  intro before d after split s hs u hu new earlier
  exact absurd (single before d after split s hs u hu new) fun eq =>
    String.lt_irrefl u (eq ▸ earlier)

/-- A sum of two symbols, followed by one of them. -/
def summed (s : String) : PortType :=
  { kind := "feature", shape := [.symbol "A" + .symbol "B", .symbol s], metric := "l2",
    group := .empty }

/-- Swapping its two symbols leads from the one type to the other, but the sum is the same and
numbers them by their names. -/
theorem summed_signatureKey_ne :
    (∃ ρ : String → String, Set.BijOn ρ {s | (summed "A").Mentions s}
    {s | (summed "B").Mentions s} ∧
      summed "B" = (summed "A").rename ρ) ∧
    (summed "A").signatureKey ≠ (summed "B").signatureKey := by
  let swap : String → String := fun s => if s = "A" then "B" else "A"
  have eq : summed "B" = (summed "A").rename swap := by decide
  refine ⟨⟨swap, ⟨?_, ?_, ?_⟩, eq⟩, by decide⟩
  · exact fun s hs => eq ▸ mentions_rename.2 ⟨s, hs, rfl⟩
  · have sum : ∀ s, (summed "A").Mentions s → s = "A" ∨ s = "B" := by
      rintro s ⟨d, hd, hs⟩
      have symbols : d.symbols ⊆ ["A", "B"] := by
        rcases List.mem_pair.1 hd with rfl | rfl <;> decide
      exact List.mem_pair.1 (symbols hs)
    intro s hs u hu same
    rcases sum s hs with rfl | rfl <;> rcases sum u hu with rfl | rfl <;>
      first | rfl | exact absurd same (by decide)
  · intro v hv
    obtain ⟨s, hs, rfl⟩ := mentions_rename.1 (eq ▸ hv)
    exact ⟨s, hs, rfl⟩

end PortType

end OperatorNet
