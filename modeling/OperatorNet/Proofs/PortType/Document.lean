import OperatorNet.PortType.Read
import OperatorNet.Proofs.Dim.Writing
import OperatorNet.Proofs.Text.Lowercase
import OperatorNet.Proofs.Validation.Acceptance

/-!
# Documents of types

A type is normal when its tags are in the form in which they are compared, and its symbols are
names. The document of a normal type is read as that type again, unless one of its dimensions cannot
be written (`PortType.read_toData_iff`).
-/

namespace OperatorNet

/-- A tag before all others is put first. -/
lemma insertTag_of_forall_lt {s : String} {l : List String} (least : ∀ t ∈ l, s < t) :
    insertTag s l = s :: l := by
  cases l with
  | nil => rfl
  | cons t rest => rw [insertTag, if_pos (least t (List.mem_cons_self ..))]

/-- A set is made of its own tags. -/
lemma TagSet.ofList_tags (t : TagSet) : TagSet.ofList t.tags = t := by
  obtain ⟨tags, ascending⟩ := t
  have same : (TagSet.ofList tags).tags = tags := by
    induction tags with
    | nil => rfl
    | cons s rest ih =>
      rw [List.pairwise_cons] at ascending
      change insertTag s (TagSet.ofList rest).tags = s :: rest
      rw [ih ascending.2, insertTag_of_forall_lt ascending.1]
  cases made : TagSet.ofList tags with
  | mk tags' _ =>
    rw [made] at same
    cases same
    rfl

/-- A tag in the form in which tags are compared. -/
def IsTag (s : String) : Prop :=
  ¬ (Text.trimmed s).isEmpty ∧ normalizeTag s = s

instance : DecidablePred IsTag :=
  fun _ => inferInstanceAs (Decidable (_ ∧ _))

namespace Check

/-- A text is accepted as it stands when it is a tag. -/
lemma tag_text_eq_self_iff {s : String} : tag (.text s) = accepted s ↔ IsTag s := by
  rw [tag, text, andThen, IsTag]
  split
  next empty =>
    exact ⟨fun eq => absurd eq flawed_ne_accepted, fun ⟨filled, _⟩ => absurd empty filled⟩
  next filled => exact ⟨fun eq => ⟨filled, accepted.inj eq⟩, fun ⟨_, same⟩ => congrArg _ same⟩

/-- A shape over names is read as it was written, unless a dimension cannot be written. -/
lemma shape_toTerm_iff {dims dims' : List Dim} (names : ∀ d ∈ dims, d.Within IsName) :
    shape (.list (dims.map fun d => d.toTerm.toData)) = accepted dims' ↔
      (∀ d ∈ dims, d.isConcrete ∨ d.const < Text.unwritable) ∧ dims' = dims := by
  have each : ∀ d ∈ dims, ∀ e, (Dim.ofData d.toTerm.toData >>= Dim.written) = .ok e ↔
      (d.isConcrete ∨ d.const < Text.unwritable) ∧ e = d := by
    intro d hd e
    simp only [bind_eq_ok, Dim.ofData_toTerm_eq_ok_iff (names d hd), Dim.written_eq_ok_iff]
    constructor
    · rintro ⟨_, ⟨can, rfl⟩, -, rfl⟩
      exact ⟨can, rfl⟩
    · rintro ⟨can, rfl⟩
      exact ⟨_, ⟨can, rfl⟩, can, rfl⟩
  have read : (dims.mapM fun d => Dim.ofData d.toTerm.toData >>= Dim.written) = .ok dims' ↔
      (∀ d ∈ dims, d.isConcrete ∨ d.const < Text.unwritable) ∧ dims' = dims := by
    rw [mapM_eq_ok_iff each, List.map_id']
  have terms : ((dims.map fun d => d.toTerm.toData).mapM fun t => do (← Dim.ofData t).written) =
      dims.mapM fun d => Dim.ofData d.toTerm.toData >>= Dim.written :=
    List.mapM_map
  rw [← read, ← terms]
  unfold shape shapeTerms?
  simp only
  split
  next ok =>
    rw [ok]
    exact ⟨fun eq => congrArg _ (accepted.inj eq), fun eq => congrArg _ (Except.ok.inj eq)⟩
  next failed =>
    rw [failed]
    exact ⟨nofun, nofun⟩

/-- Tags in order are different from each other. -/
lemma distinctKeys?_texts {tags : List String} (ascending : tags.Pairwise (· < ·)) :
    distinctKeys? (tags.map .text) = some (tags.map .text) := by
  have step : ∀ seen rest : List String, (seen ++ rest).Pairwise (· < ·) →
      (rest.map .text).foldlM (fun acc (d : Data Float) => do
        let k ← d.key?
        return if acc.any (·.key? = some k) then acc else acc ++ [d]) (seen.map .text) =
        some ((seen ++ rest).map .text) := by
    intro seen rest
    induction rest generalizing seen with
    | nil =>
      intro _
      rw [List.append_nil]
      rfl
    | cons s rest ih =>
      intro ascending
      have new : (seen.map Data.text).any (fun d : Data Float => d.key? = some (.text s)) =
          false := by
        rw [List.any_map, List.any_eq_false]
        intro t ht same
        have before := (List.pairwise_append.1 ascending).2.2 t ht s (List.mem_cons_self ..)
        have equal : t = s := by simpa [Data.key?] using same
        exact String.lt_irrefl s (equal ▸ before)
      have next := ih (seen ++ [s]) (by rwa [List.append_assoc])
      rw [List.map_append, List.append_assoc] at next
      rw [List.map_cons, List.foldlM_cons]
      change (some
        (if (seen.map Data.text).any (fun d : Data Float => d.key? = some (.text s)) then _
        else seen.map Data.text ++ [.text s])).bind _ = _
      rw [if_neg (by rw [new]; exact Bool.false_ne_true)]
      exact next
  exact step [] tags ascending

/-- A group is read as it was written. -/
lemma group_texts (t : TagSet) : group (.texts t.tags) = accepted t := by
  have read : list text (.list (t.tags.map .text)) = accepted t.tags := by
    rw [list_eq_accepted, List.forall₂_map_left_iff, List.forall₂_same]
    exact fun _ _ => rfl
  unfold group Data.texts
  simp only [distinctKeys?_texts t.ascending, read, map, TagSet.ofList_tags]

end Check

namespace PortType

/-- A type as types are read: its tags are in the form in which they are compared, and its symbols
are names. -/
structure Normal (t : PortType) : Prop where
  kind : IsTag t.kind
  metric : IsTag t.metric
  names : t.Within IsName

instance (t : PortType) : Decidable t.Normal :=
  decidable_of_iff (IsTag t.kind ∧ IsTag t.metric ∧ t.Within IsName)
    ⟨fun ⟨kind, metric, names⟩ => ⟨kind, metric, names⟩, fun normal =>
      ⟨normal.kind, normal.metric, normal.names⟩⟩

/-- A type whose dimensions can be written. -/
def Writable (t : PortType) : Prop :=
  ∀ d ∈ t.shape, d.isConcrete ∨ d.const < Text.unwritable

instance (t : PortType) : Decidable t.Writable :=
  inferInstanceAs (Decidable (∀ d ∈ t.shape, _))

/-- A type has terms when it can be written. -/
lemma hasTerms_iff {t : PortType} : t.hasTerms ↔ t.Writable := by
  rw [hasTerms, List.all_eq_true]
  exact forall₂_congr fun _ _ => Dim.hasTerm_iff

/-- A type stays normal when only its dimensions change, to names. -/
lemma Normal.of_within {t t' : PortType} (normal : t.Normal) (kind : t'.kind = t.kind)
    (metric : t'.metric = t.metric) (names : t'.Within IsName) : t'.Normal :=
  ⟨kind ▸ normal.kind, metric ▸ normal.metric, names⟩

/-- A normal type is read as it was written, unless one of its dimensions cannot be written. -/
theorem read_toData_iff {t t' : PortType} (normal : t.Normal) :
    Check.portType t.toData = .accepted t' ↔ t.Writable ∧ t' = t := by
  have others := fun kind shape metric group => Check.noOthers_of_keys
    [("kind", kind), ("shape", shape), ("metric", metric), ("group", group)] rfl
  simp only [List.map_cons, List.map_nil] at others
  refine Iff.trans ?_ (and_congr_right fun _ => eq_comm)
  simp [toData, Writable, Check.portType, Check.record, Check.required, Check.withDefault, others,
    Check.tag_text_eq_self_iff.2 normal.kind, Check.tag_text_eq_self_iff.2 normal.metric,
    Check.group_texts, Check.shape_toTerm_iff normal.names]

end PortType

end OperatorNet
