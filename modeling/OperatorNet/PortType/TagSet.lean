/-!
# Sets of tags

A set of texts held in increasing order, so that equal sets are equal values. `mem_ofList` says that
a set has the elements of the list it is made of.
-/

namespace OperatorNet

/-- Places a text in an increasing list unless it is there. -/
def insertTag (s : String) : List String → List String
  | [] => [s]
  | t :: rest =>
    if s < t then s :: t :: rest else if s = t then t :: rest else t :: insertTag s rest

/-- A set has a tag that is put in, and those of before. -/
theorem mem_insertTag {s x : String} {l : List String} : x ∈ insertTag s l ↔ x = s ∨ x ∈ l := by
  induction l with
  | nil => simp [insertTag]
  | cons t rest ih =>
    simp only [insertTag]
    split
    · simp
    · split
      · rename_i h; subst h; simp
      · simp only [List.mem_cons, ih]
        constructor
        · rintro (h | h | h) <;> simp [h]
        · rintro (h | h | h) <;> simp [h]

/-- A tag is put in at its place in the order. -/
theorem ascending_insertTag (s : String) {l : List String} (h : l.Pairwise (· < ·)) :
    (insertTag s l).Pairwise (· < ·) := by
  induction l with
  | nil => simp [insertTag]
  | cons t rest ih =>
    rw [List.pairwise_cons] at h
    simp only [insertTag]
    split
    · rename_i hlt
      rw [List.pairwise_cons]
      refine ⟨fun x hx => ?_, List.pairwise_cons.2 h⟩
      rcases List.mem_cons.1 hx with rfl | hx
      · exact hlt
      · exact String.lt_trans hlt (h.1 x hx)
    · rename_i hnlt
      split
      · exact List.pairwise_cons.2 h
      · rename_i hne
        refine List.pairwise_cons.2 ⟨fun x hx => ?_, ih h.2⟩
        rcases mem_insertTag.1 hx with rfl | hx
        · exact Decidable.byContradiction fun hc =>
            hne (String.le_antisymm (String.not_lt.1 hc) (String.not_lt.1 hnlt))
        · exact h.1 x hx

/-- A set of texts. -/
structure TagSet where
  tags : List String
  ascending : tags.Pairwise (· < ·)
  deriving DecidableEq

namespace TagSet

/-- The set without elements. -/
def empty : TagSet :=
  ⟨[], by simp⟩

instance : Inhabited TagSet := ⟨empty⟩

/-- The set with one more element. -/
def insert (t : TagSet) (s : String) : TagSet :=
  ⟨insertTag s t.tags, ascending_insertTag s t.ascending⟩

/-- The set of the elements of a list. -/
def ofList (l : List String) : TagSet :=
  l.foldr (fun s t => t.insert s) empty

instance : Membership String TagSet := ⟨fun t s => s ∈ t.tags⟩

instance (s : String) (t : TagSet) : Decidable (s ∈ t) :=
  inferInstanceAs (Decidable (s ∈ t.tags))

/-- A set made of a list has the tags of the list. -/
theorem mem_ofList {s : String} {l : List String} : s ∈ ofList l ↔ s ∈ l := by
  change s ∈ (ofList l).tags ↔ s ∈ l
  induction l with
  | nil => simp [ofList, empty]
  | cons a rest ih =>
    rw [show (ofList (a :: rest)).tags = insertTag a (ofList rest).tags from rfl, mem_insertTag, ih]
    simp

end TagSet

/-- Texts in increasing order, each once. -/
def sortedTexts (l : List String) : List String :=
  (TagSet.ofList l).tags

end OperatorNet
