import OperatorNet.Proofs.Dim.Meaning
import OperatorNet.Proofs.PortType.Agreement
import OperatorNet.Proofs.Results
import OperatorNet.Proofs.Text.Characters

/-!
# Writing dimensions

A dimension is written as its number or as its pieces joined by marks. Where its symbols are names,
what is written is read as the dimension again, unless its number is too long beside symbols
(`Dim.ofData_toTerm_eq_ok_iff`).
-/

namespace OperatorNet

open Text

/-- Text is split at the plus signs. -/
lemma splitPlus_eq_splitOn (cs : List Char) : splitPlus cs = cs.splitOn '+' := by
  induction cs with
  | nil => rfl
  | cons c rest ih =>
    rw [splitPlus, List.splitOn_cons_eq_if_modifyHead, ih]
    by_cases mark : c = '+'
    · rw [if_pos mark, if_pos (beq_iff_eq.2 mark)]
    · rw [if_neg mark, if_neg (fun same => mark (beq_iff_eq.1 same))]
      cases pieces : rest.splitOn '+' with
      | nil => exact absurd pieces (List.splitOn_ne_nil _ _)
      | cons piece pieces => rfl

/-- A symbol that can be read. -/
def IsName (s : String) : Prop :=
  isSymbolName s.toList

instance : DecidablePred IsName :=
  fun _ => inferInstanceAs (Decidable (_ = _))

/-- A name consists of the characters that names may have. -/
lemma isSymbolRest_of_mem_name {cs : List Char} (name : isSymbolName cs) {c : Char} (mem : c ∈ cs) :
    isSymbolRest c := by
  cases cs with
  | nil => cases mem
  | cons d rest =>
    rw [isSymbolName, Bool.and_eq_true, List.all_eq_true] at name
    rcases List.mem_cons.1 mem with rfl | later
    · exact isSymbolRest_of_isSymbolStart name.1
    · exact name.2 c later

/-- Digits are read as the number that they write. -/
lemma natOfDigits?_eq_some {cs : List Char} (digits : ∀ c ∈ cs, c.isDigit) :
    natOfDigits? cs = some (Nat.ofDigitChars 10 cs 0) := by
  unfold natOfDigits?
  generalize 0 = n
  induction cs generalizing n with
  | nil => rfl
  | cons c rest ih =>
    rw [List.foldl_cons, Nat.ofDigitChars_cons, (plain_of_isDigit (digits c (by simp))).1]
    exact ih (fun d hd => digits d (by simp [hd])) _

/-- Digits without underscores are joined as they stand. -/
lemma joinDigits_eq_some {cs : List Char} (digits : ∀ c ∈ cs, c.isDigit) (previous : Bool) :
    Decimal.joinDigits previous cs = some cs := by
  induction cs generalizing previous with
  | nil => rfl
  | cons c rest ih =>
    have plain := plain_of_isDigit (digits c (by simp))
    unfold Decimal.joinDigits
    split
    next none => cases none
    next same => exact absurd (List.cons.inj same).1 plain.2.2.2.2
    next same =>
      obtain ⟨rfl, rfl⟩ := List.cons.inj same
      rw [if_neg plain.2.2.2.2, ih fun d hd => digits d (by simp [hd])]
      rfl

/-- Of text that is all digits every character is a leading one. -/
lemma leadingDigits_eq_length {cs : List Char} (digits : ∀ c ∈ cs, c.isDigit) :
    Decimal.leadingDigits (String.ofList cs) = cs.length := by
  have bare : Bare isWhite cs := bare_of_forall fun c hc white =>
    (plain_of_isDigit (digits c hc)).2.1 (isBlank_of_isWhite c white)
  have unsigned : Decimal.splitSign cs = (false, cs) := by
    unfold Decimal.splitSign
    split
    next => exact absurd rfl (plain_of_isDigit (digits '-' (by simp))).2.2.2.1
    next => exact absurd rfl (plain_of_isDigit (digits '+' (by simp))).2.2.1
    next => rfl
  have row : cs.takeWhile (fun c => decide (c = '_') || (decimalValue? c).isSome) = cs := by
    refine List.takeWhile_eq_self_iff.2 fun c hc => ?_
    rw [(plain_of_isDigit (digits c hc)).1, Option.isSome_some, Bool.or_true]
  simp only [Decimal.leadingDigits, String.toList_ofList, bare.trimBy_eq, unsigned, row,
    joinDigits_eq_some digits, Option.map_some, Option.getD_some]

/-- A number has at most as many digits as the power of ten above it has zeros. -/
lemma length_digits_le_iff {n k : Nat} (positive : 0 < k) :
    (Nat.toDigits 10 n).length ≤ k ↔ n < Nat.pow 10 k :=
  Nat.length_toDigits_le_iff (by decide) positive

/-- Numbers that are too long to be written are those with more digits than some number has. -/
lemma exists_unwritable_eq : ∃ k, 0 < k ∧ longestNumeral = k ∧ unwritable = Nat.pow 10 k :=
  ⟨longestNumeral, by decide, rfl, (Nat.pow_mul 10 100 (longestNumeral / 100)).symm⟩

/-- A number of one digit can be written. -/
lemma lt_unwritable {n : Nat} (short : n < 10) : n < unwritable := by
  obtain ⟨k, positive, -, least⟩ := exists_unwritable_eq
  rw [least]
  exact Nat.lt_of_lt_of_le short (Nat.le_self_pow (Nat.ne_of_gt positive) 10)

/-- A number is written with digits. -/
lemma isDigit_of_mem_toString {n : Nat} {c : Char} (mem : c ∈ (toString n).toList) : c.isDigit :=
  Nat.isDigit_of_mem_toDigits (b := 10) (by decide) (by decide) (by simpa using mem)

/-- The numeral of a number is too long when the number cannot be written. -/
lemma longestNumeral_lt_leadingDigits_iff (n : Nat) :
    longestNumeral < Decimal.leadingDigits (String.ofList (toString n).toList) ↔
      ¬ n < unwritable := by
  obtain ⟨k, positive, long, least⟩ := exists_unwritable_eq
  rw [leadingDigits_eq_length fun c => isDigit_of_mem_toString, Nat.toString_eq_repr,
    Nat.toList_repr, ← Nat.not_le, least, long, length_digits_le_iff positive]

/-- No numeral is a name. -/
lemma not_isSymbolName_toString (n : Nat) : ¬ isSymbolName (toString n).toList := by
  intro name
  cases digits : (toString n).toList with
  | nil =>
    rw [digits] at name
    cases name
  | cons c rest =>
    have digit : c.isDigit := isDigit_of_mem_toString (n := n) (by rw [digits]; simp)
    rw [digits, isSymbolName, Bool.and_eq_true] at name
    refine not_isDigit_of_isSymbolStart name.1 ?_
    rw [isDigit, (plain_of_isDigit digit).1]
    rfl

namespace Dim

/-- A name is added as a symbol. -/
lemma addPiece_of_name {name : List Char} (isName : isSymbolName name) (term : String) (d : Dim) :
    addPiece term d name = .ok (d.addSymbol (String.ofList name) 1 Nat.one_pos) := by
  have letters : ¬ name.all isDigit := by
    intro all
    cases name with
    | nil => cases isName
    | cons c rest =>
      rw [isSymbolName, Bool.and_eq_true] at isName
      rw [List.all_cons, Bool.and_eq_true] at all
      exact not_isDigit_of_isSymbolStart isName.1 all.1
  rw [addPiece, if_neg letters, if_pos isName]

/-- A numeral is added as its number when it is not too long. -/
lemma addPiece_toString_eq_ok_iff {n : Nat} {term : String} {d e : Dim} :
    addPiece term d (toString n).toList = .ok e ↔ n < unwritable ∧ e = d.addNat n := by
  have all : (toString n).toList.all isDigit := by
    rw [List.all_eq_true]
    intro c hc
    rw [isDigit, (plain_of_isDigit (isDigit_of_mem_toString hc)).1]
    rfl
  have value : natOfDigits? (toString n).toList = some n := by
    rw [natOfDigits?_eq_some fun c => isDigit_of_mem_toString, Nat.toString_eq_repr,
      Nat.toList_repr, Nat.ofDigitChars_ten_toDigits]
  rw [addPiece, if_pos all]
  simp only [longestNumeral_lt_leadingDigits_iff, value]
  split
  next long => exact ⟨nofun, fun ⟨short, _⟩ => absurd short long⟩
  next short =>
    exact ⟨fun eq => ⟨not_not.1 short, (Except.ok.inj eq).symm⟩, fun ⟨_, eq⟩ => eq ▸ rfl⟩

/-- The value of a piece. -/
def ofPiece (piece : List Char) : Dim :=
  if isSymbolName piece then symbol (String.ofList piece)
  else ofNat (Nat.ofDigitChars 10 piece 0)

/-- A piece of a written sum: a name or a number. -/
inductive IsPiece : List Char → Prop where
  | name {cs} : isSymbolName cs → IsPiece cs
  | number (n : Nat) : IsPiece (toString n).toList

/-- A numeral stands for its number. -/
lemma ofPiece_toString (n : Nat) : ofPiece (toString n).toList = ofNat n := by
  rw [ofPiece, if_neg (not_isSymbolName_toString n), Nat.toString_eq_repr, Nat.toList_repr,
    Nat.ofDigitChars_ten_toDigits]

/-- A name stands for its symbol. -/
lemma ofPiece_name {s : String} (name : isSymbolName s.toList) : ofPiece s.toList = symbol s := by
  rw [ofPiece, if_pos name, String.ofList_toList]

/-- A piece is not empty, has no blanks around it and no plus sign inside. -/
lemma IsPiece.plain {cs : List Char} (piece : IsPiece cs) : cs ≠ [] ∧ trim cs = cs ∧ '+' ∉ cs := by
  have of_all : (∀ c ∈ cs, ¬ isBlank c ∧ c ≠ '+') → trim cs = cs ∧ '+' ∉ cs := fun all =>
    ⟨(bare_of_forall fun c hc => (all c hc).1).trimBy_eq, fun mark => (all _ mark).2 rfl⟩
  cases piece with
  | name name =>
    refine ⟨fun empty => ?_, of_all fun c hc =>
      plain_of_isSymbolRest (isSymbolRest_of_mem_name name hc)⟩
    rw [empty] at name
    cases name
  | number n =>
    refine ⟨fun empty => ?_, of_all fun c hc => ?_⟩
    · rw [Nat.toString_eq_repr, Nat.toList_repr] at empty
      exact Nat.toDigits_ne_nil empty
    · have plain := plain_of_isDigit (isDigit_of_mem_toString hc)
      exact ⟨plain.2.1, plain.2.2.1⟩

/-- A dimension with the values of pieces added. -/
def addPieces (d : Dim) (pieces : List (List Char)) : Dim :=
  pieces.foldl (fun d piece => d + ofPiece piece) d

/-- A piece that is added adds what it stands for. -/
lemma IsPiece.eq_add_of_addPiece {cs : List Char} (piece : IsPiece cs) {term : String} {d e : Dim}
    (added : addPiece term d cs = .ok e) : e = d + ofPiece cs := by
  refine eval_ext fun σ => ?_
  rw [eval_add]
  cases piece with
  | name name =>
    rw [addPiece_of_name name] at added
    cases added
    rw [ofPiece, if_pos name, eval_symbol]
    simp only [eval, addSymbol, evalTerms_addTerm]
    omega
  | number n =>
    obtain ⟨-, rfl⟩ := addPiece_toString_eq_ok_iff.1 added
    rw [ofPiece_toString, eval_ofNat]
    simp only [eval, addNat]
    omega

/-- Pieces that are added one after the other add their values. -/
lemma eq_addPieces_of_foldlM {pieces : List (List Char)} (all : ∀ p ∈ pieces, IsPiece p)
    {term : String} {d e : Dim} (added : pieces.foldlM (addPiece term) d = .ok e) :
    e = d.addPieces pieces := by
  induction pieces generalizing d with
  | nil =>
    cases added
    rfl
  | cons p rest ih =>
    rw [List.foldlM_cons, bind_eq_ok] at added
    obtain ⟨d₁, first, others⟩ := added
    rw [ih (fun q hq => all q (by simp [hq])) others, (all p (by simp)).eq_add_of_addPiece first]
    rfl

/-- Pieces can be added one after the other exactly when no number among them is too long. -/
lemma exists_foldlM_addPiece_iff {pieces : List (List Char)} (all : ∀ p ∈ pieces, IsPiece p)
    {term : String} {d : Dim} : (∃ e, pieces.foldlM (addPiece term) d = .ok e) ↔
      ∀ n : Nat, (toString n).toList ∈ pieces → n < unwritable := by
  induction pieces generalizing d with
  | nil => exact ⟨fun _ n mem => absurd mem List.not_mem_nil, fun _ => ⟨d, rfl⟩⟩
  | cons p rest ih =>
    have others := fun d => ih (fun q hq => all q (by simp [hq])) (d := d)
    simp only [List.foldlM_cons, bind_eq_ok, List.mem_cons]
    cases all p (by simp) with
    | name name =>
      simp only [addPiece_of_name name, Except.ok.injEq, exists_eq_left', others]
      refine forall_congr' fun n => ⟨fun short mem => short (mem.resolve_left fun same => ?_),
        fun short mem => short (.inr mem)⟩
      exact not_isSymbolName_toString n (same ▸ name)
    | number m =>
      simp only [addPiece_toString_eq_ok_iff]
      constructor
      · rintro ⟨e, d₁, ⟨short, -⟩, tail⟩ n (same | mem)
        · rwa [toString_inj (String.toList_inj.1 same)]
        · exact (others d₁).1 ⟨e, tail⟩ n mem
      · intro short
        obtain ⟨e, tail⟩ := (others (d.addNat m)).2 fun n mem => short n (.inr mem)
        exact ⟨e, _, ⟨short m (.inl rfl), rfl⟩, tail⟩

/-- A piece that is added several times counts as often. -/
lemma eval_addPieces_replicate (d : Dim) (cs : List Char) (n : Nat) (σ : String → Nat) :
    (d.addPieces (List.replicate n cs)).eval σ = d.eval σ + n * (ofPiece cs).eval σ := by
  induction n generalizing d with
  | zero => rw [Nat.zero_mul]; rfl
  | succ n ih =>
    rw [List.replicate_succ]
    change ((d + ofPiece cs).addPieces (List.replicate n cs)).eval σ = _
    rw [ih, eval_add, Nat.succ_mul]
    omega

/-- Multiples of names add the value of the sum of these. -/
lemma eval_addPieces_terms (d : Dim) {l : List (String × Nat)} (names : ∀ p ∈ l, IsName p.1)
    (σ : String → Nat) :
    (d.addPieces ((l.flatMap fun p => List.replicate p.2 p.1).map String.toList)).eval σ =
      d.eval σ + evalTerms σ l := by
  induction l generalizing d with
  | nil => rfl
  | cons p rest ih =>
    rw [List.flatMap_cons, List.map_append, List.map_replicate, addPieces, List.foldl_append]
    change ((d.addPieces (List.replicate p.2 p.1.toList)).addPieces _).eval σ = _
    rw [ih _ fun q hq => names q (by simp [hq]), eval_addPieces_replicate,
      ofPiece_name (names p (by simp)), eval_symbol, evalTerms, Nat.add_assoc]

section Written

variable {d e : Dim} (names : d.Within IsName)

include names

/-- The pieces of a dimension add up to it. -/
lemma addPieces_pieces : (ofNat 0).addPieces (d.pieces.map String.toList) = d := by
  refine eval_ext fun σ => ?_
  let symbols : List (List Char) :=
    (d.terms.flatMap fun p => List.replicate p.2 p.1).map String.toList
  have terms : ((ofNat 0).addPieces symbols).eval σ = evalTerms σ d.terms := by
    rw [eval_addPieces_terms _ fun p hp => names p.1 (List.mem_map_of_mem hp), eval_ofNat,
      Nat.zero_add]
  have value : d.eval σ = evalTerms σ d.terms + d.const := rfl
  rw [value, ← terms, pieces, List.map_append, addPieces, List.foldl_append]
  by_cases zero : d.const = 0
  · rw [if_pos zero, zero]
    rfl
  · rw [if_neg zero, List.map_singleton, List.foldl_cons, List.foldl_nil, eval_add,
      ofPiece_toString, eval_ofNat]
    rfl

/-- A piece of a dimension is a name or its number. -/
lemma cases_of_mem_pieces {p : String} (mem : p ∈ d.pieces) :
    isSymbolName p.toList ∨ d.const ≠ 0 ∧ p = toString d.const := by
  rw [pieces, List.mem_append] at mem
  rcases mem with symbol | number
  · obtain ⟨t, ht, copies⟩ := List.mem_flatMap.1 symbol
    obtain ⟨-, rfl⟩ := List.mem_replicate.1 copies
    exact .inl (names t.1 (List.mem_map_of_mem ht))
  · split at number
    next => cases number
    next nonzero => exact .inr ⟨nonzero, List.mem_singleton.1 number⟩

/-- What a dimension is written with are pieces. -/
lemma isPiece_of_mem_pieces : ∀ p ∈ d.pieces.map String.toList, IsPiece p := by
  intro p hp
  obtain ⟨q, hq, rfl⟩ := List.mem_map.1 hp
  rcases cases_of_mem_pieces names hq with name | ⟨-, rfl⟩
  · exact .name name
  · exact .number d.const

/-- A written dimension is read piece by piece. -/
lemma parse_eq_foldlM (symbols : ¬ d.isConcrete) : parse ("+".intercalate d.pieces) =
    (d.pieces.map String.toList).foldlM (addPiece ("+".intercalate d.pieces)) (ofNat 0) := by
  have all := isPiece_of_mem_pieces names
  have nonempty : d.pieces.map String.toList ≠ [] := by
    intro none
    rw [List.map_eq_nil_iff, pieces, List.append_eq_nil_iff, List.flatMap_eq_nil_iff] at none
    refine symbols (List.isEmpty_iff.2 (List.eq_nil_iff_forall_not_mem.2 fun p hp => ?_))
    exact Nat.ne_of_gt (d.positive p hp) (List.replicate_eq_nil_iff _ |>.1 (none.1 p hp))
  have split : (splitPlus ("+".intercalate d.pieces).toList).map trim =
      d.pieces.map String.toList := by
    rw [splitPlus_eq_splitOn, String.toList_intercalate]
    change (List.splitOn '+' (['+'].intercalate (d.pieces.map String.toList))).map trim = _
    rw [List.splitOn_intercalate '+' (fun p hp => (all p hp).plain.2.2) nonempty]
    exact (List.map_congr_left fun p hp => (all p hp).plain.2.1).trans (List.map_id' _)
  have filled : ¬ (d.pieces.map String.toList).any (·.isEmpty) = true := by
    rw [List.any_eq_true]
    rintro ⟨p, hp, empty⟩
    exact (all p hp).plain.1 (List.isEmpty_iff.1 empty)
  rw [parse, split]
  exact if_neg filled

/-- The numbers among the pieces can be written when the number of the dimension can. -/
lemma forall_number_mem_pieces_iff :
    (∀ n : Nat, (toString n).toList ∈ d.pieces.map String.toList → n < unwritable) ↔
      d.const < unwritable := by
  constructor
  · intro short
    by_cases zero : d.const = 0
    · obtain ⟨k, -, -, least⟩ := exists_unwritable_eq
      rw [zero, least]
      exact Nat.pow_pos (by decide)
    · apply short d.const
      rw [pieces, if_neg zero, List.map_append]
      exact List.mem_append_right _ (List.mem_singleton_self _)
  · intro short n mem
    obtain ⟨p, hp, same⟩ := List.mem_map.1 mem
    rcases cases_of_mem_pieces names hp with name | ⟨-, rfl⟩
    · exact absurd (same ▸ name) (not_isSymbolName_toString n)
    · rwa [← toString_inj (String.toList_inj.1 same)]

/-- What is written is read as the same dimension, unless its number is too long beside symbols. -/
theorem ofData_toTerm_eq_ok_iff :
    ofData d.toTerm.toData = .ok e ↔ (d.isConcrete ∨ d.const < unwritable) ∧ e = d := by
  unfold toTerm
  split
  next concrete =>
    have own : ofNat d.const = d := eval_ext fun σ => by
      rw [isConcrete, List.isEmpty_iff] at concrete
      rw [eval_ofNat, eval, concrete, evalTerms, Nat.zero_add]
    rw [Term.toData, ofData, if_neg (Int.not_lt.2 (Int.natCast_nonneg _)), Int.toNat_natCast, own,
      Except.ok.injEq, eq_comm, iff_and_self]
    exact fun _ => .inl concrete
  next symbols =>
    have all := isPiece_of_mem_pieces names
    have value : ∀ e', parse ("+".intercalate d.pieces) = .ok e' → e' = d := by
      intro e' read
      rw [parse_eq_foldlM names symbols] at read
      rw [eq_addPieces_of_foldlM all read, addPieces_pieces names]
    rw [Term.toData, ofData, or_iff_right symbols, ← forall_number_mem_pieces_iff names,
      ← exists_foldlM_addPiece_iff all, ← parse_eq_foldlM names symbols]
    constructor
    · exact fun read => ⟨⟨e, read⟩, value e read⟩
    · rintro ⟨⟨e', read⟩, rfl⟩
      rw [read, value e' read]

end Written

/-- A piece adds no symbol that is not a name. -/
lemma addPiece_within {term : String} {d e : Dim} {piece : List Char} (covers : d.Within IsName)
    (added : addPiece term d piece = .ok e) : e.Within IsName := by
  unfold addPiece at added
  simp only at added
  split at added
  next =>
    split at added
    next => cases added
    next =>
      split at added
      next =>
        cases added
        exact covers
      next => cases added
  next =>
    split at added
    next name =>
      cases added
      intro s hs
      rcases mem_keys_addTerm.1 hs with rfl | old
      · rw [IsName, String.toList_ofList]
        exact name
      · exact covers s old
    next => cases added

/-- Pieces that are added bring in no symbols but names. -/
lemma foldlM_addPiece_within {term : String} {pieces : List (List Char)} {d e : Dim}
    (covers : d.Within IsName) (added : pieces.foldlM (addPiece term) d = .ok e) :
    e.Within IsName := by
  induction pieces generalizing d with
  | nil =>
    cases added
    exact covers
  | cons piece rest ih =>
    rw [List.foldlM_cons, bind_eq_ok] at added
    obtain ⟨next, first, others⟩ := added
    exact ih (addPiece_within covers first) others

/-- The symbols of a dimension that is read are names. -/
theorem ofData_within {x : Data Float} {d : Dim} (read : ofData x = .ok d) : d.Within IsName := by
  have number : ∀ n, (ofNat n).Within IsName := fun n s hs => absurd hs List.not_mem_nil
  unfold ofData at read
  split at read
  next =>
    split at read
    next => cases read
    next =>
      cases read
      exact number _
  next =>
    unfold parse at read
    simp only at read
    split at read
    next => cases read
    next => exact foldlM_addPiece_within (number 0) read
  next => cases read

/-- A dimension can be written as a term when it is a number or has a writable one in it. -/
lemma hasTerm_iff {d : Dim} : d.hasTerm ↔ d.isConcrete ∨ d.const < unwritable := by
  rw [hasTerm, Bool.or_eq_true, isWritable, decide_eq_true_iff]

/-- A dimension is written when it has a term. -/
lemma written_eq_ok_iff {d e : Dim} :
    d.written = .ok e ↔ (d.isConcrete ∨ d.const < unwritable) ∧ e = d := by
  unfold written
  split
  next can =>
    exact ⟨fun eq => ⟨hasTerm_iff.1 can, (Except.ok.inj eq).symm⟩, fun ⟨_, eq⟩ => eq ▸ rfl⟩
  next cannot => exact ⟨nofun, fun ⟨can, _⟩ => absurd (hasTerm_iff.2 can) cannot⟩

end Dim

end OperatorNet
