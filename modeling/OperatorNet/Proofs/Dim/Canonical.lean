import Mathlib.Algebra.GroupWithZero.Nat
import OperatorNet.Proofs.Dim.Writing

/-!
# Canonical writings

A term is read when each of its pieces is a number or a name, and what is read is the sum of the
pieces (`Dim.parse_eq_ok_iff`). So the value of a term can be told from its text alone
(`termValue`), and terms have one canonical writing exactly when they have the same value under
every assignment of numbers to symbols. Canonical writings are read as what they were made of. All
this holds as long as the canonical writing exists: beside symbols there may be a number that is too
long to be written (`Dim.canonical_spec`, `Dim.canonical_lengthened_ne_ok`).
-/

namespace OperatorNet

open Text

variable {α : Type}

/-- The number that a piece of a sum counts for. -/
def pieceValue (σ : String → Nat) (piece : List Char) : Nat :=
  (natOfDigits? piece).getD (σ (String.ofList piece))

/-- The number that a term stands for when every symbol stands for one. -/
def termValue (σ : String → Nat) : Data Float → Nat
  | .int n => n.toNat
  | .text s => ((s.toList.splitOn '+').map fun piece => pieceValue σ (trim piece)).sum
  | _ => 0

/-- A row of digits that is not too long, or a name. -/
def IsReadable (piece : List Char) : Prop :=
  if piece.all isDigit then
    Decimal.leadingDigits (String.ofList piece) ≤ longestNumeral ∧ (natOfDigits? piece).isSome
  else isSymbolName piece

/-- Text that does not begin with a digit is no number. -/
lemma natOfDigits?_eq_none {c : Char} {rest : List Char} (none : decimalValue? c = none) :
    natOfDigits? (c :: rest) = Option.none := by
  have stays : ∀ cs : List Char, cs.foldl (fun (acc : Option Nat) c => do
      return 10 * (← acc) + (← decimalValue? c)) Option.none = Option.none := by
    intro cs
    induction cs with
    | nil => rfl
    | cons d more ih => exact ih
  rw [natOfDigits?, List.foldl_cons, none]
  exact stays rest

namespace Dim

/-- The dimension that a piece of a sum is. -/
def pieceDim (piece : List Char) : Dim :=
  match natOfDigits? piece with
  | some n => ofNat n
  | none => symbol (String.ofList piece)

/-- A readable piece has the value of its dimension. -/
lemma eval_pieceDim (σ : String → Nat) (piece : List Char) :
    (pieceDim piece).eval σ = pieceValue σ piece := by
  rw [pieceDim, pieceValue]
  cases natOfDigits? piece with
  | some n => exact eval_ofNat σ n
  | none => exact eval_symbol σ _

/-- A name is no number. -/
lemma natOfDigits?_of_isSymbolName {piece : List Char} (isName : isSymbolName piece) :
    natOfDigits? piece = none := by
  cases piece with
  | nil => cases isName
  | cons c rest =>
    rw [isSymbolName, Bool.and_eq_true] at isName
    have notDigit := not_isDigit_of_isSymbolStart isName.1
    rw [isDigit, Bool.or_eq_true, not_or, Option.not_isSome_iff_eq_none] at notDigit
    exact natOfDigits?_eq_none notDigit.1

/-- Adding a number is a sum. -/
lemma addNat_eq (d : Dim) (n : Nat) : d.addNat n = d + ofNat n := by
  refine eval_ext fun σ => ?_
  rw [eval_add, eval_ofNat]
  simp only [eval, addNat]
  omega

/-- Adding a symbol is a sum. -/
lemma addSymbol_eq (d : Dim) (s : String) : d.addSymbol s 1 Nat.one_pos = d + symbol s := by
  refine eval_ext fun σ => ?_
  rw [eval_add, eval_symbol]
  simp only [eval, addSymbol, evalTerms_addTerm]
  omega

/-- A piece is added when it is readable. -/
lemma addPiece_eq_ok_iff {term : String} {d e : Dim} {piece : List Char} :
    addPiece term d piece = .ok e ↔ IsReadable piece ∧ e = d + pieceDim piece := by
  unfold addPiece IsReadable
  split
  next digits =>
    dsimp only
    split
    next long =>
      refine iff_of_false (fun made => ?_) fun readable => Nat.not_lt.2 readable.1.1 long
      cases made
    next short =>
      rw [pieceDim]
      cases natOfDigits? piece with
      | none =>
        refine iff_of_false (fun made => ?_) fun readable => Bool.false_ne_true readable.1.2
        cases made
      | some n =>
        rw [Except.ok.injEq, addNat_eq, eq_comm, iff_and_self]
        exact fun _ => ⟨Nat.not_lt.1 short, rfl⟩
  next other =>
    split
    next isName =>
      rw [pieceDim, natOfDigits?_of_isSymbolName isName, Except.ok.injEq, addSymbol_eq, eq_comm,
        iff_and_self]
      exact fun _ => isName
    next noName =>
      refine iff_of_false (fun made => ?_) fun readable => noName readable.1
      cases made

/-- A dimension with the dimensions of pieces added. -/
def plusPieces (d : Dim) (pieces : List (List Char)) : Dim :=
  pieces.foldl (fun d piece => d + pieceDim piece) d

/-- Pieces count with their values. -/
lemma eval_plusPieces (σ : String → Nat) (d : Dim) (pieces : List (List Char)) :
    (d.plusPieces pieces).eval σ = d.eval σ + (pieces.map (pieceValue σ)).sum := by
  induction pieces generalizing d with
  | nil => rfl
  | cons piece rest ih =>
    change ((d + pieceDim piece).plusPieces rest).eval σ = _
    rw [ih, eval_add, eval_pieceDim, List.map_cons, List.sum_cons, Nat.add_assoc]

/-- Pieces are added when all of them are readable. -/
lemma foldlM_addPiece_eq_ok_iff {term : String} {pieces : List (List Char)} {d e : Dim} :
    pieces.foldlM (addPiece term) d = .ok e ↔
      (∀ piece ∈ pieces, IsReadable piece) ∧ e = d.plusPieces pieces := by
  induction pieces generalizing d with
  | nil =>
    rw [List.foldlM_nil, pure_eq_ok]
    exact ⟨fun eq => ⟨fun _ mem => absurd mem List.not_mem_nil, eq.symm⟩, fun ⟨_, eq⟩ => eq.symm⟩
  | cons piece rest ih =>
    rw [List.foldlM_cons, bind_eq_ok, List.forall_mem_cons]
    simp only [addPiece_eq_ok_iff, ih]
    constructor
    · rintro ⟨_, ⟨first, rfl⟩, others, eq⟩
      exact ⟨⟨first, others⟩, eq⟩
    · rintro ⟨⟨first, others⟩, eq⟩
      exact ⟨_, ⟨first, rfl⟩, others, eq⟩

/-- The trimmed pieces of a text. -/
def textPieces (s : String) : List (List Char) :=
  (s.toList.splitOn '+').map trim

/-- A text is read when each of its pieces is a number or a name, and then it is their sum. -/
theorem parse_eq_ok_iff {s : String} {d : Dim} :
    parse s = .ok d ↔
      (∀ piece ∈ textPieces s, piece ≠ [] ∧ IsReadable piece) ∧
        d = (ofNat 0).plusPieces (textPieces s) := by
  unfold parse
  rw [splitPlus_eq_splitOn]
  change (if (textPieces s).any (·.isEmpty) then _ else _) = _ ↔ _
  split
  next empty =>
    obtain ⟨piece, mem, none⟩ := List.any_eq_true.1 empty
    exact ⟨nofun, fun ⟨each, _⟩ => absurd (List.isEmpty_iff.1 none) (each piece mem).1⟩
  next filled =>
    rw [foldlM_addPiece_eq_ok_iff]
    refine and_congr_left fun _ => forall₂_congr fun piece mem =>
      (and_iff_right fun empty => ?_).symm
    exact filled (List.any_eq_true.2 ⟨piece, mem, List.isEmpty_iff.2 empty⟩)

/-- What is read has the value of the term. -/
theorem eval_of_ofData {x : Data Float} {d : Dim} (read : ofData x = .ok d) (σ : String → Nat) :
    d.eval σ = termValue σ x := by
  unfold ofData at read
  split at read
  next n =>
    split at read
    next => cases read
    next =>
      cases read
      exact eval_ofNat σ _
  next s =>
    obtain ⟨-, rfl⟩ := parse_eq_ok_iff.1 read
    rw [eval_plusPieces, eval_ofNat, Nat.zero_add, textPieces, List.map_map]
    rfl
  next => cases read

/-- Terms that are joined by a mark are added. -/
theorem parse_append {s t : String} {d e : Dim} (first : parse s = .ok d)
    (second : parse t = .ok e) :
    parse (s ++ "+" ++ t) = .ok (d + e) := by
  have pieces : textPieces (s ++ "+" ++ t) = textPieces s ++ textPieces t := by
    rw [textPieces, String.toList_append, String.toList_append, List.append_assoc]
    change ((s.toList ++ '+' :: t.toList).splitOn '+').map trim = _
    rw [List.splitOn, List.splitOnP_append_cons (p := (· == '+')) _ _ rfl, List.map_append]
    rfl
  rw [parse_eq_ok_iff] at first second ⊢
  rw [pieces]
  refine ⟨fun piece mem => ?_, eval_ext fun σ => ?_⟩
  · exact (List.mem_append.1 mem).elim (first.1 piece) (second.1 piece)
  · rw [first.2, second.2, eval_add, eval_plusPieces, eval_plusPieces, eval_plusPieces, eval_ofNat,
      List.map_append, List.sum_append]
    omega

/-- The canonical writing of a term. -/
def canonical (x : Data Float) : Except DimError Term := do
  return (← (← ofData x).written).toTerm

/-- A term has a canonical form when it is read and can be written again. -/
lemma canonical_eq_ok_iff {x : Data Float} {t : Term} :
    canonical x = .ok t ↔
      ∃ d, ofData x = .ok d ∧ (d.isConcrete ∨ d.const < unwritable) ∧ t = d.toTerm := by
  unfold canonical
  simp only [bind_eq_ok, pure_eq_ok, written_eq_ok_iff]
  constructor
  · rintro ⟨_, read, d, ⟨short, rfl⟩, rfl⟩
    exact ⟨d, read, short, rfl⟩
  · rintro ⟨d, read, short, rfl⟩
    exact ⟨d, read, d, ⟨short, rfl⟩, rfl⟩

/-- The dimensions that come from reading terms, by sums and substitutions. -/
inductive Obtained : Dim → Prop where
  | read {x : Data Float} {d : Dim} : ofData x = .ok d → Obtained d
  | add {d e : Dim} : Obtained d → Obtained e → Obtained (d + e)
  | substitute {d : Dim} {f : String → Dim} : Obtained d → (∀ s ∈ d.symbols, Obtained (f s)) →
    Obtained (d.substitute f)

/-- Dimensions that are obtained from terms have names for symbols. -/
lemma Obtained.within {d : Dim} (obtained : Obtained d) : d.Within IsName := by
  induction obtained with
  | read read => exact ofData_within read
  | add _ _ first second => exact fun s mem => (mem_symbols_add.1 mem).elim (first s) (second s)
  | substitute _ _ _ each =>
    intro s mem
    obtain ⟨t, inside, there⟩ := mem_symbols_substitute.1 mem
    exact each t inside s there

/-- A term has a canonical writing, unless there is a number beside symbols that is too long. -/
lemma exists_canonical_iff {x : Data Float} {d : Dim} (read : ofData x = .ok d) :
    (∃ t, canonical x = .ok t) ↔ d.isConcrete ∨ d.const < unwritable := by
  simp only [canonical_eq_ok_iff]
  constructor
  · rintro ⟨t, e, same, short, -⟩
    rw [read] at same
    cases same
    exact short
  · exact fun short => ⟨d.toTerm, d, read, short, rfl⟩

/-- What is obtained from terms is read from its writing, with the same exception. -/
lemma Obtained.ofData_written_iff {d : Dim} (obtained : Obtained d) :
    (do ofData (← d.written).toTerm.toData) = .ok d ↔ d.isConcrete ∨ d.const < unwritable := by
  simp only [bind_eq_ok, written_eq_ok_iff]
  constructor
  · rintro ⟨_, ⟨short, rfl⟩, -⟩
    exact short
  · exact fun short =>
      ⟨d, ⟨short, rfl⟩, (ofData_toTerm_eq_ok_iff obtained.within).2 ⟨short, rfl⟩⟩

/-- Terms have the same canonical writing when they stand for the same number under every
assignment. -/
lemma canonical_eq_iff {x y : Data Float} {t u : Term} (first : canonical x = .ok t)
    (second : canonical y = .ok u) : t = u ↔ ∀ σ, termValue σ x = termValue σ y := by
  obtain ⟨d, readX, shortX, rfl⟩ := canonical_eq_ok_iff.1 first
  obtain ⟨e, readY, shortY, rfl⟩ := canonical_eq_ok_iff.1 second
  simp only [← eval_of_ofData readX, ← eval_of_ofData readY]
  refine ⟨fun same σ => ?_, fun same => by rw [eval_ext same]⟩
  -- a canonical writing is read as what was written, so the writings tell the dimensions apart
  have back := (ofData_toTerm_eq_ok_iff (ofData_within readX)).2 ⟨shortX, rfl⟩
  rw [same] at back
  rw [((ofData_toTerm_eq_ok_iff (ofData_within readY)).1 back).2]

/-- A canonical writing is its own. -/
lemma canonical_toData {x : Data Float} {t : Term} (made : canonical x = .ok t) :
    canonical t.toData = .ok t := by
  obtain ⟨d, read, short, rfl⟩ := canonical_eq_ok_iff.1 made
  exact canonical_eq_ok_iff.2
    ⟨d, (ofData_toTerm_eq_ok_iff (ofData_within read)).2 ⟨short, rfl⟩, short, rfl⟩

/-- Unless there is a number beside symbols that is too long to be written, a term has a canonical
writing, terms have the same one exactly when they stand for the same number under every assignment,
a canonical writing is its own, and what is obtained from terms is read from its writing. -/
theorem canonical_spec (x y : Data Float) (e : Dim) :
    (∀ d, ofData x = .ok d → ((∃ t, canonical x = .ok t) ↔ d.isConcrete ∨ d.const < unwritable)) ∧
    (∀ t u, canonical x = .ok t → canonical y = .ok u →
      (t = u ↔ ∀ σ, termValue σ x = termValue σ y)) ∧
    (∀ t, canonical x = .ok t → canonical t.toData = .ok t) ∧
    (Obtained e → ((do ofData (← e.written).toTerm.toData) = .ok e ↔
      e.isConcrete ∨ e.const < unwritable)) :=
  ⟨fun _ => exists_canonical_iff, fun _ _ => canonical_eq_iff, fun _ => canonical_toData,
    Obtained.ofData_written_iff⟩

/-- Two writings of one sum, and two sums that differ in a multiplicity. -/
theorem canonical_rearranged :
    canonical (.text " B +A+2") = .ok (.text "A+B+2") ∧
    canonical (.text "1+A+B+1") = .ok (.text "A+B+2") ∧
    (∀ σ, termValue σ (.text " B +A+2") = termValue σ (.text "1+A+B+1")) ∧
    ¬ (∀ σ, termValue σ (.text "A+A") = termValue σ (.text "A")) := by
  have short : 2 < unwritable := lt_unwritable (by decide)
  have none : 0 < unwritable := lt_unwritable (by decide)
  have first : canonical (.text " B +A+2") = .ok (.text "A+B+2") :=
    canonical_eq_ok_iff.2 ⟨_, rfl, .inr short, rfl⟩
  have second : canonical (.text "1+A+B+1") = .ok (.text "A+B+2") :=
    canonical_eq_ok_iff.2 ⟨_, rfl, .inr short, rfl⟩
  have twice : canonical (.text "A+A") = .ok (.text "A+A") :=
    canonical_eq_ok_iff.2 ⟨_, rfl, .inr none, rfl⟩
  have once : canonical (.text "A") = .ok (.text "A") :=
    canonical_eq_ok_iff.2 ⟨_, rfl, .inr none, rfl⟩
  refine ⟨first, second, ((canonical_spec _ _ (symbol "A")).2.1 _ _ first second).1 rfl,
    fun same => ?_⟩
  exact absurd (((canonical_spec _ _ (symbol "A")).2.1 _ _ twice once).2 same) (by decide)

/-- A symbol with the largest number beside it that can be written, and one more. -/
def lengthened : String :=
  ((symbol "A").addNat (unwritable - 1)).toText ++ "+" ++ "1"

/-- Terms that can be read need not have a canonical writing, nor be read from one. -/
theorem canonical_lengthened_ne_ok :
    ∃ d, ofData (.text lengthened) = .ok d ∧ Obtained d ∧
      (∀ t, canonical (.text lengthened) ≠ .ok t) ∧
      (do ofData (← d.written).toTerm.toData) ≠ .ok d := by
  obtain ⟨n, last, next⟩ : ∃ n, unwritable - 1 = n ∧ unwritable = n + 1 :=
    ⟨_, rfl, (Nat.sub_add_cancel (Nat.one_le_of_lt (lt_unwritable (n := 0) (by decide)))).symm⟩
  rw [lengthened, last]
  have name : ((symbol "A").addNat n).Within IsName := fun s mem => by
    rw [List.mem_singleton.1 mem]
    rfl
  have number : parse "1" = .ok (ofNat 1) := rfl
  have const : ((symbol "A").addNat n + ofNat 1).const = n + 1 :=
    (const_add _ _).trans (congrArg (· + 1) (Nat.zero_add n))
  have short : ((symbol "A").addNat n).const < unwritable := by
    rw [next]
    exact Nat.lt_succ_of_le (Nat.le_of_eq (Nat.zero_add n))
  have tooLong : ¬ (((symbol "A").addNat n + ofNat 1).isConcrete ∨
      ((symbol "A").addNat n + ofNat 1).const < unwritable) := by
    rw [const, next, or_iff_left (Nat.lt_irrefl _)]
    exact nofun
  have read : ofData (.text (((symbol "A").addNat n).toText ++ "+" ++ "1")) = .ok (_ + ofNat 1) :=
    parse_append ((ofData_toTerm_eq_ok_iff name).2 ⟨.inr short, rfl⟩) number
  refine ⟨_, read, .read read, fun t made => ?_, fun same => ?_⟩
  · exact tooLong ((exists_canonical_iff read).1 ⟨t, made⟩)
  · exact tooLong ((Obtained.read read).ofData_written_iff.1 same)

end Dim

end OperatorNet
