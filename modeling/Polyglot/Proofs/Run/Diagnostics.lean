import Mathlib.Data.List.Forall2
import Polyglot.Proofs.Text.Trimming
import Polyglot.Run.Result

/-!
# What a compiler says about places

Every line of a compiler's output that is not blank is one diagnostic.  Its place is the first pair
of neighbours among the fields between its colons that are both counts of at most 32 bits; a number
that is larger is no count.
-/

namespace Polyglot

open Text

/-- A field is a count: but for blank characters around it, digits with or without a plus sign,
whose decimal value fits into 32 bits. -/
def Counts (field : String) (count : UInt32) : Prop :=
  ∃ digits, digits ≠ [] ∧ (∀ digit ∈ digits, digit.isDigit = true) ∧
    ((trim field).toList = digits ∨ (trim field).toList = '+' :: digits) ∧
      Nat.ofDigitChars 10 digits 0 = count.toNat

/-- Two fields that follow each other are counts. -/
def PairAt (fields : List String) (index : Nat) (row column : UInt32) : Prop :=
  ∃ first second, fields[index]? = some first ∧ fields[index + 1]? = some second ∧
    Counts first row ∧ Counts second column

/-- The place that fields give: the leftmost pair of counts, or none. -/
inductive Points (fields : List String) : Option UInt32 → Option UInt32 → Prop where
  | leftmost {index : Nat} {row column : UInt32} : PairAt fields index row column →
      (∀ earlier < index, ∀ row column, ¬PairAt fields earlier row column) →
      Points fields (some row) (some column)
  | nowhere : (∀ index row column, ¬PairAt fields index row column) → Points fields none none

/-- What a line says: the line itself without blanks around it, and the place in it. -/
structure Diagnostic.Describes (line : String) (diagnostic : Diagnostic) : Prop where
  message : diagnostic.message = trim line
  place : Points (splitAt ':' (trim line)) diagnostic.line diagnostic.column

variable {text field first second line : String} {fields : List String} {index : Nat}
  {count row column : UInt32}

/-! ## Counts -/

theorem digits_all_iff {digits : List Char} :
    (digits.all fun digit => '0' ≤ digit && digit ≤ '9') = true ↔
      ∀ digit ∈ digits, digit.isDigit = true := by
  rw [List.all_eq_true]
  simp only [Char.isDigit, Bool.and_eq_true, decide_eq_true_eq]
  rfl

/-- What follows the sign of a number. -/
def unsigned : List Char → List Char
  | '+' :: rest => rest
  | characters => characters

theorem eq_or_eq_unsigned (characters : List Char) :
    characters = unsigned characters ∨ characters = '+' :: unsigned characters := by
  rw [unsigned.eq_def]
  split
  · exact .inr rfl
  · exact .inl rfl

theorem unsigned_of_digits {digits : List Char}
    (isDigits : ∀ digit ∈ digits, digit.isDigit = true) : unsigned digits = digits := by
  rw [unsigned.eq_def]
  split
  · exact absurd (isDigits '+' List.mem_cons_self) (by decide)
  · rfl

theorem parseCount?_eq (text : String) : parseCount? text =
    let digits := unsigned text.toList
    if digits.isEmpty || !digits.all (fun digit => '0' ≤ digit && digit ≤ '9') then none
    else
      let value := Nat.ofDigitChars 10 digits 0
      if value < UInt32.size then some (.ofNat value) else none := by
  have value (digits : List Char) : Nat.ofDigitChars 10 digits 0 =
      digits.foldl (fun value digit => value * 10 + (digit.toNat - '0'.toNat)) 0 := by
    simp only [Nat.ofDigitChars, Nat.mul_comm 10]
  dsimp only
  rw [value]
  rfl

theorem parseCount?_eq_some_iff : parseCount? text = some count ↔
    unsigned text.toList ≠ [] ∧ (∀ digit ∈ unsigned text.toList, digit.isDigit = true) ∧
      Nat.ofDigitChars 10 (unsigned text.toList) 0 = count.toNat := by
  rw [parseCount?_eq]
  generalize unsigned text.toList = digits
  dsimp only
  split
  · rename_i isNone
    rw [Bool.or_eq_true, List.isEmpty_iff, Bool.not_eq_true', ← Bool.not_eq_true,
      digits_all_iff] at isNone
    refine iff_of_false nofun ?_
    rintro ⟨nonempty, isDigits, -⟩
    exact isNone.elim nonempty fun other => other isDigits
  · rename_i isSome
    rw [Bool.or_eq_true, List.isEmpty_iff, Bool.not_eq_true', ← Bool.not_eq_true,
      digits_all_iff, not_or, Decidable.not_not] at isSome
    rw [and_iff_right isSome.1, and_iff_right isSome.2]
    have small := count.toNat_lt
    split
    · rename_i isSmall
      rw [Option.some_inj, ← UInt32.toNat_inj, UInt32.toNat_ofNat_of_lt' isSmall]
    · rename_i isLarge
      refine iff_of_false nofun fun same => isLarge ?_
      rw [same]
      exact small

theorem parseCount?_trim_iff : parseCount? (trim field) = some count ↔ Counts field count := by
  rw [parseCount?_eq_some_iff]
  constructor
  · rintro ⟨nonempty, isDigits, value⟩
    exact ⟨_, nonempty, isDigits, eq_or_eq_unsigned _, value⟩
  · rintro ⟨digits, nonempty, isDigits, isText | isText, value⟩
    · rw [isText, unsigned_of_digits isDigits]
      exact ⟨nonempty, isDigits, value⟩
    · rw [isText]
      exact ⟨nonempty, isDigits, value⟩

/-! ## Places -/

theorem pairAt_zero_iff : PairAt (first :: second :: fields) 0 row column ↔
    Counts first row ∧ Counts second column := by
  simp [PairAt]

theorem pairAt_succ_iff : PairAt (first :: fields) (index + 1) row column ↔
    PairAt fields index row column := by
  simp [PairAt]

theorem not_pairAt_short (isShort : fields.length < 2) : ¬PairAt fields index row column := by
  rintro ⟨first, second, -, isSecond, -⟩
  have := (List.getElem?_eq_some_iff.mp isSecond).1
  omega

/-- A field that makes no pair with its neighbour does not matter. -/
theorem Points.cons {line column : Option UInt32} (points : Points (second :: fields) line column)
    (isNone : ∀ row column, ¬(Counts first row ∧ Counts second column)) :
    Points (first :: second :: fields) line column := by
  have notFirst (row column : UInt32) : ¬PairAt (first :: second :: fields) 0 row column := by
    rw [pairAt_zero_iff]
    exact isNone row column
  cases points with
  | leftmost isPair leftmost =>
      refine .leftmost (pairAt_succ_iff.mpr isPair) fun earlier isEarlier row column => ?_
      cases earlier with
      | zero => exact notFirst row column
      | succ earlier =>
          rw [pairAt_succ_iff]
          exact leftmost earlier (Nat.lt_of_succ_lt_succ isEarlier) row column
  | nowhere isNowhere =>
      refine .nowhere fun index row column => ?_
      cases index with
      | zero => exact notFirst row column
      | succ index =>
          rw [pairAt_succ_iff]
          exact isNowhere index row column

theorem points_firstCountPair? (fields : List String) :
    Points fields ((firstCountPair? fields).map (·.1)) ((firstCountPair? fields).map (·.2)) := by
  induction fields using firstCountPair?.induct with
  | case1 first second rest row column isColumn isRow =>
      have isPair : PairAt (first :: second :: rest) 0 row column := pairAt_zero_iff.mpr
        ⟨parseCount?_trim_iff.mp isRow, parseCount?_trim_iff.mp isColumn⟩
      have isFirst : firstCountPair? (first :: second :: rest) = some (row, column) := by
        rw [firstCountPair?.eq_def]
        dsimp only
        rw [isRow, isColumn]
      rw [isFirst]
      exact .leftmost isPair fun earlier isEarlier => absurd isEarlier (Nat.not_lt_zero earlier)
  | case2 first second rest isNone ih =>
      have skips : firstCountPair? (first :: second :: rest) =
          firstCountPair? (second :: rest) := by
        rw [firstCountPair?.eq_def]
        dsimp only
        split
        · rename_i row column isRow isColumn
          exact (isNone row column isRow isColumn).elim
        · rfl
      rw [skips]
      apply ih.cons
      rintro row column ⟨isRow, isColumn⟩
      exact isNone row column (parseCount?_trim_iff.mpr isRow) (parseCount?_trim_iff.mpr isColumn)
  | case3 fields isShort =>
      rcases fields with _ | ⟨first, _ | ⟨second, rest⟩⟩
      · exact .nowhere fun _ _ _ => not_pairAt_short Nat.zero_lt_two
      · exact .nowhere fun _ _ _ => not_pairAt_short Nat.one_lt_two
      · exact absurd rfl (isShort first second rest)

theorem Diagnostic.describes_ofLine (line : String) : (ofLine (trim line)).Describes line := by
  have points := points_firstCountPair? (splitAt ':' (trim line))
  rw [ofLine]
  cases found : firstCountPair? (splitAt ':' (trim line)) with
  | none =>
      rw [found, Option.map_none] at points
      exact ⟨rfl, points⟩
  | some pair =>
      obtain ⟨row, column⟩ := pair
      rw [found, Option.map_some, Option.map_some] at points
      exact ⟨rfl, points⟩

/-- Each line that is not blank is described by one diagnostic, in order. -/
theorem Diagnostic.describes_ofText (text : String) :
    List.Forall₂ (fun line diagnostic => diagnostic.Describes line)
      ((lines text).filter (!isBlankText ·)) (ofText text) := by
  have isText (line : String) : (!(trim line).isEmpty) = !isBlankText line :=
    congrArg Bool.not (isEmpty_trim line)
  simp only [ofText, List.filter_map, List.map_map, List.forall₂_map_right_iff, Function.comp_def,
    isText, List.forall₂_same]
  exact fun line _ => describes_ofLine line

end Polyglot
