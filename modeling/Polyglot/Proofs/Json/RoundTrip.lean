import Mathlib.Data.Option.Basic
import Polyglot.Json.Parser
import Polyglot.Json.Printer

/-!
# JSON read back

The text that a value is written as is read as that value.  A number is read up to the character
after it, so what follows a value must be the end of the text or what goes on with the array or
object that the value is in.
-/

namespace Polyglot

open Json

namespace JsonNumber

/-- The digits of a number as the grammar has them: at least one before the point, of which the
first of several is no zero. -/
structure IsWritten (number : JsonNumber) : Prop where
  nonempty : number.whole ≠ []
  whole : ∀ digit ∈ number.whole, isDigit digit = true
  leading : number.whole.head? ≠ some '0' ∨ number.whole.length = 1
  fraction : ∀ digit ∈ number.fraction, isDigit digit = true

theorem isDigit_of_mem_toDigits {value : Nat} {digit : Char}
    (member : digit ∈ Nat.toDigits 10 value) : isDigit digit = true := by
  have isDecimal := Nat.isDigit_of_mem_toDigits (by decide) (by decide) member
  rw [Char.isDigit, Bool.and_eq_true, decide_eq_true_eq, decide_eq_true_eq] at isDecimal
  rw [isDigit, Bool.and_eq_true, decide_eq_true_eq, decide_eq_true_eq]
  exact isDecimal

theorem ofDigits_toDigits (value : Nat) : ofDigits (Nat.toDigits 10 value) = value := by
  have read := @Nat.ofDigitChars_ten_toDigits value
  rw [Nat.ofDigitChars_eq_foldl] at read
  simpa only [ofDigits, Nat.mul_comm] using read

/-- Only zero is written with a zero in front. -/
theorem eq_zero_of_leading {value : Nat} (zero : (Nat.toDigits 10 value).head? = some '0') :
    value = 0 := by
  induction value using Nat.strongRecOn with
  | ind value ih =>
      rw [Nat.toDigits_eq_if (by decide)] at zero
      split at zero
      · rename_i small
        have noOther : ∀ digit, digit < 10 → digit.digitChar = '0' → digit = 0 := by decide
        exact noOther value small (by simpa using zero)
      · rename_i large
        rw [List.head?_append, Option.or_of_isSome (by simp [Nat.toDigits_ne_nil])] at zero
        have none := ih (value / 10) (by omega) zero
        omega

theorem isWritten_ofNat (value : Nat) : (ofNat value).IsWritten where
  nonempty := Nat.toDigits_ne_nil
  whole _ := isDigit_of_mem_toDigits
  leading := by
    by_cases zero : (Nat.toDigits 10 value).head? = some '0'
    · exact .inr (by rw [ofNat, eq_zero_of_leading zero]; rfl)
    · exact .inl zero
  fraction _ member := by simp [ofNat] at member

end JsonNumber

namespace Json

variable {rest : List Char}

/-! ## Numbers -/

section Numbers

/-- What follows a value: nothing, or a character that goes on with what the value is in. -/
def Ends (rest : List Char) : Prop := ∀ next ∈ rest.head?, next ∈ [',', ']', '}']

theorem Ends.stops (ends : Ends rest) : ∀ next ∈ rest.head?,
    isDigit next = false ∧ next ≠ '.' ∧ next ≠ 'e' ∧ next ≠ 'E' := by
  intro next isNext
  have given := ends next isNext
  simp only [List.mem_cons, List.not_mem_nil, or_false] at given
  rcases given with rfl | rfl | rfl <;> decide

theorem digits?_append {digits : List Char} (nonempty : digits ≠ [])
    (isDigits : ∀ digit ∈ digits, isDigit digit = true)
    (stops : ∀ next ∈ rest.head?, isDigit next = false) :
    digits? (digits ++ rest) = some (digits, rest) := by
  have none : rest.takeWhile isDigit = [] ∧ rest.dropWhile isDigit = rest := by
    cases rest with
    | nil => exact ⟨rfl, rfl⟩
    | cons next rest => simp [stops next rfl]
  rw [digits?, List.takeWhile_append_of_pos isDigits, List.dropWhile_append_of_pos isDigits,
    none.1, none.2, List.append_nil]
  simp [nonempty]

theorem toList_toString_ofNat (size : Nat) :
    (toString (Int.ofNat size)).toList = Nat.toDigits 10 size := by
  simp [toString, Int.repr, Nat.repr_eq_ofList_toDigits]

theorem toList_toString_negSucc (size : Nat) :
    (toString (Int.negSucc size)).toList = '-' :: Nat.toDigits 10 (size + 1) := by
  simp [toString, Int.repr, Nat.repr_eq_ofList_toDigits]

/-- The sign and the digits of an exponent, and the number that they write. -/
theorem exponentSign_toString (exponent : Int) (rest : List Char) :
    ∃ digits, digits ≠ [] ∧ (∀ digit ∈ digits, isDigit digit = true) ∧
      exponentSign ((toString exponent).toList ++ rest) = (decide (exponent < 0), digits ++ rest) ∧
      (if exponent < 0 then -(JsonNumber.ofDigits digits : Int) else JsonNumber.ofDigits digits) =
        exponent := by
  cases exponent with
  | ofNat size =>
      have notNegative : ¬ Int.ofNat size < 0 := Int.not_lt.mpr (Int.natCast_nonneg size)
      refine ⟨Nat.toDigits 10 size, Nat.toDigits_ne_nil,
        fun _ => JsonNumber.isDigit_of_mem_toDigits, ?_, ?_⟩
      · obtain ⟨first, digits, cut⟩ := List.exists_cons_of_ne_nil (@Nat.toDigits_ne_nil size 10)
        have isFirst : isDigit first = true :=
          @JsonNumber.isDigit_of_mem_toDigits size first (by simp [cut])
        rw [toList_toString_ofNat, cut, List.cons_append, exponentSign.eq_3,
          decide_eq_false notNegative]
        · rintro _ ⟨rfl, rfl⟩
          exact absurd isFirst (by decide)
        · rintro _ ⟨rfl, rfl⟩
          exact absurd isFirst (by decide)
      · rw [JsonNumber.ofDigits_toDigits, if_neg notNegative]
        rfl
  | negSucc size =>
      refine ⟨Nat.toDigits 10 (size + 1), Nat.toDigits_ne_nil,
        fun _ => JsonNumber.isDigit_of_mem_toDigits, ?_, ?_⟩
      · rw [toList_toString_negSucc, decide_eq_true (Int.negSucc_lt_zero size)]
        rfl
      · rw [JsonNumber.ofDigits_toDigits, if_pos (Int.negSucc_lt_zero size)]
        rfl

/-- The point with the digits after it. -/
def printFraction (fraction : List Char) : List Char :=
  if fraction.isEmpty then [] else '.' :: fraction

/-- The exponent with its letter. -/
def printExponent : Option Int → List Char
  | none => []
  | some exponent => 'e' :: (toString exponent).toList

theorem printNumber_eq (number : JsonNumber) :
    printNumber number = (if number.negative then ['-'] else []) ++
      (number.whole ++ (printFraction number.fraction ++ printExponent number.exponent)) := by
  rw [printNumber, printFraction, List.append_assoc, List.append_assoc]
  cases number.exponent <;> rfl

/-- Neither the digits before the point nor those after it go on in what follows. -/
theorem stops_printExponent (exponent : Option Int) (ends : Ends rest) :
    ∀ next ∈ (printExponent exponent ++ rest).head?, isDigit next = false ∧ next ≠ '.' := by
  intro next isNext
  cases exponent with
  | none => exact ⟨(ends.stops next isNext).1, (ends.stops next isNext).2.1⟩
  | some exponent =>
      cases isNext
      decide

theorem stops_printFraction (fraction : List Char) (exponent : Option Int) (ends : Ends rest) :
    ∀ next ∈ (printFraction fraction ++ (printExponent exponent ++ rest)).head?,
      isDigit next = false := by
  intro next isNext
  cases fraction with
  | nil => exact (stops_printExponent exponent ends next isNext).1
  | cons digit fraction =>
      cases isNext
      decide

theorem exponent?_print (exponent : Option Int) (ends : Ends rest) :
    exponent? (printExponent exponent ++ rest) = some (exponent, rest) := by
  cases exponent with
  | none =>
      rw [printExponent, List.nil_append]
      cases rest with
      | nil => rfl
      | cons next rest =>
          obtain ⟨-, -, notLower, notUpper⟩ := ends.stops next rfl
          simp [exponent?, notLower, notUpper]
  | some exponent =>
      obtain ⟨digits, nonempty, isDigits, isSign, same⟩ := exponentSign_toString exponent rest
      have read := digits?_append nonempty isDigits fun next isNext => (ends.stops next isNext).1
      rw [printExponent, List.cons_append, exponent?]
      simp only [true_or, if_true, isSign, read, Option.bind_eq_bind, Option.bind_some,
        decide_eq_true_eq, same]
      rfl

theorem fraction?_print {fraction : List Char} (isDigits : ∀ digit ∈ fraction, isDigit digit = true)
    (exponent : Option Int) (ends : Ends rest) :
    fraction? (printFraction fraction ++ (printExponent exponent ++ rest)) =
      some (fraction, printExponent exponent ++ rest) := by
  have stops := stops_printExponent exponent ends
  cases fraction with
  | nil =>
      change fraction? (printExponent exponent ++ rest) = _
      rw [fraction?.eq_2]
      rintro text starts
      exact (stops '.' (by rw [starts]; rfl)).2 rfl
  | cons digit fraction =>
      exact digits?_append (by simp) isDigits fun next isNext => (stops next isNext).1

theorem guard_of_pos {condition : Prop} [Decidable condition] (holds : condition) :
    (guard condition : Option Unit) = some () :=
  if_pos holds

theorem whole?_of_digits? {text digits after : List Char}
    (read : digits? text = some (digits, after))
    (leading : digits.head? ≠ some '0' ∨ digits.length = 1) :
    whole? text = some (digits, after) := by
  rw [whole?, read]
  exact congrArg (· >>= fun _ => some (digits, after)) (guard_of_pos leading)

theorem unsigned?_print {number : JsonNumber} (isWritten : number.IsWritten) (ends : Ends rest) :
    unsigned? number.negative (number.whole ++ (printFraction number.fraction ++
      (printExponent number.exponent ++ rest))) = some (number, rest) := by
  have digits := digits?_append isWritten.nonempty isWritten.whole
    (stops_printFraction number.fraction number.exponent ends)
  have whole := whole?_of_digits? digits isWritten.leading
  have fraction := fraction?_print isWritten.fraction number.exponent ends
  have exponent := exponent?_print number.exponent ends
  simp [unsigned?, whole, fraction, exponent]

theorem number?_print {number : JsonNumber} (isWritten : number.IsWritten) (ends : Ends rest) :
    number? (printNumber number ++ rest) = some (number, rest) := by
  have read := unsigned?_print isWritten ends
  rw [printNumber_eq, List.append_assoc, List.append_assoc, List.append_assoc]
  cases negative : number.negative with
  | true =>
      rw [negative] at read
      exact read
  | false =>
      rw [negative] at read
      obtain ⟨first, whole, isWhole⟩ := List.exists_cons_of_ne_nil isWritten.nonempty
      have isFirst := isWritten.whole first (by simp [isWhole])
      rw [isWhole, List.cons_append] at read ⊢
      change number? (first :: _) = _
      rw [number?.eq_2, read]
      rintro text starts
      obtain ⟨rfl, -⟩ := List.cons.inj starts
      exact absurd isFirst (by decide)

end Numbers

/-! ## Strings -/

section Strings

/-- The control characters that have an escape of one letter. -/
def lettered : List Char := ['\x08', '\x0C', '\n', '\r', '\t']

/-- The part of a string that a character is written as. -/
def partOf (character : Char) : StringPart :=
  if character.toNat < 0x20 ∧ character ∉ lettered then .codeUnit character.toNat
  else .character character

theorem stringParts?_lettered {letter character : Char}
    (stands : shortEscape? letter = some character) (rest : List Char) :
    stringParts? ('\\' :: letter :: rest) =
      (stringParts? rest).map fun (parts, after) => (.character character :: parts, after) := by
  rw [stringParts?.eq_3, stands]
  · cases stringParts? rest <;> rfl
  · rintro a b c d tail rfl -
    contradiction

theorem stringParts?_control {character : Char} (isControl : character.toNat < 0x20)
    (rest : List Char) :
    stringParts? ('\\' :: 'u' :: '0' :: '0' :: hexDigit (character.toNat / 16) ::
        hexDigit (character.toNat % 16) :: rest) =
      (stringParts? rest).map fun (parts, after) =>
        (.codeUnit character.toNat :: parts, after) := by
  have read : ∀ value, value < 0x20 →
      codeUnit? '0' '0' (hexDigit (value / 16)) (hexDigit (value % 16)) = some value := by decide
  rw [stringParts?.eq_2, read _ isControl]
  cases stringParts? rest <;> rfl

theorem stringParts?_plain {character : Char} (notQuote : character ≠ '"')
    (notBackslash : character ≠ '\\') (notControl : 0x20 ≤ character.toNat) (rest : List Char) :
    stringParts? (character :: rest) =
      (stringParts? rest).map fun (parts, after) => (.character character :: parts, after) := by
  rw [stringParts?.eq_4 _ _ notQuote (fun _ _ _ _ _ same => absurd same notBackslash)
    (fun _ _ same => absurd same notBackslash)]
  rw [guard_of_pos ⟨notControl, notBackslash⟩]
  cases stringParts? rest <;> rfl

/-- A character is read as the part that it is written as. -/
theorem stringParts?_escape (character : Char) (rest : List Char) :
    stringParts? (escape character ++ rest) =
      (stringParts? rest).map fun (parts, after) => (partOf character :: parts, after) := by
  rw [escape]
  split
  · next same => subst same; exact stringParts?_lettered rfl rest
  next notQuote =>
  split
  · next same => subst same; exact stringParts?_lettered rfl rest
  next notBackslash =>
  split
  · next same => subst same; exact stringParts?_lettered rfl rest
  split
  · next same => subst same; exact stringParts?_lettered rfl rest
  split
  · next same => subst same; exact stringParts?_lettered rfl rest
  split
  · next same => subst same; exact stringParts?_lettered rfl rest
  split
  · next same => subst same; exact stringParts?_lettered rfl rest
  split
  · next isControl =>
    rw [partOf, if_pos ⟨isControl, by simp [lettered, *]⟩]
    exact stringParts?_control isControl rest
  · next notControl =>
    rw [partOf, if_neg fun control => notControl control.1]
    exact stringParts?_plain notQuote notBackslash (Nat.not_lt.mp notControl) rest

theorem stringParts?_quoted (text rest : List Char) :
    stringParts? (text.flatMap escape ++ '"' :: rest) = some (text.map partOf, rest) := by
  induction text with
  | nil => rfl
  | cons character text ih =>
      rw [List.flatMap_cons, List.append_assoc, stringParts?_escape, ih]
      rfl

/-- A code unit that is no half of a pair is a character, whatever follows it. -/
theorem joinParts?_codeUnit {unit : Nat} (notHigh : isHighHalf unit = false)
    (notLow : isLowHalf unit = false) (rest : List StringPart) :
    joinParts? (.codeUnit unit :: rest) = (joinParts? rest).map (Char.ofNat unit :: ·) := by
  cases rest with
  | nil => simp [joinParts?, notHigh, notLow]
  | cons part rest => cases part <;> simp [joinParts?, notHigh, notLow]

theorem joinParts?_partOf (text : List Char) : joinParts? (text.map partOf) = some text := by
  induction text with
  | nil => rfl
  | cons character text ih =>
      rw [List.map_cons, partOf]
      split
      · rename_i isControl
        have notHalf : isHighHalf character.toNat = false ∧ isLowHalf character.toNat = false := by
          simp only [isHighHalf, isLowHalf, Bool.and_eq_false_iff, decide_eq_false_iff_not]
          omega
        rw [joinParts?_codeUnit notHalf.1 notHalf.2, ih, Char.ofNat_toNat]
        rfl
      · rw [joinParts?, ih]
        rfl

theorem string?_quoted (text : String) (rest : List Char) :
    string? (text.toList.flatMap escape ++ '"' :: rest) = some (some text, rest) := by
  simp [string?, stringParts?_quoted, joinParts?_partOf]

end Strings

/-! ## Values -/

section Values

/-- A value that has a text: its strings and names are texts, and its numbers have the digits of
numbers. -/
inductive IsTextual : Json → Prop where
  | null : IsTextual null
  | boolean (value : Bool) : IsTextual (boolean value)
  | number {value : JsonNumber} (isWritten : value.IsWritten) : IsTextual (number value)
  | string (text : String) : IsTextual (string text)
  | array {elements : List Json} (each : ∀ element ∈ elements, IsTextual element) :
      IsTextual (array elements)
  | object {members : List (Option String × Json)} (named : ∀ member ∈ members, member.1.isSome)
      (each : ∀ member ∈ members, IsTextual member.2) : IsTextual (object members)

/-- The text of a value, with anything after it that may follow a value, is read as the value. -/
def IsReadBack (value : Json) : Prop :=
  ∀ fuel rest, value.print.length ≤ fuel → Ends rest →
    readValue? fuel (value.print ++ rest) = some (value, rest)

theorem skipGap_cons {first : Char} (isToken : isGap first = false) (rest : List Char) :
    skipGap (first :: rest) = first :: rest := by
  rw [skipGap, List.dropWhile_cons_of_neg (by simp [isToken])]

theorem ends_cons {next : Char} (isEnd : next ∈ [',', ']', '}']) (rest : List Char) :
    Ends (next :: rest) := by
  rintro _ ⟨⟩
  exact isEnd

/-- A character with which a value begins. -/
def Starts (first : Char) : Prop :=
  isDigit first = true ∨ first ∈ ['-', '"', '[', '{', 'n', 't', 'f']

instance (first : Char) : Decidable (Starts first) := inferInstanceAs (Decidable (_ ∨ _))

theorem Starts.ne {first other : Char} (starts : Starts first) (fails : ¬ Starts other) :
    first ≠ other := by
  rintro rfl
  exact fails starts

theorem Starts.isGap {first : Char} (starts : Starts first) : isGap first = false := by
  simp only [Json.isGap, Bool.or_eq_false_iff, decide_eq_false_iff_not]
  refine ⟨⟨⟨?_, ?_⟩, ?_⟩, ?_⟩ <;> exact starts.ne (by decide)

theorem readValue?_number {first : Char} (starts : isDigit first = true ∨ first = '-') (fuel : Nat)
    (text : List Char) : readValue? (fuel + 1) (first :: text) =
      (number? (first :: text)).map fun (value, rest) => (.number value, rest) := by
  have isOther {other : Char} (fails : isDigit other = false ∧ other ≠ '-') : first ≠ other := by
    rintro rfl
    rcases starts with isFirst | isFirst
    · rw [fails.1] at isFirst
      contradiction
    · exact fails.2 isFirst
  have begins : Starts first := starts.imp_right (by rintro rfl; decide)
  rw [readValue?, skipGap_cons begins.isGap]
  split
  case h_7 => cases number? (first :: text) <;> rfl
  all_goals
    rename_i same
    exact absurd (List.cons.inj same).1 (isOther (by decide))

theorem starts_printNumber {value : JsonNumber} (isWritten : value.IsWritten) :
    ∃ first text, printNumber value = first :: text ∧ (isDigit first = true ∨ first = '-') := by
  rw [printNumber_eq]
  cases value.negative with
  | true => exact ⟨'-', _, rfl, .inr rfl⟩
  | false =>
      obtain ⟨first, whole, isWhole⟩ := List.exists_cons_of_ne_nil isWritten.nonempty
      exact ⟨first, _, by rw [isWhole]; rfl, .inl (isWritten.whole first (by simp [isWhole]))⟩

theorem isReadBack_number {value : JsonNumber} (isWritten : value.IsWritten) :
    IsReadBack (number value) := by
  intro fuel rest enough ends
  obtain ⟨first, text, isText, starts⟩ := starts_printNumber isWritten
  have read := number?_print isWritten ends
  rw [print] at enough ⊢
  rw [isText] at enough read ⊢
  rw [List.cons_append] at read ⊢
  obtain ⟨fuel, rfl⟩ := Nat.exists_eq_add_one_of_ne_zero (Nat.ne_zero_of_lt enough)
  rw [readValue?_number starts, read]
  rfl

theorem readElements?_print {elements : List Json} (nonempty : elements ≠ [])
    (each : ∀ element ∈ elements, IsReadBack element) (fuel : Nat)
    (enough : (printElements elements).length < fuel) (rest : List Char) :
    readElements? fuel (printElements elements ++ ']' :: rest) = some (elements, rest) := by
  induction elements generalizing fuel with
  | nil => contradiction
  | cons element later ih =>
      obtain ⟨fuel, rfl⟩ := Nat.exists_eq_add_one_of_ne_zero (Nat.ne_zero_of_lt enough)
      have read := each element List.mem_cons_self fuel
      cases later with
      | nil =>
          rw [printElements] at enough ⊢
          rw [readElements?, read _ (by omega) (ends_cons (by simp) rest)]
          rfl
      | cons next later =>
          rw [printElements] at enough ⊢
          simp only [List.length_append, List.length_cons] at enough
          have more := ih (by simp) (fun other member => each other (List.mem_cons_of_mem _ member))
            fuel (by omega)
          rw [List.append_assoc, List.cons_append, readElements?,
            read _ (by omega) (ends_cons (by simp) _)]
          simp only [Option.bind_eq_bind, Option.bind_some, more,
            @skipGap_cons ',' (by decide)]
          rfl

/-- A member with which the object ends. -/
theorem readMembers?_last {fuel : Nat} {text : List Char} {value : Json} (name : String)
    (read : readValue? fuel text = some (value, '}' :: rest)) :
    readMembers? (fuel + 1) (quote name ++ ':' :: text) = some ([(some name, value)], rest) := by
  rw [quote, List.cons_append, List.cons_append, List.append_assoc, List.singleton_append,
    readMembers?, skipGap_cons (by decide)]
  simp only [string?_quoted, Option.bind_eq_bind, Option.bind_some,
    @skipGap_cons ':' (by decide), read]
  rfl

/-- A member with more after it. -/
theorem readMembers?_more {fuel : Nat} {text later : List Char} {value : Json}
    {members : List (Option String × Json)} (name : String)
    (read : readValue? fuel text = some (value, ',' :: later))
    (more : readMembers? fuel later = some (members, rest)) :
    readMembers? (fuel + 1) (quote name ++ ':' :: text) =
      some ((some name, value) :: members, rest) := by
  rw [quote, List.cons_append, List.cons_append, List.append_assoc, List.singleton_append,
    readMembers?, skipGap_cons (by decide)]
  simp only [string?_quoted, Option.bind_eq_bind, Option.bind_some,
    @skipGap_cons ':' (by decide), read, @skipGap_cons ',' (by decide), more]
  rfl

theorem readMembers?_print {members : List (Option String × Json)} (nonempty : members ≠ [])
    (named : ∀ member ∈ members, member.1.isSome)
    (each : ∀ member ∈ members, IsReadBack member.2) (fuel : Nat)
    (enough : (printMembers members).length < fuel) (rest : List Char) :
    readMembers? fuel (printMembers members ++ '}' :: rest) = some (members, rest) := by
  induction members generalizing fuel with
  | nil => contradiction
  | cons member later ih =>
      obtain ⟨name, value⟩ := member
      obtain ⟨fuel, rfl⟩ := Nat.exists_eq_add_one_of_ne_zero (Nat.ne_zero_of_lt enough)
      obtain ⟨name, rfl⟩ := Option.isSome_iff_exists.mp (named _ List.mem_cons_self)
      have read : IsReadBack value := each _ List.mem_cons_self
      cases later with
      | nil =>
          rw [printMembers, Option.getD_some] at enough ⊢
          simp only [List.length_append, List.length_cons] at enough
          rw [List.append_assoc, List.cons_append]
          exact readMembers?_last name (read fuel _ (by omega) (ends_cons (by simp) rest))
      | cons next later =>
          rw [printMembers, Option.getD_some] at enough ⊢
          simp only [List.length_append, List.length_cons] at enough
          have more := ih (by simp)
            (fun other member => named other (List.mem_cons_of_mem _ member))
            (fun other member => each other (List.mem_cons_of_mem _ member)) fuel (by omega)
          rw [List.append_assoc, List.cons_append, List.append_assoc, List.cons_append]
          exact readMembers?_more name (read fuel _ (by omega) (ends_cons (by simp) _)) more

theorem IsTextual.starts {value : Json} (isTextual : IsTextual value) :
    ∃ first text, value.print = first :: text ∧ Starts first := by
  cases isTextual with
  | null => exact ⟨_, _, rfl, by decide⟩
  | boolean value => cases value <;> exact ⟨_, _, rfl, by decide⟩
  | number isWritten =>
      obtain ⟨first, text, isText, starts⟩ := starts_printNumber isWritten
      exact ⟨first, text, isText, starts.imp_right (by rintro rfl; decide)⟩
  | string text => exact ⟨_, _, rfl, by decide⟩
  | array each => exact ⟨_, _, rfl, by decide⟩
  | object named each => exact ⟨_, _, rfl, by decide⟩

theorem readValue?_array {first : Char} (starts : Starts first) (fuel : Nat) (text : List Char) :
    readValue? (fuel + 1) ('[' :: first :: text) =
      (readElements? fuel (first :: text)).map fun (elements, rest) => (.array elements, rest) := by
  rw [readValue?, skipGap_cons (by decide)]
  simp only [skipGap_cons starts.isGap]
  split
  · rename_i same
    exact absurd (List.cons.inj same).1 (starts.ne (by decide))
  · cases readElements? fuel (first :: text) <;> rfl

theorem readValue?_object (fuel : Nat) (text : List Char) :
    readValue? (fuel + 1) ('{' :: '"' :: text) =
      (readMembers? fuel ('"' :: text)).map fun (members, rest) => (.object members, rest) := by
  rw [readValue?, skipGap_cons (by decide)]
  simp only [@skipGap_cons '"' (by decide)]
  cases readMembers? fuel ('"' :: text) <;> rfl

theorem isReadBack_array {elements : List Json} (textual : ∀ element ∈ elements, IsTextual element)
    (each : ∀ element ∈ elements, IsReadBack element) : IsReadBack (array elements) := by
  intro fuel rest enough ends
  rw [print, List.cons_append, List.length_cons, List.length_append, List.length_singleton]
    at enough
  obtain ⟨fuel, rfl⟩ := Nat.exists_eq_add_one_of_ne_zero (Nat.ne_zero_of_lt enough)
  rw [print, List.cons_append, List.cons_append, List.append_assoc, List.singleton_append]
  cases elements with
  | nil => rfl
  | cons element later =>
      have read := readElements?_print (List.cons_ne_nil element later) each fuel (by omega) rest
      obtain ⟨first, text, isText, starts⟩ := (textual element List.mem_cons_self).starts
      obtain ⟨more, isPrinted⟩ : ∃ more, printElements (element :: later) = first :: more := by
        cases later <;> rw [printElements, isText] <;> exact ⟨_, rfl⟩
      rw [isPrinted, List.cons_append] at read ⊢
      rw [readValue?_array starts, read]
      rfl

theorem isReadBack_object {members : List (Option String × Json)}
    (named : ∀ member ∈ members, member.1.isSome)
    (each : ∀ member ∈ members, IsReadBack member.2) : IsReadBack (object members) := by
  intro fuel rest enough ends
  rw [print, List.cons_append, List.length_cons, List.length_append, List.length_singleton]
    at enough
  obtain ⟨fuel, rfl⟩ := Nat.exists_eq_add_one_of_ne_zero (Nat.ne_zero_of_lt enough)
  rw [print, List.cons_append, List.cons_append, List.append_assoc, List.singleton_append]
  cases members with
  | nil => rfl
  | cons member later =>
      have read :=
        readMembers?_print (List.cons_ne_nil member later) named each fuel (by omega) rest
      obtain ⟨more, isPrinted⟩ : ∃ more, printMembers (member :: later) = '"' :: more := by
        cases later <;> rw [printMembers, quote] <;> exact ⟨_, rfl⟩
      rw [isPrinted, List.cons_append] at read ⊢
      rw [readValue?_object, read]
      rfl

theorem IsTextual.isReadBack {value : Json} (isTextual : IsTextual value) : IsReadBack value := by
  induction isTextual with
  | null =>
      intro fuel rest enough ends
      obtain ⟨fuel, rfl⟩ := Nat.exists_eq_add_one_of_ne_zero (Nat.ne_zero_of_lt enough)
      rfl
  | boolean value =>
      intro fuel rest enough ends
      obtain ⟨fuel, rfl⟩ := Nat.exists_eq_add_one_of_ne_zero
        (show fuel ≠ 0 by cases value <;> exact Nat.ne_zero_of_lt enough)
      cases value <;> rfl
  | number isWritten => exact isReadBack_number isWritten
  | string text =>
      intro fuel rest enough ends
      obtain ⟨fuel, rfl⟩ := Nat.exists_eq_add_one_of_ne_zero (Nat.ne_zero_of_lt enough)
      rw [print, quote, List.cons_append, List.cons_append, List.append_assoc,
        List.singleton_append, readValue?, skipGap_cons (by decide)]
      simp [string?_quoted]
  | array textual ih => exact isReadBack_array textual ih
  | object named textual ih => exact isReadBack_object named ih

/-- The text of a value is read as the value. -/
theorem parse?_toText {value : Json} (isTextual : IsTextual value) :
    parse? value.toText = some value := by
  have size : value.toText.length = value.print.length := String.length_ofList
  have read := isTextual.isReadBack (2 * value.toText.length + 2) [] (by omega) (by simp [Ends])
  rw [List.append_nil] at read
  rw [parse?, show value.toText.toList = value.print from String.toList_ofList, read]
  rfl

end Values

/-! ## Characters -/

section Characters

/-- A character that may stand in a line: it is no control character. -/
def IsShown (character : Char) : Prop := 0x20 ≤ character.toNat

instance (character : Char) : Decidable (IsShown character) :=
  inferInstanceAs (Decidable (0x20 ≤ character.toNat))

theorem isShown_of_all {text : List Char} (all : text.all (IsShown ·) = true) :
    ∀ written ∈ text, IsShown written := by
  simpa only [List.all_eq_true, decide_eq_true_eq] using all

theorem isShown_of_isDigit {digit : Char} (isDecimal : isDigit digit = true) : IsShown digit := by
  rw [isDigit, Bool.and_eq_true, decide_eq_true_eq] at isDecimal
  exact Nat.le_trans (by decide) (show '0'.toNat ≤ digit.toNat from isDecimal.1)

theorem isShown_hexDigit {value : Nat} (small : value < 16) : IsShown (hexDigit value) := by
  have each : ∀ value, value < 16 → IsShown (hexDigit value) := by decide
  exact each value small

theorem isShown_escape (character : Char) : ∀ written ∈ escape character, IsShown written := by
  rw [escape]
  iterate 7
    split
    · exact isShown_of_all (by decide)
  split
  · have shown := fun value small => @isShown_hexDigit value small
    intro written member
    simp only [List.mem_cons, List.not_mem_nil, or_false] at member
    rcases member with rfl | rfl | rfl | rfl | rfl | rfl
    iterate 4 exact (by decide)
    · exact shown _ (by omega)
    · exact shown _ (by omega)
  · rename_i notControl
    rw [List.forall_mem_singleton]
    exact Nat.not_lt.mp notControl

/-- What stands between two characters that are shown. -/
theorem isShown_between {first last : Char} {text : List Char} (isFirst : IsShown first)
    (isLast : IsShown last) (each : ∀ written ∈ text, IsShown written) :
    ∀ written ∈ first :: text ++ [last], IsShown written := by
  rw [List.cons_append, List.forall_mem_cons, List.forall_mem_append, List.forall_mem_singleton]
  exact ⟨isFirst, each, isLast⟩

theorem isShown_quote (text : String) : ∀ written ∈ quote text, IsShown written := by
  apply isShown_between (by decide) (by decide)
  intro written member
  obtain ⟨character, -, member⟩ := List.mem_flatMap.mp member
  exact isShown_escape character written member

theorem isShown_printExponent (exponent : Option Int) :
    ∀ written ∈ printExponent exponent, IsShown written := by
  have shown (size : Nat) : ∀ digit ∈ Nat.toDigits 10 size, IsShown digit :=
    fun digit member => isShown_of_isDigit (JsonNumber.isDigit_of_mem_toDigits member)
  cases exponent with
  | none => exact List.forall_mem_nil _
  | some exponent =>
      rw [printExponent, List.forall_mem_cons]
      apply And.intro (by decide)
      cases exponent with
      | ofNat size =>
          rw [toList_toString_ofNat]
          exact shown size
      | negSucc size =>
          rw [toList_toString_negSucc, List.forall_mem_cons]
          exact ⟨by decide, shown _⟩

theorem isShown_printNumber {value : JsonNumber} (isWritten : value.IsWritten) :
    ∀ written ∈ printNumber value, IsShown written := by
  rw [printNumber_eq, List.forall_mem_append, List.forall_mem_append, List.forall_mem_append]
  refine ⟨?sign, ?whole, ?fraction, isShown_printExponent value.exponent⟩
  case sign => split <;> exact isShown_of_all (by decide)
  case whole =>
    intro digit member
    exact isShown_of_isDigit (isWritten.whole digit member)
  case fraction =>
    rw [printFraction]
    split
    · exact List.forall_mem_nil _
    · rw [List.forall_mem_cons]
      apply And.intro (by decide)
      intro digit member
      exact isShown_of_isDigit (isWritten.fraction digit member)

theorem isShown_printElements {elements : List Json}
    (each : ∀ element ∈ elements, ∀ written ∈ element.print, IsShown written) :
    ∀ written ∈ printElements elements, IsShown written := by
  induction elements with
  | nil => exact List.forall_mem_nil _
  | cons element later ih =>
      obtain ⟨isElement, isLater⟩ := List.forall_mem_cons.mp each
      cases later with
      | nil => rwa [printElements]
      | cons next later =>
          rw [printElements, List.forall_mem_append, List.forall_mem_cons]
          exact ⟨isElement, by decide, ih isLater⟩

theorem isShown_printMembers {members : List (Option String × Json)}
    (each : ∀ member ∈ members, ∀ written ∈ member.2.print, IsShown written) :
    ∀ written ∈ printMembers members, IsShown written := by
  induction members with
  | nil => exact List.forall_mem_nil _
  | cons head later ih =>
      obtain ⟨name, value⟩ := head
      obtain ⟨isValue, isLater⟩ := List.forall_mem_cons.mp each
      have isName := isShown_quote (name.getD "")
      cases later with
      | nil =>
          rw [printMembers, List.forall_mem_append, List.forall_mem_cons]
          exact ⟨isName, by decide, isValue⟩
      | cons next later =>
          rw [printMembers, List.append_assoc, List.forall_mem_append, List.cons_append,
            List.forall_mem_cons, List.forall_mem_append, List.forall_mem_cons]
          exact ⟨isName, by decide, isValue, by decide, ih isLater⟩

/-- The text of a value has no control character, whatever its strings hold. -/
theorem IsTextual.isShown {value : Json} (isTextual : IsTextual value) :
    ∀ written ∈ value.print, IsShown written := by
  induction isTextual with
  | null => exact isShown_of_all (by decide)
  | boolean value => cases value <;> exact isShown_of_all (by decide)
  | number isWritten => exact isShown_printNumber isWritten
  | string text => exact isShown_quote text
  | array textual ih =>
      exact isShown_between (by decide) (by decide) (isShown_printElements ih)
  | object named textual ih =>
      exact isShown_between (by decide) (by decide) (isShown_printMembers ih)

end Characters

end Json

end Polyglot
