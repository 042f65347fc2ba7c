import Mathlib.Tactic.IntervalCases
import Polyglot.Text.Bytes

/-!
# Texts read back

Reading the bytes of a text gives the text back.  Only an ASCII character has a byte below
`0x80`, and it has no other byte, so the bytes of a text that is cut before or after such a
byte are the bytes of two texts.
-/

namespace Polyglot.Text

theorem encode_ofList (characters : List Char) :
    encode (String.ofList characters) = characters.flatMap String.utf8EncodeChar := by
  change (String.ofList characters).toByteArray.data.toList = _
  rw [String.toByteArray_ofList, List.utf8Encode]
  simp

theorem encode_eq (text : String) :
    encode text = text.toList.flatMap String.utf8EncodeChar := by
  conv_lhs => rw [← String.ofList_toList (s := text)]
  exact encode_ofList _

@[simp] theorem encode_append (first second : String) :
    encode (first ++ second) = encode first ++ encode second := by
  simp only [encode_eq, String.toList_append, List.flatMap_append]

theorem toNat_ofNat {value : Nat} (small : value < 256) : (UInt8.ofNat value).toNat = value :=
  Nat.mod_eq_of_lt small

/-! ## The first byte of a character -/

theorem leadByte_one {byte : UInt8} (small : byte.toNat < 0x80) :
    leadByte byte = ([Char.ofNat byte.toNat], none) := by
  rw [leadByte, if_pos (UInt8.lt_iff_toNat_lt.mpr small)]

theorem leadByte_two (value : Nat) (low : 0xC2 ≤ value) (high : value ≤ 0xDF) :
    leadByte (.ofNat value) = ([], some ⟨1, value - 0xC0, 0x80, 0xBF⟩) := by
  interval_cases value <;> rfl

theorem leadByte_three (value : Nat) (low : 0xE0 ≤ value) (high : value ≤ 0xEF) :
    ∃ least most : UInt8, leadByte (.ofNat value) = ([], some ⟨2, value - 0xE0, least, most⟩) ∧
      least.toNat = (if value = 0xE0 then 0xA0 else 0x80) ∧
      most.toNat = if value = 0xED then 0x9F else 0xBF := by
  interval_cases value <;> exact ⟨_, _, rfl, rfl, rfl⟩

theorem leadByte_four (value : Nat) (low : 0xF0 ≤ value) (high : value ≤ 0xF4) :
    ∃ least most : UInt8, leadByte (.ofNat value) = ([], some ⟨3, value - 0xF0, least, most⟩) ∧
      least.toNat = (if value = 0xF0 then 0x90 else 0x80) ∧
      most.toNat = if value = 0xF4 then 0x8F else 0xBF := by
  interval_cases value <;> exact ⟨_, _, rfl, rfl, rfl⟩

/-! ## Reading what was written -/

/-- A character begins. -/
theorem decodeFrom_lead {byte : UInt8} {characters : List Char} {next : Option OpenCharacter}
    (leads : leadByte byte = (characters, next)) (rest : Bytes) :
    decodeFrom none (byte :: rest) = characters ++ decodeFrom next rest := by
  simp only [decodeFrom, decodeByte, leads]

/-- A character goes on with a byte that may come next. -/
theorem decodeFrom_continued {missing value next : Nat} {low high : UInt8} (small : next < 256)
    (within : low.toNat ≤ next ∧ next ≤ high.toNat) (rest : Bytes) :
    decodeFrom (some ⟨missing, value, low, high⟩) (.ofNat next :: rest) =
      if missing ≤ 1 then Char.ofNat (value * 64 + (next - 0x80)) :: decodeFrom none rest
      else decodeFrom (some ⟨missing - 1, value * 64 + (next - 0x80), 0x80, 0xBF⟩) rest := by
  have first : low ≤ .ofNat next := by
    rw [UInt8.le_iff_toNat_le, toNat_ofNat small]
    exact within.1
  have last : UInt8.ofNat next ≤ high := by
    rw [UInt8.le_iff_toNat_le, toNat_ofNat small]
    exact within.2
  simp only [decodeFrom, decodeByte, first, last, decide_true, Bool.and_self, if_true,
    toNat_ofNat small]
  split <;> rfl

/-- The bytes of a character are read as that character. -/
theorem decodeFrom_utf8EncodeChar (character : Char) (rest : Bytes) :
    decodeFrom none (String.utf8EncodeChar character ++ rest) =
      character :: decodeFrom none rest := by
  have valid : character.val.toNat < 0xD800 ∨
    (0xDFFF < character.val.toNat ∧ character.val.toNat < 0x110000) := character.valid
  have same : Char.ofNat character.val.toNat = character := Char.ofNat_toNat character
  have least : (0x80 : UInt8).toNat = 0x80 := rfl
  have most : (0xBF : UInt8).toNat = 0xBF := rfl
  simp only [String.utf8EncodeChar]
  generalize character.val.toNat = value at valid same
  subst same
  -- One case for each number of bytes; `whole` says that the bits come together again.
  split
  · have small : (UInt8.ofNat value).toNat = value := toNat_ofNat (by omega)
    rw [List.singleton_append, decodeFrom_lead (leadByte_one (by omega)), small]
    rfl
  · split
    · have whole : (value / 64 % 32 + 192 - 0xC0) * 64 + (value % 64 + 128 - 0x80) = value := by
        omega
      simp only [List.cons_append, List.nil_append]
      rw [decodeFrom_lead (leadByte_two _ (by omega) (by omega)), List.nil_append,
        decodeFrom_continued (by omega) (by omega), if_pos (Nat.le_refl 1), whole]
    · split
      · obtain ⟨low, high, leads, isLow, isHigh⟩ :=
          leadByte_three (value / 4096 % 16 + 224) (by omega) (by omega)
        have whole : ((value / 4096 % 16 + 224 - 0xE0) * 64 +
            (value / 64 % 64 + 128 - 0x80)) * 64 + (value % 64 + 128 - 0x80) = value := by
          omega
        simp only [List.cons_append, List.nil_append]
        rw [decodeFrom_lead leads, List.nil_append, decodeFrom_continued (by omega),
          if_neg (by decide), decodeFrom_continued (by omega) (by omega), if_pos (by decide), whole]
        split at isLow <;> split at isHigh <;> omega
      · obtain ⟨low, high, leads, isLow, isHigh⟩ :=
          leadByte_four (value / 262144 % 8 + 240) (by omega) (by omega)
        have whole : (((value / 262144 % 8 + 240 - 0xF0) * 64 +
            (value / 4096 % 64 + 128 - 0x80)) * 64 + (value / 64 % 64 + 128 - 0x80)) * 64 +
            (value % 64 + 128 - 0x80) = value := by
          omega
        simp only [List.cons_append, List.nil_append]
        rw [decodeFrom_lead leads, List.nil_append, decodeFrom_continued (by omega),
          if_neg (by decide), decodeFrom_continued (by omega) (by omega), if_neg (by decide),
          decodeFrom_continued (by omega) (by omega), if_pos (by decide), whole]
        split at isLow <;> split at isHigh <;> omega

theorem decode_encode (text : String) : decode (encode text) = text := by
  have read (characters : List Char) :
      decodeFrom none (characters.flatMap String.utf8EncodeChar) = characters := by
    induction characters with
    | nil => rfl
    | cons character rest ih => rw [List.flatMap_cons, decodeFrom_utf8EncodeChar, ih]
  rw [decode, encode_eq, read, String.ofList_toList]

/-! ## Bytes of texts -/

/-- Bytes that are those of a text. -/
def IsEncoded (bytes : Bytes) : Prop := ∃ text, encode text = bytes

theorem isEncoded_encode (text : String) : IsEncoded (encode text) := ⟨text, rfl⟩

theorem isEncoded_nil : IsEncoded [] := ⟨"", rfl⟩

theorem IsEncoded.encode_decode {bytes : Bytes} (isEncoded : IsEncoded bytes) :
    encode (decode bytes) = bytes := by
  obtain ⟨text, rfl⟩ := isEncoded
  rw [decode_encode]

theorem IsEncoded.append {first second : Bytes} (isFirst : IsEncoded first)
    (isSecond : IsEncoded second) : IsEncoded (first ++ second) := by
  obtain ⟨firstText, rfl⟩ := isFirst
  obtain ⟨secondText, rfl⟩ := isSecond
  exact ⟨firstText ++ secondText, encode_append _ _⟩

/-- A character is one ASCII byte with its number, or all of its bytes are beyond ASCII. -/
theorem utf8EncodeChar_cases (character : Char) :
    (∃ byte : UInt8, String.utf8EncodeChar character = [byte] ∧
        byte.toNat = character.toNat ∧ byte.toNat < 0x80) ∨
      ∀ byte ∈ String.utf8EncodeChar character, 0x80 ≤ byte.toNat := by
  simp only [String.utf8EncodeChar]
  split
  · rename_i small
    have same := toNat_ofNat (Nat.lt_of_le_of_lt small (by decide))
    exact .inl ⟨_, rfl, same, by omega⟩
  · right
    intro byte member
    split at member
    · simp only [List.mem_cons, List.not_mem_nil, or_false] at member
      rcases member with rfl | rfl <;> rw [toNat_ofNat (by omega)] <;> omega
    · split at member
      · simp only [List.mem_cons, List.not_mem_nil, or_false] at member
        rcases member with rfl | rfl | rfl <;> rw [toNat_ofNat (by omega)] <;> omega
      · simp only [List.mem_cons, List.not_mem_nil, or_false] at member
        rcases member with rfl | rfl | rfl | rfl <;> rw [toNat_ofNat (by omega)] <;> omega

/-- The first byte of a character is ASCII, or says how many bytes follow. -/
theorem head_utf8EncodeChar (character : Char) :
    ∃ byte rest, String.utf8EncodeChar character = byte :: rest ∧
      (byte.toNat < 0x80 ∨ 0xC0 ≤ byte.toNat) := by
  simp only [String.utf8EncodeChar]
  split
  · exact ⟨_, _, rfl, .inl (by rw [toNat_ofNat (by omega)]; omega)⟩
  · split
    · exact ⟨_, _, rfl, .inr (by rw [toNat_ofNat (by omega)]; omega)⟩
    · split <;> exact ⟨_, _, rfl, .inr (by rw [toNat_ofNat (by omega)]; omega)⟩

theorem IsEncoded.head {rest : Bytes} {byte : UInt8} (isEncoded : IsEncoded (byte :: rest)) :
    byte.toNat < 0x80 ∨ 0xC0 ≤ byte.toNat := by
  obtain ⟨text, whole⟩ := isEncoded
  rw [encode_eq] at whole
  cases isText : text.toList with
  | nil =>
      rw [isText] at whole
      contradiction
  | cons character characters =>
      obtain ⟨first, more, isCharacter, leads⟩ := head_utf8EncodeChar character
      rw [isText, List.flatMap_cons, isCharacter] at whole
      rwa [← (List.cons.inj whole).1]

/-- Every other byte of a character is known not to be a first one. -/
theorem tail_utf8EncodeChar (character : Char) :
    ∀ byte ∈ (String.utf8EncodeChar character).tail, 0x80 ≤ byte.toNat ∧ byte.toNat < 0xC0 := by
  intro byte member
  simp only [String.utf8EncodeChar] at member
  split at member
  · simp at member
  · split at member
    · simp only [List.tail_cons, List.mem_cons, List.not_mem_nil, or_false] at member
      rw [member, toNat_ofNat (by omega)]
      omega
    · split at member
      · simp only [List.tail_cons, List.mem_cons, List.not_mem_nil, or_false] at member
        rcases member with rfl | rfl <;> rw [toNat_ofNat (by omega)] <;> omega
      · simp only [List.tail_cons, List.mem_cons, List.not_mem_nil, or_false] at member
        rcases member with rfl | rfl | rfl <;> rw [toNat_ofNat (by omega)] <;> omega

/-- Bytes that are cut before the first byte of a character are those of two texts. -/
theorem IsEncoded.cut_of_lead {first rest : Bytes} {byte : UInt8}
    (isEncoded : IsEncoded (first ++ byte :: rest))
    (leads : byte.toNat < 0x80 ∨ 0xC0 ≤ byte.toNat) :
    IsEncoded first ∧ IsEncoded (byte :: rest) := by
  obtain ⟨text, whole⟩ := isEncoded
  rw [encode_eq] at whole
  generalize text.toList = characters at whole
  induction characters generalizing first with
  | nil => simp at whole
  | cons character characters ih =>
      rw [List.flatMap_cons, List.append_eq_append_iff] at whole
      -- Either the character lies before the cut, or the cut lies in the character.
      rcases whole with ⟨middle, isFirst, isRest⟩ | ⟨middle, isCharacter, isRest⟩
      · obtain ⟨isMiddle, isLast⟩ := ih isRest
        refine ⟨?_, isLast⟩
        rw [isFirst]
        refine IsEncoded.append ⟨String.singleton character, ?_⟩ isMiddle
        simp [encode_eq]
      · cases middle with
        | nil =>
            rw [List.append_nil] at isCharacter
            have isFirst : IsEncoded first :=
              ⟨String.singleton character, by simp [encode_eq, isCharacter]⟩
            obtain ⟨-, isLast⟩ := @ih [] (by simpa using isRest.symm)
            exact ⟨isFirst, isLast⟩
        | cons head middle =>
            obtain ⟨rfl, isTail⟩ := List.cons.inj isRest
            cases first with
            | nil =>
                refine ⟨isEncoded_nil, String.ofList (character :: characters), ?_⟩
                rw [encode_ofList, List.flatMap_cons, isCharacter, isTail]
                rfl
            | cons other first =>
                have within := tail_utf8EncodeChar character byte (by simp [isCharacter])
                omega

/-- Bytes that are cut at an ASCII byte are those of a text, that byte and those of another
text. -/
theorem IsEncoded.cut {first rest : Bytes} {byte : UInt8}
    (isEncoded : IsEncoded (first ++ byte :: rest)) (isAscii : byte.toNat < 0x80) :
    IsEncoded first ∧ IsEncoded rest := by
  obtain ⟨isFirst, text, isLater⟩ := isEncoded.cut_of_lead (.inl isAscii)
  refine ⟨isFirst, ?_⟩
  rw [encode_eq] at isLater
  cases isText : text.toList with
  | nil => simp [isText] at isLater
  | cons character characters =>
      rw [isText, List.flatMap_cons] at isLater
      rcases utf8EncodeChar_cases character with ⟨only, single, -⟩ | beyond
      · rw [single] at isLater
        exact ⟨String.ofList characters, (encode_ofList _).trans (List.cons.inj isLater).2⟩
      · obtain ⟨head, more, isCharacter, -⟩ := head_utf8EncodeChar character
        rw [isCharacter] at isLater beyond
        have large := beyond head List.mem_cons_self
        rw [(List.cons.inj isLater).1] at large
        omega

theorem IsEncoded.of_ascii_append {word rest : Bytes} (isAscii : ∀ byte ∈ word, byte.toNat < 0x80)
    (isEncoded : IsEncoded (word ++ rest)) : IsEncoded rest := by
  induction word with
  | nil => exact isEncoded
  | cons byte word ih =>
      have isByte := isAscii byte List.mem_cons_self
      have isTail := (@IsEncoded.cut [] (word ++ rest) byte isEncoded isByte).2
      exact ih (fun other member => isAscii other (List.mem_cons_of_mem _ member)) isTail

end Polyglot.Text
