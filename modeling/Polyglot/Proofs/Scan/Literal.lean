import Polyglot.Proofs.Scan.Sites
import Polyglot.Proofs.Text.Encoding
import Polyglot.Proofs.Text.Trimming

/-!
# Arguments that are one literal

An argument counts as a literal when it is one string literal, up to its closing quote, between
blank characters.  It holds no site, so it makes no difference that it is not scanned.
-/

namespace Polyglot.Scan

open Text

variable {flavour : Flavour} {name before inside : Bytes} {byte quote : UInt8}

/-! ## Literals that end -/

section Ends

theorem scanShort_of_terminated {escaped : Bool} {bytes : Bytes}
    (terminated : (scanShort quote escaped bytes).terminated = true) (after : Bytes) :
    scanShort quote escaped (bytes ++ after) =
      ⟨(scanShort quote escaped bytes).rest ++ after, true⟩ := by
  fun_induction scanShort quote escaped bytes with
  | case1 => contradiction
  | case2 byte rest ih => exact ih terminated
  | case3 rest ih =>
      rw [List.cons_append, scanShort, if_pos rfl]
      exact ih terminated
  | case4 => contradiction
  | case5 rest notEscape notEnd =>
      rw [List.cons_append, scanShort, if_neg notEscape, if_neg notEnd, if_pos rfl]
  | case6 byte rest notEscape notEnd notQuote ih =>
      rw [List.cons_append, scanShort, if_neg notEscape, if_neg notEnd, if_neg notQuote]
      exact ih terminated

/-- A tripled literal that ends is not changed by what follows, if that is no quote. -/
theorem scanTriple_of_terminated {escaped : Bool} {bytes : Bytes} {stop : UInt8}
    (isOther : stop ≠ quote) (terminated : (scanTriple quote escaped bytes).terminated = true)
    (after : Bytes) :
    scanTriple quote escaped (bytes ++ stop :: after) =
      ⟨(scanTriple quote escaped bytes).rest ++ stop :: after, true⟩ := by
  have isNot : stop ∉ [quote, quote, quote] := by simp [isOther]
  fun_induction scanTriple quote escaped bytes with
  | case1 => contradiction
  | case2 byte rest ih => exact ih terminated
  | case3 rest ih =>
      rw [List.cons_append, scanTriple, if_pos rfl]
      exact ih terminated
  | case4 byte rest notEscape atEnd =>
      have short := length_le_of_isPrefixOf atEnd
      rw [← isPrefixOf_append_cons isNot _ after] at atEnd
      rw [List.cons_append] at atEnd ⊢
      rw [scanTriple, if_neg notEscape, if_pos atEnd,
        List.drop_append_of_le_length (by simpa using short)]
  | case5 byte rest notEscape notEnd ih =>
      rw [← isPrefixOf_append_cons isNot _ after] at notEnd
      rw [List.cons_append] at notEnd ⊢
      rw [scanTriple, if_neg notEscape, if_neg notEnd]
      exact ih terminated

theorem scanLiteral_of_terminated {after : Bytes} (isOther : after.head? ≠ some quote)
    (terminated : scanLiteral flavour quote inside = ⟨[], true⟩) :
    scanLiteral flavour quote (inside ++ after) = ⟨after, true⟩ := by
  cases after with
  | nil => rwa [List.append_nil]
  | cons stop after =>
      have isOther : stop ≠ quote := by simpa using isOther
      have sameOpening : opensTriple flavour quote (inside ++ stop :: after) =
          opensTriple flavour quote inside := by
        rw [opensTriple, opensTriple, isPrefixOf_append_cons (by simp [isOther])]
      rw [scanLiteral] at terminated ⊢
      rw [sameOpening]
      split at terminated
      · rename_i opens
        have short : 2 ≤ inside.length := by
          rw [opensTriple, Bool.and_eq_true] at opens
          exact length_le_of_isPrefixOf opens.2
        rw [if_pos opens, List.drop_append_of_le_length short,
          scanTriple_of_terminated isOther (by rw [terminated]), terminated, List.nil_append]
      · rename_i notTriple
        rw [if_neg notTriple, scanShort_of_terminated (by rw [terminated]), terminated,
          List.nil_append]

theorem scanShort_closed {escaped : Bool} {bytes : Bytes}
    (closed : scanShort quote escaped bytes = ⟨[], true⟩) : ∃ body, bytes = body ++ [quote] := by
  fun_induction scanShort quote escaped bytes with
  | case1 => simp at closed
  | case2 byte rest ih =>
      obtain ⟨body, rfl⟩ := ih closed
      exact ⟨byte :: body, rfl⟩
  | case3 rest ih =>
      obtain ⟨body, rfl⟩ := ih closed
      exact ⟨backslash :: body, rfl⟩
  | case4 => simp at closed
  | case5 rest =>
      cases closed
      exact ⟨[], rfl⟩
  | case6 byte rest _ _ _ ih =>
      obtain ⟨body, rfl⟩ := ih closed
      exact ⟨byte :: body, rfl⟩

theorem scanTriple_closed {escaped : Bool} {bytes : Bytes}
    (closed : scanTriple quote escaped bytes = ⟨[], true⟩) : ∃ body, bytes = body ++ [quote] := by
  fun_induction scanTriple quote escaped bytes with
  | case1 => simp at closed
  | case2 byte rest ih =>
      obtain ⟨body, rfl⟩ := ih closed
      exact ⟨byte :: body, rfl⟩
  | case3 rest ih =>
      obtain ⟨body, rfl⟩ := ih closed
      exact ⟨backslash :: body, rfl⟩
  | case4 byte rest notEscape atEnd =>
      obtain ⟨more, whole⟩ := List.isPrefixOf_iff_prefix.mp atEnd
      obtain ⟨rfl, rfl⟩ := List.cons.inj whole
      obtain rfl : more = [] := by simpa using closed
      exact ⟨[quote, quote], rfl⟩
  | case5 byte rest _ _ ih =>
      obtain ⟨body, rfl⟩ := ih closed
      exact ⟨byte :: body, rfl⟩

/-- A literal that ends has its quote for its last byte. -/
theorem scanLiteral_closed (closed : scanLiteral flavour quote inside = ⟨[], true⟩) :
    ∃ body, inside = body ++ [quote] := by
  rw [scanLiteral] at closed
  split at closed
  · obtain ⟨body, isBody⟩ := scanTriple_closed closed
    refine ⟨inside.take 2 ++ body, ?_⟩
    rw [List.append_assoc, ← isBody, List.take_append_drop]
  · exact scanShort_closed closed

end Ends

/-! ## Single literals -/

section Single

/-- An argument that is one string literal, up to its closing quote, between blank characters. -/
def IsQuotedLiteral (flavour : Flavour) (argument : Bytes) : Prop :=
  ∃ (lead trail : String) (quote : UInt8) (inside : Bytes),
    argument = encode lead ++ quote :: inside ++ encode trail ∧
      isBlankText lead = true ∧ isBlankText trail = true ∧
      flavour.isQuote quote = true ∧ scanLiteral flavour quote inside = ⟨[], true⟩

/-- A quote is a character of its own, and no blank one. -/
theorem character_of_isQuote (isQuote : flavour.isQuote quote = true) :
    quote.toNat < 0x80 ∧
      ∃ character, String.utf8EncodeChar character = [quote] ∧ isBlank character = false := by
  simp only [Flavour.isQuote, Bool.or_eq_true, Bool.and_eq_true, decide_eq_true_eq] at isQuote
  rcases isQuote with (rfl | rfl) | ⟨-, rfl⟩
  · exact ⟨by decide, '\'', by decide, by decide⟩
  · exact ⟨by decide, '"', by decide, by decide⟩
  · exact ⟨by decide, Char.ofNat 0x60, by decide, by decide⟩

theorem IsQuotedLiteral.of_isSingleLiteral {argument : Bytes} (isEncoded : IsEncoded argument)
    (isSingle : isSingleLiteral flavour argument = true) : IsQuotedLiteral flavour argument := by
  obtain ⟨lead, trail, split, isLead, isTrail⟩ := trimList_split (decode argument).toList
  have whole : argument = encode (String.ofList lead) ++
      encode (trim (decode argument)) ++ encode (String.ofList trail) := by
    rw [← encode_append, ← encode_append, trim, ← String.ofList_append, ← String.ofList_append,
      ← split, String.ofList_toList, isEncoded.encode_decode]
  rw [isSingleLiteral] at isSingle
  split at isSingle
  · contradiction
  · rename_i quote inside isTrimmed
    rw [Bool.and_eq_true, decide_eq_true_eq] at isSingle
    rw [isTrimmed] at whole
    exact ⟨_, _, quote, inside, whole, by simpa [isBlankText] using isLead,
      by simpa [isBlankText] using isTrail, isSingle.1, isSingle.2⟩

theorem IsQuotedLiteral.isSingleLiteral {argument : Bytes} (isEncoded : IsEncoded argument)
    (isLiteral : IsQuotedLiteral flavour argument) : isSingleLiteral flavour argument = true := by
  obtain ⟨lead, trail, quote, inside, rfl, isLead, isTrail, isQuote, terminated⟩ := isLiteral
  obtain ⟨isAscii, character, isCharacter, notBlank⟩ := character_of_isQuote isQuote
  obtain ⟨body, rfl⟩ := scanLiteral_closed terminated
  -- The quotes cut the bytes of the literal into those of texts.
  have isBody : IsEncoded body := by
    rw [List.append_assoc, List.cons_append, List.append_assoc] at isEncoded
    exact ((isEncoded.cut isAscii).2.cut isAscii).1
  obtain ⟨bodyText, rfl⟩ := isBody
  have literal : quote :: (encode bodyText ++ [quote]) =
      encode (String.ofList (character :: bodyText.toList ++ [character])) := by
    simp [encode_eq, isCharacter]
  have trimmed : trim (decode (encode lead ++ quote :: (encode bodyText ++ [quote]) ++
      encode trail)) = String.ofList (character :: bodyText.toList ++ [character]) := by
    rw [literal, ← encode_append, ← encode_append, decode_encode, trim, String.toList_append,
      String.toList_append, String.toList_ofList, trimList_append isLead isTrail notBlank notBlank]
  rw [Scan.isSingleLiteral, trimmed, ← literal]
  simp [isQuote, terminated]

theorem isSingleLiteral_iff {argument : Bytes} (isEncoded : IsEncoded argument) :
    isSingleLiteral flavour argument = true ↔ IsQuotedLiteral flavour argument :=
  ⟨.of_isSingleLiteral isEncoded, fun isLiteral => isLiteral.isSingleLiteral isEncoded⟩

/-- The bytes of blank characters begin nothing, and an identifier has none of them. -/
theorem byte_of_isBlank (isIdentifier : flavour.IsIdentifier name) {character : Char}
    (isBlank : isBlank character = true) (member : byte ∈ String.utf8EncodeChar character) :
    flavour.isPlain byte = true ∧ byte ∉ name := by
  rcases utf8EncodeChar_cases character with ⟨only, single, same, isAscii⟩ | beyond
  · obtain rfl : byte = only := by simpa [single] using member
    have isGiven : byte ∈ [(0x09 : UInt8), 0x0A, 0x0B, 0x0C, 0x0D, 0x20] := by
      simp only [Text.isBlank, blankRanges, ← same, List.any_cons, List.any_nil, Bool.or_eq_true,
        Bool.and_eq_true, decide_eq_true_eq, Bool.false_eq_true, or_false] at isBlank
      simp only [List.mem_cons, List.not_mem_nil, or_false, ← UInt8.toNat_inj,
        UInt8.reduceToNat]
      omega
    have ofBlank : ∀ blank ∈ [(0x09 : UInt8), 0x0A, 0x0B, 0x0C, 0x0D, 0x20],
        flavour.isPlain blank = true ∧ flavour.isWordByte blank = false := by
      cases flavour <;> decide +kernel
    obtain ⟨isPlain, notWord⟩ := ofBlank byte isGiven
    exact ⟨isPlain, isIdentifier.not_mem notWord⟩
  · have large := beyond byte member
    have isWord : flavour.isWordByte byte = true := by
      have isBeyond : (0x80 : UInt8) ≤ byte := UInt8.le_iff_toNat_le.mpr large
      simp [Flavour.isWordByte, isBeyond]
    refine ⟨isPlain_of_isWordByte isWord, fun inName => ?_⟩
    have small := (isIdentifier.2 byte inName).2
    omega

theorem skip?_of_terminated {after : Bytes} (isQuote : flavour.isQuote quote = true)
    (terminated : scanLiteral flavour quote inside = ⟨[], true⟩)
    (isOther : after.head? ≠ some quote) : skip? flavour quote (inside ++ after) = some after := by
  rw [skip?.eq_def, if_pos isQuote, scanLiteral_of_terminated isOther terminated]

theorem passed_of_isBlankText (isIdentifier : flavour.IsIdentifier name) {text : String}
    (blank : isBlankText text = true) :
    ∀ byte ∈ encode text, flavour.isPlain byte = true ∧ byte ∉ name := by
  intro byte member
  rw [encode_eq, List.mem_flatMap] at member
  obtain ⟨character, inText, member⟩ := member
  exact byte_of_isBlank isIdentifier (List.all_eq_true.mp blank character inText) member

/-- A single literal holds no site. -/
theorem sites_of_isQuotedLiteral (isIdentifier : flavour.IsIdentifier name) {argument : Bytes}
    (isLiteral : IsQuotedLiteral flavour argument) (before : Bytes) :
    sites flavour name before argument = [] := by
  obtain ⟨lead, trail, quote, inside, rfl, isLead, isTrail, isQuote, terminated⟩ := isLiteral
  have isPassed {text : String} (blank : isBlankText text = true) :=
    passed_of_isBlankText isIdentifier blank
  have isOther : (encode trail).head? ≠ some quote := by
    intro same
    have isPlain := (isPassed isTrail quote (List.mem_of_head? same)).1
    simp [Flavour.isPlain, isQuote] at isPlain
  have skipped := skip?_of_terminated isQuote terminated isOther
  have atEnd (before : Bytes) : sites flavour name before (encode trail) = [] := by
    have passed : sites flavour name before (encode trail ++ []) = _ :=
      sites_of_passed isIdentifier.1 (isPassed isTrail)
    rwa [List.append_nil, sites_nil] at passed
  rw [List.append_assoc, sites_of_passed isIdentifier.1 (isPassed isLead), List.cons_append,
    sites_of_skip skipped (List.cons_append ..).symm, atEnd]

end Single

end Polyglot.Scan
