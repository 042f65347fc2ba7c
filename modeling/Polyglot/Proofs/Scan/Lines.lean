import Polyglot.Proofs.Scan.Lexing
import Polyglot.Proofs.Text.Splitting

/-!
# Pieces cut into lines

A name and the gap after it stand on one line, and so does what replaces them.  So a text and its
rewriting have the same lines of pieces.  A line and its rewriting begin both inside of a tripled
literal or both outside, are both blank or neither, and differ by the stretches on that line.
-/

namespace Polyglot.Scan

open Text

variable {write : Segment → Bytes} {piece : Piece} {pieces line first last : List Piece}
variable {earlier later : List (List Piece)}

/-! ## Lines of pieces -/

section Cutting

/-- Whether a piece ends a line. -/
def Piece.isBreak (piece : Piece) : Bool := piece.segment = .kept [lineFeed]

/-- The lines that pieces make. -/
def pieceLines (pieces : List Piece) : List (List Piece) := splitAfter (·.isBreak) pieces

theorem Lexed.of_mem (lexed : Lexed pieces) (member : piece ∈ pieces) :
    (∃ byte, piece.segment = .kept [byte]) ∨
      ∃ name literal, piece.segment = .call name literal ∧ IsPhrase name := by
  induction lexed with
  | nil => simp at member
  | @code byte _ isCode isLater ih =>
      rcases List.mem_cons.mp member with rfl | inLater
      · exact .inl ⟨byte, rfl⟩
      · exact ih inLater
  | @skip byte _ _ skipped isLater ih =>
      rcases List.mem_cons.mp member with rfl | inRest
      · exact .inl ⟨byte, rfl⟩
      · rcases List.mem_append.mp inRest with inPassed | inLater
        · have ⟨other, _, isPiece⟩ := List.mem_map.mp inPassed
          rw [← isPiece]
          exact .inl ⟨other, rfl⟩
        · exact ih inLater
  | @call name _ literal isPhrase isLater ih =>
      rcases List.mem_cons.mp member with rfl | inLater
      · exact .inr ⟨name, literal, rfl, isPhrase⟩
      · exact ih inLater

theorem IsPhrase.ne_nil {phrase : Bytes} (isPhrase : IsPhrase phrase) : phrase ≠ [] := by
  have ⟨first, rest, isCons, _⟩ := isPhrase.exists_cons
  rw [isCons]
  exact List.cons_ne_nil first rest

theorem Lexed.written (isWriting : IsWriting write) (lexed : Lexed pieces)
    (member : piece ∈ pieces) :
    Written (· = lineFeed) piece.isBreak (write piece.segment) := by
  rcases lexed.of_mem member with ⟨byte, isKept⟩ | ⟨name, literal, isCall, isPhrase⟩
  · rw [Piece.isBreak, isKept, isWriting.kept]
    by_cases isFeed : byte = lineFeed
    · rw [isFeed]
      exact @Written.line _ _ [] _ (by simp) (by decide)
    · have isOther : decide (Segment.kept [byte] = .kept [lineFeed]) = false := by
        simp [isFeed]
      rw [isOther]
      exact .part (List.cons_ne_nil _ _) (by simp [isFeed])
  · have isWritten := isWriting.call name literal isPhrase
    have isOther : decide (Segment.call name literal = .kept [lineFeed]) = false := by simp
    rw [Piece.isBreak, isCall, isOther]
    apply Written.part isWritten.ne_nil
    intro byte inWritten
    exact decide_eq_false (isWritten.line byte inWritten)

/-- However the names are written, the lines of the text are the texts of the lines. -/
theorem Lexed.lines (isWriting : IsWriting write) (lexed : Lexed pieces) :
    splitAfter (· = lineFeed) (textOf write pieces) =
      (pieceLines pieces).map (textOf write) :=
  splitAfter_flatMap fun _ member => lexed.written isWriting member

theorem flatten_pieceLines (pieces : List Piece) : (pieceLines pieces).flatten = pieces :=
  flatten_splitAfter ..

theorem flatten_textOf (write : Segment → Bytes) (lines : List (List Piece)) :
    (lines.map (textOf write)).flatten = textOf write lines.flatten := by
  induction lines with
  | nil => rfl
  | cons line lines ih =>
      rw [List.map_cons, List.flatten_cons, List.flatten_cons, textOf_append, ih]

end Cutting

/-! ## How lines begin -/

section Beginning

theorem length_insideOf (write : Segment → Bytes) (pieces : List Piece) :
    (insideOf write pieces).length = (textOf write pieces).length := by
  induction pieces with
  | nil => rfl
  | cons piece pieces ih =>
      rw [insideOf, textOf, List.flatMap_cons, List.flatMap_cons, List.length_append,
        List.length_append, List.length_replicate, ← insideOf, ← textOf, ih]

theorem Lexed.isInside_piece (isWriting : IsWriting write)
    (lexed : Lexed (first ++ piece :: last)) :
    isInside (tripleSpans 0 (textOf write (first ++ piece :: last))) (textOf write first).length =
      piece.inside := by
  have nonempty := (lexed.written isWriting (List.mem_append_right first List.mem_cons_self)).ne_nil
  have isLong := List.length_pos_iff.mpr nonempty
  have found : (Scan.tripled (textOf write (first ++ piece :: last)))[
      (textOf write first).length]? = some piece.inside := by
    rw [lexed.tripled isWriting, insideOf, List.flatMap_append, ← insideOf, List.flatMap_cons,
      List.getElem?_append_right (Nat.le_of_eq (length_insideOf ..)), length_insideOf,
      Nat.sub_self, List.getElem?_append_left (by simpa using isLong), List.getElem?_replicate,
      if_pos isLong]
  have isInside := @isInside_tripleSpans _ 0 _ _ found
  rwa [Nat.zero_add] at isInside

/-- However the names are written, a line begins inside of a tripled literal or does not. -/
theorem Lexed.isInside_line (isWriting : IsWriting write) (lexed : Lexed pieces)
    (isSplit : pieceLines pieces = earlier ++ line :: later) :
    isInside (tripleSpans 0 (textOf write pieces)) (textOf write earlier.flatten).length =
      isInside (tripleSpans 0 (textOf (·.source) pieces))
        (textOf (·.source) earlier.flatten).length := by
  have member : line ∈ pieceLines pieces := by simp [isSplit]
  have ⟨ended, isLine⟩ := written_of_mem_splitAfter member
  have ⟨piece, rest, isCons⟩ := List.exists_cons_of_ne_nil isLine.ne_nil
  have isWhole : pieces = earlier.flatten ++ piece :: (rest ++ later.flatten) := by
    rw [← flatten_pieceLines pieces, isSplit, List.flatten_append, List.flatten_cons, isCons,
      List.cons_append]
  rw [isWhole] at lexed ⊢
  rw [lexed.isInside_piece isWriting, lexed.isInside_piece isWriting_source]

end Beginning

/-! ## Blank lines -/

section Blank

theorem ascii_of_isIdentifierByte {byte : UInt8} (isIdentifier : isIdentifierByte byte = true) :
    byte.toNat < 0x80 := by
  simp only [isIdentifierByte, Bool.or_eq_true, Bool.and_eq_true, decide_eq_true_eq,
    UInt8.le_iff_toNat_le] at isIdentifier
  rcases isIdentifier with ((within | within) | within) | rfl
  · exact Nat.lt_of_le_of_lt within.2 (by decide)
  · exact Nat.lt_of_le_of_lt within.2 (by decide)
  · exact Nat.lt_of_le_of_lt within.2 (by decide)
  · decide

/-- A blank text has no quote, and no byte of an identifier. -/
theorem byte_of_isBlankText {bytes : Bytes} {byte : UInt8} (isEncoded : IsEncoded bytes)
    (blank : isBlankText (decode bytes) = true) (member : byte ∈ bytes) :
    Flavour.python.isPlain byte = true ∧ isIdentifierByte byte = false := by
  rw [← isEncoded.encode_decode, encode_eq, List.mem_flatMap] at member
  have ⟨character, inText, inCharacter⟩ := member
  have isBlank := List.all_eq_true.mp blank character inText
  have apart {name : Bytes} (isIdentifier : Flavour.python.IsIdentifier name) :=
    byte_of_isBlank isIdentifier isBlank inCharacter
  constructor
  · exact (@apart (encode "input") (by decide +kernel)).1
  · cases isByte : isIdentifierByte byte with
    | false => rfl
    | true =>
        have isName : Flavour.python.IsIdentifier [byte] :=
          ⟨List.cons_ne_nil _ _, by
            simp [isWordByte_of_isIdentifierByte isByte, ascii_of_isIdentifierByte isByte]⟩
        exact absurd List.mem_cons_self (apart isName).2

theorem IsPhrase.not_isBlankText {phrase bytes : Bytes} (isPhrase : IsPhrase phrase)
    (isEncoded : IsEncoded bytes) (within : ∀ byte ∈ phrase, byte ∈ bytes) :
    isBlankText (decode bytes) = false := by
  have ⟨first, rest, isCons, isFirst⟩ := isPhrase.exists_cons
  cases blank : isBlankText (decode bytes) with
  | false => rfl
  | true =>
      have notFirst :=
        (byte_of_isBlankText isEncoded blank (within first (by simp [isCons]))).2
      rw [isFirst] at notFirst
      contradiction

/-- However the names are written, a line with a name is not blank. -/
theorem Lexed.not_isBlankText {name : Bytes} {literal inside : Bool}
    (isWriting : IsWriting write) (lexed : Lexed pieces)
    (isPiece : ⟨.call name literal, inside⟩ ∈ pieces)
    (isOnLine : ⟨.call name literal, inside⟩ ∈ line)
    (isEncoded : IsEncoded (textOf write line)) :
    isBlankText (decode (textOf write line)) = false := by
  rcases lexed.of_mem isPiece with ⟨byte, isKept⟩ | ⟨other, _, isCall, isPhrase⟩
  · contradiction
  · cases isCall
    apply (isWriting.call name literal isPhrase).not_isBlankText isEncoded
    intro byte member
    exact List.mem_flatMap.mpr ⟨_, isOnLine, member⟩

theorem textOf_eq_source (isWriting : IsWriting write)
    (isKept : ∀ piece ∈ line, ∃ bytes, piece.segment = .kept bytes) :
    textOf write line = textOf (·.source) line := by
  induction line with
  | nil => rfl
  | cons piece line ih =>
      have ⟨bytes, isPiece⟩ := isKept piece List.mem_cons_self
      rw [textOf, textOf, List.flatMap_cons, List.flatMap_cons, isPiece, isWriting.kept, ← textOf,
        ← textOf, ih fun other member => isKept other (List.mem_cons_of_mem _ member)]
      rfl

/-- However the names are written, a line is blank or it is not. -/
theorem Lexed.isBlankText_line (isWriting : IsWriting write) (lexed : Lexed pieces)
    (isLine : line ∈ pieceLines pieces) (isWritten : IsEncoded (textOf write line))
    (isSource : IsEncoded (textOf (·.source) line)) :
    isBlankText (decode (textOf write line)) =
      isBlankText (decode (textOf (·.source) line)) := by
  by_cases isKept : ∀ piece ∈ line, ∃ bytes, piece.segment = .kept bytes
  · rw [textOf_eq_source isWriting isKept]
  · simp only [Classical.not_forall] at isKept
    have ⟨piece, isOnLine, isCall⟩ := isKept
    have isPiece : piece ∈ pieces := by
      rw [← flatten_pieceLines pieces]
      exact List.mem_flatten_of_mem isLine isOnLine
    match piece with
    | ⟨.kept bytes, inside⟩ => exact absurd ⟨bytes, rfl⟩ isCall
    | ⟨.call name literal, inside⟩ =>
        rw [lexed.not_isBlankText isWriting isPiece isOnLine isWritten,
          lexed.not_isBlankText isWriting_source isPiece isOnLine isSource]

end Blank

/-! ## Calls on a line -/

section Calls

/-- Whether a stretch lies between two places. -/
def Stretch.isWithin (start stop : Nat) (stretch : Stretch) : Bool :=
  start ≤ stretch.start && stretch.stop ≤ stop

/-- The calls among pieces that come after `position` bytes. -/
def callsOf (position : Nat) (pieces : List Piece) : List Stretch :=
  (Segment.calls position (pieces.map (·.segment))).map Prod.fst

theorem flatMap_segments (pieces : List Piece) :
    (pieces.map (·.segment)).flatMap (·.source) = textOf (·.source) pieces := by
  rw [textOf, List.flatMap_map]

theorem callsOf_append (position : Nat) (first second : List Piece) :
    callsOf position (first ++ second) =
      callsOf position first ++ callsOf (position + (textOf (·.source) first).length) second := by
  rw [callsOf, List.map_append, calls_append, List.map_append, flatMap_segments, callsOf, callsOf]

theorem stretch_of_mem_callsOf {position : Nat} {stretch : Stretch}
    (named : ∀ piece ∈ pieces, piece.segment.source ≠ [])
    (member : stretch ∈ callsOf position pieces) :
    position ≤ stretch.start ∧ stretch.start < stretch.stop ∧
      stretch.stop ≤ position + (textOf (·.source) pieces).length := by
  induction pieces generalizing position with
  | nil => simp [callsOf, Segment.calls] at member
  | cons piece pieces ih =>
      have isLong := List.length_pos_iff.mpr (named piece List.mem_cons_self)
      have isWhole : (textOf (·.source) (piece :: pieces)).length =
          piece.segment.source.length + (textOf (·.source) pieces).length := by
        rw [textOf, List.flatMap_cons, List.length_append, textOf]
      rw [← List.singleton_append, callsOf_append] at member
      rcases List.mem_append.mp member with isFirst | inLater
      · obtain ⟨segment, inside⟩ := piece
        cases segment with
        | kept bytes => simp [callsOf, Segment.calls] at isFirst
        | call name literal =>
            have isStretch : stretch = ⟨position, position + name.length⟩ := by
              simpa [callsOf, Segment.calls] using isFirst
            rw [isStretch]
            simp only [Segment.source] at isLong isWhole ⊢
            omega
      · have isFirst : textOf (·.source) [piece] = piece.segment.source := by simp [textOf]
        have further :=
          ih (fun other isOther => named other (List.mem_cons_of_mem _ isOther)) inLater
        rw [isFirst] at further
        rw [isWhole]
        omega

theorem Lexed.named (lexed : Lexed pieces) : ∀ piece ∈ pieces, piece.segment.source ≠ [] :=
  fun _ member => (lexed.written isWriting_source member).ne_nil

theorem exists_call_of_callsOf {position : Nat} (called : callsOf position pieces ≠ []) :
    ∃ name literal inside, ⟨.call name literal, inside⟩ ∈ pieces := by
  induction pieces generalizing position with
  | nil => contradiction
  | cons piece pieces ih =>
      obtain ⟨segment, inside⟩ := piece
      cases segment with
      | kept bytes =>
          have ⟨name, literal, inside, member⟩ := @ih (position + bytes.length) called
          exact ⟨name, literal, inside, List.mem_cons_of_mem _ member⟩
      | call name literal => exact ⟨name, literal, inside, List.mem_cons_self⟩

/-- The stretches on a part of a text are those of its own calls. -/
theorem filter_callsOf (named : ∀ piece ∈ first ++ line ++ last, piece.segment.source ≠ [])
    {start stop : Nat} (isStart : start = (textOf (·.source) first).length)
    (isStop : stop = start + (textOf (·.source) line).length) :
    (callsOf 0 (first ++ line ++ last)).filter (·.isWithin start stop) = callsOf start line := by
  have isBefore : (callsOf 0 first).filter (·.isWithin start stop) = [] := by
    rw [List.filter_eq_nil_iff]
    intro stretch member
    have within := stretch_of_mem_callsOf (fun piece isFirst => named piece (by simp [isFirst]))
      member
    simp only [Stretch.isWithin, Bool.and_eq_true, decide_eq_true_eq]
    omega
  have isOn : (callsOf start line).filter (·.isWithin start stop) = callsOf start line := by
    rw [List.filter_eq_self]
    intro stretch member
    have within := stretch_of_mem_callsOf (fun piece isOn => named piece (by simp [isOn])) member
    simp only [Stretch.isWithin, Bool.and_eq_true, decide_eq_true_eq]
    omega
  have isAfter : (callsOf stop last).filter (·.isWithin start stop) = [] := by
    rw [List.filter_eq_nil_iff]
    intro stretch member
    have within := stretch_of_mem_callsOf (fun piece isLast => named piece (by simp [isLast]))
      member
    simp only [Stretch.isWithin, Bool.and_eq_true, decide_eq_true_eq]
    omega
  rw [callsOf_append, callsOf_append, textOf_append, List.length_append, Nat.zero_add, ← isStart,
    Nat.zero_add, ← isStop, List.filter_append, List.filter_append, isBefore, isOn, isAfter,
    List.nil_append, List.append_nil]

/-- A line is rewritten by replacing the stretches that lie on it. -/
theorem Lexed.rewritten_line (lexed : Lexed pieces) (value : Bytes)
    (isSplit : pieceLines pieces = earlier ++ line :: later)
    {start : Nat} (isStart : start = (textOf (·.source) earlier.flatten).length) :
    textOf (·.rewritten value) line =
      splice (encode "await " ++ value) start
        ((callsOf 0 pieces).filter
          (·.isWithin start (start + (textOf (·.source) line).length)))
        (textOf (·.source) line) := by
  have isWhole : pieces = earlier.flatten ++ line ++ later.flatten := by
    rw [← flatten_pieceLines pieces, isSplit, List.flatten_append, List.flatten_cons,
      List.append_assoc]
  have named := lexed.named
  rw [isWhole] at named ⊢
  rw [filter_callsOf named isStart rfl, callsOf, ← flatMap_segments, ← flatMap_rewritten, textOf,
    List.flatMap_map]

/-- Every call stands on one of the lines. -/
theorem exists_line_of_call {position : Nat} {lines : List (List Piece)} {stretch : Stretch}
    (named : ∀ piece ∈ lines.flatten, piece.segment.source ≠ [])
    (member : stretch ∈ callsOf position lines.flatten) :
    ∃ earlier line later, lines = earlier ++ line :: later ∧
      position + (textOf (·.source) earlier.flatten).length ≤ stretch.start ∧
      stretch.stop ≤ position + (textOf (·.source) earlier.flatten).length +
        (textOf (·.source) line).length := by
  induction lines generalizing position with
  | nil => simp [callsOf, Segment.calls] at member
  | cons line lines ih =>
      rw [List.flatten_cons] at named member
      rw [callsOf_append] at member
      rcases List.mem_append.mp member with isFirst | inLater
      · have within := stretch_of_mem_callsOf
          (fun piece isPiece => named piece (List.mem_append_left _ isPiece)) isFirst
        exact ⟨[], line, lines, rfl, by simpa [textOf] using within.1,
          by simpa [textOf] using within.2.2⟩
      · obtain ⟨earlier, found, later, isSplit, isStart, isStop⟩ :=
          ih (fun piece isPiece => named piece (List.mem_append_right _ isPiece)) inLater
        refine ⟨line :: earlier, found, later, by rw [isSplit, List.cons_append], ?_, ?_⟩
        · rw [List.flatten_cons, textOf_append, List.length_append, ← Nat.add_assoc]
          exact isStart
        · rw [List.flatten_cons, textOf_append, List.length_append, ← Nat.add_assoc]
          exact isStop

end Calls

end Polyglot.Scan
