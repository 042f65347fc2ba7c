import Polyglot.Proofs.Scan.Lines
import Polyglot.Scan.Submission

/-!
# Lines of prepared code

Code that reads input is rewritten, then wrapped.  The wrapping looks for tripled literals in the
rewritten text, but what it makes of a line is said here in terms of the line that was submitted:
it is the next line of the prepared code, and only the calls on it have changed.  Errors of an
interpreter are reported for the line before the one it names, so they are reported for the line
that was submitted.
-/

namespace Polyglot.Scan

open Text

variable {spans : List (Nat × Nat)} {offset : Nat} {line : Bytes} {lines : List Bytes}

/-! ## Lines as they are carried -/

section Carrying

theorem written_endLine {ended : Bool}
    (isLine : Written (· = lineFeed) ended line) :
    Written (· = lineFeed) true (endLine line) := by
  cases isLine with
  | @line body last isBody isLast =>
      have isFeed := of_decide_eq_true isLast
      rw [endLine, List.getLast?_concat, if_pos (congrArg some isFeed)]
      exact .line isBody isLast
  | part nonempty isBody =>
      rw [endLine, if_neg]
      · exact .line isBody (decide_eq_true rfl)
      · intro isLast
        have notFeed := isBody lineFeed (List.mem_of_getLast? isLast)
        exact absurd notFeed (by decide)

/-- A line is carried as one line, which has its end. -/
theorem written_carry {ended : Bool} (how : Carriage)
    (isLine : Written (· = lineFeed) ended line) :
    Written (· = lineFeed) true (carry line how) := by
  cases how with
  | verbatim => exact written_endLine isLine
  | emptied => exact @Written.line _ _ [] _ (by simp) (by decide)
  | indented => exact (written_endLine isLine).append (by decide +kernel)

theorem isEncoded_carry (how : Carriage) (isEncoded : IsEncoded line) :
    IsEncoded (carry line how) := by
  have isFeed : IsEncoded [lineFeed] := ⟨"\n", by decide +kernel⟩
  have isEnded : IsEncoded (endLine line) := by
    rw [endLine]
    split
    · exact isEncoded
    · exact isEncoded.append isFeed
  cases how with
  | verbatim => exact isEnded
  | emptied => exact isFeed
  | indented => exact (isEncoded_encode _).append isEnded

theorem carriage_eq (spans : List (Nat × Nat)) (offset : Nat) (line : Bytes) :
    carriage spans offset line =
      if isInside spans offset then .verbatim
      else if isBlankText (decode line) then .emptied
      else .indented := rfl

theorem carriages_append (spans : List (Nat × Nat)) (offset : Nat) (first second : List Bytes) :
    carriages spans offset (first ++ second) =
      carriages spans offset first ++ carriages spans (offset + first.flatten.length) second := by
  induction first generalizing offset with
  | nil => rfl
  | cons line first ih =>
      rw [List.cons_append, carriages, carriages, ih, List.flatten_cons, List.length_append,
        Nat.add_assoc, List.cons_append]

theorem length_carriages (spans : List (Nat × Nat)) (offset : Nat) (lines : List Bytes) :
    (carriages spans offset lines).length = lines.length := by
  induction lines generalizing offset with
  | nil => rfl
  | cons line lines ih => rw [carriages, List.length_cons, ih, List.length_cons]

theorem of_mem_carriages {carried : Bytes × Carriage}
    (member : carried ∈ carriages spans offset lines) : carried.1 ∈ lines := by
  induction lines generalizing offset with
  | nil => simp [carriages] at member
  | cons line lines ih =>
      rcases List.mem_cons.mp member with rfl | inRest
      · exact List.mem_cons_self
      · exact List.mem_cons_of_mem _ (ih inRest)

/-- The line after some others is carried in its own way. -/
theorem getElem?_carriages (spans : List (Nat × Nat)) (offset : Nat) (first second : List Bytes)
    (line : Bytes) :
    (carriages spans offset (first ++ line :: second))[first.length]? =
      some (line, carriage spans (offset + first.flatten.length) line) := by
  rw [carriages_append, List.getElem?_append_right (Nat.le_of_eq (length_carriages ..)),
    length_carriages, Nat.sub_self]
  rfl

end Carrying

/-! ## Lines that are not blank -/

section Indented

theorem length_tripled (bytes : Bytes) : (tripled bytes).length = bytes.length := by
  fun_induction tripled bytes with
  | case1 => rfl
  | case2 byte rest isCode ih => rw [List.length_cons, ih, List.length_cons]
  | case3 byte rest after skipped ih =>
      have shorter := length_skip?_le skipped
      rw [List.length_cons, List.length_append, List.length_replicate, ih, List.length_cons]
      omega

/-- The first line that is not blank begins outside of tripled literals. -/
theorem isInside_first {first second : List Bytes} {bytes : Bytes}
    (isSplit : bytes = (first ++ line :: second).flatten) (nonempty : line ≠ [])
    (isBlank : ∀ blank ∈ first, IsEncoded blank ∧ isBlankText (decode blank) = true) :
    isInside (tripleSpans 0 bytes) first.flatten.length = false := by
  have isWhole : bytes = first.flatten ++ (line ++ second.flatten) := by
    rw [isSplit, List.flatten_append, List.flatten_cons]
  have within : first.flatten.length < (tripled bytes).length := by
    have isLong := List.length_pos_iff.mpr nonempty
    rw [length_tripled, isWhole, List.length_append, List.length_append]
    omega
  have found := List.getElem?_eq_getElem within
  have isInside := @isInside_tripleSpans _ 0 _ _ found
  rw [Nat.zero_add] at isInside
  rw [isInside]
  cases flag : (tripled bytes)[first.flatten.length] with
  | false => rfl
  | true =>
      -- A quote would stand before it, on a blank line.
      rw [flag] at found
      have ⟨quote, member, isQuote⟩ := quote_of_tripled found
      rw [isWhole, List.take_left] at member
      have ⟨blank, isFirst, inBlank⟩ := List.mem_flatten.mp member
      have ⟨isEncoded, blankText⟩ := isBlank blank isFirst
      have isPlain := (byte_of_isBlankText isEncoded blankText inBlank).1
      simp [Flavour.isPlain, isQuote] at isPlain

/-- Lines that are not all blank need no statement of their own. -/
theorem exists_indented {bytes : Bytes} (isSplit : bytes = lines.flatten)
    (isLine : ∀ line ∈ lines, line ≠ [] ∧ IsEncoded line)
    (written : ∃ line ∈ lines, isBlankText (decode line) = false) :
    (carriages (tripleSpans 0 bytes) 0 lines).any (fun (_, how) => how = .indented) = true := by
  have isFound : (lines.find? fun line => !isBlankText (decode line)).isSome = true := by
    simpa [List.find?_isSome] using written
  have ⟨line, isLineFound⟩ := Option.isSome_iff_exists.mp isFound
  have ⟨notBlank, first, second, isWhole, isBlank⟩ := List.find?_eq_some_iff_append.mp isLineFound
  rw [isWhole] at isSplit isLine ⊢
  have isOutside := isInside_first isSplit (isLine line (by simp)).1 fun blank member =>
    ⟨(isLine blank (List.mem_append_left _ member)).2, by simpa using isBlank blank member⟩
  have isCarried : carriage (tripleSpans 0 bytes) first.flatten.length line = .indented := by
    rw [carriage_eq, isOutside, if_neg Bool.false_ne_true, if_neg (by simpa using notBlank)]
  rw [carriages_append, List.any_append, Nat.zero_add, carriages, isCarried, List.any_cons]
  simp

end Indented

/-! ## Wrapped code -/

section Wrapped

/-- The lines of a text, each with the line feed that ends it. -/
def linesOf (text : String) : List Bytes := splitAfter (· = lineFeed) (encode text)

/-- The first line of prepared code. -/
def header : Bytes := encode "async def __runnr_main__():\n"

theorem written_header : Written (· = lineFeed) true header := by
  have isWhole : header = encode "async def __runnr_main__():" ++ [lineFeed] := by decide +kernel
  rw [isWhole]
  exact .line (by decide +kernel) (by decide)

theorem isEncoded_of_mem_linesOf {text : String} (member : line ∈ linesOf text) :
    IsEncoded line :=
  isEncoded_of_mem_splitAfter member

theorem of_mem_carried {text : String} {carried : Bytes}
    (member : carried ∈ (carriages spans offset (linesOf text)).map
      fun (line, how) => carry line how) :
    Written (· = lineFeed) true carried ∧ IsEncoded carried := by
  have ⟨(line, how), isCarried, isText⟩ := List.mem_map.mp member
  have inLines := of_mem_carriages isCarried
  have ⟨ended, isWritten⟩ := written_of_mem_splitAfter inLines
  rw [← isText]
  exact ⟨written_carry how isWritten, isEncoded_carry how (isEncoded_of_mem_linesOf inLines)⟩

/-- Wrapped code has the header and then one line for every line. -/
theorem linesOf_wrapAsync {code : String}
    (written : ∃ line ∈ linesOf code, isBlankText (decode line) = false) :
    linesOf (wrapAsync entryName code) =
      header :: (carriages (tripleSpans 0 (encode code)) 0 (linesOf code)).map
        fun (line, how) => carry line how := by
  have isLine : ∀ line ∈ linesOf code, line ≠ [] ∧ IsEncoded line := by
    intro line member
    have ⟨ended, isWritten⟩ := written_of_mem_splitAfter member
    exact ⟨isWritten.ne_nil, isEncoded_of_mem_linesOf member⟩
  have isSplit : encode code = (linesOf code).flatten := (flatten_splitAfter ..).symm
  have isHeader : encode s!"async def {entryName}():\n" = header := by decide +kernel
  have isBody : body (carriages (tripleSpans 0 (encode code)) 0 (linesOf code)) =
      ((carriages (tripleSpans 0 (encode code)) 0 (linesOf code)).map
        fun (line, how) => carry line how).flatten := by
    rw [body, exists_indented isSplit isLine written, if_pos rfl, List.append_nil, List.flatMap]
  have isEncoded : IsEncoded (header ++ body
      (carriages (tripleSpans 0 (encode code)) 0 (linesOf code))) := by
    rw [isBody]
    exact (isEncoded_encode _).append
      (isEncoded_flatten fun carried member => (of_mem_carried member).2)
  have isText : encode (wrapAsync entryName code) =
      header ++ body (carriages (tripleSpans 0 (encode code)) 0 (linesOf code)) := by
    rw [wrapAsync, isHeader]
    exact isEncoded.encode_decode
  rw [linesOf, isText, isBody, ← List.flatten_cons]
  apply splitAfter_flatten
  intro carried member
  rcases List.mem_cons.mp member with rfl | isCarried
  · exact written_header
  · exact (of_mem_carried isCarried).1

end Wrapped

/-! ## Prepared code -/

section Prepared

/-- The bare calls with which code reads input. -/
def inputSites (code : String) : List Site := sites .python (encode "input") [] (encode code)

/-- The number of bytes before a line. -/
def lineStart (code : String) (index : Nat) : Nat := ((linesOf code).take index).flatten.length

/-- What a line of code becomes.  The calls that lie on the line are awaited.  A line that begins
strictly inside a tripled literal gets nothing before it, a blank line becomes empty, and any other
line is indented. -/
def preparedLine (code : String) (index : Nat) (line : Bytes) : Bytes :=
  let start := lineStart code index
  let stretches := (inputSites code).map (·.toStretch)
  let changed := splice (encode "await async_input") start
    (stretches.filter (·.isWithin start (start + line.length))) line
  if isInside (tripleSpans 0 (encode code)) start then endLine changed
  else if isBlankText (decode line) then [lineFeed]
  else encode "    " ++ endLine changed

/-- Code in which the lines of other code are found again, each one line further on. -/
structure KeepsLines (code prepared : String) : Prop where
  /-- There is one line more; no statement is added. -/
  length : (linesOf prepared).length = (linesOf code).length + 1
  /-- It is the header. -/
  header : (linesOf prepared)[0]? = some (encode "async def __runnr_main__():\n")
  /-- Every other line comes from the line before it. -/
  line : ∀ (index : Nat) (line : Bytes), (linesOf code)[index]? = some line →
    (linesOf prepared)[index + 1]? = some (preparedLine code index line)
  /-- What has changed in it are the calls on it, for every call lies on one line. -/
  apart : ∀ site ∈ inputSites code, ∃ (index : Nat) (line : Bytes),
    (linesOf code)[index]? = some line ∧
      site.isWithin (lineStart code index) (lineStart code index + line.length) = true

/-- What stands at an index has as many before it. -/
theorem exists_split {α : Type} {elements : List α} {index : Nat} {element : α}
    (found : elements[index]? = some element) :
    ∃ earlier later, elements = earlier ++ element :: later ∧ earlier.length = index := by
  have ⟨within, isElement⟩ := List.getElem?_eq_some_iff.mp found
  refine ⟨elements.take index, elements.drop (index + 1), ?_, ?_⟩
  · rw [← isElement, ← List.drop_eq_getElem_cons within, List.take_append_drop]
  · rw [List.length_take_of_le (Nat.le_of_lt within)]

/-- How the pieces of code that reads input are written when its calls are awaited. -/
abbrev awaited (segment : Segment) : Bytes := segment.rewritten (encode "async_input")

/-- The rewriting of code that reads input. -/
abbrev awaiting (code : String) : Rewriting := rewriteCalls .python "input" "async_input" code

/-- Code and its rewriting are the same pieces, with the calls written in two ways. -/
structure IsCut (code : String) (pieces : List Piece) : Prop where
  lexed : Lexed pieces
  source : textOf (·.source) pieces = encode code
  rewritten : textOf awaited pieces = encode (awaiting code).code
  calls : callsOf 0 pieces = (inputSites code).map (·.toStretch)

variable {code : String} {pieces piecesOn : List Piece} {earlier later : List (List Piece)}

theorem isIdentifier_input : Flavour.python.IsIdentifier (encode "input") := by decide +kernel

theorem isWriting_awaited : IsWriting awaited := by
  apply isWriting_rewritten
  constructor
  case head => decide +kernel
  case plain => exact List.all_eq_true.mp (by decide +kernel)
  case line =>
    have each : (encode "await " ++ encode "async_input").all (· ≠ lineFeed) = true := by
      decide +kernel
    exact fun byte member => of_decide_eq_true (List.all_eq_true.mp each byte member)

theorem exists_isCut (code : String) : ∃ pieces, IsCut code pieces := by
  have ⟨pieces, reads⟩ := exists_reads isIdentifier_input [] (encode code)
  have isCalls : callsOf 0 pieces = (inputSites code).map (·.toStretch) := by
    rw [callsOf, ← List.length_nil, reads.calls, List.map_map]
    rfl
  refine ⟨pieces, reads.lexed, reads.text, ?_, isCalls⟩
  rw [encode_rewriteCalls isIdentifier_input, ← inputSites, ← isCalls, ← reads.text, callsOf,
    ← flatMap_segments, ← flatMap_rewritten, textOf, List.flatMap_map]

theorem IsCut.linesOf_code (isCut : IsCut code pieces) :
    linesOf code = (pieceLines pieces).map (textOf (·.source)) := by
  rw [linesOf, ← isCut.source]
  exact isCut.lexed.lines isWriting_source

theorem IsCut.linesOf_awaiting (isCut : IsCut code pieces) :
    linesOf (awaiting code).code = (pieceLines pieces).map (textOf awaited) := by
  rw [linesOf, ← isCut.rewritten]
  exact isCut.lexed.lines isWriting_awaited

theorem IsCut.lineStart (isCut : IsCut code pieces)
    (isSplit : pieceLines pieces = earlier ++ piecesOn :: later) :
    lineStart code earlier.length = (textOf (·.source) earlier.flatten).length := by
  rw [Scan.lineStart, isCut.linesOf_code, isSplit, List.map_append, List.take_append_of_le_length,
    List.take_of_length_le, flatten_textOf]
  · simp
  · simp

/-- A line of the rewriting is carried as what its line of the code becomes. -/
theorem IsCut.carry_line (isCut : IsCut code pieces)
    (isSplit : pieceLines pieces = earlier ++ piecesOn :: later) :
    carry (textOf awaited piecesOn)
        (carriage (tripleSpans 0 (encode (awaiting code).code))
          (textOf awaited earlier.flatten).length (textOf awaited piecesOn)) =
      preparedLine code earlier.length (textOf (·.source) piecesOn) := by
  have member : piecesOn ∈ pieceLines pieces := by simp [isSplit]
  have isSource : IsEncoded (textOf (·.source) piecesOn) := by
    apply @isEncoded_of_mem_linesOf _ code
    rw [isCut.linesOf_code]
    exact List.mem_map_of_mem member
  have isRewritten : IsEncoded (textOf awaited piecesOn) := by
    apply @isEncoded_of_mem_linesOf _ (awaiting code).code
    rw [isCut.linesOf_awaiting]
    exact List.mem_map_of_mem member
  have sameInside := isCut.lexed.isInside_line isWriting_awaited isSplit
  have sameBlank := isCut.lexed.isBlankText_line isWriting_awaited member isRewritten isSource
  have isAwaited := isCut.lexed.rewritten_line (encode "async_input") isSplit rfl
  have isValue : encode "await async_input" = encode "await " ++ encode "async_input" := by
    decide +kernel
  rw [isCut.source, isCut.rewritten, ← isCut.lineStart isSplit] at sameInside
  rw [← isCut.lineStart isSplit, isCut.calls, ← isValue] at isAwaited
  rw [carriage_eq, sameInside, sameBlank, preparedLine, ← isAwaited]
  split
  · rfl
  · split
    · rfl
    · rfl

theorem IsCut.exists_written (isCut : IsCut code pieces) (reads : inputSites code ≠ []) :
    ∃ line ∈ linesOf (awaiting code).code, isBlankText (decode line) = false := by
  have called : callsOf 0 pieces ≠ [] := by
    rw [isCut.calls]
    simpa using reads
  have ⟨name, literal, inside, isPiece⟩ := exists_call_of_callsOf called
  have isOnLine := isPiece
  rw [← flatten_pieceLines pieces] at isOnLine
  have ⟨line, isLine, isOnLine⟩ := List.mem_flatten.mp isOnLine
  have member : textOf awaited line ∈ linesOf (awaiting code).code := by
    rw [isCut.linesOf_awaiting]
    exact List.mem_map_of_mem isLine
  exact ⟨_, member, isCut.lexed.not_isBlankText isWriting_awaited isPiece isOnLine
    (isEncoded_of_mem_linesOf member)⟩

/-- Every call lies on one line. -/
theorem IsCut.exists_line (isCut : IsCut code pieces) {site : Site}
    (member : site ∈ inputSites code) :
    ∃ (index : Nat) (line : Bytes), (linesOf code)[index]? = some line ∧
      site.isWithin (Scan.lineStart code index) (Scan.lineStart code index + line.length) =
        true := by
  have isCall : site.toStretch ∈ callsOf 0 (pieceLines pieces).flatten := by
    rw [flatten_pieceLines, isCut.calls]
    exact List.mem_map_of_mem member
  have named : ∀ piece ∈ (pieceLines pieces).flatten, piece.segment.source ≠ [] := by
    rw [flatten_pieceLines]
    exact isCut.lexed.named
  have ⟨earlier, piecesOn, later, isSplit, isStart, isStop⟩ := exists_line_of_call named isCall
  refine ⟨earlier.length, textOf (·.source) piecesOn, ?_, ?_⟩
  · rw [isCut.linesOf_code, isSplit]
    simp
  · rw [isCut.lineStart isSplit, Stretch.isWithin]
    simp only [Bool.and_eq_true, decide_eq_true_eq]
    omega

theorem keepsLines_wrapAsync (reads : inputSites code ≠ []) :
    KeepsLines code (wrapAsync entryName (awaiting code).code) := by
  have ⟨pieces, isCut⟩ := exists_isCut code
  have isWrapped := linesOf_wrapAsync (isCut.exists_written reads)
  constructor
  case length =>
    rw [isWrapped, List.length_cons, List.length_map, length_carriages, isCut.linesOf_awaiting,
      isCut.linesOf_code, List.length_map, List.length_map]
  case header => rw [isWrapped, List.getElem?_cons_zero, header]
  case line =>
    intro index line isLine
    rw [isCut.linesOf_code, List.getElem?_map, Option.map_eq_some_iff] at isLine
    have ⟨piecesOn, isOn, isText⟩ := isLine
    have ⟨earlier, later, isSplit, isIndex⟩ := exists_split isOn
    rw [isWrapped, List.getElem?_cons_succ, List.getElem?_map, isCut.linesOf_awaiting, isSplit,
      List.map_append, List.map_cons, ← isIndex, ← isText]
    have atIndex := getElem?_carriages (tripleSpans 0 (encode (awaiting code).code)) 0
      (earlier.map (textOf awaited)) (later.map (textOf awaited)) (textOf awaited piecesOn)
    rw [List.length_map] at atIndex
    rw [atIndex, Option.map_some, flatten_textOf, Nat.zero_add]
    exact congrArg some (isCut.carry_line isSplit)
  case apart => exact fun site member => isCut.exists_line member

/-- Code that reads no input runs as it is written.  In all other code the lines that were
submitted are found again, each one line further on. -/
theorem prepareRun_keepsLines (code : String) :
    if inputSites code = [] then prepareRun code = .run code .sync (scanImports code)
    else ∃ prepared, prepareRun code = .run prepared .async (scanImports code) ∧
      KeepsLines code prepared := by
  have isTotal := total_rewriteCalls isIdentifier_input "async_input" code
  rw [← inputSites] at isTotal
  split
  · rename_i silent
    rw [prepareRun, Rewriting.changed, isTotal, silent]
    rfl
  · rename_i reads
    refine ⟨_, ?_, keepsLines_wrapAsync reads⟩
    rw [prepareRun, Rewriting.changed, isTotal,
      if_pos (decide_eq_true (List.length_pos_iff.mpr reads))]

/-- The second line is part of a literal, the third one is blank, the last one has no end. -/
example : prepareRun "s = '''\n t'''\n\t\nn = int(input())" =
    .run "async def __runnr_main__():\n    s = '''\n t'''\n\n    n = int(await async_input())\n"
      .async [] := by
  decide +kernel

end Prepared

end Polyglot.Scan
