import Polyglot.Proofs.Scan.Cursor.Reading
import Polyglot.Proofs.Scan.Enclosed

/-!
# Literals and comments by places

The scans of literals and comments move by one byte, by two after a backslash, to the end of a line
and to the end of a literal.  They can pass the end of the text by one place, and then read nothing
more.
-/

namespace Polyglot.Scan.Cursor

open Text

/-- The place of what is left of a text. -/
def placeOf (bytes after : Bytes) : Nat := bytes.length - after.length

/-- The end of a scan for the end of a literal. -/
structure LiteralStop where
  /-- The place of what follows the literal. -/
  stop : Nat
  /-- Whether the closing quote was found. -/
  terminated : Bool
  deriving Repr, DecidableEq

/-- A step of the scan of the inside of a literal between tripled quotes. -/
def tripleStep (quote : UInt8) (bytes : Bytes) (place : Nat) :
    Except Fault (Step Nat LiteralStop) := do
  let byte ← byteAt bytes place
  if byte = backslash then return .goOn (place + 2)
  else if [quote, quote, quote].isPrefixOf (← bytesFrom bytes place) then
    return .stop ⟨place + 3, true⟩
  else return .goOn (place + 1)

/-- A step of the scan of the inside of a literal between single quotes. -/
def shortStep (quote : UInt8) (bytes : Bytes) (place : Nat) :
    Except Fault (Step Nat LiteralStop) := do
  let byte ← byteAt bytes place
  if byte = backslash then return .goOn (place + 2)
  else if byte = lineFeed && quote ≠ backTick then return .stop ⟨place, false⟩
  else if byte = quote then return .stop ⟨place + 1, true⟩
  else return .goOn (place + 1)

/-- Scans the literal that begins at a place. -/
def literalAt (flavour : Flavour) (bytes : Bytes) (start : Nat) : Except Fault LiteralStop := do
  let quote ← byteAt bytes start
  let unended (_ : Nat) : Except Fault LiteralStop := .ok ⟨bytes.length, false⟩
  if flavour = .python && [quote, quote, quote].isPrefixOf (← bytesFrom bytes start) then
    loop bytes id (tripleStep quote bytes) unended (start + 3)
  else loop bytes id (shortStep quote bytes) unended (start + 1)

/-- The place of the next line feed, or the end of the text. -/
def lineEndAt (bytes : Bytes) (start : Nat) : Except Fault Nat := do
  let here ← bytesFrom bytes start
  return (find? (·.head? = some lineFeed) here).elim bytes.length (start + ·)

/-- The place where a pattern stands next. -/
def patternAt? (pattern bytes : Bytes) (start : Nat) : Option Nat :=
  if start ≤ bytes.length then
    (find? (pattern.isPrefixOf ·) (bytes.drop start)).map (start + ·)
  else none

/-- If a literal or comment begins at a place, the place of what follows it. -/
def skipAt (flavour : Flavour) (bytes : Bytes) (start : Nat) : Except Fault (Option Nat) := do
  let byte ← byteAt bytes start
  if flavour.isQuote byte then return some (← literalAt flavour bytes start).stop
  else
    match flavour with
    | .javaScript =>
      if byte = ascii '/' then
        match bytes[start + 1]? with
        | none => return none
        | some next =>
          if next = ascii '/' then return some (← lineEndAt bytes start)
          else if next = ascii '*' then
            let found := patternAt? [ascii '*', ascii '/'] bytes (start + 2)
            return some ((found.map (· + 2)).getD bytes.length)
          else return none
      else return none
    | .python => if byte = ascii '#' then return some (← lineEndAt bytes start) else return none

variable {flavour : Flavour} {bytes rest after : Bytes} {byte quote : UInt8} {place start : Nat}

/-! ## Places and what follows them -/

section Places

theorem placeOf_drop (inside : place ≤ bytes.length) :
    placeOf bytes (bytes.drop place) = place := by
  rw [placeOf, List.length_drop]
  omega

theorem placeOf_le (bytes after : Bytes) : placeOf bytes after ≤ bytes.length := Nat.sub_le ..

theorem drop_placeOf (isAfter : after <:+ bytes) : bytes.drop (placeOf bytes after) = after := by
  obtain ⟨passed, rfl⟩ := isAfter
  have isPlace : placeOf (passed ++ after) after = passed.length := by simp [placeOf]
  rw [isPlace, List.drop_left]

/-- What was scanned from the byte at a place on is behind the place. -/
theorem lt_placeOf (here : bytes.drop place = byte :: rest) (shorter : after.length ≤ rest.length) :
    place < placeOf bytes after := by
  have whole := congrArg List.length here
  simp only [List.length_drop, List.length_cons] at whole
  rw [placeOf]
  omega

end Places

/-! ## Literals -/

section Literals

/-- The end of a literal, by its place. -/
def LiteralStop.of (bytes : Bytes) (found : LiteralEnd) : LiteralStop :=
  ⟨placeOf bytes found.rest, found.terminated⟩

theorem scanShort_escaped (quote : UInt8) (bytes : Bytes) :
    scanShort quote true bytes = scanShort quote false (bytes.drop 1) := by
  cases bytes <;> simp [scanShort]

theorem scanTriple_escaped (quote : UInt8) (bytes : Bytes) :
    scanTriple quote true bytes = scanTriple quote false (bytes.drop 1) := by
  cases bytes <;> simp [scanTriple]

/-- Wherever the scan stands inside of a literal, also behind the end of the text, it ends where
the literal does. -/
theorem loop_shortStep (quote : UInt8) (bytes : Bytes) (place : Nat) :
    loop bytes id (shortStep quote bytes) (fun _ => .ok ⟨bytes.length, false⟩) place =
      .ok (.of bytes (scanShort quote false (bytes.drop place))) := by
  refine loop_eq (fun _ => True)
    (fun place => LiteralStop.of bytes (scanShort quote false (bytes.drop place))) ?_ ?_ trivial
  · intro place _ (atEnd : bytes.length ≤ place)
    rw [List.drop_eq_nil_of_le atEnd]
    rfl
  · intro place _ (inside : place < bytes.length)
    obtain ⟨byte, here⟩ := exists_here inside
    have isPlace := placeOf_drop (Nat.le_of_lt inside)
    rw [shortStep, byteAt_eq here, ok_bind]
    split
    · rename_i isEscape
      refine .goOn (by simp) trivial ?_
      rw [here, scanShort, if_pos isEscape, scanShort_escaped, List.drop_drop]
    · rename_i notEscape
      split
      · rename_i atLineEnd
        refine .stop ?_
        rw [here] at isPlace
        rw [here, scanShort, if_neg notEscape, if_pos atLineEnd, LiteralStop.of, isPlace]
      · rename_i onLine
        split
        · rename_i isQuote
          refine .stop ?_
          rw [here, scanShort, if_neg notEscape, if_neg onLine, if_pos isQuote, LiteralStop.of,
            placeOf_drop inside]
        · rename_i notQuote
          refine .goOn (Nat.lt_succ_self place) trivial ?_
          rw [here, scanShort, if_neg notEscape, if_neg onLine, if_neg notQuote]

theorem loop_tripleStep (quote : UInt8) (bytes : Bytes) (place : Nat) :
    loop bytes id (tripleStep quote bytes) (fun _ => .ok ⟨bytes.length, false⟩) place =
      .ok (.of bytes (scanTriple quote false (bytes.drop place))) := by
  refine loop_eq (fun _ => True)
    (fun place => LiteralStop.of bytes (scanTriple quote false (bytes.drop place))) ?_ ?_ trivial
  · intro place _ (atEnd : bytes.length ≤ place)
    rw [List.drop_eq_nil_of_le atEnd]
    rfl
  · intro place _ (inside : place < bytes.length)
    obtain ⟨byte, here⟩ := exists_here inside
    rw [tripleStep, byteAt_eq here, ok_bind]
    split
    · rename_i isEscape
      refine .goOn (by simp) trivial ?_
      rw [here, scanTriple, if_pos isEscape, scanTriple_escaped, List.drop_drop]
    · rename_i notEscape
      rw [bytesFrom_eq (Nat.le_of_lt inside), ok_bind, here]
      split
      · rename_i closes
        refine .stop ?_
        have fits : place + 3 ≤ bytes.length := by
          have short := length_le_of_isPrefixOf closes
          rw [← here, List.length_drop] at short
          simp only [List.length_cons, List.length_nil] at short
          omega
        rw [here, scanTriple, if_neg notEscape, if_pos closes, LiteralStop.of, List.drop_drop,
          Nat.add_assoc, placeOf_drop fits]
      · rename_i notClosing
        refine .goOn (Nat.lt_succ_self place) trivial ?_
        rw [here, scanTriple, if_neg notEscape, if_neg notClosing]

/-- A literal is scanned without a fault. -/
theorem literalAt_eq (here : bytes.drop start = quote :: rest) :
    literalAt flavour bytes start = .ok (.of bytes (scanLiteral flavour quote rest)) := by
  have inside := Nat.le_of_lt (lt_of_drop_eq_cons here)
  have isRest := drop_succ here
  have opens : (decide (flavour = .python) && [quote, quote, quote].isPrefixOf (quote :: rest)) =
      opensTriple flavour quote rest := by
    simp [opensTriple, List.isPrefixOf]
  rw [literalAt, byteAt_eq here, ok_bind, bytesFrom_eq inside, ok_bind, here, opens, scanLiteral]
  split
  · have isInside : bytes.drop (start + 3) = rest.drop 2 := by rw [← isRest, List.drop_drop]
    rw [loop_tripleStep, isInside]
  · rw [loop_shortStep, isRest]

end Literals

/-! ## Comments -/

section Comments

theorem find?_lineFeed (bytes : Bytes) :
    (find? (·.head? = some lineFeed) bytes).getD bytes.length =
      placeOf bytes (fromLineFeed bytes) := by
  induction bytes with
  | nil => rfl
  | cons byte rest ih =>
      by_cases isFeed : byte = lineFeed
      · simp [find?, fromLineFeed_cons, isFeed, placeOf]
      · have shorter := length_fromLineFeed_le rest
        have later : placeOf (byte :: rest) (fromLineFeed rest) =
            placeOf rest (fromLineFeed rest) + 1 := by
          rw [placeOf, placeOf, List.length_cons]
          omega
        rw [fromLineFeed_cons, if_neg isFeed, later, ← ih]
        simp only [find?, List.head?_cons, Option.some.injEq, isFeed, decide_false,
          Bool.false_eq_true, if_false, List.length_cons]
        cases find? (·.head? = some lineFeed) rest <;> rfl

/-- The end of a line is found without a fault. -/
theorem lineEndAt_eq (inside : start ≤ bytes.length) :
    lineEndAt bytes start = .ok (placeOf bytes (fromLineFeed (bytes.drop start))) := by
  have found := find?_lineFeed (bytes.drop start)
  have shorter := length_fromLineFeed_le (bytes.drop start)
  rw [lineEndAt, bytesFrom_eq inside, ok_bind]
  refine congrArg Except.ok ?_
  generalize find? (·.head? = some lineFeed) (bytes.drop start) = position at found
  rw [placeOf, List.length_drop] at found
  rw [List.length_drop] at shorter
  rw [placeOf]
  cases position with
  | none =>
      simp only [Option.getD_none, Option.elim_none] at found ⊢
      omega
  | some position =>
      simp only [Option.getD_some, Option.elim_some] at found ⊢
      omega

theorem find?_blockEnd (bytes : Bytes) :
    ((find? ([ascii '*', ascii '/'].isPrefixOf ·) bytes).map (· + 2)).getD bytes.length =
      placeOf bytes (afterBlockComment bytes) := by
  induction bytes with
  | nil => rfl
  | cons byte rest ih =>
      rw [find?, afterBlockComment]
      split
      · rename_i closes
        have fits := length_le_of_isPrefixOf closes
        simp only [List.length_cons, List.length_nil] at fits
        simp only [Option.map_some, Option.getD_some, placeOf, List.length_cons, List.length_drop]
        omega
      · have shorter := length_afterBlockComment_le rest
        have later : placeOf (byte :: rest) (afterBlockComment rest) =
            placeOf rest (afterBlockComment rest) + 1 := by
          rw [placeOf, placeOf, List.length_cons]
          omega
        rw [later, ← ih]
        cases find? ([ascii '*', ascii '/'].isPrefixOf ·) rest <;> rfl

/-- The end of a block comment is that of the text if it has none of its own. -/
theorem blockEndAt_eq (inside : start ≤ bytes.length) :
    ((patternAt? [ascii '*', ascii '/'] bytes start).map (· + 2)).getD bytes.length =
      placeOf bytes (afterBlockComment (bytes.drop start)) := by
  have found := find?_blockEnd (bytes.drop start)
  have shorter := length_afterBlockComment_le (bytes.drop start)
  rw [patternAt?, if_pos inside]
  generalize find? ([ascii '*', ascii '/'].isPrefixOf ·) (bytes.drop start) = position at found
  rw [placeOf, List.length_drop] at found
  rw [List.length_drop] at shorter
  rw [placeOf]
  cases position with
  | none =>
      simp only [Option.map_none, Option.getD_none] at found ⊢
      omega
  | some position =>
      simp only [Option.map_some, Option.getD_some] at found ⊢
      omega

end Comments

/-- Literals and comments are passed over without a fault. -/
theorem skipAt_eq (here : bytes.drop start = byte :: rest) :
    skipAt flavour bytes start = .ok ((skip? flavour byte rest).map (placeOf bytes)) := by
  have inside := Nat.le_of_lt (lt_of_drop_eq_cons here)
  have isRest := drop_succ here
  rw [skipAt, byteAt_eq here, ok_bind, skip?.eq_def]
  by_cases isQuote : flavour.isQuote byte = true
  · rw [if_pos isQuote, if_pos isQuote, literalAt_eq here]
    rfl
  · rw [if_neg isQuote, if_neg isQuote]
    cases flavour with
    | python =>
        dsimp only
        by_cases isMark : byte = ascii '#'
        · rw [if_pos isMark, if_pos isMark, lineEndAt_eq inside, here, fromLineFeed_cons,
            if_neg (by rw [isMark]; decide)]
          rfl
        · rw [if_neg isMark, if_neg isMark]
          rfl
    | javaScript =>
        dsimp only
        by_cases isSlash : byte = ascii '/'
        · rw [if_pos isSlash, if_pos isSlash]
          have isNext : bytes[start + 1]? = rest.head? := by rw [← isRest, List.head?_drop]
          cases rest with
          | nil =>
              rw [isNext]
              rfl
          | cons next more =>
              rw [isNext, List.head?_cons]
              dsimp only
              by_cases again : next = ascii '/'
              · rw [if_pos again, if_pos again, lineEndAt_eq inside, here, fromLineFeed_cons,
                  if_neg (by rw [isSlash]; decide), fromLineFeed_cons,
                  if_neg (by rw [again]; decide)]
                rfl
              · rw [if_neg again, if_neg again]
                by_cases isStar : next = ascii '*'
                · have isInside : bytes.drop (start + 2) = more := drop_succ isRest
                  rw [if_pos isStar, if_pos isStar, blockEndAt_eq (lt_of_drop_eq_cons isRest),
                    isInside]
                  rfl
                · rw [if_neg isStar, if_neg isStar]
                  rfl
        · rw [if_neg isSlash, if_neg isSlash]
          rfl

/-- What follows a literal or comment is behind the place where that begins. -/
theorem further_of_skip? (here : bytes.drop start = byte :: rest)
    (skipped : skip? flavour byte rest = some after) :
    start < placeOf bytes after ∧ bytes.drop (placeOf bytes after) = after := by
  have isSuffix : byte :: rest <:+ bytes := here ▸ List.drop_suffix start bytes
  exact ⟨lt_placeOf here (length_skip?_le skipped),
    drop_placeOf (((skip?_suffix skipped).trans (List.suffix_cons byte rest)).trans isSuffix)⟩

end Polyglot.Scan.Cursor
