import Mathlib.Data.List.Infix
import Polyglot.Proofs.Scan.Lexemes
import Polyglot.Proofs.Scan.Wrapping

/-!
# Literals of wrapped code

Wrapping works line by line.  A tripled literal stays as it is, for the lines that begin inside of
it do, and so does a literal on one line.  A literal between single quotes goes on with the next
line behind a backslash, and that line is indented like any other, or emptied, so the literal is
not found again.
-/

namespace Polyglot.Scan

open Text

variable {spans : List (Nat × Nat)} {offset place excess start : Nat} {byte quote : UInt8}
variable {line text rest bytes passed after first lead : Bytes} {lines earlier later : List Bytes}

/-! ## Lines -/

section Lines

/-- Lines with one line feed each, at the end; the last one may have none. -/
inductive IsLines : List Bytes → Prop where
  | nil : IsLines []
  | last {line : Bytes} : line ≠ [] → lineFeed ∉ line → IsLines [line]
  | cons {body : Bytes} {later : List Bytes} :
      lineFeed ∉ body → IsLines later → IsLines ((body ++ [lineFeed]) :: later)

theorem IsLines.joinFirst (isLines : IsLines lines) (notFeed : byte ≠ lineFeed) :
    IsLines (joinFirst [byte] lines) := by
  cases isLines with
  | nil => exact .last (List.cons_ne_nil _ _) (by simpa using notFeed.symm)
  | last nonempty noFeed =>
      exact .last (List.cons_ne_nil _ _) (by simpa using ⟨notFeed.symm, noFeed⟩)
  | @cons body _ noFeed isLater =>
      exact @IsLines.cons (byte :: body) _ (by simpa using ⟨notFeed.symm, noFeed⟩) isLater

theorem isLines_splitAfter (bytes : Bytes) :
    IsLines (splitAfter (fun byte => byte = lineFeed) bytes) := by
  induction bytes with
  | nil => exact .nil
  | cons byte bytes ih =>
      by_cases isFeed : byte = lineFeed
      · rw [isFeed]
        exact @IsLines.cons [] _ (by simp) ih
      · have step := @splitAfter_of_not_ends _ (fun byte : UInt8 => decide (byte = lineFeed)) byte
          (decide_eq_false isFeed) bytes
        rw [step]
        exact ih.joinFirst isFeed

theorem IsLines.of_append (isLines : IsLines (earlier ++ later)) : IsLines later := by
  induction earlier with
  | nil => exact isLines
  | cons line earlier ih =>
      rw [List.cons_append] at isLines
      generalize isWhole : line :: (earlier ++ later) = whole at isLines
      cases isLines with
      | nil => contradiction
      | last nonempty noFeed =>
          have isEmpty := (List.append_eq_nil_iff.mp (List.cons.inj isWhole).2).2
          rw [isEmpty]
          exact .nil
      | cons noFeed isLater =>
          rw [← (List.cons.inj isWhole).2] at isLater
          exact ih isLater

/-- A place in a text is on one of its lines. -/
theorem exists_line (within : place < lines.flatten.length) :
    ∃ earlier line later, lines = earlier ++ line :: later ∧
      ∃ column, place = earlier.flatten.length + column ∧ column < line.length := by
  induction lines generalizing place with
  | nil => simp at within
  | cons line lines ih =>
      by_cases isHere : place < line.length
      · exact ⟨[], line, lines, rfl, place, by simp, isHere⟩
      · rw [List.flatten_cons, List.length_append] at within
        obtain ⟨earlier, found, later, rfl, column, isPlace, isColumn⟩ :=
          @ih (place - line.length) (by omega)
        refine ⟨line :: earlier, found, later, rfl, column, ?_, isColumn⟩
        rw [List.flatten_cons, List.length_append]
        omega

end Lines

/-! ## Places in carried lines -/

section Places

/-- The number of bytes before a line as it is carried. -/
def Carriage.margin : Carriage → Nat
  | indented => indentation.length
  | verbatim | emptied => 0

/-- The text of carried lines. -/
def textOfCarried (carried : List (Bytes × Carriage)) : Bytes :=
  carried.flatMap fun (line, how) => carry line how

/-- Where the byte at a place of some lines stands when they are carried. -/
def carriedTo : List (Bytes × Carriage) → (place : Nat) → Nat
  | [], place => place
  | (line, how) :: later, place =>
    if place < line.length then how.margin + place
    else (carry line how).length + carriedTo later (place - line.length)

theorem textOfCarried_cons (line : Bytes) (how : Carriage) (later : List (Bytes × Carriage)) :
    textOfCarried ((line, how) :: later) = carry line how ++ textOfCarried later := by
  rw [textOfCarried, List.flatMap_cons, ← textOfCarried]

theorem textOfCarried_append (earlier later : List (Bytes × Carriage)) :
    textOfCarried (earlier ++ later) = textOfCarried earlier ++ textOfCarried later :=
  List.flatMap_append

theorem carriedTo_append (spans : List (Nat × Nat)) (offset : Nat) (earlier later : List Bytes)
    (place : Nat) :
    carriedTo (carriages spans offset (earlier ++ later)) (earlier.flatten.length + place) =
      (textOfCarried (carriages spans offset earlier)).length +
        carriedTo (carriages spans (offset + earlier.flatten.length) later) place := by
  induction earlier generalizing offset with
  | nil => simp [textOfCarried, carriages]
  | cons line earlier ih =>
      rw [List.cons_append, carriages, carriages, carriedTo, List.flatten_cons, List.length_append,
        if_neg (by omega), Nat.add_assoc line.length, Nat.add_sub_cancel_left, ih,
        textOfCarried_cons, List.length_append, Nat.add_assoc, Nat.add_assoc]

theorem prefix_endLine (line : Bytes) : line <+: endLine line := by
  rw [endLine]
  split
  · exact List.prefix_rfl
  · exact List.prefix_append ..

theorem endLine_of_lineFeed (body : Bytes) : endLine (body ++ [lineFeed]) = body ++ [lineFeed] := by
  rw [endLine, List.getLast?_concat, if_pos rfl]

/-- What stands behind the margin of a line that is carried with its content. -/
theorem drop_carry {how : Carriage} (visible : how ≠ .emptied) (line : Bytes) (column : Nat) :
    (carry line how).drop (how.margin + column) = (endLine line).drop column := by
  cases how with
  | verbatim => rw [carry, Carriage.margin, Nat.zero_add]
  | emptied => contradiction
  | indented => rw [carry, Carriage.margin, List.drop_length_add_append]

theorem length_le_carry {how : Carriage} (visible : how ≠ .emptied) (line : Bytes) :
    how.margin + line.length ≤ (carry line how).length := by
  have longer := (prefix_endLine line).length_le
  cases how with
  | verbatim => simpa [carry, Carriage.margin] using longer
  | emptied => contradiction
  | indented =>
      rw [carry, Carriage.margin, List.length_append]
      omega

/-- What stands in the body where a byte of a line is carried to. -/
theorem drop_textOfCarried
    (visible : carriage spans (offset + earlier.flatten.length) line ≠ .emptied)
    {column : Nat} (within : column < line.length) :
    (textOfCarried (carriages spans offset (earlier ++ line :: later))).drop
        (carriedTo (carriages spans offset (earlier ++ line :: later))
          (earlier.flatten.length + column)) =
      (endLine line).drop column ++ textOfCarried
        (carriages spans (offset + earlier.flatten.length + line.length) later) := by
  have shorter := length_le_carry visible line
  rw [carriedTo_append, carriages_append, textOfCarried_append, List.drop_length_add_append,
    carriages, carriedTo, if_pos within, textOfCarried_cons,
    List.drop_append_of_le_length (by omega), drop_carry visible]

end Places

/-! ## Text that is found again -/

section Keeping

/-- A text is found again if every line that begins inside of it stays as it is. -/
theorem prefix_of_inside (isLines : IsLines (line :: later)) {column : Nat}
    (within : column ≤ line.length) (isText : text <+: line.drop column ++ later.flatten)
    (inside : ∀ further, further + (line.length - column) < text.length →
      isInside spans (offset + further) = true) :
    text <+: (endLine line).drop column ++ textOfCarried (carriages spans offset later) := by
  induction later generalizing line column text offset with
  | nil =>
      rw [List.flatten_nil, List.append_nil] at isText
      have isEnded := List.IsPrefix.drop (prefix_endLine line) column
      exact (isText.trans isEnded).trans (List.prefix_append ..)
  | cons next later ih =>
      generalize isAll : line :: next :: later = all at isLines
      cases isLines with
      | nil => contradiction
      | last nonempty noFeed => simp at isAll
      | @cons body others noFeed isLater =>
          obtain ⟨rfl, rfl⟩ := List.cons.inj isAll
          rw [endLine_of_lineFeed]
          rcases List.prefix_or_prefix_of_prefix isText (List.prefix_append _ _) with short | long
          · exact short.trans (List.prefix_append ..)
          · obtain ⟨remaining, rfl⟩ := long
            rw [List.prefix_append_right_inj] at isText ⊢
            cases remaining with
            | nil => exact List.nil_prefix
            | cons byte remaining =>
                have isVerbatim : carriage spans offset next = .verbatim := by
                  have beginsInside := inside 0 (by simp)
                  rw [Nat.add_zero] at beginsInside
                  rw [carriage_eq, if_pos beginsInside]
                have isNext : byte :: remaining <+: (endLine next).drop 0 ++
                    textOfCarried (carriages spans (offset + next.length) later) := by
                  refine ih isLater (Nat.zero_le _) (by simpa using isText) ?_
                  intro further isInside
                  rw [Nat.add_assoc]
                  apply inside
                  simp only [List.length_append, List.length_drop, List.length_cons,
                    List.length_nil] at isInside ⊢
                  omega
                rw [carriages, isVerbatim, textOfCarried_cons]
                exact isNext

/-- What comes behind some bytes that every line begins inside of is carried behind them. -/
theorem le_carriedTo_of_inside
    (inside : ∀ further < excess, isInside spans (offset + further) = true)
    (behind : excess ≤ place) : excess ≤ carriedTo (carriages spans offset later) place := by
  induction later generalizing offset excess place with
  | nil => exact behind
  | cons next later ih =>
      rw [carriages, carriedTo]
      split
      · exact behind.trans (Nat.le_add_left ..)
      · rename_i notHere
        rcases Nat.eq_zero_or_pos excess with isZero | isPositive
        · omega
        · have isVerbatim : carriage spans offset next = .verbatim := by
            have beginsInside := inside 0 isPositive
            rw [Nat.add_zero] at beginsInside
            rw [carriage_eq, if_pos beginsInside]
          have visible : carriage spans offset next ≠ .emptied := by
            rw [isVerbatim]
            decide
          have longer := length_le_carry visible next
          have further : excess - next.length ≤
              carriedTo (carriages spans (offset + next.length) later) (place - next.length) := by
            refine ih (fun further isFurther => ?_) (by omega)
            rw [Nat.add_assoc]
            exact inside _ (by omega)
          omega

/-- A text that is found again is found before what comes behind it. -/
theorem add_length_le_carriedTo {column length : Nat}
    (visible : carriage spans (offset + earlier.flatten.length) line ≠ .emptied)
    (within : column < line.length)
    (inside : ∀ further, further + (line.length - column) < length →
      isInside spans (offset + earlier.flatten.length + line.length + further) = true)
    (behind : earlier.flatten.length + column + length ≤ place) :
    carriedTo (carriages spans offset (earlier ++ line :: later))
        (earlier.flatten.length + column) + length ≤
      carriedTo (carriages spans offset (earlier ++ line :: later)) place := by
  obtain ⟨further, rfl⟩ := Nat.exists_eq_add_of_le behind
  rw [Nat.add_assoc _ length, Nat.add_assoc _ column, carriedTo_append, carriedTo_append,
    carriages, carriedTo, if_pos within, carriedTo]
  split
  · omega
  · have longer := length_le_carry visible line
    have enough : column + length - line.length ≤
        carriedTo (carriages spans (offset + earlier.flatten.length + line.length) later)
          (column + (length + further) - line.length) :=
      le_carriedTo_of_inside (fun further isFurther => inside further (by omega)) (by omega)
    omega

end Keeping

/-! ## Lines behind an escaped line feed -/

section Breaking

/-- A short literal goes on behind a line feed only if a backslash stands before it, and what
stands behind it is read as part of the literal. -/
theorem scanShort_of_lineFeed {escaped : Bool} (notTick : quote ≠ backTick)
    (ended : (scanShort quote escaped (first ++ lineFeed :: (rest ++ after))).rest = after) :
    (scanShort quote false (rest ++ after)).rest = after := by
  have notEnd (ahead : Bytes) : ahead ++ lineFeed :: (rest ++ after) ≠ after := by
    intro same
    have sameLength := congrArg List.length same
    simp only [List.length_append, List.length_cons] at sameLength
    omega
  induction first generalizing escaped with
  | nil =>
      cases escaped with
      | true => exact ended
      | false =>
          rw [List.nil_append, scanShort, if_neg (by decide),
            if_pos (by simpa using notTick)] at ended
          exact absurd ended (notEnd [])
  | cons byte first ih =>
      cases escaped with
      | true => exact ih ended
      | false =>
          rw [List.cons_append, scanShort] at ended
          split at ended
          · exact ih ended
          · split at ended
            · exact absurd ended (notEnd (byte :: first))
            · split at ended
              · exact absurd ended (notEnd first)
              · exact ih ended

/-- Spaces at the end of a short literal stand before the end of the line. -/
theorem lineFeed_of_spaces (notSpace : quote ≠ ascii ' ')
    (isSpace : ∀ byte ∈ rest, byte = ascii ' ')
    (ended : (scanShort quote false (rest ++ after)).rest = after) :
    after = [] ∨ after.head? = some lineFeed := by
  induction rest with
  | nil =>
      cases after with
      | nil => exact .inl rfl
      | cons byte after =>
          rw [(scanShort_stays ended).1]
          exact .inr rfl
  | cons byte rest ih =>
      obtain rfl := isSpace byte List.mem_cons_self
      have notFeed : ascii ' ' ≠ lineFeed := by decide
      rw [List.cons_append, scanShort, if_neg (by decide), if_neg (by simp [notFeed]),
        if_neg notSpace.symm] at ended
      exact ih (fun other member => isSpace other (List.mem_cons_of_mem _ member)) ended

theorem isBlankText_of_spaces (isSpace : ∀ byte ∈ bytes, byte = ascii ' ' ∨ byte = lineFeed) :
    isBlankText (decode bytes) = true := by
  have isText : (decodeFrom none bytes).all isBlank = true := by
    induction bytes with
    | nil => rfl
    | cons byte bytes ih =>
        have later := ih fun other member => isSpace other (List.mem_cons_of_mem _ member)
        rcases isSpace byte List.mem_cons_self with rfl | rfl
        · exact later
        · exact later
  rwa [isBlankText, decode, String.toList_ofList]

theorem IsLines.lineFeed_last (isLines : IsLines ((first ++ lineFeed :: rest) :: later)) :
    rest = [] := by
  generalize isLine : first ++ lineFeed :: rest = line at isLines
  cases isLines with
  | last nonempty noFeed => exact absurd (by simp [← isLine]) noFeed
  | @cons body _ noFeed isLater =>
      rcases List.eq_nil_or_concat rest with isNil | ⟨more, last, rfl⟩
      · exact isNil
      · have isBody : first ++ lineFeed :: more = body := by
          rw [List.concat_eq_append, ← List.cons_append, ← List.append_assoc] at isLine
          exact (List.append_inj' isLine rfl).1
        exact absurd (by simp [← isBody]) noFeed

theorem ne_lineFeed_of_ended (notTick : quote ≠ backTick)
    (ended : (scanShort quote false (byte :: rest ++ after)).rest = after) : byte ≠ lineFeed := by
  rintro rfl
  rw [List.cons_append, scanShort, if_neg (by decide), if_pos (by simpa using notTick)] at ended
  have sameLength := congrArg List.length ended
  simp only [List.length_append, List.length_cons] at sameLength
  omega

/-- A line that is not blank has a first byte that is no space. -/
theorem exists_visible (notBlank : isBlankText (decode line) = false) :
    ∃ spaces stop more, line = spaces ++ stop :: more ∧ (∀ byte ∈ spaces, byte = ascii ' ') ∧
      stop ≠ ascii ' ' := by
  have isWhole := List.takeWhile_append_dropWhile (p := (· = ascii ' ')) (l := line)
  have isSpace : ∀ byte ∈ line.takeWhile (· = ascii ' '), byte = ascii ' ' := by
    simpa using List.all_eq_true.mp (List.all_takeWhile (p := (· = ascii ' ')) (l := line))
  cases isBehind : line.dropWhile (· = ascii ' ') with
  | nil =>
      rw [isBehind, List.append_nil] at isWhole
      rw [isWhole] at isSpace
      rw [isBlankText_of_spaces fun byte member => .inl (isSpace byte member)] at notBlank
      contradiction
  | cons stop more =>
      refine ⟨_, stop, more, by rw [← isBehind, isWhole], isSpace, ?_⟩
      have isHead := List.head?_dropWhile_not (· = ascii ' ') line
      rw [isBehind] at isHead
      simpa using isHead

/-- Where a line is indented, more spaces stand before its first byte that is none. -/
theorem prefix_of_indented {spaces other other' : Bytes} {stop : UInt8}
    (isSpace : ∀ byte ∈ spaces, byte = ascii ' ') (notSpace : stop ≠ ascii ' ')
    (isText : text <+: spaces ++ stop :: other)
    (isIndented : text <+: indentation ++ (spaces ++ stop :: other')) :
    text <+: spaces := by
  have short : text.length ≤ spaces.length := by
    by_contra long
    have within : spaces.length < text.length := by omega
    have isStop := List.prefix_iff_getElem?.mp isText spaces.length within
    have isOther := List.prefix_iff_getElem?.mp isIndented spaces.length within
    have isMargin : indentation = List.replicate 4 (ascii ' ') := by decide +kernel
    have longer : spaces.length < (indentation ++ spaces).length := by
      rw [isMargin, List.length_append, List.length_replicate]
      omega
    rw [← List.append_assoc, List.getElem?_append_left longer] at isOther
    rw [List.getElem?_append_right (Nat.le_refl _), Nat.sub_self, List.getElem?_cons_zero] at isStop
    have member := List.mem_of_getElem? isOther
    rw [← Option.some.inj isStop, isMargin] at member
    rcases List.mem_append.mp member with inMargin | inSpaces
    · exact notSpace (List.mem_replicate.mp inMargin).2
    · exact notSpace (isSpace stop inSpaces)
  exact List.prefix_of_prefix_length_le isText (List.prefix_append ..) short

theorem not_prefix_of_indented {next other : Bytes} (isLines : IsLines (next :: later))
    (notBlank : isBlankText (decode next) = false) (notSpaceQuote : quote ≠ ascii ' ')
    (isText : next ++ later.flatten = text ++ after)
    (ended : (scanShort quote false (text ++ after)).rest = after) :
    ¬ text <+: indentation ++ endLine next ++ other := by
  intro isPrefix
  obtain ⟨spaces, stop, more, rfl, isSpace, notSpace⟩ := exists_visible notBlank
  obtain ⟨ending, isEnded⟩ := prefix_endLine (spaces ++ stop :: more)
  rw [← isEnded] at isPrefix
  have isHere : text <+: spaces ++ stop :: (more ++ later.flatten) :=
    ⟨after, by rw [← isText]; simp⟩
  have isThere : text <+: indentation ++ (spaces ++ stop :: (more ++ ending ++ other)) := by
    simpa using isPrefix
  obtain ⟨remaining, rfl⟩ := prefix_of_indented isSpace notSpace isHere isThere
  have isAfter : after = remaining ++ stop :: (more ++ later.flatten) := by
    apply @List.append_cancel_left _ text
    rw [← isText]
    simp
  rcases lineFeed_of_spaces notSpaceQuote (fun byte member =>
    isSpace byte (List.mem_append_left _ member)) ended with isNil | isFeed
  · rw [isAfter] at isNil
    simp at isNil
  · rw [isAfter] at isFeed
    cases remaining with
    | cons byte remaining =>
        have isByte := isSpace byte (by simp)
        rw [List.cons_append, List.head?_cons, isByte] at isFeed
        exact absurd isFeed (by decide)
    | nil =>
        obtain rfl : stop = lineFeed := by simpa using isFeed
        obtain rfl := isLines.lineFeed_last
        rw [isBlankText_of_spaces] at notBlank
        · contradiction
        · intro byte member
          rcases List.mem_append.mp member with inSpaces | isLast
          · exact .inl (isSpace byte inSpaces)
          · exact .inr (List.mem_singleton.mp isLast)

/-- What a short literal has on the next line is not found there when the line is carried. -/
theorem not_prefix_of_break {next : Bytes} (isLines : IsLines (next :: later))
    (isOutside : isInside spans offset = false)
    (isQuote : Flavour.python.isQuote quote = true) (nonempty : text ≠ [])
    (isText : next ++ later.flatten = text ++ after)
    (ended : (scanShort quote false (text ++ after)).rest = after) :
    ¬ text <+: textOfCarried (carriages spans offset (next :: later)) := by
  have isOther : quote ≠ backTick ∧ quote ≠ ascii ' ' := by
    constructor
    · rintro rfl
      exact absurd isQuote (by decide)
    · rintro rfl
      exact absurd isQuote (by decide)
  rw [carriages, textOfCarried_cons, carriage_eq, isOutside, if_neg Bool.false_ne_true]
  split
  · -- An emptied line begins with a line feed, which would end the literal.
    rintro ⟨further, isCons⟩
    obtain ⟨byte, others, rfl⟩ := List.exists_cons_of_ne_nil nonempty
    exact ne_lineFeed_of_ended isOther.1 ended (List.cons.inj isCons).1
  · rename_i notBlank
    exact not_prefix_of_indented isLines (Bool.eq_false_iff.mpr notBlank) isOther.2 isText ended

end Breaking

/-! ## Literals on their lines -/

section Standing

/-- Whether a literal begins with a tripled quote. -/
def Lexeme.isTripled (lexeme : Lexeme) : Bool :=
  match lexeme.text with
  | [] => false
  | byte :: inside => opens byte inside

/-- Whether a literal is tripled or on one line. -/
def Lexeme.IsKept (lexeme : Lexeme) : Prop :=
  lexeme.isTripled = true ∨ lineFeed ∉ lexeme.text.dropLast

/-- The quotes of a tripled literal are part of it. -/
theorem opens_of_skip (skipped : skip? .python byte (passed ++ after) = some after) :
    opens byte (passed ++ after) = opens byte passed := by
  rw [opens, opens]
  cases isQuote : Flavour.python.isQuote byte with
  | false => rfl
  | true =>
      rw [Bool.true_and, Bool.true_and]
      by_cases isLong : 2 ≤ passed.length
      · obtain _ | ⟨first, _ | ⟨second, passed⟩⟩ := passed
        · exact absurd isLong (by decide)
        · exact absurd isLong (Nat.not_succ_le_self 1)
        · simp [opensTriple, List.isPrefixOf]
      · have notInside : opensTriple .python byte passed = false := by
          rw [Bool.eq_false_iff]
          exact fun opened => isLong (length_of_opensTriple opened)
        rw [notInside, Bool.eq_false_iff]
        intro opened
        rw [skip?, if_pos isQuote, Option.some.injEq, scanLiteral, if_pos opened] at skipped
        have shorter := length_scanTriple_le byte false ((passed ++ after).drop 2)
        rw [skipped, List.length_drop, List.length_append] at shorter
        have longEnough := length_of_opensTriple opened
        rw [List.length_append] at longEnough
        omega

theorem Reaches.tripled (reaches : Reaches .python rest lead) :
    ∃ flags, flags.length = lead.length ∧ tripled (lead ++ rest) = flags ++ tripled rest := by
  induction reaches with
  | nil => exact ⟨[], rfl, rfl⟩
  | @code byte lead isCode _ ih =>
      obtain ⟨flags, isLength, isFlags⟩ := ih
      refine ⟨false :: flags, by simpa using isLength, ?_⟩
      rw [List.cons_append, tripled_of_code isCode, isFlags, List.cons_append]
  | @skip byte passed lead skipped _ ih =>
      obtain ⟨flags, isLength, isFlags⟩ := ih
      refine ⟨false :: (List.replicate passed.length (opens byte (passed ++ (lead ++ rest))) ++
        flags), by simpa using isLength, ?_⟩
      rw [List.cons_append, List.append_assoc, tripled_of_skip skipped, isFlags, List.cons_append,
        List.append_assoc]

/-- The places strictly inside of a literal are inside of a tripled one if it is tripled. -/
theorem isInside_of_reaches (reaches : Reaches .python (byte :: (passed ++ after)) lead)
    (skipped : skip? .python byte (passed ++ after) = some after) {further : Nat}
    (within : further < passed.length) :
    isInside (tripleSpans 0 (lead ++ byte :: (passed ++ after))) (lead.length + 1 + further) =
      opens byte passed := by
  obtain ⟨flags, isLength, isFlags⟩ := reaches.tripled
  have found : (Scan.tripled (lead ++ byte :: (passed ++ after)))[lead.length + 1 + further]? =
      some (opens byte passed) := by
    rw [isFlags, tripled_of_skip skipped, opens_of_skip skipped,
      List.getElem?_append_right (by omega), isLength, Nat.add_assoc, Nat.add_sub_cancel_left,
      Nat.add_comm 1, List.getElem?_cons_succ, List.getElem?_append_left (by simpa using within),
      List.getElem?_replicate, if_pos within]
  have isInside := @isInside_tripleSpans _ 0 _ _ found
  rwa [Nat.zero_add] at isInside

theorem prefix_of_dropLast {last : UInt8} (isText : text <+: first ++ [last]) :
    text.dropLast <+: first := by
  have isShort : text.dropLast <+: text := List.dropLast_prefix text
  refine List.prefix_of_prefix_length_le (isShort.trans isText) (List.prefix_append ..) ?_
  have shorter := isText.length_le
  rw [List.length_append, List.length_singleton] at shorter
  rw [List.length_dropLast]
  omega

/-- A text holds a line feed before its end if it goes on behind its first line. -/
theorem lineFeed_mem_dropLast_iff (isLines : IsLines (line :: later)) {column : Nat}
    (within : column < line.length) (isText : text <+: line.drop column ++ later.flatten) :
    lineFeed ∈ text.dropLast ↔ line.length - column < text.length := by
  generalize isAll : line :: later = all at isLines
  cases isLines with
  | nil => contradiction
  | last nonempty noFeed =>
      obtain ⟨rfl, rfl⟩ := List.cons.inj isAll
      rw [List.flatten_nil, List.append_nil] at isText
      have shorter := isText.length_le
      rw [List.length_drop] at shorter
      constructor
      · intro member
        have inLine := List.mem_of_mem_drop (isText.subset (List.mem_of_mem_dropLast member))
        exact absurd inLine noFeed
      · intro longer
        omega
  | @cons body others noFeed isLater =>
      obtain ⟨rfl, rfl⟩ := List.cons.inj isAll
      rw [List.length_append, List.length_singleton] at within ⊢
      rw [List.drop_append_of_le_length (by omega)] at isText
      constructor
      · intro member
        by_contra short
        have onLine : text <+: body.drop column ++ [lineFeed] := by
          refine List.prefix_of_prefix_length_le isText (List.prefix_append ..) ?_
          rw [List.length_append, List.length_drop, List.length_singleton]
          omega
        exact noFeed (List.mem_of_mem_drop ((prefix_of_dropLast onLine).subset member))
      · intro longer
        obtain ⟨remaining, rfl⟩ : body.drop column ++ [lineFeed] <+: text := by
          refine List.prefix_of_prefix_length_le (List.prefix_append ..) isText ?_
          rw [List.length_append, List.length_drop, List.length_singleton]
          omega
        have nonempty : remaining ≠ [] := by
          rintro rfl
          rw [List.append_nil, List.length_append, List.length_drop,
            List.length_singleton] at longer
          omega
        rw [List.dropLast_append_of_ne_nil nonempty]
        simp

/-- A line that a text goes on behind has its end. -/
theorem endLine_of_longer (isLines : IsLines (line :: later)) {column : Nat}
    (isText : text <+: line.drop column ++ later.flatten)
    (longer : line.length - column < text.length) : endLine line = line := by
  generalize isAll : line :: later = all at isLines
  cases isLines with
  | nil => contradiction
  | last nonempty noFeed =>
      obtain ⟨rfl, rfl⟩ := List.cons.inj isAll
      have shorter := isText.length_le
      rw [List.flatten_nil, List.append_nil, List.length_drop] at shorter
      omega
  | cons noFeed isLater =>
      obtain ⟨rfl, rfl⟩ := List.cons.inj isAll
      exact endLine_of_lineFeed _

theorem eq_append_drop_of_longer {column : Nat} (isText : text <+: line.drop column ++ rest)
    (longer : line.length - column < text.length) :
    text = line.drop column ++ text.drop (line.length - column) := by
  obtain ⟨remaining, rfl⟩ : line.drop column <+: text := by
    refine List.prefix_of_prefix_length_le (List.prefix_append ..) isText ?_
    rw [List.length_drop]
    omega
  rw [← List.length_drop, List.drop_left]

/-- A literal of some lines on the line that it begins on. -/
structure BeginsOn (spans : List (Nat × Nat)) (lines : List Bytes) (literal : Lexeme)
    (earlier : List Bytes) (line : Bytes) (later : List Bytes) (column : Nat) : Prop where
  split : lines = earlier ++ line :: later
  start : literal.start = earlier.flatten.length + column
  within : column < line.length
  text : literal.text <+: line.drop column ++ later.flatten
  visible : carriage spans earlier.flatten.length line ≠ .emptied
  /-- The lines that begin strictly inside of the literal are inside of a tripled one if it is
  tripled. -/
  inside : ∀ further, further + (line.length - column) < literal.text.length →
    isInside spans (earlier.flatten.length + line.length + further) = literal.isTripled
  /-- If it is not tripled, what it has on the next line is not found there. -/
  broken : literal.isTripled = false → line.length - column < literal.text.length →
    ¬ literal.text.drop (line.length - column) <+:
      textOfCarried (carriages spans (earlier.flatten.length + line.length) later)

variable {literal : Lexeme} {column : Nat}

theorem BeginsOn.kept_inside (begins : BeginsOn spans lines literal earlier line later column)
    (isLines : IsLines lines) (isKept : literal.IsKept) (further : Nat)
    (within : further + (line.length - column) < literal.text.length) :
    isInside spans (earlier.flatten.length + line.length + further) = true := by
  rw [begins.inside further within]
  rcases isKept with isTripled | noFeed
  · exact isTripled
  · rw [begins.split] at isLines
    rw [lineFeed_mem_dropLast_iff isLines.of_append begins.within begins.text] at noFeed
    omega

/-- A literal is found again at its place if it is tripled or on one line, and only then. -/
theorem BeginsOn.stands_iff (begins : BeginsOn spans lines literal earlier line later column)
    (isLines : IsLines lines) :
    literal.text <+: (textOfCarried (carriages spans 0 lines)).drop
        (carriedTo (carriages spans 0 lines) literal.start) ↔
      literal.IsKept := by
  have isKeptInside := begins.kept_inside isLines
  have visible := begins.visible
  rw [← Nat.zero_add earlier.flatten.length] at visible
  rw [begins.split] at isLines ⊢
  rw [begins.start, drop_textOfCarried visible begins.within, Nat.zero_add]
  constructor
  · intro isPrefix
    by_contra notKept
    have ⟨notTripled, hasFeed⟩ := not_or.mp notKept
    have longer := (lineFeed_mem_dropLast_iff isLines.of_append begins.within begins.text).mp
      (not_not.mp hasFeed)
    rw [endLine_of_longer isLines.of_append begins.text longer,
      eq_append_drop_of_longer begins.text longer, List.prefix_append_right_inj] at isPrefix
    exact begins.broken (Bool.eq_false_iff.mpr notTripled) longer isPrefix
  · intro isKept
    exact prefix_of_inside isLines.of_append (Nat.le_of_lt begins.within) begins.text
      (isKeptInside isKept)

theorem scanShort_of_skip (isQuote : Flavour.python.isQuote byte = true)
    (skipped : skip? .python byte (passed ++ after) = some after)
    (notTripled : opens byte passed = false) :
    (scanShort byte false (passed ++ after)).rest = after := by
  rw [← opens_of_skip skipped, opens, isQuote, Bool.true_and] at notTripled
  rwa [skip?, if_pos isQuote, Option.some.injEq, scanLiteral, notTripled,
    if_neg Bool.false_ne_true] at skipped

/-- What a literal that is not tripled has on the next line is not found when that is carried. -/
theorem not_prefix_of_skip (isLines : IsLines (line :: later)) {column : Nat}
    (within : column < line.length) (isQuote : Flavour.python.isQuote byte = true)
    (skipped : skip? .python byte (passed ++ after) = some after)
    (notTripled : opens byte passed = false)
    (isText : line.drop column ++ later.flatten = byte :: passed ++ after)
    (longer : line.length - column < (byte :: passed).length)
    (isOutside : isInside spans offset = false) :
    ¬ (byte :: passed).drop (line.length - column) <+:
      textOfCarried (carriages spans offset later) := by
  have isPrefix : byte :: passed <+: line.drop column ++ later.flatten := ⟨after, isText.symm⟩
  have isCut := eq_append_drop_of_longer isPrefix longer
  have isBehind : later.flatten = (byte :: passed).drop (line.length - column) ++ after := by
    rw [isCut, List.append_assoc] at isText
    exact List.append_cancel_left isText
  have nonempty : (byte :: passed).drop (line.length - column) ≠ [] := by
    rw [ne_eq, List.drop_eq_nil_iff]
    omega
  generalize (byte :: passed).drop (line.length - column) = remaining at *
  generalize isAll : line :: later = all at isLines
  cases isLines with
  | nil => contradiction
  | last _ noFeed =>
      obtain ⟨rfl, rfl⟩ := List.cons.inj isAll
      simp [nonempty] at isBehind
  | @cons body others noFeed isLater =>
      obtain ⟨rfl, rfl⟩ := List.cons.inj isAll
      cases later with
      | nil => simp [nonempty] at isBehind
      | cons next later =>
          rw [List.length_append, List.length_singleton] at within
          rw [List.drop_append_of_le_length (by omega), List.append_assoc,
            List.singleton_append] at isCut
          -- The quote is not the line feed, so it stands before that.
          obtain ⟨first, isFirst⟩ : ∃ first, body.drop column = byte :: first := by
            cases isBody : body.drop column with
            | nil =>
                rw [isBody, List.nil_append] at isCut
                rw [(List.cons.inj isCut).1] at isQuote
                exact absurd isQuote (by decide)
            | cons head first =>
                rw [isBody, List.cons_append] at isCut
                exact ⟨first, by rw [(List.cons.inj isCut).1]⟩
          rw [isFirst, List.cons_append] at isCut
          have ended := scanShort_of_skip isQuote skipped notTripled
          rw [(List.cons.inj isCut).2, List.append_assoc, List.cons_append] at ended
          have notTick : byte ≠ backTick := by
            rintro rfl
            exact absurd isQuote (by decide)
          exact not_prefix_of_break isLater isOutside isQuote nonempty isBehind
            (scanShort_of_lineFeed notTick ended)

theorem exists_beginsOn {code : String} (member : literal ∈ lexemes .python 0 (encode code))
    (isLiteral : literal.isLiteral .python = true) :
    ∃ earlier line later column, BeginsOn (tripleSpans 0 (encode code)) (linesOf code) literal
      earlier line later column := by
  obtain ⟨lead, byte, passed, after, isCode, rfl, skipped, reaches⟩ := exists_reaches member
  have isQuote : Flavour.python.isQuote byte = true := isLiteral
  have isWhole : (linesOf code).flatten = lead ++ byte :: (passed ++ after) := by
    rw [linesOf, flatten_splitAfter, isCode]
  have within : lead.length < (linesOf code).flatten.length := by
    rw [isWhole, List.length_append, List.length_cons]
    omega
  obtain ⟨earlier, line, later, isSplit, column, isPlace, isColumn⟩ := exists_line within
  have isText : line.drop column ++ later.flatten = byte :: (passed ++ after) := by
    have behind := congrArg (List.drop lead.length) isWhole
    rwa [List.drop_left, isSplit, List.flatten_append, List.flatten_cons, isPlace,
      List.drop_length_add_append, List.drop_append_of_le_length (Nat.le_of_lt isColumn)] at behind
  have inLines : line ∈ linesOf code := by simp [isSplit]
  have inside (further : Nat)
      (isInside : further + (line.length - column) < (byte :: passed).length) :
      Scan.isInside (tripleSpans 0 (encode code))
        (earlier.flatten.length + line.length + further) = opens byte passed := by
    rw [List.length_cons] at isInside
    have isBehind : earlier.flatten.length + line.length + further =
        lead.length + 1 + (line.length - column - 1 + further) := by
      omega
    rw [isBehind, isCode]
    exact isInside_of_reaches reaches skipped (by omega)
  refine ⟨earlier, line, later, column, isSplit, by rw [Nat.zero_add, isPlace], isColumn,
    ⟨after, isText.symm⟩, ?_, ?_, ?_⟩
  · rw [carriage_eq]
    split
    · intro same
      cases same
    · split
      · rename_i blank
        have isByte : byte ∈ line := by
          have isHead := congrArg List.head? isText
          rw [List.drop_eq_getElem_cons isColumn] at isHead
          simp only [List.cons_append, List.head?_cons, Option.some.injEq] at isHead
          exact isHead ▸ List.getElem_mem isColumn
        have isPlain := (byte_of_isBlankText (isEncoded_of_mem_linesOf inLines) blank isByte).1
        simp [Flavour.isPlain, isQuote] at isPlain
      · intro same
        cases same
  · exact inside
  · intro notTripled longer
    have isLines := isLines_splitAfter (encode code)
    rw [← linesOf, isSplit] at isLines
    have isOutside := inside 0 (by rwa [Nat.zero_add])
    rw [Nat.add_zero] at isOutside
    exact not_prefix_of_skip isLines.of_append isColumn isQuote skipped notTripled isText longer
      (isOutside.trans notTripled)

end Standing

/-! ## Literals of prepared code -/

section Prepared

variable {code prepared : String} {literal : Lexeme}

/-- The string literals of the rewriting of code. -/
def awaitedLiterals (code : String) : List Lexeme :=
  (lexemes .python 0 (encode (awaiting code).code)).filter (·.isLiteral .python)

/-- The lines of the rewriting of code with the way each of them is carried. -/
def carriedLines (code : String) : List (Bytes × Carriage) :=
  carriages (tripleSpans 0 (encode (awaiting code).code)) 0 (linesOf (awaiting code).code)

/-- Where the byte at a place of the rewriting of code stands in the prepared code. -/
def preparedPlace (code : String) (place : Nat) : Nat :=
  header.length + carriedTo (carriedLines code) place

/-- What becomes of string literals when code is prepared. -/
structure KeepsLiterals (code prepared : String) : Prop where
  /-- A literal is found again at its place if it is tripled or on one line, and only then. -/
  stands : ∀ literal ∈ awaitedLiterals code,
    literal.text <+: (encode prepared).drop (preparedPlace code literal.start) ↔ literal.IsKept
  /-- Those that are found again are found in the same order. -/
  ordered : (awaitedLiterals code).Pairwise fun first second => first.IsKept →
    preparedPlace code first.start + first.text.length ≤ preparedPlace code second.start

theorem pairwise_lexemes (flavour : Flavour) (offset : Nat) (bytes : Bytes) :
    (lexemes flavour offset bytes).Pairwise fun first second =>
      first.start + first.text.length ≤ second.start := by
  fun_induction lexemes flavour offset bytes with
  | case1 => exact .nil
  | case2 offset byte rest isCode ih => exact ih
  | case3 offset byte rest after skipped text ih =>
      exact .cons (fun lexeme member => start_of_mem_lexemes member) ih

theorem prepareRun_async {packages : List String}
    (isAsync : prepareRun code = .run prepared .async packages) :
    inputSites code ≠ [] ∧ prepared = wrapAsync entryName (awaiting code).code := by
  have isTotal := total_rewriteCalls isIdentifier_input "async_input" code
  rw [prepareRun] at isAsync
  split at isAsync
  · rename_i isChanged
    rw [Rewriting.changed, isTotal, decide_eq_true_eq] at isChanged
    injection isAsync with isPrepared
    exact ⟨List.length_pos_iff.mp isChanged, isPrepared.symm⟩
  · injection isAsync with _ isMode
    contradiction

theorem encode_prepared {packages : List String}
    (isAsync : prepareRun code = .run prepared .async packages) :
    encode prepared = header ++ textOfCarried (carriedLines code) := by
  obtain ⟨reads, rfl⟩ := prepareRun_async isAsync
  have ⟨pieces, isCut⟩ := exists_isCut code
  rw [← flatten_splitAfter (· = lineFeed) (encode _), ← linesOf,
    linesOf_wrapAsync (isCut.exists_written reads), List.flatten_cons, ← List.flatMap]
  rfl

theorem prepareRun_keepsLiterals (code prepared : String) (packages : List String)
    (isAsync : prepareRun code = .run prepared .async packages) :
    KeepsLiterals code prepared := by
  have isLines := isLines_splitAfter (encode (awaiting code).code)
  have begins {literal : Lexeme} (member : literal ∈ awaitedLiterals code) :=
    exists_beginsOn (List.mem_filter.mp member).1 (List.mem_filter.mp member).2
  constructor
  case stands =>
    intro literal member
    obtain ⟨earlier, line, later, column, beginsOn⟩ := begins member
    rw [encode_prepared isAsync, preparedPlace, List.drop_length_add_append]
    exact beginsOn.stands_iff isLines
  case ordered =>
    have apart := (pairwise_lexemes .python 0 (encode (awaiting code).code)).filter
      (·.isLiteral .python)
    refine apart.imp_of_mem fun {first second} isFirst _ behind isKept => ?_
    obtain ⟨earlier, line, later, column, beginsOn⟩ := begins isFirst
    have isKeptInside := beginsOn.kept_inside isLines isKept
    have visible := beginsOn.visible
    rw [preparedPlace, preparedPlace, Nat.add_assoc, carriedLines, beginsOn.split, beginsOn.start]
    rw [← Nat.zero_add earlier.flatten.length] at visible
    apply Nat.add_le_add_left
    apply add_length_le_carriedTo visible beginsOn.within
    · simpa using isKeptInside
    · rwa [← beginsOn.start]

/-- A tripled literal whose second line is blank, and one that is the argument of the call. -/
theorem prepareRun_keepsLiterals_tripled :
    prepareRun "s = '''\n \n t'''\nn = input('n')" =
        .run "async def __runnr_main__():\n    s = '''\n \n t'''\n    n = await async_input('n')\n"
          .async [] ∧
      KeepsLiterals "s = '''\n \n t'''\nn = input('n')"
        "async def __runnr_main__():\n    s = '''\n \n t'''\n    n = await async_input('n')\n" :=
  ⟨by decide +kernel, prepareRun_keepsLiterals _ _ [] (by decide +kernel)⟩

/-- The literal goes on with the second line, which is indented, so it is not found anywhere. -/
theorem not_mem_prepared_of_backslash :
    prepareRun "x = input('a\\\nb')" =
        .run "async def __runnr_main__():\n    x = await async_input('a\\\n    b')\n" .async [] ∧
      awaitedLiterals "x = input('a\\\nb')" = [⟨22, encode "'a\\\nb'"⟩] ∧
      ¬ encode "'a\\\nb'" <:+:
        encode "async def __runnr_main__():\n    x = await async_input('a\\\n    b')\n" := by
  decide +kernel

end Prepared

end Polyglot.Scan
