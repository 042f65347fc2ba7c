import Polyglot.Proofs.Scan.Cursor.Rewriting
import Polyglot.Proofs.Text.Splitting
import Polyglot.Scan.Wrapping

/-!
# Wrapping by places

The tripled literals of a text are found in one go over its places, and its lines are cut one after
the other.  What is found is a sequence of stretches, each in the text and between characters.
-/

namespace Polyglot.Scan.Cursor

open Text

/-- How far tripled literals are looked for. -/
structure Spanning where
  place : Nat := 0
  /-- The literals found so far. -/
  spans : List (Nat × Nat) := []
  deriving Repr, DecidableEq

/-- A step of the search for tripled literals. -/
def spanStep (bytes : Bytes) (spanning : Spanning) :
    Except Fault (Step Spanning (List (Nat × Nat))) := do
  let byte ← byteAt bytes spanning.place
  if Flavour.python.isQuote byte &&
      [byte, byte, byte].isPrefixOf (← bytesFrom bytes spanning.place) then
    let stop := (← literalAt .python bytes spanning.place).stop
    return .goOn ⟨stop, spanning.spans ++ [(spanning.place, stop)]⟩
  else
    match ← skipAt .python bytes spanning.place with
    | some after => return .goOn { spanning with place := after }
    | none => return .goOn { spanning with place := spanning.place + 1 }

/-- The places of the tripled literals of a text. -/
def spansAt (bytes : Bytes) : Except Fault (List (Nat × Nat)) :=
  loop bytes Spanning.place (spanStep bytes) (fun spanning => .ok spanning.spans) {}

/-- How far lines are carried into the body. -/
structure Carrying where
  offset : Nat := 0
  carried : List (Bytes × Carriage) := []
  deriving Repr, DecidableEq

/-- Carries the next line. -/
def lineStep (spans : List (Nat × Nat)) (bytes : Bytes) (carrying : Carrying) :
    Except Fault (Step Carrying (List (Bytes × Carriage))) := do
  let here ← bytesFrom bytes carrying.offset
  let stop :=
    (find? (·.head? = some lineFeed) here).elim bytes.length (carrying.offset + · + 1)
  let line ← textBetween bytes carrying.offset stop
  return .goOn ⟨stop, carrying.carried ++ [(line, carriage spans carrying.offset line)]⟩

/-- Every line of a text with the way it is carried. -/
def carriagesAt (spans : List (Nat × Nat)) (bytes : Bytes) :
    Except Fault (List (Bytes × Carriage)) :=
  loop bytes Carrying.offset (lineStep spans bytes) (fun carrying => .ok carrying.carried) {}

/-- Wraps code as the body of a coroutine called `name`, by places. -/
def wrapAsyncAt (name code : String) : Except Fault String := do
  let bytes := encode code
  let carried ← carriagesAt (← spansAt bytes) bytes
  return decode (encode s!"async def {name}():\n" ++ body carried)

variable {bytes rest after : Bytes} {byte quote : UInt8} {place offset : Nat}

/-! ## Tripled literals -/

section Spans

/-- The places of the tripled literals of a text from a place on. -/
def spansFrom (bytes : Bytes) (place : Nat) : List (Nat × Nat) :=
  tripleSpans place (bytes.drop place)

theorem spansFrom_of_le (atEnd : bytes.length ≤ place) : spansFrom bytes place = [] := by
  rw [spansFrom, List.drop_eq_nil_of_le atEnd, tripleSpans]

theorem spansFrom_of_code (here : bytes.drop place = byte :: rest)
    (isCode : skip? .python byte rest = none) :
    spansFrom bytes place = spansFrom bytes (place + 1) := by
  rw [spansFrom, here, spansFrom, drop_succ here, tripleSpans.eq_def]
  dsimp only
  split
  · rfl
  · rename_i isSome
    rw [isCode] at isSome
    contradiction

theorem spansFrom_of_skip (here : bytes.drop place = byte :: rest)
    (skipped : skip? .python byte rest = some after) :
    spansFrom bytes place =
      if Flavour.python.isQuote byte && opensTriple .python byte rest then
        (place, placeOf bytes after) :: spansFrom bytes (placeOf bytes after)
      else spansFrom bytes (placeOf bytes after) := by
  obtain ⟨further, isAfter⟩ := further_of_skip? here skipped
  have isFinish : place + (rest.length + 1 - after.length) = placeOf bytes after := by
    have shorter := length_skip?_le skipped
    have whole := congrArg List.length here
    rw [List.length_drop, List.length_cons] at whole
    rw [placeOf]
    omega
  rw [spansFrom, here, spansFrom, isAfter, tripleSpans.eq_def]
  dsimp only
  split
  · rename_i isNone
    rw [skipped] at isNone
    contradiction
  · rename_i other isOther
    rw [skipped] at isOther
    cases isOther
    rw [isFinish]

/-- A quote begins a literal. -/
theorem skip?_of_isQuote {flavour : Flavour} (isQuote : flavour.isQuote byte = true)
    (rest : Bytes) : skip? flavour byte rest = some (scanLiteral flavour byte rest).rest := by
  rw [skip?.eq_def, if_pos isQuote]

/-- Tripled literals are found without a fault. -/
theorem spansAt_eq (bytes : Bytes) : spansAt bytes = .ok (tripleSpans 0 bytes) := by
  refine loop_eq (fun _ => True) (fun spanning : Spanning =>
    spanning.spans ++ spansFrom bytes spanning.place) ?_ ?_ trivial
  · intro spanning _ atEnd
    rw [spansFrom_of_le atEnd, List.append_nil]
  · intro spanning _ inside
    obtain ⟨byte, here⟩ := exists_here inside
    have opens : [byte, byte, byte].isPrefixOf (byte :: bytes.drop (spanning.place + 1)) =
        opensTriple .python byte (bytes.drop (spanning.place + 1)) := by
      simp [opensTriple, List.isPrefixOf]
    rw [spanStep, byteAt_eq here, ok_bind, bytesFrom_eq (Nat.le_of_lt inside), ok_bind, here, opens]
    by_cases isTriple : (Flavour.python.isQuote byte &&
        opensTriple .python byte (bytes.drop (spanning.place + 1))) = true
    · have isQuote := (Bool.and_eq_true_iff.mp isTriple).1
      have skipped := skip?_of_isQuote isQuote (bytes.drop (spanning.place + 1))
      rw [if_pos isTriple, literalAt_eq here, ok_bind]
      refine .goOn (further_of_skip? here skipped).1 trivial ?_
      dsimp only
      rw [spansFrom_of_skip here skipped, if_pos isTriple, List.append_assoc]
      rfl
    · rw [if_neg isTriple, skipAt_eq here, ok_bind]
      cases skipped : skip? .python byte (bytes.drop (spanning.place + 1)) with
      | none =>
          refine .goOn (Nat.lt_succ_self _) trivial ?_
          rw [spansFrom_of_code here skipped]
      | some after =>
          refine .goOn (further_of_skip? here skipped).1 trivial ?_
          rw [spansFrom_of_skip here skipped, if_neg isTriple]

/-- Stretches of a text from a place on, one behind the other: none of them is empty, and none
begins or ends inside of a character. -/
structure AreStretches (bytes : Bytes) (place : Nat) (spans : List (Nat × Nat)) : Prop where
  ordered : spans.Pairwise fun first second => first.2 ≤ second.1
  bounds : ∀ span ∈ spans, place ≤ span.1 ∧ span.1 < span.2 ∧ span.2 ≤ bytes.length
  boundaries : ∀ span ∈ spans,
    isBoundary bytes span.1 = true ∧ isBoundary bytes span.2 = true

variable {spans : List (Nat × Nat)} {stop : Nat}

theorem AreStretches.nil (bytes : Bytes) (place : Nat) : AreStretches bytes place [] :=
  ⟨.nil, by simp, by simp⟩

theorem AreStretches.of_le (stretches : AreStretches bytes stop spans) (before : place ≤ stop) :
    AreStretches bytes place spans where
  ordered := stretches.ordered
  bounds span member :=
    have isInside := stretches.bounds span member
    ⟨Nat.le_trans before isInside.1, isInside.2⟩
  boundaries := stretches.boundaries

theorem AreStretches.cons (stretches : AreStretches bytes stop spans) (further : place < stop)
    (inside : stop ≤ bytes.length) (atPlace : isBoundary bytes place = true)
    (atStop : isBoundary bytes stop = true) :
    AreStretches bytes place ((place, stop) :: spans) where
  ordered := .cons (fun span member => (stretches.bounds span member).1) stretches.ordered
  bounds span member := by
    rcases List.mem_cons.mp member with rfl | later
    · exact ⟨Nat.le_refl _, further, inside⟩
    · exact (stretches.of_le (Nat.le_of_lt further)).bounds span later
  boundaries span member := by
    rcases List.mem_cons.mp member with rfl | later
    · exact ⟨atPlace, atStop⟩
    · exact stretches.boundaries span later

/-- A tripled literal ends after a quote, or with the text. -/
theorem scanTriple_ends (quote : UInt8) (escaped : Bool) (bytes : Bytes) :
    (scanTriple quote escaped bytes).rest = [] ∨
      quote :: (scanTriple quote escaped bytes).rest <:+ bytes := by
  fun_induction scanTriple quote escaped bytes with
  | case1 => exact .inl rfl
  | case2 byte rest ih => exact ih.imp_right (·.trans (List.suffix_cons ..))
  | case3 rest ih => exact ih.imp_right (·.trans (List.suffix_cons ..))
  | case4 byte rest notEscape closes =>
      right
      obtain ⟨after, isBytes⟩ := List.isPrefixOf_iff_prefix.mp closes
      obtain ⟨-, rfl⟩ := List.cons.inj isBytes
      exact ⟨[byte, quote], by simp⟩
  | case5 byte rest notEscape notClosing ih =>
      exact ih.imp_right (·.trans (List.suffix_cons ..))

/-- A text may be cut behind an ASCII character. -/
theorem isBoundary_behind (isEncoded : IsEncoded bytes) (isSuffix : byte :: after <:+ bytes)
    (isAscii : byte.toNat < 0x80) : isBoundary bytes (placeOf bytes after) = true := by
  have isPlace : placeOf bytes after = placeOf bytes (byte :: after) + 1 := by
    have shorter := isSuffix.length_le
    rw [List.length_cons] at shorter
    rw [placeOf, placeOf, List.length_cons]
    omega
  rw [isPlace]
  exact isBoundary_succ isEncoded (drop_placeOf isSuffix) isAscii

theorem ascii_of_isQuote (isQuote : Flavour.python.isQuote byte = true) : byte.toNat < 0x80 := by
  simp only [Flavour.isQuote, Bool.or_eq_true, decide_eq_true_eq] at isQuote
  rcases isQuote with (rfl | rfl) | isTick
  · decide
  · decide
  · simp at isTick

/-- The tripled literals of a text are stretches of it. -/
theorem areStretches_spansFrom (isEncoded : IsEncoded bytes) (place : Nat) :
    AreStretches bytes place (spansFrom bytes place) := by
  induction left : bytes.length - place using Nat.strongRecOn generalizing place with
  | ind left ih =>
      by_cases inside : place < bytes.length
      · obtain ⟨byte, here⟩ := exists_here inside
        cases skipped : skip? .python byte (bytes.drop (place + 1)) with
        | none =>
            rw [spansFrom_of_code here skipped]
            exact (ih _ (by omega) (place + 1) rfl).of_le (Nat.le_succ place)
        | some after =>
            have further := (further_of_skip? here skipped).1
            have later := ih _ (by omega) (placeOf bytes after) rfl
            rw [spansFrom_of_skip here skipped]
            split
            · rename_i isTriple
              obtain ⟨isQuote, opens⟩ := Bool.and_eq_true_iff.mp isTriple
              have isAscii := ascii_of_isQuote isQuote
              refine later.cons further (placeOf_le bytes after)
                (isBoundary_of_byte here (isContinuation_of_ascii isAscii)) ?_
              rw [skip?_of_isQuote isQuote, scanLiteral, if_pos opens] at skipped
              obtain rfl := Option.some.inj skipped
              rcases scanTriple_ends byte false ((bytes.drop (place + 1)).drop 2) with
                atEnd | behindQuote
              · rw [atEnd, placeOf, List.length_nil, Nat.sub_zero]
                exact isBoundary_length bytes
              · exact isBoundary_behind isEncoded ((behindQuote.trans
                  (List.drop_suffix 2 _)).trans (List.drop_suffix (place + 1) bytes)) isAscii
            · exact later.of_le (Nat.le_of_lt further)
      · rw [spansFrom_of_le (Nat.le_of_not_lt inside)]
        exact .nil bytes place

end Spans

/-! ## Lines -/

section Lines

/-- Where the next line feed is found, if there is one. -/
theorem find?_lineFeed_cases (here : Bytes) :
    (find? (·.head? = some lineFeed) here = none ∧ ∀ byte ∈ here, byte ≠ lineFeed) ∨
      ∃ line rest, here = line ++ lineFeed :: rest ∧ (∀ byte ∈ line, byte ≠ lineFeed) ∧
        find? (·.head? = some lineFeed) here = some line.length := by
  induction here with
  | nil => exact .inl ⟨rfl, by simp⟩
  | cons byte here ih =>
      by_cases isFeed : byte = lineFeed
      · exact .inr ⟨[], here, by rw [isFeed]; rfl, by simp, by simp [find?, isFeed]⟩
      · have later : find? (·.head? = some lineFeed) (byte :: here) =
            (find? (·.head? = some lineFeed) here).map (· + 1) := by
          simp [find?, isFeed]
        rcases ih with ⟨isNone, noFeed⟩ | ⟨line, rest, rfl, noFeed, found⟩
        · refine .inl ⟨by rw [later, isNone]; rfl, fun other member => ?_⟩
          rcases List.mem_cons.mp member with rfl | inHere
          · exact isFeed
          · exact noFeed other inHere
        · refine .inr ⟨byte :: line, rest, rfl, fun other member => ?_, by rw [later, found]; rfl⟩
          rcases List.mem_cons.mp member with rfl | inLine
          · exact isFeed
          · exact noFeed other inLine

variable {spans : List (Nat × Nat)}

/-- The lines of a text are cut without a fault. -/
theorem carriagesAt_eq (spans : List (Nat × Nat)) (isEncoded : IsEncoded bytes) :
    carriagesAt spans bytes = .ok (carriages spans 0 (splitAfter (· = lineFeed) bytes)) := by
  refine loop_eq
    (fun carrying : Carrying =>
      carrying.offset ≤ bytes.length ∧ isBoundary bytes carrying.offset = true)
    (fun carrying => carrying.carried ++
      carriages spans carrying.offset (splitAfter (· = lineFeed) (bytes.drop carrying.offset)))
    ?_ ?_ ⟨Nat.zero_le _, isBoundary_zero bytes⟩
  · intro carrying _ atEnd
    rw [List.drop_eq_nil_of_le atEnd, splitAfter_nil, carriages, List.append_nil]
  · rintro ⟨offset, carried⟩ ⟨within, atOffset⟩ inside
    dsimp only at within atOffset inside
    rw [lineStep, bytesFrom_eq within, ok_bind]
    rcases find?_lineFeed_cases (bytes.drop offset) with
      ⟨isNone, noFeed⟩ | ⟨line, rest, here, noFeed, found⟩
    · have nonempty : bytes.drop offset ≠ [] := by
        rw [ne_eq, List.drop_eq_nil_iff]
        exact Nat.not_le.mpr inside
      have isLast : splitAfter (· = lineFeed) (bytes.drop offset) = [bytes.drop offset] := by
        have single := splitAfter_body nonempty
          (fun byte member => decide_eq_false (noFeed byte member)) []
        rwa [List.append_nil] at single
      rw [isNone, Option.elim_none]
      dsimp only
      rw [textBetween_eq atOffset (isBoundary_length bytes) within (Nat.le_refl _), ok_bind,
        List.take_length]
      refine .goOn inside ⟨Nat.le_refl _, isBoundary_length bytes⟩ ?_
      dsimp only
      rw [isLast, List.drop_length, splitAfter_nil]
      simp [carriages]
    · have isLine : bytes.drop offset = (line ++ [lineFeed]) ++ rest := by
        rw [here, List.append_assoc]
        rfl
      have atFeed : bytes.drop (offset + line.length) = lineFeed :: rest := by
        rw [← List.drop_drop, here, List.drop_left]
      have isStop : offset + line.length + 1 = offset + (line ++ [lineFeed]).length := by
        rw [List.length_append, List.length_singleton, Nat.add_assoc]
      have atStop := isBoundary_succ isEncoded atFeed (by decide)
      have isInside : offset + line.length + 1 ≤ bytes.length := lt_of_drop_eq_cons atFeed
      rw [found, Option.elim_some]
      dsimp only
      rw [textBetween_eq atOffset atStop (by omega) isInside, ok_bind, isStop,
        drop_take_of_drop isLine, ← isStop]
      refine .goOn (by dsimp only; omega) ⟨isInside, atStop⟩ ?_
      dsimp only
      rw [here, splitAfter_line (fun byte member => decide_eq_false (noFeed byte member))
        (decide_eq_true rfl), drop_succ atFeed, carriages, List.append_assoc, isStop]
      rfl

/-- Wrapping by places is wrapping. -/
theorem wrapAsyncAt_eq (name code : String) :
    wrapAsyncAt name code = .ok (wrapAsync name code) := by
  rw [wrapAsyncAt, spansAt_eq, ok_bind, carriagesAt_eq _ (isEncoded_encode code)]
  rfl

end Lines

/-! ## Scans of any text -/

/-- Whatever the text, rewriting by places comes to an end without a fault and is rewriting, if the
name has a character; and so do wrapping and the search for tripled literals, which finds stretches
of the text. -/
theorem scansByPlaces (flavour : Flavour) (name replacement code : String) :
    (name ≠ "" →
      rewriteCallsAt flavour name replacement code =
        .ok (rewriteCalls flavour name replacement code)) ∧
    (∀ entry, wrapAsyncAt entry code = .ok (wrapAsync entry code)) ∧
    spansAt (encode code) = .ok (tripleSpans 0 (encode code)) ∧
    AreStretches (encode code) 0 (tripleSpans 0 (encode code)) :=
  ⟨fun named => rewriteCallsAt_eq flavour named replacement code,
    fun entry => wrapAsyncAt_eq entry code, spansAt_eq (encode code),
    areStretches_spansFrom (isEncoded_encode code) 0⟩

/-- A name beyond ASCII is rewritten once and left once, where a backslash is the last byte. -/
theorem scansByPlaces_wide :
    "é" ≠ "" ∧
      rewriteCallsAt .python "é" "à" "é('ü') + é(é('\\" =
        .ok ⟨"await à('ü') + é(é('\\", 1, 0⟩ ∧
      spansAt (encode "é('''ü''') + '\\") = .ok (tripleSpans 0 (encode "é('''ü''') + '\\")) :=
  ⟨by decide,
    ((scansByPlaces .python "é" "à" "é('ü') + é(é('\\").1 (by decide)).trans
      (congrArg Except.ok (by decide +kernel)),
    (scansByPlaces .python "é" "à" _).2.2.1⟩

/-- A name without a character is found again and again before an open parenthesis. -/
example : rewriteCallsAt .python "" "x" "(" = .error .stuck := by decide +kernel

end Polyglot.Scan.Cursor
