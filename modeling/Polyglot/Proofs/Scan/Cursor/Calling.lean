import Polyglot.Proofs.Scan.Cursor.Skipping
import Polyglot.Proofs.Scan.Sites

/-!
# Calls by places

A call is looked for at a place of a text: the name and the gap after it are read forwards, what
stands before it backwards, and its parenthesis is followed to the one that closes it.
-/

namespace Polyglot.Scan.Cursor

open Text

/-- Goes back over the bytes before a place that pass a test. -/
def backWhile (test : UInt8 → Bool) (bytes : Bytes) : Nat → Except Fault Nat
  | 0 => .ok 0
  | place + 1 => do
    if test (← byteAt bytes place) then backWhile test bytes place else return place + 1

/-- A step over a gap. -/
def gapStep (bytes : Bytes) (place : Nat) : Except Fault (Step Nat Nat) := do
  if isGap (← byteAt bytes place) then return .goOn (place + 1) else return .stop place

/-- The word that ends at a place. -/
def wordBefore (flavour : Flavour) (bytes : Bytes) (stop : Nat) : Except Fault Bytes := do
  bytesBetween bytes (← backWhile flavour.isWordByte bytes stop) stop

/-- Whether what stands before a place keeps a name there from being called plainly. -/
def isBlockedAt (flavour : Flavour) (bytes : Bytes) (place : Nat) : Except Fault Bool := do
  let before ← backWhile isAsciiBlank bytes place
  if ← followsAt (· = ascii '.') bytes before then return true
  else return blockingWords.contains (← wordBefore flavour bytes before)

/-- If a bare call of `name` begins at a place, the place of its parenthesis. -/
def callSiteAt (flavour : Flavour) (name bytes : Bytes) (place : Nat) :
    Except Fault (Option Nat) := do
  if !name.isPrefixOf (← bytesFrom bytes place) then return none
  else if ← followsAt flavour.isWordByte bytes place then return none
  else if bytes[place + name.length]?.any flavour.isWordByte then return none
  else
    let opening ← loop bytes id (gapStep bytes) .ok (place + name.length)
    if bytes[opening]? ≠ some (ascii '(') then return none
    else if ← isBlockedAt flavour bytes place then return none
    else return some opening

/-- How far the search for a closing parenthesis is. -/
structure Nesting where
  place : Nat
  /-- The number of parentheses that are open. -/
  depth : Nat
  deriving Repr, DecidableEq

/-- A step of the search for a closing parenthesis. -/
def closingStep (flavour : Flavour) (bytes : Bytes) (nesting : Nesting) :
    Except Fault (Step Nesting (Option Nat)) := do
  match ← skipAt flavour bytes nesting.place with
  | some after => return .goOn { nesting with place := after }
  | none =>
    let byte ← byteAt bytes nesting.place
    if byte = ascii '(' then return .goOn ⟨nesting.place + 1, nesting.depth + 1⟩
    else if byte = ascii ')' then
      match nesting.depth with
      | 0 => .error .underflow
      | 1 => return .stop (some nesting.place)
      | depth + 2 => return .goOn ⟨nesting.place + 1, depth + 1⟩
    else return .goOn { nesting with place := nesting.place + 1 }

/-- The place of the parenthesis that closes the one at a place. -/
def closingAt (flavour : Flavour) (bytes : Bytes) (opening : Nat) : Except Fault (Option Nat) :=
  loop bytes Nesting.place (closingStep flavour bytes) (fun _ => .ok none) ⟨opening, 0⟩

/-- Whether an argument text is one terminated literal with nothing but blank characters around
it. -/
def isSingleLiteralAt (flavour : Flavour) (inside : Bytes) : Except Fault Bool := do
  let trimmed := encode (trim (decode inside))
  match trimmed.head? with
  | none => return false
  | some byte =>
    if !flavour.isQuote byte then return false
    else
      let literal ← literalAt flavour trimmed 0
      return literal.terminated && literal.stop = trimmed.length

variable {flavour : Flavour} {name bytes rest inside : Bytes} {byte : UInt8} {place opening : Nat}

/-! ## What stands before a call -/

section Before

/-- Where going back stops, and what is between: it passes the test, and what is before does not. -/
theorem backWhile_eq (test : UInt8 → Bool) (inside : place ≤ bytes.length) :
    ∃ stop, backWhile test bytes place = .ok stop ∧ stop ≤ place ∧
      (bytes.take stop).reverse = (bytes.take place).reverse.dropWhile test ∧
      (bytes.take place).drop stop = ((bytes.take place).reverse.takeWhile test).reverse := by
  induction place with
  | zero => exact ⟨0, rfl, Nat.le_refl 0, rfl, rfl⟩
  | succ place ih =>
      obtain ⟨byte, here⟩ := exists_here inside
      have isLast : bytes.take (place + 1) = bytes.take place ++ [byte] := by
        rw [List.take_add, here]
        rfl
      rw [backWhile, byteAt_eq here, ok_bind, isLast, List.reverse_concat]
      by_cases passes : test byte = true
      · obtain ⟨stop, goesBack, notBehind, isBefore, isBetween⟩ := ih (Nat.le_of_succ_le inside)
        have isIn : stop ≤ (bytes.take place).length := by
          rw [List.length_take]
          omega
        refine ⟨stop, by rw [if_pos passes, goesBack], Nat.le_succ_of_le notBehind, ?_, ?_⟩
        · rw [List.dropWhile_cons_of_pos passes, isBefore]
        · rw [List.takeWhile_cons_of_pos passes, List.reverse_cons, ← isBetween,
            List.drop_append_of_le_length isIn]
      · refine ⟨place + 1, by rw [if_neg passes]; rfl, Nat.le_refl _, ?_, ?_⟩
        · rw [List.dropWhile_cons_of_neg passes, isLast, List.reverse_concat]
        · rw [List.takeWhile_cons_of_neg passes, ← isLast, List.reverse_nil]
          exact List.drop_eq_nil_of_le (List.length_take_le ..)

theorem wordBefore_eq (flavour : Flavour) (inside : place ≤ bytes.length) :
    wordBefore flavour bytes place =
      .ok ((bytes.take place).reverse.takeWhile flavour.isWordByte).reverse := by
  obtain ⟨start, goesBack, ordered, -, isWord⟩ := backWhile_eq flavour.isWordByte inside
  rw [wordBefore, goesBack, ok_bind, bytesBetween_eq ordered inside, isWord]

/-- What stands before a place is read without a fault. -/
theorem isBlockedAt_eq (flavour : Flavour) (inside : place ≤ bytes.length) :
    isBlockedAt flavour bytes place = .ok (isBlocked flavour (bytes.take place).reverse) := by
  obtain ⟨before, goesBack, notBehind, isBefore, -⟩ := backWhile_eq isAsciiBlank inside
  have within := Nat.le_trans notBehind inside
  rw [isBlockedAt, goesBack, ok_bind, followsAt_eq _ within, ok_bind, wordBefore_eq flavour within,
    ok_bind, isBefore, isBlocked]
  generalize (bytes.take place).reverse.dropWhile isAsciiBlank = passed
  have isPoint : (passed.head?.any (· = ascii '.')) = decide (passed.head? = some (ascii '.')) := by
    cases passed.head? <;> simp
  rw [isPoint]
  by_cases atPoint : passed.head? = some (ascii '.') <;> simp [atPoint]

end Before

/-! ## Call sites -/

section CallSites

/-- The gap after a name is passed over without a fault. -/
theorem loop_gapStep (inside : place ≤ bytes.length) :
    loop bytes id (gapStep bytes) .ok place =
      .ok (place + ((bytes.drop place).takeWhile isGap).length) := by
  refine loop_eq (fun place => place ≤ bytes.length)
    (fun place => place + ((bytes.drop place).takeWhile isGap).length) ?_ ?_ inside
  · intro place _ (atEnd : bytes.length ≤ place)
    rw [List.drop_eq_nil_of_le atEnd]
    rfl
  · intro place _ (within : place < bytes.length)
    obtain ⟨byte, here⟩ := exists_here within
    rw [gapStep, byteAt_eq here, ok_bind]
    split
    · rename_i inGap
      refine .goOn (Nat.lt_succ_self place) within ?_
      rw [here, List.takeWhile_cons_of_pos inGap, List.length_cons]
      omega
    · rename_i notGap
      refine .stop ?_
      rw [here, List.takeWhile_cons_of_neg notGap]
      rfl

/-- What stands behind a gap. -/
theorem getElem?_gap (bytes : Bytes) (place : Nat) :
    bytes[place + ((bytes.drop place).takeWhile isGap).length]? =
      ((bytes.drop place).dropWhile isGap).head? := by
  generalize isAfter : bytes.drop place = after
  have isBehind : after.drop (after.takeWhile isGap).length = after.dropWhile isGap := by
    nth_rewrite 2 [← List.takeWhile_append_dropWhile (p := isGap) (l := after)]
    exact List.drop_left
  rw [← isBehind, List.head?_drop, ← isAfter, List.getElem?_drop]

/-- A call is found without a fault. -/
theorem callSiteAt_eq (inside : place ≤ bytes.length) :
    callSiteAt flavour name bytes place =
      .ok ((callSite? flavour name (bytes.take place).reverse (bytes.drop place)).map
        (place + ·.name.length)) := by
  rw [callSiteAt, bytesFrom_eq inside, ok_bind, followsAt_eq _ inside, ok_bind, callSite?]
  cases starts : name.isPrefixOf (bytes.drop place) with
  | false => rfl
  | true =>
      have fits : place + name.length ≤ bytes.length := by
        have shorter := length_le_of_isPrefixOf starts
        rw [List.length_drop] at shorter
        omega
      cases (bytes.take place).reverse.head?.any flavour.isWordByte with
      | true => rfl
      | false =>
          have isAfter : bytes[place + name.length]? = (bytes.drop (place + name.length)).head? :=
            List.head?_drop.symm
          rw [Bool.not_true, if_neg Bool.false_ne_true, if_neg Bool.false_ne_true,
            Bool.not_false, Bool.and_self, if_pos rfl, List.drop_drop, isAfter,
            loop_gapStep fits, ok_bind, getElem?_gap, isBlockedAt_eq flavour inside, ok_bind]
          dsimp only
          split
          · rfl
          · cases (bytes.drop (place + name.length)).dropWhile isGap with
            | nil => rfl
            | cons byte inside =>
                rw [List.head?_cons]
                by_cases opens : byte = ascii '('
                · rw [if_neg (by simp [opens])]
                  cases isBlocked flavour (bytes.take place).reverse with
                  | true => simp
                  | false => simp [opens, Nat.add_assoc]
                · rw [if_pos (by simp [opens])]
                  simp [opens]

end CallSites

/-! ## Arguments -/

section Arguments

/-- While parentheses are open, the search for the one that closes the first of them does not close
more than are open. -/
theorem loop_closingStep (flavour : Flavour) (bytes : Bytes) (place depth : Nat) :
    loop bytes Nesting.place (closingStep flavour bytes) (fun _ => .ok none) ⟨place, depth + 1⟩ =
      .ok ((closing? flavour depth (bytes.drop place)).map (placeOf bytes)) := by
  refine loop_eq (fun nesting : Nesting => 0 < nesting.depth) (fun nesting =>
    (closing? flavour (nesting.depth - 1) (bytes.drop nesting.place)).map (placeOf bytes)) ?_ ?_
    (Nat.succ_pos depth)
  · intro nesting _ atEnd
    rw [List.drop_eq_nil_of_le atEnd, closing?]
    rfl
  · rintro ⟨place, _ | depth⟩ isOpen inside
    · contradiction
    · obtain ⟨byte, here⟩ := exists_here inside
      dsimp only at here ⊢
      rw [closingStep, skipAt_eq here, ok_bind]
      cases skipped : skip? flavour byte (bytes.drop (place + 1)) with
      | some after =>
          obtain ⟨further, isAfter⟩ := further_of_skip? here skipped
          refine .goOn further isOpen ?_
          rw [here, closing?_of_skip skipped, isAfter]
      | none =>
          have goesOn : closing? flavour depth (byte :: bytes.drop (place + 1)) = _ :=
            closing?_of_code skipped
          rw [Option.map_none]
          dsimp only
          rw [byteAt_eq here, ok_bind]
          split
          · rename_i opens
            refine .goOn (Nat.lt_succ_self place) (Nat.succ_pos _) ?_
            dsimp only
            rw [here, Nat.add_sub_cancel, Nat.add_sub_cancel, goesOn, if_pos opens]
          · rename_i notOpen
            split
            · rename_i closes
              rw [if_neg notOpen, if_pos closes] at goesOn
              cases depth with
              | zero =>
                  refine .stop ?_
                  have isPlace := placeOf_drop (Nat.le_of_lt inside)
                  rw [here] at isPlace
                  rw [here, Nat.add_sub_cancel, goesOn, Option.map_some, isPlace]
              | succ depth =>
                  refine .goOn (Nat.lt_succ_self place) (Nat.succ_pos _) ?_
                  dsimp only
                  rw [here, Nat.add_sub_cancel, Nat.add_sub_cancel, goesOn]
            · rename_i notClose
              refine .goOn (Nat.lt_succ_self place) isOpen ?_
              rw [here, Nat.add_sub_cancel, goesOn, if_neg notOpen, if_neg notClose]

/-- The end of the arguments that begin after a parenthesis is found without a fault. -/
theorem closingAt_eq (here : bytes.drop opening = ascii '(' :: inside) :
    closingAt flavour bytes opening =
      .ok ((arguments? flavour inside).map (opening + 1 + ·.inside.length)) := by
  have isPlain : flavour.isPlain (ascii '(') = true := by cases flavour <;> decide
  have within := lt_of_drop_eq_cons here
  have opens : closingStep flavour bytes ⟨opening, 0⟩ = .ok (.goOn ⟨opening + 1, 1⟩) := by
    rw [closingStep, skipAt_eq here, ok_bind, skip?_of_isPlain isPlain, Option.map_none]
    dsimp only
    rw [byteAt_eq here]
    rfl
  rw [closingAt, loop, if_pos within, opens]
  dsimp only
  rw [if_pos (Nat.lt_succ_self opening), loop_closingStep, drop_succ here, arguments?,
    Option.map_map]
  refine congrArg Except.ok (Option.map_congr fun closed isClosed => ?_)
  have shorter := length_closing?_le isClosed
  have whole := congrArg List.length here
  simp only [List.length_drop, List.length_cons] at whole
  simp only [placeOf, Function.comp_apply, List.length_take]
  omega

/-- Whether the arguments are one literal is told without a fault. -/
theorem isSingleLiteralAt_eq (flavour : Flavour) (inside : Bytes) :
    isSingleLiteralAt flavour inside = .ok (isSingleLiteral flavour inside) := by
  rw [isSingleLiteralAt, isSingleLiteral]
  cases encode (trim (decode inside)) with
  | nil => rfl
  | cons byte rest =>
      rw [List.head?_cons]
      dsimp only
      cases flavour.isQuote byte with
      | false => rfl
      | true =>
          have isLiteral := @literalAt_eq flavour (byte :: rest) rest byte 0 rfl
          have shorter := length_scanLiteral_le flavour byte rest
          rw [Bool.not_true, if_neg Bool.false_ne_true, isLiteral, ok_bind, Bool.true_and]
          refine congrArg Except.ok ?_
          generalize scanLiteral flavour byte rest = literal at shorter
          obtain ⟨after, terminated⟩ := literal
          have atEnd : placeOf (byte :: rest) after = rest.length + 1 ↔ after = [] := by
            rw [placeOf, ← List.length_eq_zero_iff, List.length_cons]
            dsimp only at shorter
            omega
          rw [LiteralStop.of, Bool.eq_iff_iff]
          simp [atEnd, and_comm]

end Arguments

end Polyglot.Scan.Cursor
