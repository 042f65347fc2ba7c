import Polyglot.Proofs.Text.Encoding

/-!
# Scans by places

A scan by places knows a text as a whole and moves a place through it.  It reads single bytes and
stretches of the text, and each read is checked: there has to be a byte, the bounds of a stretch
have to be in order and in the text, and text is cut between characters only.  A loop is checked to
get further with every step.
-/

namespace Polyglot.Scan.Cursor

open Text

/-- What can go wrong in a scan by places. -/
inductive Fault where
  /-- Something behind the end of the text is read. -/
  | outside
  /-- The bounds of a stretch are not in order. -/
  | disordered
  /-- A text is cut inside of a character. -/
  | insideCharacter
  /-- More parentheses are closed than were opened. -/
  | underflow
  /-- A step does not get further, or a text inside of another is not shorter. -/
  | stuck
  deriving Repr, DecidableEq

/-! ## Bytes and stretches -/

/-- The byte at a place. -/
def byteAt (bytes : Bytes) (place : Nat) : Except Fault UInt8 :=
  match bytes[place]? with
  | some byte => .ok byte
  | none => .error .outside

/-- Whether a byte before a place passes a test, if there is one. -/
def followsAt (test : UInt8 → Bool) (bytes : Bytes) : Nat → Except Fault Bool
  | 0 => .ok false
  | place + 1 => do return test (← byteAt bytes place)

/-- The bytes from a place on. -/
def bytesFrom (bytes : Bytes) (place : Nat) : Except Fault Bytes :=
  if place ≤ bytes.length then .ok (bytes.drop place) else .error .outside

/-- The bytes between two places. -/
def bytesBetween (bytes : Bytes) (start stop : Nat) : Except Fault Bytes :=
  if stop < start then .error .disordered
  else if bytes.length < stop then .error .outside
  else .ok ((bytes.take stop).drop start)

/-- Whether a byte is one of a longer character, but not its first. -/
def isContinuation (byte : UInt8) : Bool := 0x80 ≤ byte && byte < 0xC0

/-- Whether a place in a text is between two characters, or at an end of the text. -/
def isBoundary (bytes : Bytes) (place : Nat) : Bool :=
  place = 0 ||
    match bytes[place]? with
    | some byte => !isContinuation byte
    | none => place = bytes.length

/-- The text between two places. -/
def textBetween (bytes : Bytes) (start stop : Nat) : Except Fault Bytes :=
  if isBoundary bytes start && isBoundary bytes stop then bytesBetween bytes start stop
  else .error .insideCharacter

/-- How far into a sequence the first place is that passes a test. -/
def find? (test : Bytes → Bool) : Bytes → Option Nat
  | [] => none
  | byte :: rest => if test (byte :: rest) then some 0 else (find? test rest).map (· + 1)

/-! ## Loops -/

/-- What a step of a loop comes to. -/
inductive Step (State Result : Type) where
  | goOn (state : State)
  | stop (result : Result)

section Loops

variable {State Result : Type}

/-- Makes steps up to the end of a text. -/
def loop (bytes : Bytes) (place : State → Nat) (step : State → Except Fault (Step State Result))
    (atEnd : State → Except Fault Result) (state : State) : Except Fault Result :=
  if place state < bytes.length then
    match step state with
    | .error fault => .error fault
    | .ok (.stop result) => .ok result
    | .ok (.goOn next) =>
      if place state < place next then loop bytes place step atEnd next else .error .stuck
  else atEnd state
termination_by bytes.length - place state
decreasing_by omega

/-- What a step has to come to for a loop to have such a result: that result, or a state that is
further on and has the same result. -/
inductive Leads (place : State → Nat) (holds : State → Prop) (result : State → Result)
    (state : State) : Except Fault (Step State Result) → Prop where
  | stop {found : Result} (same : found = result state) :
      Leads place holds result state (.ok (.stop found))
  | goOn {next : State} (further : place state < place next) (kept : holds next)
      (same : result next = result state) : Leads place holds result state (.ok (.goOn next))

/-- A loop comes to an end without a fault if each of its steps leads to the result. -/
theorem loop_eq {bytes : Bytes} {place : State → Nat}
    {step : State → Except Fault (Step State Result)} {atEnd : State → Except Fault Result}
    (holds : State → Prop) (result : State → Result)
    (ends : ∀ state, holds state → bytes.length ≤ place state → atEnd state = .ok (result state))
    (leads : ∀ state, holds state → place state < bytes.length →
      Leads place holds result state (step state))
    {state : State} (start : holds state) :
    loop bytes place step atEnd state = .ok (result state) := by
  induction left : bytes.length - place state using Nat.strongRecOn generalizing state with
  | ind left ih =>
      rw [loop]
      by_cases inside : place state < bytes.length
      · rw [if_pos inside]
        have leading := leads state start inside
        generalize step state = stepped at leading
        cases leading with
        | stop same => rw [same]
        | goOn further kept same =>
            dsimp only
            rw [if_pos further, ← same]
            exact ih _ (by omega) kept rfl
      · rw [if_neg inside]
        exact ends state start (Nat.le_of_not_lt inside)

end Loops

/-! ## Reads that do not fail -/

section Reads

variable {bytes first rest : Bytes} {byte : UInt8} {place start stop : Nat}

@[simp] theorem ok_bind {Value Result : Type} (value : Value)
    (next : Value → Except Fault Result) : (Except.ok value >>= next) = next value := rfl

@[simp] theorem pure_eq {Value : Type} (value : Value) :
    (pure value : Except Fault Value) = .ok value := rfl

/-- The byte that a text is left with at a place is the one that indexing finds. -/
theorem getElem?_of_drop (here : bytes.drop place = byte :: rest) :
    bytes[place]? = some byte := by
  rw [← List.head?_drop, here, List.head?_cons]

theorem byteAt_eq (here : bytes.drop place = byte :: rest) : byteAt bytes place = .ok byte := by
  rw [byteAt, getElem?_of_drop here]

theorem lt_of_drop_eq_cons (here : bytes.drop place = byte :: rest) : place < bytes.length := by
  apply Nat.lt_of_not_le
  intro beyond
  rw [List.drop_eq_nil_of_le beyond] at here
  contradiction

/-- Whatever place is not at the end, a byte stands there. -/
theorem exists_here (inside : place < bytes.length) :
    ∃ byte, bytes.drop place = byte :: bytes.drop (place + 1) :=
  ⟨bytes[place], List.drop_eq_getElem_cons inside⟩

theorem drop_succ (here : bytes.drop place = byte :: rest) : bytes.drop (place + 1) = rest := by
  rw [← List.drop_drop, here, List.drop_one, List.tail_cons]

/-- What stands between two places. -/
theorem drop_take_of_drop {passed after : Bytes} (here : bytes.drop place = passed ++ after) :
    (bytes.take (place + passed.length)).drop place = passed := by
  rw [List.drop_take, here, Nat.add_sub_cancel_left, List.take_left]

theorem length_add_le_of_drop {passed after : Bytes} (nonempty : passed ≠ [])
    (here : bytes.drop place = passed ++ after) : place + passed.length ≤ bytes.length := by
  have some := List.length_pos_iff.mpr nonempty
  have whole := congrArg List.length here
  rw [List.length_drop, List.length_append] at whole
  omega

theorem bytesFrom_eq (inside : place ≤ bytes.length) :
    bytesFrom bytes place = .ok (bytes.drop place) := if_pos inside

theorem bytesBetween_eq (ordered : start ≤ stop) (inside : stop ≤ bytes.length) :
    bytesBetween bytes start stop = .ok ((bytes.take stop).drop start) := by
  rw [bytesBetween, if_neg (Nat.not_lt.mpr ordered), if_neg (Nat.not_lt.mpr inside)]

theorem textBetween_eq (atStart : isBoundary bytes start = true)
    (atStop : isBoundary bytes stop = true) (ordered : start ≤ stop)
    (inside : stop ≤ bytes.length) :
    textBetween bytes start stop = .ok ((bytes.take stop).drop start) := by
  rw [textBetween, atStart, atStop, Bool.and_self, if_pos rfl, bytesBetween_eq ordered inside]

/-- A byte before a place is the first of those before it, read backwards. -/
theorem followsAt_eq (test : UInt8 → Bool) (inside : place ≤ bytes.length) :
    followsAt test bytes place = .ok ((bytes.take place).reverse.head?.any test) := by
  cases place with
  | zero => rfl
  | succ place =>
      obtain ⟨byte, here⟩ := exists_here inside
      have isLast : bytes.take (place + 1) = bytes.take place ++ [byte] := by
        rw [List.take_add, here]
        rfl
      rw [followsAt, byteAt_eq here, isLast, List.reverse_append]
      rfl

end Reads

/-! ## Boundaries -/

section Boundaries

variable {bytes rest : Bytes} {byte : UInt8} {place start stop : Nat}

@[simp] theorem isBoundary_zero (bytes : Bytes) : isBoundary bytes 0 = true := rfl

@[simp] theorem isBoundary_length (bytes : Bytes) : isBoundary bytes bytes.length = true := by
  simp [isBoundary]

theorem isBoundary_of_byte (here : bytes.drop place = byte :: rest)
    (leads : isContinuation byte = false) : isBoundary bytes place = true := by
  simp only [isBoundary, getElem?_of_drop here, leads, Bool.not_false, Bool.or_true]

theorem isContinuation_of_ascii (isAscii : byte.toNat < 0x80) : isContinuation byte = false := by
  rw [isContinuation, Bool.and_eq_false_iff]
  left
  rw [decide_eq_false_iff_not, UInt8.le_iff_toNat_le]
  exact Nat.not_le.mpr isAscii

/-- The first byte of a text is the first one of a character. -/
theorem isContinuation_of_isEncoded (isEncoded : IsEncoded (byte :: rest)) :
    isContinuation byte = false := by
  rcases isEncoded.head with isAscii | isLead
  · exact isContinuation_of_ascii isAscii
  · rw [isContinuation, Bool.and_eq_false_iff]
    right
    rw [decide_eq_false_iff_not, UInt8.lt_iff_toNat_lt]
    exact Nat.not_lt.mpr isLead

theorem lead_of_not_isContinuation (leads : isContinuation byte = false) :
    byte.toNat < 0x80 ∨ 0xC0 ≤ byte.toNat := by
  rw [isContinuation, Bool.and_eq_false_iff, decide_eq_false_iff_not, decide_eq_false_iff_not,
    UInt8.le_iff_toNat_le, UInt8.lt_iff_toNat_lt] at leads
  exact leads.imp Nat.lt_of_not_le Nat.le_of_not_lt

/-- The boundaries of a text are the places where it can be cut into two texts. -/
theorem isBoundary_iff (isEncoded : IsEncoded bytes) (inside : place ≤ bytes.length) :
    isBoundary bytes place = true ↔
      IsEncoded (bytes.take place) ∧ IsEncoded (bytes.drop place) := by
  cases here : bytes.drop place with
  | nil =>
      have isEnd : place = bytes.length :=
        Nat.le_antisymm inside (List.drop_eq_nil_iff.mp here)
      rw [isEnd, isBoundary_length, List.take_length]
      exact iff_of_true rfl ⟨isEncoded, isEncoded_nil⟩
  | cons byte rest =>
      constructor
      · intro atPlace
        cases place with
        | zero =>
            obtain rfl : bytes = byte :: rest := here
            exact ⟨isEncoded_nil, isEncoded⟩
        | succ place =>
            have leads : isContinuation byte = false := by
              simpa [isBoundary, getElem?_of_drop here] using atPlace
            rw [← List.take_append_drop (place + 1) bytes, here] at isEncoded
            exact isEncoded.cut_of_lead (lead_of_not_isContinuation leads)
      · rintro ⟨-, isRest⟩
        exact isBoundary_of_byte here (isContinuation_of_isEncoded isRest)

/-- What stands between two boundaries of a text is a text. -/
theorem isEncoded_between (isEncoded : IsEncoded bytes) (atStart : isBoundary bytes start = true)
    (atStop : isBoundary bytes stop = true) (ordered : start ≤ stop)
    (inside : stop ≤ bytes.length) : IsEncoded ((bytes.take stop).drop start) := by
  obtain ⟨-, isRest⟩ := (isBoundary_iff isEncoded (Nat.le_trans ordered inside)).mp atStart
  obtain ⟨isWhole, -⟩ := (isBoundary_iff isEncoded inside).mp atStop
  obtain ⟨count, rfl⟩ := Nat.exists_eq_add_of_le ordered
  rw [List.take_add] at isWhole
  rw [List.drop_take, Nat.add_sub_cancel_left]
  cases within : (bytes.drop start).take count with
  | nil => exact isEncoded_nil
  | cons byte more =>
      have isHead : ∃ rest, bytes.drop start = byte :: rest := by
        obtain ⟨behind, whole⟩ := List.take_prefix count (bytes.drop start)
        exact ⟨more ++ behind, by rw [← whole, within, List.cons_append]⟩
      obtain ⟨rest, here⟩ := isHead
      rw [here] at isRest
      rw [within] at isWhole
      exact (isWhole.cut_of_lead isRest.head).2

/-- A text may be cut after an ASCII character. -/
theorem isBoundary_succ (isEncoded : IsEncoded bytes) (here : bytes.drop place = byte :: rest)
    (isAscii : byte.toNat < 0x80) : isBoundary bytes (place + 1) = true := by
  have isLater := drop_succ here
  cases rest with
  | nil =>
      have isEnd : place + 1 = bytes.length :=
        Nat.le_antisymm (lt_of_drop_eq_cons here) (List.drop_eq_nil_iff.mp isLater)
      rw [isEnd, isBoundary_length]
  | cons next rest =>
      rw [← List.take_append_drop place bytes, here] at isEncoded
      exact isBoundary_of_byte isLater (isContinuation_of_isEncoded (isEncoded.cut isAscii).2)

end Boundaries

end Polyglot.Scan.Cursor
