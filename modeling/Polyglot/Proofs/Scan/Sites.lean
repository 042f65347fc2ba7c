import Polyglot.Scan.Rewriting
import Polyglot.Proofs.Scan.Enclosed

/-!
# The sites of a text

One pass over a text goes through its code positions, those in no literal and no comment.  The
sites of a name are the bare calls of it that begin at such a position and whose parenthesis is
closed.  What is enclosed in parentheses has the same sites in the text and by itself.
-/

namespace Polyglot.Scan

open Text

/-! ## Code positions and sites -/

/-- A position in a text. -/
structure Place where
  /-- What stands before it, last byte first. -/
  before : Bytes
  /-- What stands from it on. -/
  here : Bytes
  deriving Repr, DecidableEq

/-- The code positions of a text that follows the bytes `before`, last byte first. -/
def codePlaces (flavour : Flavour) (before here : Bytes) : List Place :=
  match here with
  | [] => []
  | byte :: rest =>
    match _skipped : skip? flavour byte rest with
    | some after =>
      codePlaces flavour
        (((byte :: rest).take (rest.length + 1 - after.length)).reverse ++ before) after
    | none => ⟨before, byte :: rest⟩ :: codePlaces flavour (byte :: before) rest
termination_by here.length
decreasing_by
  · exact Nat.lt_succ_of_le (length_skip?_le _skipped)
  · simp

/-- A stretch of a text. -/
structure Stretch where
  /-- The number of bytes before it. -/
  start : Nat
  /-- The number of bytes up to its end. -/
  stop : Nat
  deriving Repr, DecidableEq

/-- A bare call whose parenthesis is closed: the stretch of its name with the gap after it. -/
structure Site extends Stretch where
  /-- What stands between the two parentheses. -/
  argument : Bytes
  deriving Repr, DecidableEq

/-- A site some bytes further on. -/
def Site.shift (bytes : Nat) (site : Site) : Site :=
  { site with start := site.start + bytes, stop := site.stop + bytes }

/-- The site that begins at a position. -/
def site? (flavour : Flavour) (name : Bytes) (place : Place) : Option Site :=
  (callSite? flavour name place.before place.here).bind fun callee =>
    (arguments? flavour callee.inside).map fun found =>
      ⟨⟨place.before.length, place.before.length + callee.name.length⟩, found.inside⟩

/-- The sites of `name` in a text that follows the bytes `before`, last byte first. -/
def sites (flavour : Flavour) (name before here : Bytes) : List Site :=
  (codePlaces flavour before here).filterMap (site? flavour name)

/-- A name that is an ASCII identifier. -/
def Flavour.IsIdentifier (flavour : Flavour) (name : Bytes) : Prop :=
  name ≠ [] ∧ ∀ byte ∈ name, flavour.isWordByte byte = true ∧ byte.toNat < 0x80

instance (flavour : Flavour) (name : Bytes) : Decidable (flavour.IsIdentifier name) :=
  inferInstanceAs (Decidable (_ ∧ _))

variable {flavour : Flavour} {name before here outer rest after : Bytes} {byte : UInt8}
variable {callee : Callee} {found : Arguments} {depth : Nat}

/-! ## Steps of the pass -/

section Steps

@[simp] theorem codePlaces_nil : codePlaces flavour before [] = [] := by
  rw [codePlaces]

/-- The bytes that a step passes are those before what it leaves. -/
theorem take_passed {passed : Bytes} (cut : byte :: rest = passed ++ after) :
    (byte :: rest).take (rest.length + 1 - after.length) = passed := by
  have whole : rest.length + 1 = passed.length + after.length := by
    rw [← List.length_cons (a := byte), cut, List.length_append]
  rw [whole, Nat.add_sub_cancel, cut, List.take_left]

theorem codePlaces_of_skip {passed : Bytes}
    (skipped : skip? flavour byte rest = some after) (cut : byte :: rest = passed ++ after) :
    codePlaces flavour before (byte :: rest) =
      codePlaces flavour (passed.reverse ++ before) after := by
  rw [codePlaces.eq_def]
  dsimp only
  split
  · rename_i other isOther
    rw [skipped] at isOther
    cases isOther
    rw [take_passed cut]
  · rename_i isNone
    rw [skipped] at isNone
    contradiction

theorem codePlaces_of_code (isCode : skip? flavour byte rest = none) :
    codePlaces flavour before (byte :: rest) =
      ⟨before, byte :: rest⟩ :: codePlaces flavour (byte :: before) rest := by
  rw [codePlaces.eq_def]
  dsimp only
  split
  · rename_i isSome
    rw [isCode] at isSome
    contradiction
  · rfl

/-- What is passed on the way to a code position: nothing else changes, and the positions from it
on are the last ones. -/
theorem codePlaces_from {place : Place} (member : place ∈ codePlaces flavour before here) :
    before.length ≤ place.before.length ∧
      place.before.reverse ++ place.here = before.reverse ++ here ∧
      ∃ earlier, codePlaces flavour before here =
          earlier ++ codePlaces flavour place.before place.here ∧
        ∀ other ∈ earlier, other.before.length < place.before.length := by
  fun_induction codePlaces flavour before here with
  | case1 => simp at member
  | case2 before byte rest after skipped ih =>
      obtain ⟨further, same, earlier, split, isEarlier⟩ := ih member
      obtain ⟨passed, cut⟩ := (skip?_suffix skipped).trans (List.suffix_cons byte rest)
      have isPassed := take_passed cut.symm
      rw [isPassed, List.length_append] at further
      refine ⟨by omega, ?_, earlier, split, isEarlier⟩
      rw [same, isPassed, List.reverse_append, List.reverse_reverse, List.append_assoc, cut]
  | case3 before byte rest isCode ih =>
      rcases List.mem_cons.mp member with rfl | inRest
      · exact ⟨Nat.le_refl _, rfl, [], (codePlaces_of_code isCode).symm, by simp⟩
      · obtain ⟨further, same, earlier, split, isEarlier⟩ := ih inRest
        rw [List.length_cons] at further
        refine ⟨by omega, by simpa using same, ⟨before, byte :: rest⟩ :: earlier, ?_, ?_⟩
        · rw [split, List.cons_append]
        · intro other isOther
          rcases List.mem_cons.mp isOther with rfl | inEarlier
          · exact further
          · exact isEarlier other inEarlier

@[simp] theorem sites_nil : sites flavour name before [] = [] := by
  simp [sites]

theorem sites_of_skip {passed : Bytes}
    (skipped : skip? flavour byte rest = some after) (cut : byte :: rest = passed ++ after) :
    sites flavour name before (byte :: rest) =
      sites flavour name (passed.reverse ++ before) after := by
  rw [sites, codePlaces_of_skip skipped cut, sites]

theorem sites_of_code (isCode : skip? flavour byte rest = none) :
    sites flavour name before (byte :: rest) =
      (site? flavour name ⟨before, byte :: rest⟩).toList ++
        sites flavour name (byte :: before) rest := by
  rw [sites, codePlaces_of_code isCode, sites]
  cases isSite : site? flavour name ⟨before, byte :: rest⟩ <;> simp [isSite]

end Steps

/-! ## Bytes where no site begins -/

section Passing

/-- Whether a byte begins no literal and no comment. -/
def Flavour.isPlain (flavour : Flavour) (byte : UInt8) : Bool :=
  !flavour.isQuote byte && byte ≠ ascii '/' && byte ≠ ascii '#'

theorem skip?_of_isPlain (isPlain : flavour.isPlain byte = true) (rest : Bytes) :
    skip? flavour byte rest = none := by
  simp only [Flavour.isPlain, Bool.and_eq_true, Bool.not_eq_true', decide_eq_true_eq,
    ne_eq] at isPlain
  obtain ⟨⟨notQuote, notSlash⟩, notHash⟩ := isPlain
  cases flavour <;> simp [skip?, notQuote, notSlash, notHash]

theorem isPlain_of_isWordByte (isWord : flavour.isWordByte byte = true) :
    flavour.isPlain byte = true := by
  cases isPlain : flavour.isPlain byte with
  | true => rfl
  | false =>
      simp only [Flavour.isPlain, Flavour.isQuote, Bool.and_eq_false_iff, Bool.not_eq_false',
        Bool.or_eq_true, Bool.and_eq_true, decide_eq_true_eq, decide_eq_false_iff_not, ne_eq,
        Decidable.not_not] at isPlain
      rcases isPlain with (((rfl | rfl) | ⟨rfl, rfl⟩) | rfl) | rfl
      · revert isWord; cases flavour <;> decide
      · revert isWord; cases flavour <;> decide
      · revert isWord; decide
      · revert isWord; cases flavour <;> decide
      · revert isWord; cases flavour <;> decide

theorem not_isWordByte_of_isGap (isGap : isGap byte = true) : flavour.isWordByte byte = false := by
  simp only [Scan.isGap, Bool.or_eq_true, decide_eq_true_eq] at isGap
  rcases isGap with rfl | rfl <;> cases flavour <;> decide

theorem isPlain_of_isGap (isGap : isGap byte = true) : flavour.isPlain byte = true := by
  simp only [Scan.isGap, Bool.or_eq_true, decide_eq_true_eq] at isGap
  rcases isGap with rfl | rfl <;> cases flavour <;> decide

theorem Flavour.IsIdentifier.not_mem (isIdentifier : flavour.IsIdentifier name)
    (notWord : flavour.isWordByte byte = false) : byte ∉ name := by
  intro member
  rw [(isIdentifier.2 byte member).1] at notWord
  contradiction

theorem site?_eq_none (uncalled : callSite? flavour name before here = none) :
    site? flavour name ⟨before, here⟩ = none := by
  rw [site?, uncalled, Option.bind_none]

theorem callSite?_of_not_mem (nonempty : name ≠ []) (isOther : byte ∉ name) (rest : Bytes) :
    callSite? flavour name before (byte :: rest) = none := by
  have noPrefix : name.isPrefixOf (byte :: rest) = false := by
    cases name with
    | nil => contradiction
    | cons first name =>
        rw [List.isPrefixOf, beq_false_of_ne fun same => isOther (by simp [same]),
          Bool.false_and]
  rw [callSite?, noPrefix]
  rfl

theorem callSite?_of_word_before (isWord : before.head?.any flavour.isWordByte = true)
    (here : Bytes) : callSite? flavour name before here = none := by
  rw [callSite?, isWord, Bool.not_true, Bool.and_false]
  rfl

/-- No site begins at bytes that are not in the name. -/
theorem sites_of_passed (nonempty : name ≠ []) {passed : Bytes}
    (isPassed : ∀ byte ∈ passed, flavour.isPlain byte = true ∧ byte ∉ name) :
    sites flavour name before (passed ++ rest) =
      sites flavour name (passed.reverse ++ before) rest := by
  induction passed generalizing before with
  | nil => rfl
  | cons byte passed ih =>
      obtain ⟨isPlain, isOther⟩ := isPassed byte List.mem_cons_self
      rw [List.cons_append, sites_of_code (skip?_of_isPlain isPlain _),
        site?_eq_none (callSite?_of_not_mem nonempty isOther _), Option.toList_none,
        List.nil_append, ih fun other member => isPassed other (List.mem_cons_of_mem _ member),
        List.reverse_cons, List.append_assoc, List.singleton_append]

/-- No site begins inside a word. -/
theorem sites_of_word {word : Bytes} (isBefore : before.head?.any flavour.isWordByte = true)
    (isWord : ∀ byte ∈ word, flavour.isWordByte byte = true) :
    sites flavour name before (word ++ rest) =
      sites flavour name (word.reverse ++ before) rest := by
  induction word generalizing before with
  | nil => rfl
  | cons byte word ih =>
      have isByte := isWord byte List.mem_cons_self
      rw [List.cons_append, sites_of_code (skip?_of_isPlain (isPlain_of_isWordByte isByte) _),
        site?_eq_none (callSite?_of_word_before isBefore _), Option.toList_none, List.nil_append,
        ih (by simpa using isByte) fun other member => isWord other (List.mem_cons_of_mem _ member),
        List.reverse_cons, List.append_assoc, List.singleton_append]

end Passing

/-! ## Bare calls -/

section Calls

theorem callSite?_spec (called : callSite? flavour name before here = some callee) :
    here = callee.name ++ ascii '(' :: callee.inside ∧
      ∃ gap, callee.name = name ++ gap ∧ ∀ byte ∈ gap, isGap byte = true := by
  unfold callSite? at called
  split at called
  · rename_i starts
    rw [Bool.and_eq_true] at starts
    obtain ⟨after, rfl⟩ := List.isPrefixOf_iff_prefix.mp starts.1
    dsimp only at called
    split at called
    · simp at called
    · split at called
      · simp at called
      · rename_i byte inside blanks
        split at called
        · rename_i isOpen
          simp only [Bool.and_eq_true, decide_eq_true_eq] at isOpen
          obtain ⟨rfl, -⟩ := isOpen
          cases called
          rw [List.drop_left] at blanks ⊢
          refine ⟨?_, _, rfl, List.all_eq_true.mp List.all_takeWhile⟩
          rw [← blanks, List.append_assoc, List.takeWhile_append_dropWhile]
        · simp at called
  · simp at called

/-- A bare call is a name, a gap and a parenthesis that stand behind no word and are not blocked. -/
theorem callSite?_eq_some_iff : callSite? flavour name before here = some callee ↔
    (here = callee.name ++ ascii '(' :: callee.inside ∧
        ∃ gap, callee.name = name ++ gap ∧ ∀ byte ∈ gap, isGap byte = true) ∧
      before.head?.any flavour.isWordByte = false ∧ isBlocked flavour before = false := by
  constructor
  · intro called
    refine ⟨callSite?_spec called, ?_⟩
    unfold callSite? at called
    split at called
    · rename_i starts
      simp only [Bool.and_eq_true, Bool.not_eq_true'] at starts
      dsimp only at called
      split at called
      · contradiction
      · split at called
        · contradiction
        · split at called
          · rename_i isOpen
            simp only [Bool.and_eq_true, Bool.not_eq_true'] at isOpen
            exact ⟨starts.2, isOpen.2⟩
          · contradiction
    · contradiction
  · rintro ⟨⟨rfl, gap, isName, isGap⟩, notWord, isFree⟩
    obtain ⟨whole, inside⟩ := callee
    obtain rfl : whole = name ++ gap := isName
    have notOpen : Scan.isGap (ascii '(') = false := by decide
    have isPrefix : name.isPrefixOf (name ++ gap ++ ascii '(' :: inside) = true :=
      List.isPrefixOf_iff_prefix.mpr (List.append_assoc .. ▸ List.prefix_append ..)
    have notLonger : (gap ++ ascii '(' :: inside).head?.any flavour.isWordByte = false := by
      cases gap with
      | nil => cases flavour <;> rfl
      | cons byte gap => simpa using not_isWordByte_of_isGap (isGap byte List.mem_cons_self)
    rw [callSite?, isPrefix, notWord]
    dsimp only
    rw [List.append_assoc, List.drop_left, notLonger, List.dropWhile_append_of_pos isGap,
      List.takeWhile_append_of_pos isGap, List.dropWhile_cons_of_neg (by simp [notOpen]),
      List.takeWhile_cons_of_neg (by simp [notOpen])]
    simp [isFree]

/-- The bytes of a bare call before its parenthesis begin nothing, and are no parentheses. -/
theorem passed_of_callSite? (isIdentifier : flavour.IsIdentifier name)
    (called : callSite? flavour name before here = some callee) :
    ∀ byte ∈ callee.name, flavour.isPlain byte = true ∧ byte ≠ ascii '(' ∧ byte ≠ ascii ')' := by
  obtain ⟨-, gap, isName, isGap⟩ := callSite?_spec called
  intro byte member
  rw [isName] at member
  rcases List.mem_append.mp member with inName | inGap
  · have isWord := (isIdentifier.2 byte inName).1
    refine ⟨isPlain_of_isWordByte isWord, ?_, ?_⟩
    · rintro rfl
      revert isWord
      cases flavour <;> decide
    · rintro rfl
      revert isWord
      cases flavour <;> decide
  · have isByte := isGap byte inGap
    refine ⟨isPlain_of_isGap isByte, ?_, ?_⟩
    · rintro rfl
      exact absurd isByte (by decide)
    · rintro rfl
      exact absurd isByte (by decide)

/-- Where a name stands, the only site may be the one that begins with it. -/
theorem sites_of_name (isIdentifier : flavour.IsIdentifier name) (before rest : Bytes) :
    sites flavour name before (name ++ rest) =
      (site? flavour name ⟨before, name ++ rest⟩).toList ++
        sites flavour name (name.reverse ++ before) rest := by
  obtain ⟨nonempty, isName⟩ := isIdentifier
  obtain ⟨first, tail, cut⟩ := List.exists_cons_of_ne_nil nonempty
  have isFirst := (isName first (by simp [cut])).1
  have isTail (byte : UInt8) (member : byte ∈ tail) := (isName byte (by simp [cut, member])).1
  have afterFirst : sites flavour name (first :: before) (tail ++ rest) =
      sites flavour name (tail.reverse ++ first :: before) rest :=
    sites_of_word (by simpa using isFirst) isTail
  have whole : name ++ rest = first :: (tail ++ rest) := by
    rw [cut, List.cons_append]
  rw [whole, sites_of_code (skip?_of_isPlain (isPlain_of_isWordByte isFirst) _), afterFirst, cut,
    List.reverse_cons, List.append_assoc, List.singleton_append]

/-- No site begins in the gap between a name and its parenthesis. -/
theorem sites_of_gap (isIdentifier : flavour.IsIdentifier name) {gap : Bytes}
    (isGap : ∀ byte ∈ gap, isGap byte = true) (before inside : Bytes) :
    sites flavour name before (gap ++ ascii '(' :: inside) =
      sites flavour name (ascii '(' :: gap.reverse ++ before) inside := by
  have isPassed : ∀ byte ∈ gap ++ [ascii '('], flavour.isPlain byte = true ∧ byte ∉ name := by
    intro byte member
    rcases List.mem_append.mp member with inGap | isOpen
    · have isByte := isGap byte inGap
      exact ⟨isPlain_of_isGap isByte, isIdentifier.not_mem (not_isWordByte_of_isGap isByte)⟩
    · rw [List.mem_singleton.mp isOpen]
      exact ⟨by cases flavour <;> decide, isIdentifier.not_mem (by cases flavour <;> decide)⟩
  have passed : sites flavour name before ((gap ++ [ascii '(']) ++ inside) = _ :=
    sites_of_passed isIdentifier.1 isPassed
  simpa using passed

/-- After a bare call the pass goes on behind its parenthesis. -/
theorem sites_of_call (isIdentifier : flavour.IsIdentifier name)
    (called : callSite? flavour name before here = some callee) :
    sites flavour name before here = (site? flavour name ⟨before, here⟩).toList ++
      sites flavour name (ascii '(' :: callee.name.reverse ++ before) callee.inside := by
  obtain ⟨rfl, gap, isName, isGap⟩ := callSite?_spec called
  rw [isName, List.append_assoc, sites_of_name isIdentifier, sites_of_gap isIdentifier isGap,
    List.reverse_append, List.cons_append, List.cons_append, List.append_assoc]

end Calls

/-! ## Enclosed text -/

section Enclosed

/-- A byte that fails a test ends the run of bytes that pass it. -/
theorem takeWhile_append_cons {test : UInt8 → Bool} {stop : UInt8} (fails : test stop = false)
    (bytes after : Bytes) : (bytes ++ stop :: after).takeWhile test = bytes.takeWhile test := by
  induction bytes with
  | nil => rw [List.nil_append, List.takeWhile_cons_of_neg (by simp [fails]), List.takeWhile_nil]
  | cons byte bytes ih => rw [List.cons_append, List.takeWhile_cons, List.takeWhile_cons, ih]

theorem dropWhile_append_cons {test : UInt8 → Bool} {stop : UInt8} (fails : test stop = false)
    (bytes after : Bytes) :
    (bytes ++ stop :: after).dropWhile test = bytes.dropWhile test ++ stop :: after := by
  induction bytes with
  | nil => rw [List.nil_append, List.dropWhile_cons_of_neg (by simp [fails])]; rfl
  | cons byte bytes ih =>
      rw [List.cons_append, List.dropWhile_cons, List.dropWhile_cons, ih]
      split <;> rfl

/-- A mark hides what stands before it. -/
theorem isBlocked_append_cons {stop : UInt8} (notWord : flavour.isWordByte stop = false)
    (notBlank : isAsciiBlank stop = false) (notPoint : stop ≠ ascii '.') (before outer : Bytes) :
    isBlocked flavour (before ++ stop :: outer) = isBlocked flavour before := by
  rw [isBlocked, isBlocked, dropWhile_append_cons notBlank, takeWhile_append_cons notWord]
  congr 1
  cases before.dropWhile isAsciiBlank with
  | nil => simpa using notPoint
  | cons byte rest => rfl

/-- An open parenthesis hides what stands before it. -/
theorem isBlocked_append (flavour : Flavour) (before outer : Bytes) :
    isBlocked flavour (before ++ ascii '(' :: outer) = isBlocked flavour before :=
  isBlocked_append_cons (by cases flavour <;> decide) (by decide) (by decide) before outer

/-- A bare call depends on what stands before it only through the look behind. -/
theorem callSite?_congr {before' : Bytes}
    (sameHead : before'.head?.any flavour.isWordByte = before.head?.any flavour.isWordByte)
    (sameBlocked : isBlocked flavour before' = isBlocked flavour before) (here : Bytes) :
    callSite? flavour name before' here = callSite? flavour name before here := by
  simp only [callSite?, sameHead, sameBlocked]

/-- A mark ends the part of the text that tells whether a bare call is there. -/
theorem callSite?_append_cons (isIdentifier : flavour.IsIdentifier name) {stop : UInt8}
    (notWord : flavour.isWordByte stop = false) (notGap : isGap stop = false)
    (notOpen : stop ≠ ascii '(') (before here after : Bytes) :
    callSite? flavour name before (here ++ stop :: after) =
      (callSite? flavour name before here).map fun callee =>
        ⟨callee.name, callee.inside ++ stop :: after⟩ := by
  simp only [callSite?, isPrefixOf_append_cons (isIdentifier.not_mem notWord)]
  split
  · rename_i starts
    rw [Bool.and_eq_true] at starts
    obtain ⟨rest, rfl⟩ := List.isPrefixOf_iff_prefix.mp starts.1
    rw [List.append_assoc, List.drop_left, List.drop_left,
      dropWhile_append_cons notGap, takeWhile_append_cons notGap]
    have sameAfter : (rest ++ stop :: after).head?.any flavour.isWordByte =
        rest.head?.any flavour.isWordByte := by
      cases rest with
      | nil => simp [notWord]
      | cons byte rest => rfl
    rw [sameAfter]
    split
    · rfl
    · cases rest.dropWhile isGap with
      | nil => simp [notOpen]
      | cons byte inside =>
          rw [List.cons_append]
          dsimp only
          split <;> rfl
  · rfl

theorem callSite?_append (isIdentifier : flavour.IsIdentifier name)
    (before outer here after : Bytes) :
    callSite? flavour name (before ++ ascii '(' :: outer) (here ++ ascii ')' :: after) =
      (callSite? flavour name before here).map fun callee =>
        ⟨callee.name, callee.inside ++ ascii ')' :: after⟩ := by
  have notOpen : flavour.isWordByte (ascii '(') = false := by
    cases flavour <;> decide
  have sameHead : (before ++ ascii '(' :: outer).head?.any flavour.isWordByte =
      before.head?.any flavour.isWordByte := by
    cases before with
    | nil => simp [notOpen]
    | cons byte before => rfl
  rw [callSite?_congr sameHead (isBlocked_append flavour before outer),
    callSite?_append_cons isIdentifier (by cases flavour <;> decide) (by decide) (by decide)]

/-- Bytes that mean nothing to a scan do not change where parentheses are closed. -/
theorem closing?_of_passed {passed : Bytes}
    (isPassed : ∀ byte ∈ passed,
      flavour.isPlain byte = true ∧ byte ≠ ascii '(' ∧ byte ≠ ascii ')')
    (depth : Nat) (rest : Bytes) :
    closing? flavour depth (passed ++ rest) = closing? flavour depth rest := by
  induction passed with
  | nil => rfl
  | cons byte passed ih =>
      obtain ⟨isPlain, notOpen, notClose⟩ := isPassed byte List.mem_cons_self
      rw [List.cons_append, closing?_of_code (skip?_of_isPlain isPlain _), if_neg notOpen,
        if_neg notClose, ih fun other member => isPassed other (List.mem_cons_of_mem _ member)]

theorem closing?_of_open (flavour : Flavour) (depth : Nat) (inside : Bytes) :
    closing? flavour depth (ascii '(' :: inside) = closing? flavour (depth + 1) inside := by
  have isPlain : flavour.isPlain (ascii '(') = true := by
    cases flavour <;> decide
  rw [closing?_of_code (skip?_of_isPlain isPlain _), if_pos rfl]

/-- What encloses a bare call also encloses its arguments, one parenthesis deeper. -/
theorem Encloses.of_call (isIdentifier : flavour.IsIdentifier name)
    (encloses : Encloses flavour depth here after)
    (called : callSite? flavour name before here = some callee) :
    Encloses flavour (depth + 1) callee.inside after := by
  rwa [Encloses, (callSite?_spec called).1, List.append_assoc,
    closing?_of_passed (passed_of_callSite? isIdentifier called), List.cons_append,
    closing?_of_open] at encloses

/-- A site in enclosed text is one by itself. -/
theorem site?_of_encloses (isIdentifier : flavour.IsIdentifier name)
    (encloses : Encloses flavour depth here after) (before outer : Bytes) :
    site? flavour name ⟨before ++ ascii '(' :: outer, here ++ ascii ')' :: after⟩ =
      (site? flavour name ⟨before, here⟩).map (Site.shift (outer.length + 1)) := by
  rw [site?, site?, callSite?_append isIdentifier]
  cases called : callSite? flavour name before here with
  | none => rfl
  | some callee =>
      obtain ⟨found, alone, within⟩ := (encloses.of_call isIdentifier called).arguments?
      simp only [Option.map_some, Option.bind_some, alone, within, List.length_append,
        List.length_cons, Site.shift]
      congr 3
      omega

/-- Enclosed text has the sites that it has by itself. -/
theorem sites_of_encloses (isIdentifier : flavour.IsIdentifier name)
    (encloses : Encloses flavour depth here after) (before outer : Bytes) :
    sites flavour name (before ++ ascii '(' :: outer) (here ++ ascii ')' :: after) =
      (sites flavour name before here).map (Site.shift (outer.length + 1)) ++
        sites flavour name (here.reverse ++ before ++ ascii '(' :: outer)
          (ascii ')' :: after) := by
  fun_induction codePlaces flavour before here generalizing depth with
  | case1 before => simp
  | case2 before byte rest next skipped ih =>
      obtain ⟨passed, cut⟩ := (skip?_suffix skipped).trans (List.suffix_cons byte rest)
      have isPassed := take_passed cut.symm
      have within := skip?_of_encloses encloses
      rw [skipped, Option.map_some] at within
      have cutWithin : byte :: (rest ++ ascii ')' :: after) =
          passed ++ (next ++ ascii ')' :: after) := by
        rw [← List.append_assoc, cut, List.cons_append]
      have later := ih (encloses.of_skip skipped)
      rw [isPassed] at later
      rw [sites_of_skip skipped cut.symm, List.cons_append, sites_of_skip within cutWithin,
        ← List.append_assoc, later, ← cut]
      simp
  | case3 before byte rest isCode ih =>
      obtain ⟨inner, deeper⟩ := encloses.of_code isCode
      have within := skip?_of_encloses encloses
      rw [isCode, Option.map_none] at within
      have isSite := site?_of_encloses isIdentifier encloses before outer
      rw [List.cons_append] at isSite
      have later := ih deeper
      rw [List.cons_append] at later
      rw [sites_of_code isCode, List.cons_append, sites_of_code within, isSite, later]
      simp [Option.toList_map]

/-- The sites from a bare call on whose parenthesis is closed: its own, those of its argument, and
those after it. -/
theorem sites_of_closed (isIdentifier : flavour.IsIdentifier name)
    (called : callSite? flavour name before here = some callee)
    (closed : arguments? flavour callee.inside = some found) :
    sites flavour name before here =
      ⟨⟨before.length, before.length + callee.name.length⟩, found.inside⟩ ::
        (sites flavour name [] found.inside).map
            (Site.shift (before.length + callee.name.length + 1)) ++
          sites flavour name
            (ascii ')' :: found.inside.reverse ++ ascii '(' :: callee.name.reverse ++ before)
            found.after := by
  obtain ⟨isInside, encloses⟩ := arguments?_spec closed
  have isSite : site? flavour name ⟨before, here⟩ =
      some ⟨⟨before.length, before.length + callee.name.length⟩, found.inside⟩ := by
    rw [site?, called, Option.bind_some, closed, Option.map_some]
  have within := sites_of_encloses isIdentifier encloses [] (callee.name.reverse ++ before)
  have atEnd : sites flavour name
      (found.inside.reverse ++ [] ++ ascii '(' :: (callee.name.reverse ++ before))
      ([ascii ')'] ++ found.after) = _ :=
    sites_of_passed isIdentifier.1 fun byte member => by
      rw [List.mem_singleton.mp member]
      exact ⟨by cases flavour <;> decide, isIdentifier.not_mem (by cases flavour <;> decide)⟩
  rw [List.singleton_append] at atEnd
  have sameLength : (callee.name.reverse ++ before).length + 1 =
      before.length + callee.name.length + 1 := by
    rw [List.length_append, List.length_reverse, Nat.add_comm before.length]
  rw [List.nil_append, ← isInside, sameLength, atEnd] at within
  rw [sites_of_call isIdentifier called, isSite, List.cons_append, within]
  simp

end Enclosed

/-! ## Order -/

section Order

theorem start_of_mem_sites {site : Site} (member : site ∈ sites flavour name before here) :
    before.length ≤ site.start := by
  obtain ⟨place, isPlace, isSite⟩ := List.mem_filterMap.mp member
  obtain ⟨callee, called, isSite⟩ := Option.bind_eq_some_iff.mp isSite
  obtain ⟨found, closed, rfl⟩ := Option.map_eq_some_iff.mp isSite
  exact (codePlaces_from isPlace).1

/-- No bare call begins in the name of another or in the gap after it. -/
theorem callSite?_apart (isIdentifier : flavour.IsIdentifier name) {place : Place} {other : Callee}
    (called : callSite? flavour name before here = some callee)
    (again : callSite? flavour name place.before place.here = some other)
    (sameText : place.before.reverse ++ place.here = before.reverse ++ here)
    (further : before.length < place.before.length) :
    before.length + callee.name.length < place.before.length := by
  obtain ⟨passed, isBefore⟩ : before.reverse <+: place.before.reverse :=
    List.prefix_of_prefix_length_le (List.prefix_append _ here) (sameText ▸ List.prefix_append _ _)
      (by simpa using Nat.le_of_lt further)
  rw [← isBefore, List.append_assoc, List.append_cancel_left_eq] at sameText
  have isBefore : place.before = passed.reverse ++ before := by
    rw [← List.reverse_reverse place.before, ← isBefore, List.reverse_append, List.reverse_reverse]
  rw [isBefore, List.length_append, List.length_reverse] at further ⊢
  obtain ⟨rfl, gap, isName, isGap⟩ := callSite?_spec called
  refine Nat.lt_of_not_le fun short => ?_
  obtain ⟨middle, isCallee⟩ : passed <+: callee.name :=
    List.prefix_of_prefix_length_le (sameText ▸ List.prefix_append _ _)
      (List.prefix_append callee.name _) (by omega)
  rw [← isCallee, List.append_assoc, List.append_cancel_left_eq] at sameText
  rw [isName, List.append_eq_append_iff] at isCallee
  -- Either the position follows a byte of the name, or it is in the gap.
  rcases isCallee with ⟨ahead, cut, -⟩ | ⟨behind, -, cut⟩
  · rcases List.eq_nil_or_concat passed with rfl | ⟨first, last, rfl⟩
    · simp at further
    · have isWord := (isIdentifier.2 last (by simp [cut])).1
      rw [isBefore, callSite?_of_word_before (by simpa using isWord)] at again
      contradiction
  · have uncalled : callSite? flavour name place.before place.here = none := by
      rw [sameText]
      cases middle with
      | nil =>
          exact callSite?_of_not_mem isIdentifier.1
            (isIdentifier.not_mem (by cases flavour <;> decide)) _
      | cons byte middle =>
          have isByte := isGap byte (by simp [cut])
          exact callSite?_of_not_mem isIdentifier.1
            (isIdentifier.not_mem (not_isWordByte_of_isGap isByte)) _
    rw [uncalled] at again
    contradiction

/-- The sites before a bare call end before it. -/
theorem sites_at_call (isIdentifier : flavour.IsIdentifier name) {place : Place}
    (isPlace : place ∈ codePlaces flavour before here)
    (called : callSite? flavour name place.before place.here = some callee) :
    ∃ earlier, sites flavour name before here =
        earlier ++ sites flavour name place.before place.here ∧
      ∀ site ∈ earlier, site.stop < place.before.length := by
  obtain ⟨-, sameText, earlier, split, isEarlier⟩ := codePlaces_from isPlace
  refine ⟨earlier.filterMap (site? flavour name), ?_, ?_⟩
  · rw [sites, split, List.filterMap_append, sites]
  · intro site member
    obtain ⟨first, isFirst, isSite⟩ := List.mem_filterMap.mp member
    obtain ⟨other, calledFirst, isSite⟩ := Option.bind_eq_some_iff.mp isSite
    obtain ⟨found, closed, rfl⟩ := Option.map_eq_some_iff.mp isSite
    have sameFirst := (codePlaces_from (split ▸ List.mem_append_left _ isFirst)).2.1
    exact callSite?_apart isIdentifier calledFirst called (sameText.trans sameFirst.symm)
      (isEarlier first isFirst)

end Order

end Polyglot.Scan
