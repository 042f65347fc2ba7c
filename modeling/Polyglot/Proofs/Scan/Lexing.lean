import Polyglot.Proofs.Scan.Lookahead
import Polyglot.Proofs.Scan.Splicing
import Polyglot.Scan.Wrapping

/-!
# Texts read in pieces

Replacing the names of calls moves what stands behind them, but no literal begins or ends at
another byte for it: a name begins with a byte of words, before and after.  So a text and its
rewriting are read in the same pieces, and a piece that stands inside a tripled literal in one of
them does so in the other.
-/

namespace Polyglot.Scan

open Text

variable {byte quote : UInt8} {bytes rest passed after : Bytes} {offset index : Nat}

/-! ## Inside of tripled literals -/

section Inside

/-- For every byte of a text, whether it stands strictly inside a tripled literal. -/
def tripled (bytes : Bytes) : List Bool :=
  match bytes with
  | [] => []
  | byte :: rest =>
    match _skipped : skip? .python byte rest with
    | none => false :: tripled rest
    | some after =>
      false :: (List.replicate (rest.length - after.length) (opens byte rest) ++ tripled after)
termination_by bytes.length
decreasing_by
  · simp
  · exact Nat.lt_succ_of_le (length_skip?_le _skipped)

/-- Whether a place is strictly inside one of some spans. -/
def isInside (spans : List (Nat × Nat)) (offset : Nat) : Bool :=
  spans.any fun (start, finish) => start < offset && offset < finish

theorem isInside_cons (start finish place : Nat) (spans : List (Nat × Nat)) :
    isInside ((start, finish) :: spans) place =
      (decide (start < place) && decide (place < finish) || isInside spans place) := by
  rw [isInside, List.any_cons, isInside]

theorem tripled_of_code (isCode : skip? .python byte rest = none) :
    tripled (byte :: rest) = false :: tripled rest := by
  rw [tripled.eq_def]
  dsimp only
  split
  · rfl
  · rename_i isSome
    rw [isCode] at isSome
    contradiction

theorem tripled_of_skip (skipped : skip? .python byte (passed ++ after) = some after) :
    tripled (byte :: (passed ++ after)) =
      false :: (List.replicate passed.length (opens byte (passed ++ after)) ++ tripled after) := by
  rw [tripled.eq_def]
  dsimp only
  split
  · rename_i isNone
    rw [skipped] at isNone
    contradiction
  · rename_i found isFound
    rw [skipped] at isFound
    cases isFound
    rw [List.length_append, Nat.add_sub_cancel]

theorem tripled_of_plain {word : Bytes}
    (isPlain : ∀ byte ∈ word, Flavour.python.isPlain byte = true) (rest : Bytes) :
    tripled (word ++ rest) = List.replicate word.length false ++ tripled rest := by
  induction word with
  | nil => rfl
  | cons byte word ih =>
      have isByte := isPlain byte List.mem_cons_self
      rw [List.cons_append, tripled_of_code (skip?_of_isPlain isByte _),
        ih fun other member => isPlain other (List.mem_cons_of_mem _ member)]
      rfl

theorem start_of_mem_tripleSpans {span : Nat × Nat} (member : span ∈ tripleSpans offset bytes) :
    offset ≤ span.1 := by
  fun_induction tripleSpans offset bytes with
  | case1 => simp at member
  | case2 offset byte rest isCode ih =>
      have further := ih member
      omega
  | case3 offset byte rest after skipped finish isTriple ih =>
      rcases List.mem_cons.mp member with rfl | inLater
      · exact Nat.le_refl _
      · have further := ih inLater
        omega
  | case4 offset byte rest after skipped finish notTriple ih =>
      have further := ih member
      omega

theorem isInside_of_le {spans : List (Nat × Nat)} {place : Nat}
    (further : ∀ span ∈ spans, place ≤ span.1) : isInside spans place = false := by
  rw [isInside, List.any_eq_false]
  intro span member
  have isFurther := further span member
  simp only [Bool.and_eq_true, decide_eq_true_eq]
  omega

/-- What stands at an index behind a first byte and some that are passed. -/
theorem getElem?_passed {count : Nat} {flag inside : Bool} {later : List Bool}
    (found : (false :: (List.replicate count inside ++ later))[index]? = some flag) :
    index = 0 ∧ flag = false ∨ (0 < index ∧ index ≤ count) ∧ flag = inside ∨
      ∃ further, index = count + 1 + further ∧ later[further]? = some flag := by
  cases index with
  | zero =>
      cases found
      exact .inl ⟨rfl, rfl⟩
  | succ index =>
      rw [List.getElem?_cons_succ] at found
      right
      by_cases within : index < count
      · rw [List.getElem?_append_left (by simpa using within), List.getElem?_replicate,
          if_pos within] at found
        cases found
        exact .inl ⟨⟨Nat.succ_pos index, within⟩, rfl⟩
      · rw [List.getElem?_append_right (by simpa using within), List.length_replicate] at found
        exact .inr ⟨index - count, by omega, found⟩

/-- The bytes strictly inside a tripled literal are those strictly inside its span. -/
theorem isInside_tripleSpans {flag : Bool} (found : (tripled bytes)[index]? = some flag) :
    isInside (tripleSpans offset bytes) (offset + index) = flag := by
  have further {finish place : Nat} {after : Bytes} (before : place ≤ finish) :
      isInside (tripleSpans finish after) place = false :=
    isInside_of_le fun span member => Nat.le_trans before (start_of_mem_tripleSpans member)
  fun_induction tripleSpans offset bytes generalizing index with
  | case1 => simp [tripled] at found
  | case2 offset byte rest isCode ih =>
      rw [tripled_of_code isCode] at found
      cases index with
      | zero =>
          cases found
          exact further (Nat.le_succ offset)
      | succ index =>
          rw [Nat.add_comm index, ← Nat.add_assoc]
          exact ih found
  | case3 offset byte rest after skipped finish isTriple =>
      rename_i ih
      obtain ⟨passed, rfl, skipped⟩ := exists_passed skipped
      have isFinish : finish = offset + (passed.length + 1) := by
        simp only [finish, List.length_append]
        omega
      rw [tripled_of_skip skipped, opens, isTriple] at found
      rw [isInside_cons]
      rcases getElem?_passed found with
        ⟨isIndex, isFlag⟩ | ⟨within, isFlag⟩ | ⟨behind, isIndex, found⟩
      · rw [further (by omega), isFlag, isIndex]
        simp
      · rw [isFlag, decide_eq_true (by omega), decide_eq_true (by omega)]
        rfl
      · have later := ih found
        rw [isIndex, ← Nat.add_assoc, ← isFinish, later,
          decide_eq_false (Nat.not_lt.mpr (Nat.le_add_right finish behind)), Bool.and_false,
          Bool.false_or]
  | case4 offset byte rest after skipped finish notTriple =>
      rename_i ih
      obtain ⟨passed, rfl, skipped⟩ := exists_passed skipped
      have isFinish : finish = offset + (passed.length + 1) := by
        simp only [finish, List.length_append]
        omega
      rw [tripled_of_skip skipped, opens, Bool.eq_false_iff.mpr notTriple] at found
      rcases getElem?_passed found with
        ⟨isIndex, isFlag⟩ | ⟨within, isFlag⟩ | ⟨behind, isIndex, found⟩
      · rw [further (by omega), isFlag]
      · rw [further (by omega), isFlag]
      · rw [isIndex, ← Nat.add_assoc, ← isFinish, ih found]

/-- A byte strictly inside a tripled literal has a quote before it. -/
theorem quote_of_tripled (inside : (tripled bytes)[index]? = some true) :
    ∃ quote ∈ bytes.take index, Flavour.python.isQuote quote = true := by
  fun_induction tripled bytes generalizing index with
  | case1 => contradiction
  | case2 byte rest isCode ih =>
      cases index with
      | zero => exact absurd inside (by simp)
      | succ index =>
          obtain ⟨quote, member, isQuote⟩ := ih inside
          exact ⟨quote, List.mem_cons_of_mem _ member, isQuote⟩
  | case3 byte rest after skipped ih =>
      obtain ⟨passed, isRest⟩ := skip?_suffix skipped
      rw [← isRest, List.length_append, Nat.add_sub_cancel] at inside
      rcases getElem?_passed inside with ⟨-, isFlag⟩ | ⟨within, isFlag⟩ | ⟨behind, isIndex, inside⟩
      · contradiction
      · rw [opens, eq_comm, Bool.and_eq_true] at isFlag
        refine ⟨byte, ?_, isFlag.1⟩
        rw [List.take_cons within.1]
        exact List.mem_cons_self
      · obtain ⟨quote, member, isQuote⟩ := ih inside
        refine ⟨quote, ?_, isQuote⟩
        rw [← isRest, isIndex, Nat.add_right_comm, List.take_succ_cons, List.take_length_add_append]
        exact List.mem_cons_of_mem _ (List.mem_append_right _ member)

end Inside

/-! ## Pieces -/

section Pieces

/-- A piece of a text. -/
structure Piece where
  /-- A byte that stays, or the name of a call. -/
  segment : Segment
  /-- Whether the piece is strictly inside a tripled literal. -/
  inside : Bool
  deriving Repr, DecidableEq

/-- A byte that stays. -/
def Piece.kept (inside : Bool) (byte : UInt8) : Piece := ⟨.kept [byte], inside⟩

/-- The text of pieces whose segments are written out in some way. -/
def textOf (write : Segment → Bytes) (pieces : List Piece) : Bytes :=
  pieces.flatMap (write ·.segment)

/-- For every byte of such a text, whether its piece is strictly inside a tripled literal. -/
def insideOf (write : Segment → Bytes) (pieces : List Piece) : List Bool :=
  pieces.flatMap fun piece => List.replicate (write piece.segment).length piece.inside

/-- A text on one line that begins with an identifier and holds no literal and no comment. -/
structure IsPhrase (phrase : Bytes) : Prop where
  head : phrase.head?.any isIdentifierByte = true
  plain : ∀ byte ∈ phrase, Flavour.python.isPlain byte = true
  line : ∀ byte ∈ phrase, byte ≠ lineFeed

/-- A way of writing segments out that leaves what is kept and makes phrases of names. -/
structure IsWriting (write : Segment → Bytes) : Prop where
  kept : ∀ bytes, write (.kept bytes) = bytes
  call : ∀ name literal, IsPhrase name → IsPhrase (write (.call name literal))

/-- How a text is read in pieces.  The quote that a literal begins with is not strictly inside of
it; what is passed after it is, but counts only if the literal is tripled. -/
inductive Lexed : List Piece → Prop where
  | nil : Lexed []
  | code {byte : UInt8} {later : List Piece} :
      skip? .python byte (textOf (·.source) later) = none → Lexed later →
      Lexed (.kept false byte :: later)
  | skip {byte : UInt8} {passed : Bytes} {later : List Piece} :
      skip? .python byte (passed ++ textOf (·.source) later) = some (textOf (·.source) later) →
      Lexed later →
      Lexed (.kept false byte ::
        (passed.map (.kept (opens byte (passed ++ textOf (·.source) later))) ++ later))
  | call {name : Bytes} {later : List Piece} (literal : Bool) :
      IsPhrase name → Lexed later → Lexed (⟨.call name literal, false⟩ :: later)

variable {write : Segment → Bytes} {pieces : List Piece}

theorem textOf_append (write : Segment → Bytes) (first second : List Piece) :
    textOf write (first ++ second) = textOf write first ++ textOf write second :=
  List.flatMap_append

theorem isWordByte_of_isIdentifierByte (isIdentifier : isIdentifierByte byte = true) :
    Flavour.python.isWordByte byte = true := by
  simp [Flavour.isWordByte, isIdentifier]

theorem IsPhrase.exists_cons {phrase : Bytes} (isPhrase : IsPhrase phrase) :
    ∃ first rest, phrase = first :: rest ∧ isIdentifierByte first = true := by
  have isHead := isPhrase.head
  cases phrase with
  | nil => contradiction
  | cons first rest => exact ⟨first, rest, rfl, isHead⟩

theorem isWriting_source : IsWriting (·.source) :=
  ⟨fun _ => rfl, fun _ _ isPhrase => isPhrase⟩

theorem isWriting_rewritten {value : Bytes} (isPhrase : IsPhrase (encode "await " ++ value)) :
    IsWriting (·.rewritten value) :=
  ⟨fun _ => rfl, fun _ _ _ => isPhrase⟩

theorem IsWriting.textOf_kept (isWriting : IsWriting write) (inside : Bool) (byte : UInt8)
    (later : List Piece) :
    textOf write (.kept inside byte :: later) = byte :: textOf write later := by
  rw [textOf, List.flatMap_cons, Piece.kept, isWriting.kept]
  rfl

theorem IsWriting.textOf_passed (isWriting : IsWriting write) (inside : Bool) (passed : Bytes)
    (later : List Piece) :
    textOf write (passed.map (.kept inside) ++ later) = passed ++ textOf write later := by
  induction passed with
  | nil => rfl
  | cons byte passed ih =>
      rw [List.map_cons, List.cons_append, isWriting.textOf_kept, ih, List.cons_append]

theorem IsWriting.insideOf_kept (isWriting : IsWriting write) (inside : Bool) (byte : UInt8)
    (later : List Piece) :
    insideOf write (.kept inside byte :: later) = inside :: insideOf write later := by
  rw [insideOf, List.flatMap_cons, Piece.kept, isWriting.kept]
  rfl

theorem IsWriting.insideOf_passed (isWriting : IsWriting write) (inside : Bool) (passed : Bytes)
    (later : List Piece) :
    insideOf write (passed.map (.kept inside) ++ later) =
      List.replicate passed.length inside ++ insideOf write later := by
  induction passed with
  | nil => rfl
  | cons byte passed ih =>
      rw [List.map_cons, List.cons_append, isWriting.insideOf_kept, ih]
      rfl

/-- However the names are written, the texts begin alike. -/
theorem Lexed.alike (isWriting : IsWriting write) (lexed : Lexed pieces) :
    Alike (textOf (·.source) pieces) (textOf write pieces) := by
  cases lexed with
  | nil => exact .empty
  | code isCode isLater =>
      rw [isWriting_source.textOf_kept, isWriting.textOf_kept]
      exact .same ..
  | skip skipped isLater =>
      rw [isWriting_source.textOf_kept, isWriting.textOf_kept]
      exact .same ..
  | call literal isPhrase isLater =>
      have ⟨first, rest, isName, isFirst⟩ := isPhrase.exists_cons
      have ⟨second, others, isWritten, isSecond⟩ :=
        (isWriting.call _ literal isPhrase).exists_cons
      rw [textOf, textOf, List.flatMap_cons, List.flatMap_cons, isWritten, Segment.source, isName]
      exact .words _ _ (isWordByte_of_isIdentifierByte isFirst)
        (isWordByte_of_isIdentifierByte isSecond)

/-- However the names are written, the same pieces stand inside of tripled literals. -/
theorem Lexed.tripled (isWriting : IsWriting write) (lexed : Lexed pieces) :
    tripled (textOf write pieces) = insideOf write pieces := by
  induction lexed with
  | nil => simp [textOf, insideOf, Scan.tripled]
  | code isCode isLater ih =>
      rw [isWriting.textOf_kept, isWriting.insideOf_kept, ← ih]
      exact tripled_of_code (skip?_of_code isCode _)
  | skip skipped isLater ih =>
      have ⟨ends, sameOpening⟩ := skip?_alike (isLater.alike isWriting) skipped
      rw [isWriting.textOf_kept, isWriting.textOf_passed, isWriting.insideOf_kept,
        isWriting.insideOf_passed, ← ih, ← sameOpening]
      exact tripled_of_skip ends
  | call literal isPhrase isLater ih =>
      have isPlain := (isWriting.call _ literal isPhrase).plain
      rw [textOf, insideOf, List.flatMap_cons, List.flatMap_cons, ← insideOf, ← ih]
      exact tripled_of_plain isPlain _

end Pieces

/-! ## Reading a text -/

section Reading

variable {name before here : Bytes}

theorem calls_kept (position : Nat) (inside : Bool) (byte : UInt8) (later : List Piece) :
    Segment.calls position ((Piece.kept inside byte :: later).map (·.segment)) =
      Segment.calls (position + 1) (later.map (·.segment)) := rfl

theorem calls_passed (position : Nat) (inside : Bool) (passed : Bytes) (later : List Piece) :
    Segment.calls position ((passed.map (Piece.kept inside) ++ later).map (·.segment)) =
      Segment.calls (position + passed.length) (later.map (·.segment)) := by
  induction passed generalizing position with
  | nil => rfl
  | cons byte passed ih =>
      rw [List.map_cons, List.cons_append, calls_kept, ih, List.length_cons, Nat.add_assoc,
        Nat.add_comm 1]

theorem isPhrase_of_callSite? {callee : Callee} (isIdentifier : Flavour.python.IsIdentifier name)
    (called : callSite? .python name before here = some callee) : IsPhrase callee.name := by
  have ⟨_, gap, isName, isGap⟩ := callSite?_spec called
  have ⟨nonempty, isWord⟩ := isIdentifier
  have each : ∀ byte ∈ callee.name, Flavour.python.isPlain byte = true ∧ byte ≠ lineFeed := by
    rw [isName]
    intro byte member
    rcases List.mem_append.mp member with inName | inGap
    · have isWordByte := (isWord byte inName).1
      exact ⟨isPlain_of_isWordByte isWordByte, ne_lineFeed_of_isWordByte isWordByte⟩
    · have isByte := isGap byte inGap
      refine ⟨isPlain_of_isGap isByte, ?_⟩
      intro isFeed
      rw [isFeed] at isByte
      exact absurd isByte (by decide)
  have ⟨first, tail, isFirst⟩ := List.exists_cons_of_ne_nil nonempty
  constructor
  case head =>
    have ⟨isWordByte, isAscii⟩ := isWord first (by simp [isFirst])
    have notBeyond : ¬ (0x80 : UInt8) ≤ first := by
      rw [UInt8.le_iff_toNat_le]
      exact Nat.not_le.mpr isAscii
    rw [isName, isFirst]
    simpa [Flavour.isWordByte, notBeyond] using isWordByte
  case plain => exact fun byte member => (each byte member).1
  case line => exact fun byte member => (each byte member).2

/-- Pieces that a text is read in; the calls among them are its sites. -/
structure Reads (name before here : Bytes) (pieces : List Piece) : Prop where
  lexed : Lexed pieces
  text : textOf (·.source) pieces = here
  calls : Segment.calls before.length (pieces.map (·.segment)) =
    (sites .python name before here).map (Site.mark .python)

variable {pieces : List Piece}

theorem Reads.skip (skipped : skip? .python byte (passed ++ after) = some after)
    (reads : Reads name ((byte :: passed).reverse ++ before) after pieces) :
    ∃ pieces, Reads name before (byte :: (passed ++ after)) pieces := by
  have isText := reads.text
  rw [← isText] at skipped
  refine ⟨_, .skip skipped reads.lexed, ?_, ?_⟩
  · rw [isWriting_source.textOf_kept, isWriting_source.textOf_passed, isText]
  · have position : ((byte :: passed).reverse ++ before).length =
        before.length + 1 + passed.length := by
      rw [List.length_append, List.length_reverse, List.length_cons]
      omega
    rw [isText] at skipped
    rw [calls_kept, calls_passed, ← position, reads.calls,
      sites_of_skip skipped (List.cons_append ..).symm]

theorem Reads.code (isCode : skip? .python byte rest = none)
    (noSite : site? .python name ⟨before, byte :: rest⟩ = none)
    (reads : Reads name (byte :: before) rest pieces) :
    ∃ pieces, Reads name before (byte :: rest) pieces := by
  refine ⟨_, .code (skip?_of_code isCode _) reads.lexed, ?_, ?_⟩
  · rw [isWriting_source.textOf_kept, reads.text]
  · rw [sites_of_code isCode, noSite, Option.toList_none, List.nil_append, ← reads.calls]
    rfl

theorem Reads.call {callee : Callee} {site : Site}
    (isIdentifier : Flavour.python.IsIdentifier name)
    (called : callSite? .python name before here = some callee)
    (isSite : site? .python name ⟨before, here⟩ = some site)
    (isStretch : site.toStretch = ⟨before.length, before.length + callee.name.length⟩)
    (reads : Reads name (ascii '(' :: callee.name.reverse ++ before) callee.inside pieces) :
    ∃ pieces, Reads name before here pieces := by
  have opened : skip? .python (ascii '(') (textOf (·.source) pieces) = none :=
    skip?_of_isPlain (by decide) _
  have isHere := (callSite?_spec called).1
  refine ⟨_, .call (isSingleLiteral .python site.argument)
    (isPhrase_of_callSite? isIdentifier called) (.code opened reads.lexed), ?_, ?_⟩
  · rw [textOf, List.flatMap_cons, ← textOf, isWriting_source.textOf_kept, reads.text, isHere]
    rfl
  · have position : (ascii '(' :: callee.name.reverse ++ before).length =
        before.length + callee.name.length + 1 := by
      simp only [List.length_append, List.length_cons, List.length_reverse]
      omega
    rw [List.map_cons, Segment.calls, calls_kept, ← position, reads.calls,
      sites_of_call isIdentifier called, isSite, ← isStretch]
    rfl

/-- Every text is read in pieces. -/
theorem exists_reads (isIdentifier : Flavour.python.IsIdentifier name) (before here : Bytes) :
    ∃ pieces, Reads name before here pieces := by
  induction bound : here.length using Nat.strongRecOn generalizing before here with
  | ind length ih =>
      have later (before later : Bytes) (shorter : later.length < here.length) :=
        ih later.length (bound ▸ shorter) before later rfl
      cases here with
      | nil => exact ⟨[], .nil, rfl, by simp [Segment.calls]⟩
      | cons byte rest =>
          cases skipped : skip? .python byte rest with
          | some after =>
              obtain ⟨passed, isRest⟩ := skip?_suffix skipped
              obtain ⟨pieces, reads⟩ := later ((byte :: passed).reverse ++ before) after
                (Nat.lt_succ_of_le (length_skip?_le skipped))
              rw [← isRest] at skipped ⊢
              exact reads.skip skipped
          | none =>
              cases isSite : site? .python name ⟨before, byte :: rest⟩ with
              | none =>
                  obtain ⟨pieces, reads⟩ := later (byte :: before) rest (by simp)
                  exact reads.code skipped isSite
              | some site =>
                  obtain ⟨callee, called, isClosed⟩ := Option.bind_eq_some_iff.mp isSite
                  obtain ⟨found, closed, isFound⟩ := Option.map_eq_some_iff.mp isClosed
                  obtain ⟨pieces, reads⟩ :=
                    later (ascii '(' :: callee.name.reverse ++ before) callee.inside
                      (length_callSite?_le called)
                  exact reads.call isIdentifier called isSite (congrArg Site.toStretch isFound).symm

end Reading

end Polyglot.Scan
