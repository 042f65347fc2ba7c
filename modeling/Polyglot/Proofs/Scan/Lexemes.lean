import Polyglot.Proofs.Scan.Lookahead

/-!
# Literals and comments of a text

The literals and comments that a scan finds, with their places.  Where each of them ends depends
on what stands behind it only through the first byte there, so a scan that reaches a place reaches
it whatever stands there, if that begins alike.
-/

namespace Polyglot.Scan

open Text

/-- A string literal or comment of a text. -/
structure Lexeme where
  /-- The number of bytes before it. -/
  start : Nat
  /-- Its bytes, with quotes and marks. -/
  text : Bytes
  deriving Repr, DecidableEq

/-- The string literals and comments of a text that begins at `offset`. -/
def lexemes (flavour : Flavour) (offset : Nat) (bytes : Bytes) : List Lexeme :=
  match bytes with
  | [] => []
  | byte :: rest =>
    match _skipped : skip? flavour byte rest with
    | none => lexemes flavour (offset + 1) rest
    | some after =>
      let text := (byte :: rest).take (rest.length + 1 - after.length)
      ⟨offset, text⟩ :: lexemes flavour (offset + text.length) after
termination_by bytes.length
decreasing_by
  · simp
  · exact Nat.lt_succ_of_le (length_skip?_le _skipped)

/-- Whether a literal or comment is a literal. -/
def Lexeme.isLiteral (flavour : Flavour) (lexeme : Lexeme) : Bool :=
  lexeme.text.head?.any flavour.isQuote

variable {flavour : Flavour} {byte : UInt8} {bytes lead rest passed after other : Bytes}
variable {offset : Nat} {lexeme : Lexeme}

/-! ## Whatever stands behind -/

section Beyond

theorem Alike.append (lead : Bytes) (alike : Alike rest other) :
    Alike (lead ++ rest) (lead ++ other) := by
  cases lead with
  | nil => exact alike
  | cons byte lead => exact .same ..

/-- A block comment that something follows has its mark at its end. -/
theorem length_afterBlockComment_add_le (followed : afterBlockComment bytes ≠ []) :
    (afterBlockComment bytes).length + 2 ≤ bytes.length := by
  fun_induction afterBlockComment bytes with
  | case1 => contradiction
  | case2 byte rest =>
      have longer := List.length_pos_iff.mpr followed
      simp only [List.length_drop, List.length_cons] at longer ⊢
      omega
  | case3 byte rest _ ih => exact Nat.le_succ_of_le (ih followed)

theorem afterBlockComment_alike (alike : Alike after other)
    (ended : afterBlockComment (passed ++ after) = after) :
    afterBlockComment (passed ++ other) = other := by
  by_cases isEmpty : after = []
  · rw [isEmpty] at alike ended
    cases alike with
    | empty => exact ended
  · -- What follows the comment is not there, so its mark is in what is passed.
    have isLong {passed : Bytes} (ended : afterBlockComment (passed ++ after) = after) :
        2 ≤ passed.length := by
      have longer := length_afterBlockComment_add_le (by rwa [ended])
      rw [ended, List.length_append] at longer
      omega
    induction passed with
    | nil => exact absurd (isLong ended) (by simp)
    | cons byte passed ih =>
        have long := isLong ended
        obtain ⟨second, passed, rfl⟩ : ∃ second later, passed = second :: later := by
          cases passed with
          | nil => simp at long
          | cons second passed => exact ⟨second, passed, rfl⟩
        rw [List.cons_append, afterBlockComment] at ended ⊢
        simp only [List.cons_append, List.isPrefixOf, Bool.and_true] at ended ⊢
        split at ended
        · rename_i closes
          rw [if_pos closes]
          simp only [List.drop_succ_cons, List.drop_zero] at ended ⊢
          rw [List.append_left_eq_self.mp ended, List.nil_append]
        · rename_i notClosing
          rw [if_neg notClosing]
          exact ih ended

theorem scanLiteral_javaScript (quote : UInt8) (rest : Bytes) :
    scanLiteral .javaScript quote rest = scanShort quote false rest := by
  simp [scanLiteral, opensTriple]

/-- A literal or comment ends where it does whatever stands behind it, if that begins alike. -/
theorem skip?_beyond (alike : Alike after other)
    (skipped : skip? flavour byte (passed ++ after) = some after) :
    skip? flavour byte (passed ++ other) = some other := by
  cases flavour with
  | python => exact (skip?_alike alike skipped).1
  | javaScript =>
      rw [skip?.eq_def] at skipped ⊢
      split at skipped
      · rename_i isQuote
        rw [if_pos isQuote]
        rw [scanLiteral_javaScript] at skipped ⊢
        exact congrArg some (scanShort_alike alike (Option.some.inj skipped))
      · rename_i notQuote
        rw [if_neg notQuote]
        dsimp only at skipped ⊢
        split at skipped
        · rename_i isSlash
          rw [if_pos isSlash]
          cases passed with
          | nil =>
              -- The second byte of its mark is part of a comment.
              rw [List.nil_append] at skipped
              cases after with
              | nil => simp at skipped
              | cons next inside =>
                  exfalso
                  have shorter : (next :: inside).length ≤ inside.length := by
                    dsimp only at skipped
                    split at skipped
                    · exact Option.some.inj skipped ▸ length_fromLineFeed_le inside
                    · split at skipped
                      · exact Option.some.inj skipped ▸ length_afterBlockComment_le inside
                      · contradiction
                  rw [List.length_cons] at shorter
                  omega
          | cons next inside =>
              rw [List.cons_append] at skipped ⊢
              dsimp only at skipped ⊢
              split at skipped
              · rename_i isLine
                rw [if_pos isLine, fromLineFeed_alike alike (Option.some.inj skipped)]
              · rename_i notLine
                rw [if_neg notLine]
                split at skipped
                · rename_i isBlock
                  rw [if_pos isBlock, afterBlockComment_alike alike (Option.some.inj skipped)]
                · contradiction
        · contradiction

/-- Where no literal and no comment begins, none does whatever stands behind, if that begins
alike. -/
theorem skip?_beyond_code (alike : Alike rest other) (isCode : skip? flavour byte rest = none) :
    skip? flavour byte other = none := by
  cases flavour with
  | python => exact skip?_of_code isCode other
  | javaScript =>
      rw [skip?.eq_def] at isCode ⊢
      split at isCode
      · contradiction
      · rename_i notQuote
        rw [if_neg notQuote]
        dsimp only at isCode ⊢
        split at isCode
        · rename_i isSlash
          rw [if_pos isSlash]
          cases alike with
          | empty => rfl
          | same next rest other =>
              dsimp only at isCode ⊢
              split at isCode
              · contradiction
              · rename_i notLine
                rw [if_neg notLine]
                split at isCode
                · contradiction
                · rename_i notBlock
                  rw [if_neg notBlock]
          | @words first second rest other isFirst isSecond =>
              have notMark {mark : UInt8} (isMark : Flavour.python.isWordByte mark = false) :
                  second ≠ mark := by
                rintro rfl
                rw [isSecond] at isMark
                contradiction
              dsimp only
              rw [if_neg (notMark (by decide)), if_neg (notMark (by decide))]
        · rename_i notSlash
          rw [if_neg notSlash]

end Beyond

/-! ## Steps of the scan -/

section Steps

@[simp] theorem lexemes_nil : lexemes flavour offset [] = [] := by
  rw [lexemes]

theorem lexemes_of_code (isCode : skip? flavour byte rest = none) :
    lexemes flavour offset (byte :: rest) = lexemes flavour (offset + 1) rest := by
  rw [lexemes.eq_def]
  dsimp only
  split
  · rfl
  · rename_i isSome
    rw [isCode] at isSome
    contradiction

theorem lexemes_of_skip (skipped : skip? flavour byte (passed ++ after) = some after) :
    lexemes flavour offset (byte :: (passed ++ after)) =
      ⟨offset, byte :: passed⟩ :: lexemes flavour (offset + (passed.length + 1)) after := by
  rw [lexemes.eq_def]
  dsimp only
  split
  · rename_i isNone
    rw [skipped] at isNone
    contradiction
  · rename_i found isFound
    rw [skipped] at isFound
    cases isFound
    have isText := @take_passed _ after _ (byte :: passed) (List.cons_append ..).symm
    rw [isText, List.length_cons]

/-- Plain bytes hold no literal and no comment. -/
theorem lexemes_of_plain {word : Bytes} (isPlain : ∀ byte ∈ word, flavour.isPlain byte = true)
    (offset : Nat) (rest : Bytes) :
    lexemes flavour offset (word ++ rest) = lexemes flavour (offset + word.length) rest := by
  induction word generalizing offset with
  | nil => rfl
  | cons byte word ih =>
      have isByte := isPlain byte List.mem_cons_self
      rw [List.cons_append, lexemes_of_code (skip?_of_isPlain isByte _),
        ih fun other member => isPlain other (List.mem_cons_of_mem _ member), List.length_cons,
        Nat.add_assoc, Nat.add_comm 1]

theorem start_of_mem_lexemes (member : lexeme ∈ lexemes flavour offset bytes) :
    offset ≤ lexeme.start := by
  fun_induction lexemes flavour offset bytes with
  | case1 => simp at member
  | case2 offset byte rest isCode ih => exact Nat.le_of_succ_le (ih member)
  | case3 offset byte rest after skipped text ih =>
      rcases List.mem_cons.mp member with rfl | inLater
      · exact Nat.le_refl _
      · exact Nat.le_of_add_right_le (ih inLater)

end Steps

/-! ## Places that a scan reaches -/

section Reaching

/-- With `rest` behind it, `lead` is scanned up to its end: no literal and no comment that begins
in it goes on behind it. -/
inductive Reaches (flavour : Flavour) (rest : Bytes) : Bytes → Prop where
  | nil : Reaches flavour rest []
  | code {byte : UInt8} {lead : Bytes} :
      skip? flavour byte (lead ++ rest) = none → Reaches flavour rest lead →
      Reaches flavour rest (byte :: lead)
  | skip {byte : UInt8} {passed lead : Bytes} :
      skip? flavour byte (passed ++ (lead ++ rest)) = some (lead ++ rest) →
      Reaches flavour rest lead → Reaches flavour rest (byte :: (passed ++ lead))

theorem Reaches.alike (reaches : Reaches flavour rest lead) (alike : Alike rest other) :
    Reaches flavour other lead := by
  induction reaches with
  | nil => exact .nil
  | @code byte lead isCode _ ih => exact .code (skip?_beyond_code (alike.append lead) isCode) ih
  | @skip byte passed lead skipped _ ih =>
      exact .skip (skip?_beyond (alike.append lead) skipped) ih

/-- What is reached behind plain bytes is reached from behind them. -/
theorem Reaches.of_plain {word : Bytes} (isPlain : ∀ byte ∈ word, flavour.isPlain byte = true)
    (reaches : Reaches flavour rest (word ++ lead)) : Reaches flavour rest lead := by
  induction word with
  | nil => exact reaches
  | cons byte word ih =>
      apply ih fun other member => isPlain other (List.mem_cons_of_mem _ member)
      rw [List.cons_append] at reaches
      generalize isText : byte :: (word ++ lead) = text at reaches
      cases reaches with
      | nil => contradiction
      | code isCode later =>
          cases isText
          exact later
      | skip skipped later =>
          obtain ⟨rfl, -⟩ := List.cons.inj isText
          rw [skip?_of_isPlain (isPlain byte List.mem_cons_self)] at skipped
          contradiction

/-- Where a parenthesis that is open before `lead` is closed: in it, or where one of some that are
then open is closed, whatever stands behind, if that begins like `rest`. -/
def Closes (flavour : Flavour) (rest lead : Bytes) (depth : Nat) : Prop :=
  (∃ closed, ∀ other, Alike rest other →
      closing? flavour depth (lead ++ other) = some (closed ++ other)) ∨
    ∃ inner, ∀ other, Alike rest other →
      closing? flavour depth (lead ++ other) = closing? flavour inner other

theorem Closes.of_step {before : Bytes} {depth next : Nat} (closes : Closes flavour rest lead next)
    (step : ∀ other, Alike rest other →
      closing? flavour depth (before ++ other) = closing? flavour next (lead ++ other)) :
    Closes flavour rest before depth := by
  rcases closes with ⟨closed, isClosed⟩ | ⟨inner, isOpen⟩
  · exact .inl ⟨closed, fun other alike => (step other alike).trans (isClosed other alike)⟩
  · exact .inr ⟨inner, fun other alike => (step other alike).trans (isOpen other alike)⟩

theorem Reaches.closes (reaches : Reaches flavour rest lead) (depth : Nat) :
    Closes flavour rest lead depth := by
  induction reaches generalizing depth with
  | nil => exact .inr ⟨depth, fun _ _ => rfl⟩
  | @code byte lead isCode _ ih =>
      have ofCode (other : Bytes) (alike : Alike rest other) :=
        @closing?_of_code _ depth _ _ (skip?_beyond_code (alike.append lead) isCode)
      by_cases isOpen : byte = ascii '('
      · simp only [if_pos isOpen] at ofCode
        exact (ih (depth + 1)).of_step ofCode
      · simp only [if_neg isOpen] at ofCode
        by_cases isClose : byte = ascii ')'
        · simp only [if_pos isClose] at ofCode
          cases depth with
          | zero => exact .inl ⟨byte :: lead, ofCode⟩
          | succ depth => exact (ih depth).of_step ofCode
        · simp only [if_neg isClose] at ofCode
          exact (ih depth).of_step ofCode
  | @skip byte passed lead skipped _ ih =>
      apply (ih depth).of_step
      intro other alike
      rw [List.cons_append, List.append_assoc]
      exact closing?_of_skip (skip?_beyond (alike.append lead) skipped)

/-- A scan finds what begins at a place that it reaches. -/
theorem Reaches.lexemes (reaches : Reaches flavour rest lead) (offset : Nat) :
    ∃ earlier, lexemes flavour offset (lead ++ rest) =
      earlier ++ lexemes flavour (offset + lead.length) rest := by
  induction reaches generalizing offset with
  | nil => exact ⟨[], rfl⟩
  | @code byte lead isCode _ ih =>
      obtain ⟨earlier, isFound⟩ := ih (offset + 1)
      refine ⟨earlier, ?_⟩
      rw [List.cons_append, lexemes_of_code isCode, isFound, List.length_cons, Nat.add_assoc,
        Nat.add_comm 1]
  | @skip byte passed lead skipped _ ih =>
      obtain ⟨earlier, isFound⟩ := ih (offset + (passed.length + 1))
      refine ⟨⟨offset, byte :: passed⟩ :: earlier, ?_⟩
      rw [List.cons_append, List.append_assoc, lexemes_of_skip skipped, isFound, List.cons_append,
        List.length_cons, List.length_append, Nat.add_assoc, Nat.add_right_comm]

/-- What a scan finds begins at a place that it reaches. -/
theorem exists_reaches (member : lexeme ∈ lexemes flavour offset bytes) :
    ∃ lead byte passed after, bytes = lead ++ byte :: (passed ++ after) ∧
      lexeme = ⟨offset + lead.length, byte :: passed⟩ ∧
      skip? flavour byte (passed ++ after) = some after ∧
      Reaches flavour (byte :: (passed ++ after)) lead := by
  fun_induction lexemes flavour offset bytes with
  | case1 => simp at member
  | case2 offset byte rest isCode ih =>
      obtain ⟨lead, first, passed, after, rfl, rfl, skipped, reaches⟩ := ih member
      refine ⟨byte :: lead, first, passed, after, rfl, ?_, skipped, .code isCode reaches⟩
      rw [List.length_cons, Nat.add_assoc, Nat.add_comm 1]
  | case3 offset byte rest next isSkipped text ih =>
      obtain ⟨found, rfl, skipped⟩ := exists_passed isSkipped
      have isText : text = byte :: found := take_passed (List.cons_append ..).symm
      rw [isText] at member ih
      rcases List.mem_cons.mp member with rfl | inLater
      · exact ⟨[], byte, found, next, rfl, rfl, skipped, .nil⟩
      · obtain ⟨lead, first, passed, after, rfl, rfl, later, reaches⟩ := ih inLater
        refine ⟨byte :: (found ++ lead), first, passed, after, ?_, ?_, later,
          .skip skipped reaches⟩
        · rw [List.cons_append, List.append_assoc]
        · rw [List.length_cons, List.length_cons, List.length_append, Nat.add_assoc,
            Nat.add_right_comm]

end Reaching

end Polyglot.Scan
