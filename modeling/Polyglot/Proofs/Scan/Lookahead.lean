import Polyglot.Proofs.Scan.Sites

/-!
# What stands behind a literal

A scan looks past the end of a literal only at the first byte that stands there, and there only to
tell quotes and line feeds from other bytes.  So where a literal or comment ends does not depend on
which word follows it.
-/

namespace Polyglot.Scan

open Text

variable {byte quote : UInt8} {bytes rest passed after other : Bytes}

/-! ## Texts that begin alike -/

section Beginning

/-- Texts that a scan tells apart only after their first byte. -/
inductive Alike : Bytes → Bytes → Prop where
  | empty : Alike [] []
  | same (byte : UInt8) (rest other : Bytes) : Alike (byte :: rest) (byte :: other)
  | words {first second : UInt8} (rest other : Bytes) :
      Flavour.python.isWordByte first = true → Flavour.python.isWordByte second = true →
      Alike (first :: rest) (second :: other)

theorem ne_lineFeed_of_isWordByte (isWord : Flavour.python.isWordByte byte = true) :
    byte ≠ lineFeed := by
  intro isFeed
  rw [isFeed] at isWord
  exact absurd isWord (by decide)

theorem quote_beq_of_isWordByte (isQuote : Flavour.python.isQuote quote = true)
    (isWord : Flavour.python.isWordByte byte = true) : (quote == byte) = false := by
  apply beq_false_of_ne
  intro same
  have isPlain := isPlain_of_isWordByte isWord
  simp [Flavour.isPlain, ← same, isQuote] at isPlain

theorem quote_beq_lineFeed (isQuote : Flavour.python.isQuote quote = true) :
    (quote == lineFeed) = false := by
  apply beq_false_of_ne
  intro same
  rw [same] at isQuote
  exact absurd isQuote (by decide)

end Beginning

/-! ## Literals -/

section Literals

/-- A scan for the end of a short literal passes every byte but a line feed. -/
theorem scanShort_stays {escaped : Bool}
    (stays : (scanShort quote escaped (byte :: rest)).rest = byte :: rest) :
    byte = lineFeed ∧
      ∀ other, scanShort quote escaped (byte :: other) = ⟨byte :: other, false⟩ := by
  have passes (later : Bool) : (scanShort quote later rest).rest ≠ byte :: rest := by
    intro same
    have shorter := length_scanShort_le quote later rest
    rw [same, List.length_cons] at shorter
    omega
  cases escaped with
  | true => exact absurd stays (passes false)
  | false =>
      rw [scanShort] at stays
      split at stays
      · exact absurd stays (passes true)
      · rename_i notEscape
        split at stays
        · rename_i atEnd
          have isFeed := atEnd
          simp only [Bool.and_eq_true, decide_eq_true_eq] at isFeed
          exact ⟨isFeed.1, fun other => by rw [scanShort, if_neg notEscape, if_pos atEnd]⟩
        · split at stays
          · exact absurd (congrArg List.length stays) (by simp)
          · exact absurd stays (passes false)

theorem scanShort_alike {escaped : Bool} (alike : Alike after other)
    (ended : (scanShort quote escaped (passed ++ after)).rest = after) :
    (scanShort quote escaped (passed ++ other)).rest = other := by
  induction passed generalizing escaped with
  | nil =>
      cases alike with
      | empty => exact ended
      | same byte rest other => rw [List.nil_append, (scanShort_stays ended).2]
      | words rest other isFirst isSecond =>
          exact absurd (scanShort_stays ended).1 (ne_lineFeed_of_isWordByte isFirst)
  | cons byte passed ih =>
      cases escaped with
      | true => exact ih ended
      | false =>
          rw [List.cons_append, scanShort] at ended ⊢
          split at ended
          · rename_i isEscape
            rw [if_pos isEscape]
            exact ih ended
          · rename_i notEscape
            rw [if_neg notEscape]
            split at ended
            · have same := congrArg List.length ended
              simp only [List.length_cons, List.length_append] at same
              omega
            · rename_i notEnd
              rw [if_neg notEnd]
              split at ended
              · rename_i isQuote
                rw [if_pos isQuote, List.append_left_eq_self.mp ended, List.nil_append]
              · rename_i notQuote
                rw [if_neg notQuote]
                exact ih ended

/-- A tripled literal that something follows has the three quotes at its end. -/
theorem length_scanTriple_add_le {escaped : Bool}
    (followed : (scanTriple quote escaped bytes).rest ≠ []) :
    (scanTriple quote escaped bytes).rest.length + 3 ≤ bytes.length := by
  fun_induction scanTriple quote escaped bytes with
  | case1 => contradiction
  | case2 byte rest ih => exact Nat.le_succ_of_le (ih followed)
  | case3 rest ih => exact Nat.le_succ_of_le (ih followed)
  | case4 byte rest =>
      have longer := List.length_pos_iff.mpr followed
      simp only [List.length_drop, List.length_cons] at longer ⊢
      omega
  | case5 byte rest _ _ ih => exact Nat.le_succ_of_le (ih followed)

theorem scanTriple_alike {escaped : Bool} (alike : Alike after other)
    (ended : (scanTriple quote escaped (passed ++ after)).rest = after) :
    (scanTriple quote escaped (passed ++ other)).rest = other := by
  by_cases isEmpty : after = []
  · rw [isEmpty] at alike ended
    cases alike with
    | empty => exact ended
  · -- What follows the literal is not there, so its quotes are in what is passed.
    have isLong {escaped : Bool} {passed : Bytes}
        (ended : (scanTriple quote escaped (passed ++ after)).rest = after) :
        3 ≤ passed.length := by
      have longer := length_scanTriple_add_le (by rwa [ended])
      rw [ended, List.length_append] at longer
      omega
    induction passed generalizing escaped with
    | nil => exact absurd (isLong ended) (by simp)
    | cons byte passed ih =>
        cases escaped with
        | true => exact ih ended
        | false =>
            have long := isLong ended
            rw [List.cons_append, scanTriple] at ended ⊢
            split at ended
            · rename_i isEscape
              rw [if_pos isEscape]
              exact ih ended
            · rename_i notEscape
              rw [if_neg notEscape]
              obtain ⟨second, third, passed, rfl⟩ : ∃ second third later,
                  passed = second :: third :: later := by
                cases passed with
                | nil => simp at long
                | cons second passed =>
                    cases passed with
                    | nil => simp at long
                    | cons third passed => exact ⟨second, third, passed, rfl⟩
              simp only [List.cons_append, List.isPrefixOf, Bool.and_true] at ended ⊢
              split at ended
              · rename_i closes
                rw [if_pos closes]
                simp only [List.drop_succ_cons, List.drop_zero] at ended ⊢
                rw [List.append_left_eq_self.mp ended, List.nil_append]
              · rename_i notClosing
                rw [if_neg notClosing]
                exact ih ended

theorem length_of_opensTriple (opened : opensTriple .python quote bytes = true) :
    2 ≤ bytes.length := by
  rw [opensTriple, Bool.and_eq_true] at opened
  exact length_le_of_isPrefixOf opened.2

/-- A scan for the end of a literal passes every byte but a line feed. -/
theorem scanLiteral_stays
    (stays : (scanLiteral .python quote (byte :: rest)).rest = byte :: rest) : byte = lineFeed := by
  rw [scanLiteral] at stays
  split at stays
  · have shorter := length_scanTriple_le quote false ((byte :: rest).drop 2)
    rw [stays, List.length_drop, List.length_cons] at shorter
    omega
  · exact (scanShort_stays stays).1

theorem opensTriple_alike (isQuote : Flavour.python.isQuote quote = true)
    (alike : Alike after other)
    (ended : (scanLiteral .python quote (passed ++ after)).rest = after) :
    opensTriple .python quote (passed ++ other) = opensTriple .python quote (passed ++ after) := by
  match passed with
  | [] =>
      rw [List.nil_append] at ended
      cases alike with
      | empty => rfl
      | same byte rest other =>
          simp [opensTriple, List.isPrefixOf, scanLiteral_stays ended,
            quote_beq_lineFeed isQuote]
      | words rest other isFirst isSecond =>
          simp [opensTriple, List.isPrefixOf, quote_beq_of_isWordByte isQuote isFirst,
            quote_beq_of_isWordByte isQuote isSecond]
  | [first] =>
      cases alike with
      | empty => rfl
      | same byte rest other => simp [opensTriple, List.isPrefixOf]
      | words rest other isFirst isSecond =>
          simp [opensTriple, List.isPrefixOf, quote_beq_of_isWordByte isQuote isFirst,
            quote_beq_of_isWordByte isQuote isSecond]
  | first :: second :: passed => simp [opensTriple, List.isPrefixOf]

theorem scanLiteral_alike (isQuote : Flavour.python.isQuote quote = true)
    (alike : Alike after other)
    (ended : (scanLiteral .python quote (passed ++ after)).rest = after) :
    (scanLiteral .python quote (passed ++ other)).rest = other := by
  have sameOpening := opensTriple_alike isQuote alike ended
  rw [scanLiteral] at ended ⊢
  rw [sameOpening]
  split at ended
  · rename_i opened
    rw [if_pos opened]
    have isLong := length_of_opensTriple opened
    have shorter := length_scanTriple_le quote false ((passed ++ after).drop 2)
    rw [ended, List.length_drop] at shorter
    rw [List.length_append] at isLong shorter
    have passesQuotes : 2 ≤ passed.length := by omega
    rw [List.drop_append_of_le_length passesQuotes] at ended ⊢
    exact scanTriple_alike alike ended
  · rename_i notTripled
    rw [if_neg notTripled]
    exact scanShort_alike alike ended

end Literals

/-! ## Comments -/

section Comments

theorem fromLineFeed_alike (alike : Alike after other)
    (ended : fromLineFeed (passed ++ after) = after) : fromLineFeed (passed ++ other) = other := by
  have passes {byte : UInt8} {rest : Bytes} : fromLineFeed rest ≠ byte :: rest := by
    intro same
    have shorter := length_fromLineFeed_le rest
    rw [same, List.length_cons] at shorter
    omega
  induction passed with
  | nil =>
      rw [List.nil_append] at ended ⊢
      cases alike with
      | empty => exact ended
      | same byte rest other =>
          rw [fromLineFeed_cons] at ended ⊢
          split at ended
          · rename_i isFeed
            rw [if_pos isFeed]
          · exact absurd ended passes
      | words rest other isFirst isSecond =>
          rw [fromLineFeed_cons, if_neg (ne_lineFeed_of_isWordByte isFirst)] at ended
          exact absurd ended passes
  | cons byte passed ih =>
      rw [List.cons_append, fromLineFeed_cons] at ended ⊢
      split at ended
      · have same := congrArg List.length ended
        simp only [List.length_cons, List.length_append] at same
        omega
      · rename_i notFeed
        rw [if_neg notFeed]
        exact ih ended

end Comments

/-! ## Both -/

section Skipping

/-- Whether a tripled literal begins with `byte`. -/
def opens (byte : UInt8) (rest : Bytes) : Bool :=
  Flavour.python.isQuote byte && opensTriple .python byte rest

/-- A literal or comment ends where it does whatever stands behind it, if that begins alike. -/
theorem skip?_alike (alike : Alike after other)
    (skipped : skip? .python byte (passed ++ after) = some after) :
    skip? .python byte (passed ++ other) = some other ∧
      opens byte (passed ++ other) = opens byte (passed ++ after) := by
  rw [skip?] at skipped ⊢
  split at skipped
  · rename_i isQuote
    have ended := Option.some.inj skipped
    rw [if_pos isQuote, scanLiteral_alike isQuote alike ended, opens, opens,
      opensTriple_alike isQuote alike ended]
    exact ⟨rfl, rfl⟩
  · rename_i notQuote
    rw [if_neg notQuote]
    split at skipped
    · rename_i isComment
      rw [if_pos isComment, fromLineFeed_alike alike (Option.some.inj skipped), opens, opens,
        Bool.eq_false_iff.mpr notQuote]
      exact ⟨rfl, rfl⟩
    · contradiction

theorem skip?_of_code (isCode : skip? .python byte rest = none) (other : Bytes) :
    skip? .python byte other = none := by
  rw [skip?] at isCode ⊢
  split at isCode
  · contradiction
  · rename_i notQuote
    rw [if_neg notQuote]
    split at isCode
    · contradiction
    · rename_i notComment
      rw [if_neg notComment]

end Skipping

end Polyglot.Scan
