import Polyglot.Scan.Call

/-!
# Scans inside parentheses

A text that stands before the parenthesis that closes it is scanned in the same way as when it
stands alone: no literal or comment begins in it and ends after the parenthesis, none that ends
at its end would have gone on, and its own parentheses are closed in it.
-/

namespace Polyglot.Scan

open Text

variable {flavour : Flavour} {depth : Nat} {byte quote : UInt8} {bytes rest after inside : Bytes}

/-! ## What the scans leave -/

section Suffix

theorem scanShort_suffix (quote : UInt8) (escaped : Bool) (bytes : Bytes) :
    (scanShort quote escaped bytes).rest <:+ bytes := by
  fun_induction scanShort quote escaped bytes with
  | case1 => exact List.suffix_rfl
  | case2 byte rest ih => exact ih.trans (List.suffix_cons ..)
  | case3 rest ih => exact ih.trans (List.suffix_cons ..)
  | case4 => exact List.suffix_rfl
  | case5 => exact List.suffix_cons ..
  | case6 byte rest _ _ _ ih => exact ih.trans (List.suffix_cons ..)

theorem scanTriple_suffix (quote : UInt8) (escaped : Bool) (bytes : Bytes) :
    (scanTriple quote escaped bytes).rest <:+ bytes := by
  fun_induction scanTriple quote escaped bytes with
  | case1 => exact List.suffix_rfl
  | case2 byte rest ih => exact ih.trans (List.suffix_cons ..)
  | case3 rest ih => exact ih.trans (List.suffix_cons ..)
  | case4 byte rest => exact (List.drop_suffix 2 rest).trans (List.suffix_cons ..)
  | case5 byte rest _ _ ih => exact ih.trans (List.suffix_cons ..)

theorem scanLiteral_suffix (flavour : Flavour) (quote : UInt8) (rest : Bytes) :
    (scanLiteral flavour quote rest).rest <:+ rest := by
  rw [scanLiteral]
  split
  · exact (scanTriple_suffix ..).trans (List.drop_suffix 2 rest)
  · exact scanShort_suffix ..

theorem afterBlockComment_suffix (bytes : Bytes) : afterBlockComment bytes <:+ bytes := by
  fun_induction afterBlockComment bytes with
  | case1 => exact List.suffix_rfl
  | case2 byte rest => exact (List.drop_suffix 1 rest).trans (List.suffix_cons ..)
  | case3 byte rest _ ih => exact ih.trans (List.suffix_cons ..)

theorem skip?_suffix {after : Bytes} (skipped : skip? flavour byte rest = some after) :
    after <:+ rest := by
  unfold skip? at skipped
  split at skipped
  · cases skipped
    exact scanLiteral_suffix ..
  · cases flavour with
    | javaScript =>
        dsimp only at skipped
        split at skipped
        · cases rest with
          | nil => simp at skipped
          | cons next inside =>
              dsimp only at skipped
              split at skipped
              · cases skipped
                exact (List.dropWhile_suffix _).trans (List.suffix_cons ..)
              · split at skipped
                · cases skipped
                  exact (afterBlockComment_suffix inside).trans (List.suffix_cons ..)
                · simp at skipped
        · simp at skipped
    | python =>
        dsimp only at skipped
        split at skipped
        · cases skipped
          exact List.dropWhile_suffix _
        · simp at skipped

/-- What passes a literal or comment is cut into its text and what stands behind it. -/
theorem exists_passed {after : Bytes} (skipped : skip? flavour byte rest = some after) :
    ∃ passed, rest = passed ++ after ∧ skip? flavour byte (passed ++ after) = some after := by
  have ⟨passed, isRest⟩ := skip?_suffix skipped
  exact ⟨passed, isRest.symm, isRest ▸ skipped⟩

theorem closing?_suffix {closed : Bytes} (found : closing? flavour depth bytes = some closed) :
    closed <:+ bytes ∧ ∃ after, closed = ascii ')' :: after := by
  fun_induction closing? flavour depth bytes with
  | case1 => simp at found
  | case2 depth byte rest next skipped ih =>
      obtain ⟨isSuffix, isClosed⟩ := ih found
      exact ⟨(isSuffix.trans (skip?_suffix skipped)).trans (List.suffix_cons ..), isClosed⟩
  | case3 depth rest isCode ih =>
      obtain ⟨isSuffix, isClosed⟩ := ih found
      exact ⟨isSuffix.trans (List.suffix_cons ..), isClosed⟩
  | case4 rest =>
      cases found
      exact ⟨List.suffix_rfl, rest, rfl⟩
  | case5 rest depth isCode isNot ih =>
      obtain ⟨isSuffix, isClosed⟩ := ih found
      exact ⟨isSuffix.trans (List.suffix_cons ..), isClosed⟩
  | case6 depth byte rest isCode isNot isNeither ih =>
      obtain ⟨isSuffix, isClosed⟩ := ih found
      exact ⟨isSuffix.trans (List.suffix_cons ..), isClosed⟩

end Suffix

/-! ## Literals and comments before a parenthesis -/

section Skip

theorem isQuote_parenthesis (flavour : Flavour) : flavour.isQuote (ascii ')') = false := by
  cases flavour <;> decide

/-- The scan of a short literal ends before a parenthesis where it would end without it, or
passes it. -/
theorem scanShort_append (isOther : ascii ')' ≠ quote) (escaped : Bool) (bytes after : Bytes) :
    scanShort quote escaped (bytes ++ ascii ')' :: after) =
        ⟨(scanShort quote escaped bytes).rest ++ ascii ')' :: after,
          (scanShort quote escaped bytes).terminated⟩ ∨
      (scanShort quote escaped (bytes ++ ascii ')' :: after)).rest.length ≤ after.length := by
  have passes : scanShort quote false (ascii ')' :: after) = scanShort quote false after := by
    have plain : ascii ')' ≠ backslash ∧ ascii ')' ≠ lineFeed := by decide
    simp [scanShort, plain.1, plain.2, isOther]
  fun_induction scanShort quote escaped bytes with
  | case1 escaped =>
      right
      rw [List.nil_append]
      cases escaped with
      | true => exact length_scanShort_le quote false after
      | false => exact passes ▸ length_scanShort_le quote false after
  | case2 byte rest ih => exact ih
  | case3 rest ih =>
      rw [List.cons_append, scanShort, if_pos rfl]
      exact ih
  | case4 byte rest notEscape atEnd =>
      left
      rw [List.cons_append, scanShort, if_neg notEscape, if_pos atEnd]
  | case5 rest notEscape notEnd =>
      left
      rw [List.cons_append, scanShort, if_neg notEscape, if_neg notEnd, if_pos rfl]
  | case6 byte rest notEscape notEnd notQuote ih =>
      rw [List.cons_append, scanShort, if_neg notEscape, if_neg notEnd, if_neg notQuote]
      exact ih

/-- A byte that does not occur in a pattern ends the search for it. -/
theorem isPrefixOf_append_cons {pattern : Bytes} {stop : UInt8} (isOther : stop ∉ pattern)
    (bytes after : Bytes) :
    pattern.isPrefixOf (bytes ++ stop :: after) = pattern.isPrefixOf bytes := by
  induction pattern generalizing bytes with
  | nil => rfl
  | cons first pattern ih =>
      have isNot : (first == stop) = false :=
        beq_false_of_ne fun same => isOther (by simp [same])
      cases bytes with
      | nil => simp [List.isPrefixOf, isNot]
      | cons byte bytes =>
          have inner := ih (fun member => isOther (List.mem_cons_of_mem _ member)) bytes
          simp only [List.cons_append, List.isPrefixOf, inner]

theorem length_le_of_isPrefixOf {pattern bytes : Bytes} (starts : pattern.isPrefixOf bytes) :
    pattern.length ≤ bytes.length :=
  (List.isPrefixOf_iff_prefix.mp starts).length_le

theorem scanTriple_append (isOther : ascii ')' ≠ quote) (escaped : Bool) (bytes after : Bytes) :
    scanTriple quote escaped (bytes ++ ascii ')' :: after) =
        ⟨(scanTriple quote escaped bytes).rest ++ ascii ')' :: after,
          (scanTriple quote escaped bytes).terminated⟩ ∨
      (scanTriple quote escaped (bytes ++ ascii ')' :: after)).rest.length ≤ after.length := by
  have isNot : ascii ')' ∉ [quote, quote, quote] := by simp [isOther]
  have passes : scanTriple quote false (ascii ')' :: after) = scanTriple quote false after := by
    have plain : ascii ')' ≠ backslash := by decide
    have no := isPrefixOf_append_cons isNot [] after
    rw [List.nil_append] at no
    rw [scanTriple, if_neg plain, no]
    rfl
  fun_induction scanTriple quote escaped bytes with
  | case1 escaped =>
      right
      rw [List.nil_append]
      cases escaped with
      | true => exact length_scanTriple_le quote false after
      | false => exact passes ▸ length_scanTriple_le quote false after
  | case2 byte rest ih => exact ih
  | case3 rest ih =>
      rw [List.cons_append, scanTriple, if_pos rfl]
      exact ih
  | case4 byte rest notEscape atEnd =>
      left
      have short := length_le_of_isPrefixOf atEnd
      rw [← isPrefixOf_append_cons isNot _ after] at atEnd
      rw [List.cons_append] at atEnd ⊢
      rw [scanTriple, if_neg notEscape, if_pos atEnd,
        List.drop_append_of_le_length (by simpa using short)]
  | case5 byte rest notEscape notEnd ih =>
      rw [← isPrefixOf_append_cons isNot _ after] at notEnd
      rw [List.cons_append] at notEnd ⊢
      rw [scanTriple, if_neg notEscape, if_neg notEnd]
      exact ih

theorem opensTriple_append (isOther : ascii ')' ≠ quote) (flavour : Flavour) (rest after : Bytes) :
    opensTriple flavour quote (rest ++ ascii ')' :: after) = opensTriple flavour quote rest := by
  rw [opensTriple, opensTriple, isPrefixOf_append_cons (by simp [isOther])]

theorem scanLiteral_append (isOther : ascii ')' ≠ quote) (flavour : Flavour) (rest after : Bytes) :
    scanLiteral flavour quote (rest ++ ascii ')' :: after) =
        ⟨(scanLiteral flavour quote rest).rest ++ ascii ')' :: after,
          (scanLiteral flavour quote rest).terminated⟩ ∨
      (scanLiteral flavour quote (rest ++ ascii ')' :: after)).rest.length ≤ after.length := by
  rw [scanLiteral, scanLiteral, opensTriple_append isOther]
  split
  · rename_i opens
    have short : 2 ≤ rest.length := by
      rw [opensTriple, Bool.and_eq_true] at opens
      exact length_le_of_isPrefixOf opens.2
    rw [List.drop_append_of_le_length short]
    exact scanTriple_append isOther false _ after
  · exact scanShort_append isOther false rest after

theorem fromLineFeed_cons (byte : UInt8) (rest : Bytes) :
    fromLineFeed (byte :: rest) = if byte = lineFeed then byte :: rest else fromLineFeed rest := by
  rw [fromLineFeed, List.dropWhile_cons]
  by_cases isFeed : byte = lineFeed
  · simp [isFeed]
  · simp [isFeed, fromLineFeed]

theorem fromLineFeed_append (bytes after : Bytes) :
    fromLineFeed (bytes ++ ascii ')' :: after) = fromLineFeed bytes ++ ascii ')' :: after ∨
      (fromLineFeed (bytes ++ ascii ')' :: after)).length ≤ after.length := by
  induction bytes with
  | nil =>
      right
      have passed : fromLineFeed (ascii ')' :: after) = fromLineFeed after := rfl
      rw [List.nil_append, passed]
      exact length_fromLineFeed_le after
  | cons byte bytes ih =>
      simp only [fromLineFeed, List.cons_append, List.dropWhile_cons] at ih ⊢
      split
      · exact ih
      · exact .inl rfl

theorem afterBlockComment_append (bytes after : Bytes) :
    afterBlockComment (bytes ++ ascii ')' :: after) =
        afterBlockComment bytes ++ ascii ')' :: after ∨
      (afterBlockComment (bytes ++ ascii ')' :: after)).length ≤ after.length := by
  have isNot : ascii ')' ∉ [ascii '*', ascii '/'] := by decide
  fun_induction afterBlockComment bytes with
  | case1 =>
      right
      have no := isPrefixOf_append_cons isNot [] after
      rw [List.nil_append] at no ⊢
      rw [afterBlockComment, no]
      exact length_afterBlockComment_le after
  | case2 byte rest atEnd =>
      left
      have short := length_le_of_isPrefixOf atEnd
      rw [← isPrefixOf_append_cons isNot _ after] at atEnd
      rw [List.cons_append] at atEnd ⊢
      rw [afterBlockComment, if_pos atEnd, List.drop_append_of_le_length (by simpa using short)]
  | case3 byte rest notEnd ih =>
      rw [← isPrefixOf_append_cons isNot _ after] at notEnd
      rw [List.cons_append] at notEnd ⊢
      rw [afterBlockComment, if_neg notEnd]
      exact ih

/-- A literal or comment that begins before a parenthesis is there without the parenthesis too,
and ends where it does then, or passes the parenthesis. -/
theorem skip?_append (flavour : Flavour) (byte : UInt8) (rest after : Bytes) :
    skip? flavour byte (rest ++ ascii ')' :: after) =
        (skip? flavour byte rest).map (· ++ ascii ')' :: after) ∨
      ∃ short, skip? flavour byte (rest ++ ascii ')' :: after) = some short ∧
        short.length ≤ after.length := by
  unfold skip?
  split
  · rename_i quoted
    have isOther : ascii ')' ≠ byte := by
      rintro rfl
      rw [isQuote_parenthesis] at quoted
      contradiction
    rcases scanLiteral_append isOther flavour rest after with same | passed
    · exact .inl (by rw [same]; rfl)
    · exact .inr ⟨_, rfl, passed⟩
  · cases flavour with
    | javaScript =>
        dsimp only
        split
        · cases rest with
          | nil => exact .inl rfl
          | cons next inside =>
              rw [List.cons_append]
              dsimp only
              split
              · rcases fromLineFeed_append inside after with same | passed
                · exact .inl (by rw [same]; rfl)
                · exact .inr ⟨_, rfl, passed⟩
              · split
                · rcases afterBlockComment_append inside after with same | passed
                  · exact .inl (by rw [same]; rfl)
                  · exact .inr ⟨_, rfl, passed⟩
                · exact .inl rfl
        · exact .inl rfl
    | python =>
        dsimp only
        split
        · rcases fromLineFeed_append rest after with same | passed
          · exact .inl (by rw [same]; rfl)
          · exact .inr ⟨_, rfl, passed⟩
        · exact .inl rfl

end Skip

/-! ## Parentheses -/

section Closing

theorem closing?_of_skip {after : Bytes} (skipped : skip? flavour byte rest = some after) :
    closing? flavour depth (byte :: rest) = closing? flavour depth after := by
  rw [closing?.eq_def]
  dsimp only
  split
  · rename_i other isOther
    rw [skipped] at isOther
    cases isOther
    rfl
  · rename_i isNone
    rw [skipped] at isNone
    contradiction

theorem closing?_of_code (isCode : skip? flavour byte rest = none) :
    closing? flavour depth (byte :: rest) =
      if byte = ascii '(' then closing? flavour (depth + 1) rest
      else if byte = ascii ')' then
        match depth with
        | 0 => some (byte :: rest)
        | depth + 1 => closing? flavour depth rest
      else closing? flavour depth rest := by
  rw [closing?.eq_def]
  dsimp only
  split
  · rename_i isSome
    rw [isCode] at isSome
    contradiction
  · rfl

/-- What follows a text is closed by the parenthesis after it, with `depth` more that are open
before. -/
def Encloses (flavour : Flavour) (depth : Nat) (inside after : Bytes) : Prop :=
  closing? flavour depth (inside ++ ascii ')' :: after) = some (ascii ')' :: after)

theorem skip?_of_encloses (encloses : Encloses flavour depth (byte :: rest) after) :
    skip? flavour byte (rest ++ ascii ')' :: after) =
      (skip? flavour byte rest).map (· ++ ascii ')' :: after) := by
  rcases skip?_append flavour byte rest after with same | ⟨short, passed, isShort⟩
  · exact same
  · rw [Encloses, List.cons_append, closing?_of_skip passed] at encloses
    have shorter := length_closing?_le encloses
    rw [List.length_cons] at shorter
    omega

theorem Encloses.of_skip {next : Bytes} (encloses : Encloses flavour depth (byte :: rest) after)
    (skipped : skip? flavour byte rest = some next) : Encloses flavour depth next after := by
  have within := skip?_of_encloses encloses
  rw [skipped, Option.map_some] at within
  rwa [Encloses, List.cons_append, closing?_of_skip within] at encloses

theorem Encloses.of_code (encloses : Encloses flavour depth (byte :: rest) after)
    (isCode : skip? flavour byte rest = none) : ∃ depth, Encloses flavour depth rest after := by
  have within := skip?_of_encloses encloses
  rw [isCode, Option.map_none] at within
  rw [Encloses, List.cons_append, closing?_of_code within] at encloses
  split at encloses
  · exact ⟨depth + 1, encloses⟩
  · split at encloses
    · cases depth with
      | zero =>
          have same := congrArg List.length (Option.some.inj encloses)
          simp only [List.length_cons, List.length_append] at same
          omega
      | succ depth => exact ⟨depth, encloses⟩
    · exact ⟨depth, encloses⟩

/-- A parenthesis that is open inside enclosed text is closed there. -/
theorem Encloses.closing? (inner : Nat)
    (encloses : Encloses flavour (depth + inner + 1) inside after) :
    ∃ closed, closing? flavour inner inside = some closed ∧
      closing? flavour inner (inside ++ ascii ')' :: after) =
        some (closed ++ ascii ')' :: after) := by
  fun_induction Scan.closing? flavour inner inside with
  | case1 inner =>
      have isCode : skip? flavour (ascii ')') after = none := by
        cases flavour <;> rfl
      rw [Encloses, List.nil_append, closing?_of_code isCode, if_neg (by decide),
        if_pos rfl] at encloses
      have shorter := length_closing?_le encloses
      rw [List.length_cons] at shorter
      omega
  | case2 inner byte rest next skipped ih =>
      have within := skip?_of_encloses encloses
      rw [skipped, Option.map_some] at within
      rw [List.cons_append, closing?_of_skip within]
      exact ih (encloses.of_skip skipped)
  | case3 inner rest isCode ih =>
      have within := skip?_of_encloses encloses
      rw [isCode, Option.map_none] at within
      rw [Encloses, List.cons_append, closing?_of_code within, if_pos rfl] at encloses
      rw [List.cons_append, closing?_of_code within, if_pos rfl]
      exact ih encloses
  | case4 rest isCode isNot =>
      have within := skip?_of_encloses encloses
      rw [isCode, Option.map_none] at within
      rw [List.cons_append, closing?_of_code within, if_neg isNot, if_pos rfl]
      exact ⟨_, rfl, rfl⟩
  | case5 rest inner isCode isNot ih =>
      have within := skip?_of_encloses encloses
      rw [isCode, Option.map_none] at within
      rw [Encloses, List.cons_append, closing?_of_code within, if_neg isNot,
        if_pos rfl] at encloses
      rw [List.cons_append, closing?_of_code within, if_neg isNot, if_pos rfl]
      exact ih encloses
  | case6 inner byte rest isCode isNot isNeither ih =>
      have within := skip?_of_encloses encloses
      rw [isCode, Option.map_none] at within
      rw [Encloses, List.cons_append, closing?_of_code within, if_neg isNot,
        if_neg isNeither] at encloses
      rw [List.cons_append, closing?_of_code within, if_neg isNot, if_neg isNeither]
      exact ih encloses

theorem arguments?_spec {here : Bytes} {found : Arguments}
    (closed : arguments? flavour here = some found) :
    here = found.inside ++ ascii ')' :: found.after ∧
      Encloses flavour 0 found.inside found.after := by
  obtain ⟨last, ended, rfl⟩ := Option.map_eq_some_iff.1 closed
  obtain ⟨⟨inside, rfl⟩, after, rfl⟩ := closing?_suffix ended
  have isInside : (inside ++ ascii ')' :: after).take
      ((inside ++ ascii ')' :: after).length - (ascii ')' :: after).length) = inside := by
    rw [List.length_append, Nat.add_sub_cancel, List.take_left]
  rw [isInside, List.drop_one, List.tail_cons]
  exact ⟨rfl, ended⟩

/-- The arguments of a call inside enclosed text are the same without what follows the text. -/
theorem Encloses.arguments? (encloses : Encloses flavour (depth + 1) inside after) :
    ∃ found, arguments? flavour inside = some found ∧
      arguments? flavour (inside ++ ascii ')' :: after) =
        some ⟨found.inside, found.after ++ ascii ')' :: after⟩ := by
  obtain ⟨closed, alone, within⟩ := encloses.closing? 0
  obtain ⟨⟨first, rfl⟩, last, rfl⟩ := closing?_suffix alone
  refine ⟨_, by rw [Scan.arguments?, alone]; rfl, ?_⟩
  rw [Scan.arguments?, within]
  simp

end Closing

end Polyglot.Scan
