import Polyglot.Proofs.Scan.Lexemes
import Polyglot.Proofs.Text.Splitting
import Polyglot.Proofs.Text.Trimming
import Polyglot.Scan.Submission

/-!
# Modules that literals and comments name

The import statements of a text are read line by line, so a line inside a tripled literal is read as
one when it looks like one, and so is a literal on the line of an import statement.  Apart from
these no literal names a module, and no comment ever does.
-/

namespace Polyglot.Scan

open Text

/-! ## Lists without repetitions -/

section Once

variable {α : Type} [BEq α] [LawfulBEq α] {elements : List α} {one other : α}

theorem idxOf_lt_of_filter (keeps : α → Bool) (isOne : keeps one = true)
    (isOther : keeps other = true)
    (before : (elements.filter keeps).idxOf one < (elements.filter keeps).idxOf other) :
    elements.idxOf one < elements.idxOf other := by
  induction elements with
  | nil => simp at before
  | cons element elements ih =>
      rw [List.filter_cons] at before
      rw [List.idxOf_cons, List.idxOf_cons]
      split at before
      · rw [List.idxOf_cons, List.idxOf_cons] at before
        grind
      · grind

/-- What is left when repetitions are left out stands in the order of first mention. -/
theorem pairwise_eraseDups (elements : List α) :
    elements.eraseDups.Pairwise fun one other => elements.idxOf one < elements.idxOf other := by
  induction length : elements.length using Nat.strong_induction_on generalizing elements with
  | _ count ih =>
      cases elements with
      | nil => exact List.Pairwise.nil
      | cons first elements =>
          have shorter : (elements.filter fun element => !element == first).length < count := by
            rw [← length, List.length_cons]
            exact Nat.lt_succ_of_le (List.length_filter_le _ _)
          have later := ih _ shorter _ rfl
          have isOther {element : α}
              (member : element ∈ (elements.filter fun element => !element == first).eraseDups) :
              (!element == first) = true :=
            (List.mem_filter.mp (List.mem_eraseDups.mp member)).2
          rw [List.eraseDups_cons, List.pairwise_cons]
          constructor
          · intro element member
            have notFirst := isOther member
            rw [List.idxOf_cons_self, List.idxOf_cons]
            grind
          · refine later.imp_of_mem fun {one other} isOne isSecond before => ?_
            have further := idxOf_lt_of_filter (fun element => !element == first) (isOther isOne)
              (isOther isSecond) before
            have notFirst := isOther isOne
            have notFirst' := isOther isSecond
            rw [List.idxOf_cons, List.idxOf_cons]
            grind

end Once

/-! ## Statements on a line -/

section Statements

/-- Whether a line begins like an import statement. -/
def opensImport (line : List Char) : Bool :=
  ["import ".toList, "from ".toList].any (·.isPrefixOf (dropLeadingBlank line))

variable {first last line : List Char} {mark : Char}

theorem isPrefix_trimList (characters : List Char) :
    trimList characters <+: dropLeadingBlank characters := by
  rw [trimList, dropTrailingBlank, ← List.reverse_suffix, List.reverse_reverse]
  exact List.dropWhile_suffix isBlank

theorem dropLeadingBlank_append (first last : List Char) :
    dropLeadingBlank first <+: dropLeadingBlank (first ++ last) := by
  rw [dropLeadingBlank, dropLeadingBlank, List.dropWhile_append]
  split
  · rename_i isEmpty
    rw [List.isEmpty_iff.mp isEmpty]
    exact List.nil_prefix
  · exact List.prefix_append _ _

theorem dropLeadingBlank_cons (visible : isBlank mark = false) (first last : List Char) :
    dropLeadingBlank (first ++ mark :: last) = dropLeadingBlank first ++ mark :: last := by
  rw [dropLeadingBlank, dropLeadingBlank, List.dropWhile_append]
  split
  · rename_i isEmpty
    rw [List.isEmpty_iff.mp isEmpty, List.dropWhile_cons_of_neg (by simp [visible])]
    rfl
  · rfl

/-- A blank character at the end of a line is no part of its statement. -/
theorem trimList_concat (blank : isBlank mark = true) (line : List Char) :
    trimList (line ++ [mark]) = trimList line := by
  rw [trimList, trimList, dropLeadingBlank, dropLeadingBlank, List.dropWhile_append]
  split
  · rename_i isEmpty
    rw [List.isEmpty_iff.mp isEmpty, List.dropWhile_cons_of_pos blank]
    rfl
  · rw [dropTrailingBlank, dropTrailingBlank, List.reverse_append, List.reverse_singleton,
      List.singleton_append, List.dropWhile_cons_of_pos blank]

/-- What an import statement mentions depends on what stands before the first hash. -/
theorem importedNames_congr {one other : String}
    (same : trim (before '#' one) = trim (before '#' other)) :
    importedNames one = importedNames other := by
  rw [importedNames, importedNames, same]

theorem importedNames_concat (line : List Char) :
    importedNames (String.ofList (line ++ ['\r'])) = importedNames (String.ofList line) := by
  apply importedNames_congr
  rw [trim, trim, before, before]
  simp only [String.toList_ofList]
  rw [List.takeWhile_append]
  split
  · rename_i isWhole
    rw [(List.takeWhile_prefix _).eq_of_length isWhole, List.takeWhile_cons_of_pos (by decide),
      List.takeWhile_nil, trimList_concat (by decide)]
  · rfl

/-- A hash ends the statement on its line. -/
theorem importedNames_hash (first last : List Char) :
    importedNames (String.ofList (first ++ '#' :: last)) =
      importedNames (String.ofList first) := by
  apply importedNames_congr
  rw [before, before, String.toList_ofList, String.toList_ofList, List.takeWhile_append,
    List.takeWhile_cons_of_neg (by simp), List.append_nil]
  split
  · rename_i isWhole
    rw [(List.takeWhile_prefix _).eq_of_length isWhole]
  · rfl

/-- A line that does not begin like an import statement mentions nothing. -/
theorem importedNames_eq_nil (closed : opensImport line = false) :
    importedNames (String.ofList line) = [] := by
  have isStatement : (trim (before '#' (String.ofList line))).toList <+:
      dropLeadingBlank line := by
    rw [trim, before]
    simp only [String.toList_ofList]
    apply (isPrefix_trimList _).trans
    obtain ⟨rest, isWhole⟩ := List.takeWhile_prefix (p := (· ≠ '#')) (l := line)
    conv_rhs => rw [← isWhole]
    exact dropLeadingBlank_append _ rest
  have notOpened {word : List Char} (isWord : word ∈ ["import ".toList, "from ".toList]) :
      stripPrefix? word (trim (before '#' (String.ofList line))).toList = none := by
    have isOther := List.any_eq_false.mp closed word isWord
    rw [stripPrefix?, if_neg]
    intro opened
    rw [List.isPrefixOf_iff_prefix] at opened isOther
    exact isOther (opened.trans isStatement)
  rw [importedNames, notOpened (by simp), notOpened (by simp)]

/-- How a line begins is decided before a mark that stands in neither word. -/
theorem opensImport_cons (visible : isBlank mark = false)
    (isOther : mark ∉ "import ".toList ++ "from ".toList) (first last : List Char) :
    opensImport (first ++ mark :: last) = opensImport first := by
  have sameWord {word : List Char} (within : ∀ character ∈ word, character ≠ mark) :
      word.isPrefixOf (dropLeadingBlank (first ++ mark :: last)) =
        word.isPrefixOf (dropLeadingBlank first) := by
    rw [Bool.eq_iff_iff, List.isPrefixOf_iff_prefix, List.isPrefixOf_iff_prefix,
      dropLeadingBlank_cons visible]
    constructor
    · intro opened
      rcases Nat.lt_or_ge (dropLeadingBlank first).length word.length with longer | fits
      · have through : dropLeadingBlank first ++ [mark] <+: word := by
          have isWhole : dropLeadingBlank first ++ [mark] <+:
              dropLeadingBlank first ++ mark :: last := ⟨last, by simp⟩
          apply List.prefix_of_prefix_length_le isWhole opened
          rw [List.length_append]
          exact longer
        exact absurd rfl (within mark (through.subset (by simp)))
      · exact List.prefix_of_prefix_length_le opened (List.prefix_append _ _) fits
    · exact fun opened => opened.trans (List.prefix_append _ _)
  rw [opensImport, opensImport, List.any_cons, List.any_cons, List.any_cons, List.any_cons]
  rw [sameWord, sameWord, List.any_nil, List.any_nil]
  · rintro character member rfl
    exact isOther (List.mem_append_right _ member)
  · rintro character member rfl
    exact isOther (List.mem_append_left _ member)

end Statements

/-! ## Lines -/

section Lines

/-- The names that the import statements of a text mention, line by line. -/
def mentions (text : List Char) : List String :=
  (splitOnAll (· = '\n') text).flatMap fun line => importedNames (String.ofList line)

/-- What stands on the last line of a text. -/
def lineBefore (lead : String) : List Char :=
  (lead.toList.reverse.takeWhile (· ≠ '\n')).reverse

/-- What stands on the first line of a text. -/
def lineBehind (rest : String) : List Char := rest.toList.takeWhile (· ≠ '\n')

variable {body lead rest : List Char}

theorem chomp_concat (body : List Char) :
    chomp (body ++ ['\n']) = body ∨ body = chomp (body ++ ['\n']) ++ ['\r'] := by
  rw [chomp, List.reverse_append, List.reverse_singleton, List.singleton_append]
  split
  · rename_i rest isReversed
    right
    rw [← List.reverse_inj, List.reverse_append]
    simpa using isReversed
  · rename_i rest _ isReversed
    left
    rw [← (List.cons.inj isReversed).2, List.reverse_reverse]
  · rename_i notEnded
    exact absurd rfl (notEnded body.reverse)

theorem chomp_of_not_mem (noFeed : '\n' ∉ body) : chomp body = body := by
  rw [chomp]
  split
  · rename_i isReversed
    exact absurd (List.mem_reverse.mp (isReversed ▸ List.mem_cons_self)) noFeed
  · rename_i isReversed
    exact absurd (List.mem_reverse.mp (isReversed ▸ List.mem_cons_self)) noFeed
  · rfl

/-- A text has one line or its first line ends. -/
theorem exists_firstLine (text : List Char) :
    '\n' ∉ text ∨ ∃ body rest, text = body ++ '\n' :: rest ∧ '\n' ∉ body := by
  by_cases member : '\n' ∈ text
  · right
    obtain ⟨body, rest, isText, noFeed⟩ := List.eq_append_cons_of_mem member
    exact ⟨body, rest, isText, noFeed⟩
  · exact .inl member

theorem isBody_of_not_mem (noFeed : '\n' ∉ body) :
    ∀ character ∈ body, decide (character = '\n') = false := by
  rintro character member
  rw [decide_eq_false_iff_not]
  rintro rfl
  exact noFeed member

theorem mentions_append_cons (first rest : List Char) :
    mentions (first ++ '\n' :: rest) = mentions first ++ mentions rest := by
  have isSplit := @splitOnAll_append_cons _ (· = '\n') '\n' rfl first rest
  rw [mentions, isSplit, List.flatMap_append]
  rfl

theorem mentions_of_not_mem (noFeed : '\n' ∉ body) :
    mentions body = importedNames (String.ofList body) := by
  rw [mentions, splitOnAll_of_not_separates (isBody_of_not_mem noFeed)]
  simp

/-- The ends of lines are no parts of statements. -/
theorem flatMap_importedNames (text : String) :
    (lines text).flatMap importedNames = mentions text.toList := by
  rw [lines]
  generalize text.toList = characters
  induction length : characters.length using Nat.strong_induction_on generalizing characters with
  | _ count ih =>
      rcases exists_firstLine characters with noFeed | ⟨body, rest, rfl, noFeed⟩
      · rw [mentions_of_not_mem noFeed]
        by_cases isEmpty : characters = []
        · rw [isEmpty]
          rfl
        · have single := splitAfter_body isEmpty (isBody_of_not_mem noFeed) []
          rw [List.append_nil] at single
          rw [single, splitAfter_nil, joinFirst, List.map_singleton, chomp_of_not_mem noFeed]
          simp
      · have shorter : rest.length < count := by
          rw [← length, List.length_append, List.length_cons]
          omega
        have isFirst : importedNames (String.ofList (chomp (body ++ ['\n']))) =
            importedNames (String.ofList body) := by
          rcases chomp_concat body with same | isReturn
          · rw [same]
          · conv_rhs => rw [isReturn, importedNames_concat]
        rw [splitAfter_line (isBody_of_not_mem noFeed) (decide_eq_true rfl), List.map_cons,
          List.flatMap_cons, isFirst, ih _ shorter rest rfl, mentions_append_cons,
          mentions_of_not_mem noFeed]

theorem scanImports_eq (code : String) :
    scanImports code = ((mentions code.toList).filterMap importRoot?).eraseDups := by
  rw [scanImports, flatMap_importedNames]

/-- The lines before the last one have nothing to do with what follows them. -/
theorem exists_mentions_above (lead : String) :
    ∃ above, ∀ rest,
      mentions (lead.toList ++ rest) = above ++ mentions (lineBefore lead ++ rest) := by
  have isLead := List.takeWhile_append_dropWhile (p := (· ≠ '\n')) (l := lead.toList.reverse)
  rw [← List.reverse_inj, List.reverse_append, List.reverse_reverse] at isLead
  cases isAbove : lead.toList.reverse.dropWhile (· ≠ '\n') with
  | nil =>
      refine ⟨[], fun rest => ?_⟩
      rw [isAbove, List.reverse_nil, List.nil_append] at isLead
      rw [List.nil_append, lineBefore, isLead]
  | cons feed above =>
      have isFeed : feed = '\n' := by
        have stops := List.head?_dropWhile_not (· ≠ '\n') lead.toList.reverse
        rw [isAbove] at stops
        simpa using stops
      refine ⟨mentions above.reverse, fun rest => ?_⟩
      rw [isAbove, List.reverse_cons, isFeed] at isLead
      rw [← isLead, List.append_assoc, List.append_assoc, List.singleton_append,
        mentions_append_cons, lineBefore]

/-- The lines after the first one have nothing to do with what stands before them. -/
theorem exists_mentions_below (rest : String) :
    ∃ below, ∀ lead,
      mentions (lead ++ rest.toList) = mentions (lead ++ lineBehind rest) ++ below := by
  have isRest := List.takeWhile_append_dropWhile (p := (· ≠ '\n')) (l := rest.toList)
  cases isBelow : rest.toList.dropWhile (· ≠ '\n') with
  | nil =>
      refine ⟨[], fun lead => ?_⟩
      rw [isBelow, List.append_nil] at isRest
      rw [List.append_nil, lineBehind, isRest]
  | cons feed below =>
      have isFeed : feed = '\n' := by
        have stops := List.head?_dropWhile_not (· ≠ '\n') rest.toList
        rw [isBelow] at stops
        simpa using stops
      refine ⟨mentions below, fun lead => ?_⟩
      rw [isBelow, isFeed] at isRest
      rw [lineBehind, ← mentions_append_cons, List.append_assoc, isRest]

theorem not_mem_lineBefore (lead : String) : '\n' ∉ lineBefore lead := by
  intro member
  rw [lineBefore, List.mem_reverse] at member
  simpa using List.all_eq_true.mp List.all_takeWhile _ member

theorem not_mem_lineBehind (rest : String) : '\n' ∉ lineBehind rest := by
  intro member
  simpa using List.all_eq_true.mp List.all_takeWhile _ member

end Lines

/-! ## Literals and comments on lines -/

section Lexemes

/-- A literal or comment that stands behind some text. -/
def lexemeBehind (lead text : String) : Lexeme := ⟨(encode lead).length, encode text⟩

/-- The lines that begin in a text, with the rest of the last one. -/
def begunLines (text rest : String) : List (List Char) :=
  (splitOnAll (· = '\n') (text.toList ++ lineBehind rest)).tail

/-- Whether a comment or literal names no module: no comment does, and a literal does not if neither
its line nor any line that begins in it begins like an import statement. -/
def isSpared (lead text rest : String) : Bool :=
  !(lexemeBehind lead text).isLiteral .python ||
    (lineBefore lead :: begunLines text rest).all (!opensImport ·)

variable {lead text rest : String} {byte : UInt8} {passed after : Bytes}

theorem not_mem_of_fromLineFeed (ended : fromLineFeed (passed ++ after) = after) :
    lineFeed ∉ passed := by
  intro member
  obtain ⟨first, later, rfl, noFeed⟩ := List.eq_append_cons_of_mem member
  have isFirst : ∀ byte ∈ first, decide (byte ≠ lineFeed) = true := by
    rintro byte member
    rw [decide_eq_true_eq]
    rintro rfl
    exact noFeed member
  rw [fromLineFeed, List.append_assoc, List.dropWhile_append_of_pos isFirst, List.cons_append,
    List.dropWhile_cons_of_neg (by simp)] at ended
  have longer := congrArg List.length ended
  simp only [List.length_cons, List.length_append] at longer
  omega

/-- The first byte of a text, if it is ASCII, is its first character. -/
theorem exists_mark_of_encode (isText : encode text = byte :: passed)
    (isAscii : byte.toNat < 0x80) :
    ∃ mark inside, text.toList = mark :: inside ∧ mark.toNat = byte.toNat ∧
      inside.flatMap String.utf8EncodeChar = passed := by
  rw [encode_eq] at isText
  cases isList : text.toList with
  | nil => simp [isList] at isText
  | cons mark inside =>
      rw [isList, List.flatMap_cons] at isText
      refine ⟨mark, inside, rfl, ?_⟩
      rcases utf8EncodeChar_cases mark with ⟨only, single, same, -⟩ | beyond
      · rw [single] at isText
        obtain ⟨rfl, isInside⟩ := List.cons.inj isText
        exact ⟨same.symm, isInside⟩
      · exfalso
        cases isEncoding : String.utf8EncodeChar mark with
        | nil =>
            exact absurd isEncoding (String.utf8EncodeChar_ne_nil)
        | cons first others =>
            rw [isEncoding, List.cons_append] at isText
            have isFirst := beyond first (isEncoding ▸ List.mem_cons_self)
            rw [(List.cons.inj isText).1] at isFirst
            omega

/-- A literal or comment begins with a mark that is neither blank nor in a word of an import
statement.  If that is no quote it is a hash, and no line ends behind it. -/
theorem exists_mark_of_mem
    (member : lexemeBehind lead text ∈ lexemes .python 0 (encode (lead ++ text ++ rest))) :
    ∃ mark inside, text.toList = mark :: inside ∧ mark ∈ ['\'', '"', '#'] ∧
      ((lexemeBehind lead text).isLiteral .python = false → mark = '#' ∧ '\n' ∉ inside) := by
  obtain ⟨leading, byte, passed, after, -, isLexeme, skipped, -⟩ := exists_reaches member
  have isText : encode text = byte :: passed := congrArg Lexeme.text isLexeme
  have isLiteral : (lexemeBehind lead text).isLiteral .python = Flavour.python.isQuote byte := by
    rw [Lexeme.isLiteral, lexemeBehind, isText]
    rfl
  rw [isLiteral]
  rw [skip?] at skipped
  split at skipped
  · rename_i isQuote
    have isByte : byte = ascii '\'' ∨ byte = ascii '"' := by
      simpa [Flavour.isQuote] using isQuote
    have isAscii : byte.toNat < 0x80 := by
      rcases isByte with rfl | rfl <;> decide
    obtain ⟨mark, inside, isList, isMark, -⟩ := exists_mark_of_encode isText isAscii
    refine ⟨mark, inside, isList, ?_, fun noQuote => ?_⟩
    · rcases isByte with rfl | rfl
      · have same : mark = '\'' := Char.toNat_inj.mp isMark
        simp [same]
      · have same : mark = '"' := Char.toNat_inj.mp isMark
        simp [same]
    · rw [isQuote] at noQuote
      contradiction
  · split at skipped
    · rename_i isHash
      have isAscii : byte.toNat < 0x80 := by
        rw [isHash]
        decide
      obtain ⟨mark, inside, isList, isMark, isInside⟩ := exists_mark_of_encode isText isAscii
      rw [isHash] at isMark
      have same : mark = '#' := Char.toNat_inj.mp isMark
      refine ⟨mark, inside, isList, by simp [same], fun _ => ⟨same, fun feed => ?_⟩⟩
      apply not_mem_of_fromLineFeed (Option.some.inj skipped)
      rw [← isInside]
      exact List.mem_flatMap_of_mem feed (by decide)
    · contradiction

/-- A comment or literal that is spared leaves on its lines what stands before it. -/
theorem mentions_of_isSpared
    (member : lexemeBehind lead text ∈ lexemes .python 0 (encode (lead ++ text ++ rest)))
    (spared : isSpared lead text rest = true) :
    mentions (lineBefore lead ++ (text.toList ++ lineBehind rest)) =
      importedNames (String.ofList (lineBefore lead)) := by
  obtain ⟨mark, inside, isText, isMark, ofComment⟩ := exists_mark_of_mem member
  rw [isSpared, Bool.or_eq_true, Bool.not_eq_true'] at spared
  rcases spared with isComment | silent
  · obtain ⟨rfl, noFeed⟩ := ofComment isComment
    have onOneLine : '\n' ∉ lineBefore lead ++ '#' :: (inside ++ lineBehind rest) := by
      simp [not_mem_lineBefore, not_mem_lineBehind, noFeed]
    rw [isText, List.cons_append, mentions_of_not_mem onOneLine, importedNames_hash]
  · rw [List.all_cons, Bool.and_eq_true, Bool.not_eq_true', List.all_eq_true] at silent
    obtain ⟨closed, isBegun⟩ := silent
    have isOther : isBlank mark = false ∧ mark ∉ "import ".toList ++ "from ".toList ∧
        mark ≠ '\n' := by
      simp only [List.mem_cons, List.not_mem_nil, or_false] at isMark
      rcases isMark with rfl | rfl | rfl <;> decide
    have isFirst : splitOnAll (· = '\n') (text.toList ++ lineBehind rest) =
        joinFirst [mark] (splitOnAll (· = '\n') (inside ++ lineBehind rest)) := by
      have isBody : ∀ character ∈ [mark], decide (character = '\n') = false := by
        simpa using isOther.2.2
      rw [isText, List.cons_append]
      exact splitOnAll_body isBody (inside ++ lineBehind rest)
    rw [begunLines, isFirst] at isBegun
    rw [mentions, splitOnAll_body (isBody_of_not_mem (not_mem_lineBefore lead)), isFirst,
      importedNames_eq_nil closed]
    generalize splitOnAll (· = '\n') (inside ++ lineBehind rest) = pieces at isBegun
    cases pieces with
    | nil =>
        simp only [joinFirst, List.flatMap_cons, List.flatMap_nil, List.append_nil]
        exact importedNames_eq_nil ((opensImport_cons isOther.1 isOther.2.1 _ []).trans closed)
    | cons piece pieces =>
        simp only [joinFirst, List.singleton_append, List.flatMap_cons]
        rw [importedNames_eq_nil ((opensImport_cons isOther.1 isOther.2.1 _ piece).trans closed),
          List.nil_append, List.flatMap_eq_nil_iff]
        intro line begun
        exact importedNames_eq_nil (by simpa using isBegun line begun)

/-- The modules that a text names, with all repetitions. -/
def namedModules (code : String) : List String :=
  ((lines code).flatMap importedNames).filterMap importRoot?

/-- Modules as they are named, without repetitions. -/
structure ListsModules (named modules : List String) : Prop where
  exactly : ∀ name, name ∈ modules ↔ name ∈ named
  once : modules.Nodup
  /-- In the order in which they are named first. -/
  ordered : modules.Pairwise fun one other => named.idxOf one < named.idxOf other
  fetched : ∀ name ∈ modules, name ≠ "" ∧ name ≠ "__future__" ∧ isIdentifier name = true

theorem listsModules (code : String) : ListsModules (namedModules code) (scanImports code) where
  exactly _ := List.mem_eraseDups
  once := (pairwise_eraseDups (namedModules code)).imp fun {one other} before same => by
    rw [same] at before
    exact Nat.lt_irrefl _ before
  ordered := pairwise_eraseDups (namedModules code)
  fetched name member := by
    obtain ⟨full, -, isRoot⟩ := List.mem_filterMap.mp (List.mem_eraseDups.mp member)
    rw [importRoot?] at isRoot
    split at isRoot
    · rename_i isModule
      rw [Option.some.inj isRoot, Bool.and_eq_true, Bool.and_eq_true] at isModule
      obtain ⟨⟨nonempty, notFuture⟩, isName⟩ := isModule
      rw [Bool.not_eq_true', String.isEmpty_eq_false_iff] at nonempty
      exact ⟨nonempty, of_decide_eq_true notFuture, isName⟩
    · cases isRoot

/-- An interpreter imports the modules that a text names, each once.  What a comment says is never
read as a name, and what a literal says only on a line that begins like an import statement. -/
theorem scanImports_of_isSpared (code : String) :
    (∃ text mode, prepareRun code = .run text mode (scanImports code)) ∧
      ListsModules (namedModules code) (scanImports code) ∧
      ∀ lead text text' rest, code = lead ++ text ++ rest →
        lexemeBehind lead text ∈ lexemes .python 0 (encode code) →
        lexemeBehind lead text' ∈ lexemes .python 0 (encode (lead ++ text' ++ rest)) →
        isSpared lead text rest = true → isSpared lead text' rest = true →
        scanImports (lead ++ text' ++ rest) = scanImports code := by
  refine ⟨?_, listsModules code, ?_⟩
  · rw [prepareRun]
    split
    · exact ⟨_, _, rfl⟩
    · exact ⟨_, _, rfl⟩
  · rintro lead text text' rest rfl member member' spared spared'
    obtain ⟨above, isAbove⟩ := exists_mentions_above lead
    obtain ⟨below, isBelow⟩ := exists_mentions_below rest
    have isCode {said : String}
        (isSaid : mentions (lineBefore lead ++ (said.toList ++ lineBehind rest)) =
          importedNames (String.ofList (lineBefore lead))) :
        mentions (lead ++ said ++ rest).toList =
          above ++ importedNames (String.ofList (lineBefore lead)) ++ below := by
      rw [String.toList_append, String.toList_append, List.append_assoc, isAbove,
        ← List.append_assoc, isBelow, List.append_assoc (lineBefore lead), isSaid,
        List.append_assoc]
    rw [scanImports_eq, scanImports_eq, isCode (mentions_of_isSpared member spared),
      isCode (mentions_of_isSpared member' spared')]

/-- A literal of two lines that follows an import statement. -/
theorem scanImports_of_isSpared_tripled :
    let code := "import re\ns = '''\nimported\n''' # import os\n"
    scanImports code = ["re"] ∧
      lexemeBehind "import re\ns = " "'''\nimported\n'''" ∈ lexemes .python 0 (encode code) ∧
      isSpared "import re\ns = " "'''\nimported\n'''" " # import os\n" = true ∧
      scanImports "import re\ns = '''\nto be read\n''' # import os\n" = scanImports code := by
  intro code
  have member : lexemeBehind "import re\ns = " "'''\nimported\n'''" ∈
      lexemes .python 0 (encode code) := by decide +kernel
  have member' : lexemeBehind "import re\ns = " "'''\nto be read\n'''" ∈
      lexemes .python 0 (encode "import re\ns = '''\nto be read\n''' # import os\n") := by
    decide +kernel
  have spared : isSpared "import re\ns = " "'''\nimported\n'''" " # import os\n" = true := by
    decide +kernel
  exact ⟨by decide +kernel, member, spared,
    (scanImports_of_isSpared code).2.2 "import re\ns = " "'''\nimported\n'''"
      "'''\nto be read\n'''" " # import os\n" (by decide +kernel) member member' spared
      (by decide +kernel)⟩

/-- A line of a tripled literal is read as an import statement. -/
theorem scanImports_tripled_ne :
    lexemeBehind "x = " "'''\nimport os\n'''" ∈
        lexemes .python 0 (encode ("x = " ++ "'''\nimport os\n'''" ++ "")) ∧
      lexemeBehind "x = " "'''\nimported.\n'''" ∈
        lexemes .python 0 (encode ("x = " ++ "'''\nimported.\n'''" ++ "")) ∧
      scanImports ("x = " ++ "'''\nimport os\n'''" ++ "") = ["os"] ∧
      scanImports ("x = " ++ "'''\nimported.\n'''" ++ "") = [] := by
  decide +kernel

end Lexemes

end Polyglot.Scan
