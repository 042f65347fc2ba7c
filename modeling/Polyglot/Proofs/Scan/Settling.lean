import Polyglot.Proofs.Scan.Lexemes
import Polyglot.Proofs.Scan.Lexing

/-!
# Code that is rewritten already

What stands in place of a name begins no literal and no comment and opens no parenthesis, and no
other call begins in it.  So rewritten code has the literals and comments that it had before, its
parentheses are closed where they were closed, and a call that can be rewritten in it could have
been rewritten before.
-/

namespace Polyglot.Scan

open Text

variable {flavour : Flavour} {name value before before' here here' rest written : Bytes}
variable {byte : UInt8} {callee : Callee}

/-! ## Text and its rewriting -/

section Awaiting

/-- A text that follows `before`, and the text with `value` in place of its calls of `name`. -/
inductive Awaits (flavour : Flavour) (name value : Bytes) : Bytes → Bytes → Bytes → Prop where
  | nil (before : Bytes) : Awaits flavour name value before [] []
  | code {byte : UInt8} {before rest rest' : Bytes} :
      skip? flavour byte rest = none → site? flavour name ⟨before, byte :: rest⟩ = none →
      Awaits flavour name value (byte :: before) rest rest' →
      Awaits flavour name value before (byte :: rest) (byte :: rest')
  | skip {byte : UInt8} {before passed after after' : Bytes} :
      skip? flavour byte (passed ++ after) = some after →
      Awaits flavour name value ((byte :: passed).reverse ++ before) after after' →
      Awaits flavour name value before (byte :: (passed ++ after)) (byte :: (passed ++ after'))
  | call {callee : Callee} {before here inside' : Bytes} :
      callSite? flavour name before here = some callee →
      Awaits flavour name value (ascii '(' :: callee.name.reverse ++ before) callee.inside
        inside' →
      Awaits flavour name value before here (value ++ ascii '(' :: inside')

/-- A site is a bare call whose parenthesis is closed. -/
theorem isSome_site? (called : callSite? flavour name before here = some callee) :
    (site? flavour name ⟨before, here⟩).isSome = (closing? flavour 0 callee.inside).isSome := by
  rw [site?, called, Option.bind_some, Option.isSome_map, arguments?, Option.isSome_map]

theorem exists_callee {site : Site} (isSite : site? flavour name ⟨before, here⟩ = some site) :
    ∃ callee, callSite? flavour name before here = some callee ∧
      site.toStretch = ⟨before.length, before.length + callee.name.length⟩ := by
  obtain ⟨callee, called, isClosed⟩ := Option.bind_eq_some_iff.mp isSite
  obtain ⟨found, -, rfl⟩ := Option.map_eq_some_iff.mp isClosed
  exact ⟨callee, called, rfl⟩

theorem stretch_of_mem_sites {site : Site} (member : site ∈ sites flavour name before here) :
    before.length ≤ site.start ∧ site.start ≤ site.stop := by
  refine ⟨start_of_mem_sites member, ?_⟩
  obtain ⟨place, -, isSite⟩ := List.mem_filterMap.mp member
  obtain ⟨callee, -, isStretch⟩ := exists_callee isSite
  have isStart := congrArg Stretch.start isStretch
  have isStop := congrArg Stretch.stop isStretch
  dsimp only at isStart isStop
  omega

/-- The bytes before the sites of a text stay. -/
theorem splice_sites (value before passed here : Bytes) :
    splice value before.length
        ((sites flavour name (passed.reverse ++ before) here).map (·.toStretch))
        (passed ++ here) =
      passed ++ splice value (passed.reverse ++ before).length
        ((sites flavour name (passed.reverse ++ before) here).map (·.toStretch)) here := by
  have isLength : (passed.reverse ++ before).length = before.length + passed.length := by
    rw [List.length_append, List.length_reverse, Nat.add_comm]
  rw [isLength, splice_append]
  intro stretch member
  obtain ⟨site, isSite, rfl⟩ := List.mem_map.mp member
  rw [← isLength]
  exact stretch_of_mem_sites isSite

theorem Awaits.splice_code (isCode : skip? flavour byte rest = none)
    (noSite : site? flavour name ⟨before, byte :: rest⟩ = none)
    (later : Awaits flavour name value (byte :: before) rest
      (splice value (byte :: before).length
        ((sites flavour name (byte :: before) rest).map (·.toStretch)) rest)) :
    Awaits flavour name value before (byte :: rest)
      (splice value before.length
        ((sites flavour name before (byte :: rest)).map (·.toStretch)) (byte :: rest)) := by
  have stays : splice value before.length
      ((sites flavour name (byte :: before) rest).map (·.toStretch)) (byte :: rest) = _ :=
    splice_sites value before [byte] rest
  rw [sites_of_code isCode, noSite, Option.toList_none, List.nil_append, stays]
  exact .code isCode noSite later

theorem Awaits.splice_call (isIdentifier : flavour.IsIdentifier name)
    (called : callSite? flavour name before here = some callee)
    {site : Site} (isSite : site? flavour name ⟨before, here⟩ = some site)
    (isStretch : site.toStretch = ⟨before.length, before.length + callee.name.length⟩)
    (later : Awaits flavour name value (ascii '(' :: callee.name.reverse ++ before) callee.inside
      (splice value (ascii '(' :: callee.name.reverse ++ before).length
        ((sites flavour name (ascii '(' :: callee.name.reverse ++ before) callee.inside).map
          (·.toStretch)) callee.inside)) :
    Awaits flavour name value before here
      (splice value before.length ((sites flavour name before here).map (·.toStretch)) here) := by
  have stays : splice value (callee.name.reverse ++ before).length
      ((sites flavour name (ascii '(' :: callee.name.reverse ++ before) callee.inside).map
        (·.toStretch)) (ascii '(' :: callee.inside) = _ :=
    splice_sites value (callee.name.reverse ++ before) [ascii '('] callee.inside
  have isLength : before.length + callee.name.length =
      (callee.name.reverse ++ before).length := by
    rw [List.length_append, List.length_reverse, Nat.add_comm]
  have behind : here.drop callee.name.length = ascii '(' :: callee.inside := by
    rw [(callSite?_spec called).1, List.drop_left]
  rw [sites_of_call isIdentifier called, isSite, Option.toList_some, List.singleton_append,
    List.map_cons, isStretch, splice, Nat.sub_self, List.take_zero, List.nil_append,
    Nat.add_sub_cancel_left, behind, isLength, stays]
  exact .call called later

/-- Splicing at the sites of a text is awaiting its calls. -/
theorem awaits_splice (isIdentifier : flavour.IsIdentifier name) (value before here : Bytes) :
    Awaits flavour name value before here
      (splice value before.length ((sites flavour name before here).map (·.toStretch)) here) := by
  induction bound : here.length using Nat.strongRecOn generalizing before here with
  | ind length ih =>
      have later (before later : Bytes) (shorter : later.length < here.length) :=
        ih later.length (bound ▸ shorter) before later rfl
      cases here with
      | nil => simpa [splice] using Awaits.nil before
      | cons byte rest =>
          cases isSkipped : skip? flavour byte rest with
          | some after =>
              obtain ⟨passed, rfl, skipped⟩ := exists_passed isSkipped
              have stays : splice value before.length _ (byte :: (passed ++ after)) = _ :=
                @splice_sites flavour name value before (byte :: passed) after
              rw [sites_of_skip skipped (List.cons_append ..).symm, stays]
              exact .skip skipped (later _ after (Nat.lt_succ_of_le (length_skip?_le skipped)))
          | none =>
              cases isSite : site? flavour name ⟨before, byte :: rest⟩ with
              | none => exact .splice_code isSkipped isSite (later (byte :: before) rest (by simp))
              | some site =>
                  obtain ⟨callee, called, isStretch⟩ := exists_callee isSite
                  exact .splice_call isIdentifier called isSite isStretch
                    (later _ callee.inside (length_callSite?_le called))

end Awaiting

/-! ## Names that replace others -/

section Renaming

/-- An identifier that may be awaited in place of another: neither it nor `await` begins with the
byte that the other begins with. -/
structure Renames (flavour : Flavour) (name replacement : Bytes) : Prop where
  isIdentifier : flavour.IsIdentifier name
  isOther : flavour.IsIdentifier replacement
  head : name.head?.any isIdentifierByte = true
  notFirst : name.head? ≠ replacement.head?
  notAwait : name.head? ≠ some (ascii 'a')

variable {replacement : Bytes}

/-- No site begins in a word that begins with another byte than the name. -/
theorem sites_of_other_word {first : UInt8} {tail : Bytes} (nonempty : name ≠ [])
    (isOther : name.head? ≠ some first)
    (isWord : ∀ byte ∈ first :: tail, flavour.isWordByte byte = true) (before rest : Bytes) :
    sites flavour name before (first :: tail ++ rest) =
      sites flavour name ((first :: tail).reverse ++ before) rest := by
  have isFirst := isWord first List.mem_cons_self
  have noPrefix : name.isPrefixOf (first :: (tail ++ rest)) = false := by
    cases name with
    | nil => contradiction
    | cons head name =>
        rw [List.isPrefixOf, beq_false_of_ne fun same => isOther (by simp [same]), Bool.false_and]
  have uncalled : callSite? flavour name before (first :: (tail ++ rest)) = none := by
    rw [callSite?, noPrefix]
    rfl
  rw [List.cons_append, sites_of_code (skip?_of_isPlain (isPlain_of_isWordByte isFirst) _),
    site?_eq_none uncalled, Option.toList_none, List.nil_append,
    sites_of_word (by simpa using isFirst) fun byte member =>
      isWord byte (List.mem_cons_of_mem _ member),
    List.reverse_cons, List.append_assoc, List.singleton_append]

theorem encode_await : encode "await " = encode "await" ++ [ascii ' '] := rfl

theorem encode_await_eq_cons : encode "await " = ascii 'a' :: encode "wait " := rfl

theorem isWordByte_of_mem_await (member : byte ∈ encode "await") :
    flavour.isWordByte byte = true := by
  have each : (encode "await").all isIdentifierByte = true := by rfl
  simp [Flavour.isWordByte, List.all_eq_true.mp each byte member]

/-- No site begins in what stands in place of a name. -/
theorem Renames.sites (renames : Renames flavour name replacement) (before rest : Bytes) :
    sites flavour name before (encode "await " ++ replacement ++ rest) =
      sites flavour name ((encode "await " ++ replacement).reverse ++ before) rest := by
  obtain ⟨nonempty, isWord⟩ := renames.isOther
  obtain ⟨first, tail, rfl⟩ := List.exists_cons_of_ne_nil nonempty
  have isAwait : encode "await" = ascii 'a' :: encode "wait" := rfl
  have await : ∀ byte ∈ ascii 'a' :: encode "wait", flavour.isWordByte byte = true :=
    isAwait ▸ fun byte => isWordByte_of_mem_await
  have isSpace : ∀ byte ∈ [ascii ' '], flavour.isPlain byte = true ∧ byte ∉ name := by
    intro byte member
    rw [List.mem_singleton.mp member]
    exact ⟨by cases flavour <;> decide,
      renames.isIdentifier.not_mem (by cases flavour <;> decide)⟩
  rw [encode_await, isAwait, List.append_assoc, List.append_assoc,
    sites_of_other_word renames.isIdentifier.1 renames.notAwait await,
    sites_of_passed renames.isIdentifier.1 isSpace,
    sites_of_other_word renames.isIdentifier.1 renames.notFirst fun byte member =>
      (isWord byte member).1]
  simp only [List.reverse_append, List.append_assoc]

/-- What stands in place of a name begins nothing, and has no parenthesis. -/
theorem Renames.passed (renames : Renames flavour name replacement) :
    ∀ byte ∈ encode "await " ++ replacement,
      flavour.isPlain byte = true ∧ byte ≠ ascii '(' ∧ byte ≠ ascii ')' := by
  have ofWord {byte : UInt8} (isWord : flavour.isWordByte byte = true) :
      flavour.isPlain byte = true ∧ byte ≠ ascii '(' ∧ byte ≠ ascii ')' := by
    refine ⟨isPlain_of_isWordByte isWord, ?_, ?_⟩
    · rintro rfl
      revert isWord
      cases flavour <;> decide
    · rintro rfl
      revert isWord
      cases flavour <;> decide
  intro byte member
  rw [encode_await] at member
  rcases List.mem_append.mp member with inFirst | inReplacement
  · rcases List.mem_append.mp inFirst with inAwait | isSpace
    · exact ofWord (isWordByte_of_mem_await inAwait)
    · rw [List.mem_singleton.mp isSpace]
      cases flavour <;> decide
  · exact ofWord (renames.isOther.2 byte inReplacement).1

theorem renames_prompt : Renames .javaScript (encode "prompt") (encode "__runnrPrompt") := by
  constructor <;> decide +kernel

theorem renames_input : Renames .python (encode "input") (encode "async_input") := by
  constructor <;> decide +kernel

end Renaming

/-! ## What the scans find -/

section Finding

variable {replacement : Bytes} (renames : Renames flavour name replacement)

include renames in
theorem Awaits.alike (awaits : Awaits flavour name (encode "await " ++ replacement) before here
    here') : Alike here here' := by
  cases awaits with
  | nil => exact .empty
  | code _ _ _ => exact .same ..
  | skip _ _ => exact .same ..
  | @call callee _ _ inside' called _ =>
      obtain ⟨isHere, gap, isName, -⟩ := callSite?_spec called
      obtain ⟨first, tail, cut⟩ := List.exists_cons_of_ne_nil renames.isIdentifier.1
      have isFirst := renames.head
      rw [cut] at isFirst
      rw [isHere, isName, cut, encode_await_eq_cons]
      exact .words _ _ (isWordByte_of_isIdentifierByte isFirst) (by decide)

include renames in
/-- The same literals and comments are found, in the same order. -/
theorem Awaits.texts (awaits : Awaits flavour name (encode "await " ++ replacement) before here
    here') (offset offset' : Nat) :
    (lexemes flavour offset' here').map (·.text) = (lexemes flavour offset here).map (·.text) := by
  have ofOpen (offset : Nat) {inside : Bytes} :
      lexemes flavour offset (ascii '(' :: inside) = lexemes flavour (offset + 1) inside := by
    have isPlain : flavour.isPlain (ascii '(') = true := by
      cases flavour <;> decide
    exact lexemes_of_code (skip?_of_isPlain isPlain _)
  induction awaits generalizing offset offset' with
  | nil => rw [lexemes_nil, lexemes_nil]
  | code isCode _ later ih =>
      rw [lexemes_of_code isCode, lexemes_of_code (skip?_beyond_code (later.alike renames) isCode)]
      exact ih ..
  | skip skipped later ih =>
      rw [lexemes_of_skip skipped, lexemes_of_skip (skip?_beyond (later.alike renames) skipped),
        List.map_cons, List.map_cons]
      exact congrArg _ (ih ..)
  | call called later ih =>
      have isPassed := passed_of_callSite? renames.isIdentifier called
      rw [(callSite?_spec called).1, lexemes_of_plain fun byte member => (isPassed byte member).1,
        lexemes_of_plain fun byte member => (renames.passed byte member).1, ofOpen, ofOpen]
      exact ih ..

include renames in
/-- A parenthesis is closed if it was closed before. -/
theorem Awaits.isSome_closing?
    (awaits : Awaits flavour name (encode "await " ++ replacement) before here here')
    (depth : Nat) :
    (closing? flavour depth here').isSome = (closing? flavour depth here).isSome := by
  induction awaits generalizing depth with
  | nil => rfl
  | code isCode _ later ih =>
      rw [closing?_of_code isCode,
        closing?_of_code (skip?_beyond_code (later.alike renames) isCode)]
      split
      · exact ih _
      · split
        · cases depth with
          | zero => rfl
          | succ depth => exact ih depth
        · exact ih depth
  | skip skipped later ih =>
      rw [closing?_of_skip skipped, closing?_of_skip (skip?_beyond (later.alike renames) skipped)]
      exact ih depth
  | call called later ih =>
      rw [(callSite?_spec called).1,
        closing?_of_passed (passed_of_callSite? renames.isIdentifier called),
        closing?_of_passed renames.passed, closing?_of_open, closing?_of_open]
      exact ih (depth + 1)

end Finding

/-! ## No calls are left -/

section Silence

/-- What stands before two places, last byte first, if it is the same up to an open parenthesis. -/
inductive Hidden : Bytes → Bytes → Prop where
  | same (before : Bytes) : Hidden before before
  | behind (common outer outer' : Bytes) :
      Hidden (common ++ ascii '(' :: outer) (common ++ ascii '(' :: outer')

theorem Hidden.append (hidden : Hidden before before') (passed : Bytes) :
    Hidden (passed ++ before) (passed ++ before') := by
  cases hidden with
  | same => exact .same _
  | behind common outer outer' =>
      rw [← List.append_assoc, ← List.append_assoc]
      exact .behind ..

theorem Hidden.isBlocked (hidden : Hidden before before') (flavour : Flavour) :
    isBlocked flavour before' = isBlocked flavour before := by
  cases hidden with
  | same => rfl
  | behind common outer outer' => rw [isBlocked_append, isBlocked_append]

theorem Hidden.head? (hidden : Hidden before before') : before'.head? = before.head? := by
  cases hidden with
  | same => rfl
  | behind common outer outer' =>
      cases common with
      | nil => rfl
      | cons byte common => rfl

variable {replacement : Bytes} (renames : Renames flavour name replacement)

include renames in
/-- A byte was there before rewriting unless a name is replaced there. -/
theorem Awaits.of_plain
    (awaits : Awaits flavour name (encode "await " ++ replacement) before here (byte :: written))
    (isPlain : flavour.isPlain byte = true)
    (within : flavour.isWordByte byte = true → before.head?.any flavour.isWordByte = true) :
    ∃ rest, here = byte :: rest ∧
      Awaits flavour name (encode "await " ++ replacement) (byte :: before) rest written := by
  generalize isText : byte :: written = text at awaits
  cases awaits with
  | nil => contradiction
  | code isCode noSite later =>
      cases isText
      exact ⟨_, rfl, later⟩
  | skip skipped later =>
      cases isText
      rw [skip?_of_isPlain isPlain] at skipped
      contradiction
  | call called later =>
      rw [encode_await_eq_cons] at isText
      cases isText
      rw [callSite?_of_word_before (within (by cases flavour <;> decide))] at called
      contradiction

include renames in
/-- Bytes inside of a word, or of none, were there before rewriting. -/
theorem Awaits.of_passed {passed : Bytes}
    (awaits : Awaits flavour name (encode "await " ++ replacement) before here (passed ++ written))
    (isPlain : ∀ byte ∈ passed, flavour.isPlain byte = true)
    (within : (∀ byte ∈ passed, flavour.isWordByte byte = true) ∧
        before.head?.any flavour.isWordByte = true ∨
      ∀ byte ∈ passed, flavour.isWordByte byte = false) :
    ∃ rest, here = passed ++ rest ∧
      Awaits flavour name (encode "await " ++ replacement) (passed.reverse ++ before) rest
        written := by
  induction passed generalizing before here with
  | nil => exact ⟨here, rfl, awaits⟩
  | cons byte passed ih =>
      obtain ⟨rest, rfl, later⟩ := awaits.of_plain renames (isPlain byte List.mem_cons_self)
        fun isWord => by
          rcases within with ⟨-, isBefore⟩ | notWord
          · exact isBefore
          · rw [notWord byte List.mem_cons_self] at isWord
            contradiction
      obtain ⟨further, rfl, later⟩ := ih later
        (fun other member => isPlain other (List.mem_cons_of_mem _ member)) (by
          rcases within with ⟨isWord, -⟩ | notWord
          · exact .inl ⟨fun other member => isWord other (List.mem_cons_of_mem _ member),
              by simpa using isWord byte List.mem_cons_self⟩
          · exact .inr fun other member => notWord other (List.mem_cons_of_mem _ member))
      refine ⟨further, rfl, ?_⟩
      rwa [List.reverse_cons, List.append_assoc, List.singleton_append]

include renames in
/-- A bare call in rewritten text was one before. -/
theorem Awaits.callSite? {rest' : Bytes} {written : Callee}
    (later : Awaits flavour name (encode "await " ++ replacement) (byte :: before) rest rest')
    (hidden : Hidden before before')
    (called : callSite? flavour name before' (byte :: rest') = some written) :
    ∃ callee, Scan.callSite? flavour name before (byte :: rest) = some callee ∧
      ∃ between, Awaits flavour name (encode "await " ++ replacement) between callee.inside
        written.inside := by
  obtain ⟨⟨isHere, gap, isName, isGap⟩, notWord, isFree⟩ := callSite?_eq_some_iff.mp called
  obtain ⟨nonempty, isWord⟩ := renames.isIdentifier
  obtain ⟨first, tail, rfl⟩ := List.exists_cons_of_ne_nil nonempty
  rw [isName, List.cons_append, List.cons_append, List.append_assoc] at isHere
  obtain ⟨rfl, rfl⟩ := List.cons.inj isHere
  have isFirst := (isWord byte List.mem_cons_self).1
  have isTail (other : UInt8) (member : other ∈ tail) :=
    (isWord other (List.mem_cons_of_mem _ member)).1
  obtain ⟨rest, rfl, afterName⟩ := later.of_passed renames
    (fun other member => isPlain_of_isWordByte (isTail other member))
    (.inl ⟨isTail, by simpa using isFirst⟩)
  obtain ⟨rest, rfl, afterGap⟩ := afterName.of_passed renames
    (fun other member => isPlain_of_isGap (isGap other member))
    (.inr fun other member => not_isWordByte_of_isGap (isGap other member))
  obtain ⟨inside, rfl, awaitsInside⟩ := afterGap.of_plain renames (by cases flavour <;> decide)
    (fun isOpen => absurd isOpen (by cases flavour <;> decide))
  refine ⟨⟨byte :: tail ++ gap, inside⟩, callSite?_eq_some_iff.mpr
    ⟨⟨by simp, gap, rfl, isGap⟩, ?_, ?_⟩, _, awaitsInside⟩
  · rw [← hidden.head?]
    exact notWord
  · rw [← hidden.isBlocked]
    exact isFree

include renames in
theorem Awaits.site? {rest' : Bytes}
    (later : Awaits flavour name (encode "await " ++ replacement) (byte :: before) rest rest')
    (hidden : Hidden before before')
    (noSite : site? flavour name ⟨before, byte :: rest⟩ = none) :
    Scan.site? flavour name ⟨before', byte :: rest'⟩ = none := by
  cases called : Scan.callSite? flavour name before' (byte :: rest') with
  | none => exact site?_eq_none called
  | some written =>
      obtain ⟨callee, calledBefore, between, inside⟩ := later.callSite? renames hidden called
      rw [← Option.not_isSome_iff_eq_none, isSome_site? called, inside.isSome_closing? renames,
        ← isSome_site? calledBefore, noSite]
      simp

include renames in
/-- No site is left in rewritten text. -/
theorem Awaits.sites
    (awaits : Awaits flavour name (encode "await " ++ replacement) before here here')
    (hidden : Hidden before before') : sites flavour name before' here' = [] := by
  induction awaits generalizing before' with
  | nil => rw [sites_nil]
  | @code byte before rest rest' isCode noSite later ih =>
      rw [sites_of_code (skip?_beyond_code (later.alike renames) isCode),
        later.site? renames hidden noSite, Option.toList_none, List.nil_append]
      exact ih (hidden.append [byte])
  | skip skipped later ih =>
      rw [sites_of_skip (skip?_beyond (later.alike renames) skipped) (List.cons_append ..).symm]
      exact ih (hidden.append _)
  | @call callee before here inside' called later ih =>
      have isOpen : ∀ byte ∈ [ascii '('], flavour.isPlain byte = true ∧ byte ∉ name := by
        intro byte member
        rw [List.mem_singleton.mp member]
        exact ⟨by cases flavour <;> decide,
          renames.isIdentifier.not_mem (by cases flavour <;> decide)⟩
      rw [renames.sites, ← List.singleton_append,
        sites_of_passed renames.isIdentifier.1 isOpen]
      exact ih (.behind [] _ _)

end Silence

/-! ## Rewriting again -/

section Again

/-- Code whose rewriting has the literals and comments of the code and no call to rewrite. -/
structure Settles (flavour : Flavour) (name replacement code : String) : Prop where
  /-- The same literals and comments are found in the rewritten code, in the same order. -/
  texts : (lexemes flavour 0 (encode (rewriteCalls flavour name replacement code).code)).map
      (·.text) = (lexemes flavour 0 (encode code)).map (·.text)
  /-- Rewriting it again changes nothing and counts no call. -/
  again : rewriteCalls flavour name replacement (rewriteCalls flavour name replacement code).code =
    ⟨(rewriteCalls flavour name replacement code).code, 0, 0⟩

theorem rewriteCalls_of_silent {name code : String}
    (isIdentifier : flavour.IsIdentifier (encode name))
    (silent : sites flavour (encode name) [] (encode code) = []) (replacement : String) :
    rewriteCalls flavour name replacement code = ⟨code, 0, 0⟩ := by
  have isText := encode_rewriteCalls isIdentifier replacement code
  have isLiteral := literalCalls_rewriteCalls isIdentifier replacement code
  have isExpression := expressionCalls_rewriteCalls isIdentifier replacement code
  rw [silent] at isText isLiteral isExpression
  have isCode : (rewriteCalls flavour name replacement code).code = code := by
    rw [← decode_encode (rewriteCalls flavour name replacement code).code, isText, List.map_nil,
      splice, decode_encode]
  rw [Rewriting.mk.injEq]
  exact ⟨isCode, isLiteral, isExpression⟩

theorem settles_of_renames {name replacement : String}
    (renames : Renames flavour (encode name) (encode replacement)) (code : String) :
    Settles flavour name replacement code := by
  have awaits := awaits_splice renames.isIdentifier (encode "await " ++ encode replacement) []
    (encode code)
  rw [List.length_nil, ← encode_rewriteCalls renames.isIdentifier] at awaits
  constructor
  case texts => exact awaits.texts renames 0 0
  case again =>
    exact rewriteCalls_of_silent renames.isIdentifier (awaits.sites renames (.same [])) replacement

/-- Rewritten code has the literals and comments of the code, and rewriting it again changes
nothing, whether prompts are awaited in a sandbox or input is awaited by an interpreter. -/
theorem rewriteCalls_settles (code : String) :
    Settles .javaScript "prompt" "__runnrPrompt" code ∧
      Settles .python "input" "async_input" code :=
  ⟨settles_of_renames renames_prompt code, settles_of_renames renames_input code⟩

end Again

end Polyglot.Scan
