import Mathlib.Data.List.TakeWhile
import Polyglot.Proofs.Scan.Lexemes
import Polyglot.Proofs.Scan.Splicing

/-!
# What comments say

A scan passes over a comment, so most of a text is read in the same way whatever the comment says.
But the look behind a name goes back over blank bytes to the last byte that is none, also to that
of a comment.  So the end of a comment may keep the first call behind it from being rewritten, and
nothing else depends on it.
-/

namespace Polyglot.Scan

open Text

/-! ## Kinds of comments -/

/-- The kinds of comments. -/
inductive CommentKind where
  /-- From a hash to the end of the line. -/
  | hash
  /-- From two slashes to the end of the line. -/
  | slashes
  /-- Between the marks of a block. -/
  | block
  /-- A block that goes on to the end of the text. -/
  | unclosed
  deriving Repr, DecidableEq

namespace CommentKind

/-- The flavour of text that has such comments. -/
def flavour : CommentKind → Flavour
  | hash => .python
  | slashes | block | unclosed => .javaScript

/-- The mark at the beginning. -/
def opening : CommentKind → String
  | hash => "#"
  | slashes => "//"
  | block | unclosed => "/*"

/-- The mark at the end, if there is one. -/
def closing : CommentKind → String
  | block => "*/"
  | hash | slashes | unclosed => ""

/-- A comment that says something. -/
def write (kind : CommentKind) (inside : String) : String :=
  kind.opening ++ inside ++ kind.closing

/-- The first byte of a comment. -/
def mark : CommentKind → UInt8
  | hash => ascii '#'
  | slashes | block | unclosed => ascii '/'

/-- The bytes of a comment after the first one. -/
def passed (kind : CommentKind) (inside : Bytes) : Bytes :=
  (encode kind.opening).drop 1 ++ inside ++ encode kind.closing

/-- What a comment can say: nothing that ends it. -/
def Fits (kind : CommentKind) (inside : String) : Prop :=
  match kind with
  | hash | slashes => lineFeed ∉ encode inside
  | block | unclosed => ¬ encode "*/" <:+: encode inside

end CommentKind

/-- A stretch of a text whose first `stop` bytes are replaced by `stop'` others. -/
def Stretch.move (stop stop' : Nat) (stretch : Stretch) : Stretch :=
  if stretch.start < stop then stretch
  else ⟨stretch.start - stop + stop', stretch.stop - stop + stop'⟩

/-- Two texts that go on in the same way behind `stop` and `stop'` bytes have the same calls, up to
where they stand. -/
structure SameCalls (flavour : Flavour) (name replacement : String) (stop stop' : Nat)
    (code code' : String) : Prop where
  /-- The same stretches are replaced. -/
  stretches : (sites flavour (encode name) [] (encode code')).map (·.toStretch) =
    (sites flavour (encode name) [] (encode code)).map (·.toStretch.move stop stop')
  /-- As many calls of one literal are counted. -/
  literalCalls : (rewriteCalls flavour name replacement code').literalCalls =
    (rewriteCalls flavour name replacement code).literalCalls
  /-- As many other calls are counted. -/
  expressionCalls : (rewriteCalls flavour name replacement code').expressionCalls =
    (rewriteCalls flavour name replacement code).expressionCalls

variable {flavour : Flavour} {name before here lead rest passed after outer : Bytes}
variable {byte mark : UInt8} {callee : Callee}

/-! ## Arguments that hold a comment -/

section Arguments

/-- No quote begins a comment. -/
theorem not_isSingleLiteral_of_comment (isIdentifier : flavour.IsIdentifier name)
    (notQuote : flavour.isQuote mark = false)
    (isEncoded : IsEncoded (lead ++ mark :: (passed ++ rest)))
    (reaches : Reaches flavour (mark :: (passed ++ (rest ++ ascii ')' :: after))) lead)
    (skipped : skip? flavour mark (passed ++ (rest ++ ascii ')' :: after)) =
      some (rest ++ ascii ')' :: after)) :
    isSingleLiteral flavour (lead ++ mark :: (passed ++ rest)) = false := by
  rw [Bool.eq_false_iff]
  intro isSingle
  obtain ⟨blank, trail, quote, inside, isWhole, isBlank, isTrail, isQuote, terminated⟩ :=
    IsQuotedLiteral.of_isSingleLiteral isEncoded isSingle
  have isPlain {text : String} (blank : isBlankText text = true) (byte : UInt8)
      (member : byte ∈ encode text) := (passed_of_isBlankText isIdentifier blank byte member).1
  -- The comment is found in the text, which begins with the literal.
  obtain ⟨earlier, isFound⟩ := reaches.lexemes 0
  have member : ⟨lead.length, mark :: passed⟩ ∈ lexemes flavour 0
      (lead ++ mark :: (passed ++ (rest ++ ascii ')' :: after))) := by
    rw [isFound, lexemes_of_skip skipped, Nat.zero_add]
    exact List.mem_append_right _ List.mem_cons_self
  have isText : lead ++ mark :: (passed ++ (rest ++ ascii ')' :: after)) =
      encode blank ++ quote :: (inside ++ (encode trail ++ ascii ')' :: after)) := by
    have whole := congrArg (· ++ ascii ')' :: after) isWhole
    simpa using whole
  have isOther : (encode trail ++ ascii ')' :: after).head? ≠ some quote := by
    cases trailing : encode trail with
    | nil =>
        rw [List.nil_append, List.head?_cons, ne_eq, Option.some.injEq]
        rintro rfl
        rw [isQuote_parenthesis] at isQuote
        exact Bool.false_ne_true isQuote
    | cons first others =>
        rw [List.cons_append, List.head?_cons, ne_eq, Option.some.injEq]
        rintro rfl
        have isFirst := isPlain isTrail first (by simp [trailing])
        simp [Flavour.isPlain, isQuote] at isFirst
  rw [isText, lexemes_of_plain (isPlain isBlank),
    lexemes_of_skip (skip?_of_terminated isQuote terminated isOther),
    lexemes_of_plain (isPlain isTrail)] at member
  rcases List.mem_cons.mp member with same | inLater
  · have isMark : mark = quote := (List.cons.inj (congrArg Lexeme.text same)).1
    rw [isMark, isQuote] at notQuote
    exact Bool.false_ne_true notQuote.symm
  · have further := start_of_mem_lexemes inLater
    have isLength := congrArg List.length isWhole
    simp only [List.length_append, List.length_cons] at isLength further
    omega

theorem arguments?_of_closing? {inside closed : Bytes}
    (isClosed : closing? flavour 0 (inside ++ rest) = some (closed ++ rest)) :
    (arguments? flavour (inside ++ rest)).map (·.inside) =
      some (inside.take (inside.length - closed.length)) := by
  rw [arguments?, isClosed, Option.map_some, Option.map_some, List.length_append,
    List.length_append, Nat.add_sub_add_right, List.take_append_of_le_length (Nat.sub_le ..)]

/-- Whether an argument that goes on up to a comment is one literal does not depend on what the
comment says. -/
theorem exists_isSingleLiteral (isIdentifier : flavour.IsIdentifier name)
    (notQuote : flavour.isQuote mark = false) {tail : Bytes}
    (reaches : Reaches flavour (mark :: tail) lead) (rest : Bytes) :
    ∃ single, ∀ passed, skip? flavour mark (passed ++ rest) = some rest →
      IsEncoded (lead ++ mark :: (passed ++ rest)) →
      (arguments? flavour (lead ++ mark :: (passed ++ rest))).map
        (isSingleLiteral flavour ·.inside) = single := by
  rcases reaches.closes 0 with ⟨closed, isClosed⟩ | ⟨inner, isOpen⟩
  · refine ⟨some (isSingleLiteral flavour (lead.take (lead.length - closed.length))),
      fun passed _ _ => ?_⟩
    have isInside := arguments?_of_closing? (isClosed _ (.same mark tail (passed ++ rest)))
    have single := congrArg (Option.map (isSingleLiteral flavour)) isInside
    rwa [Option.map_map, Function.comp_def] at single
  · cases isClosed : closing? flavour inner rest with
    | none =>
        refine ⟨none, fun passed skipped _ => ?_⟩
        rw [arguments?, isOpen _ (.same mark tail (passed ++ rest)), closing?_of_skip skipped,
          isClosed]
        rfl
    | some closed =>
        obtain ⟨⟨argued, rfl⟩, after, rfl⟩ := closing?_suffix isClosed
        refine ⟨some false, fun passed skipped isEncoded => ?_⟩
        have isText : lead ++ mark :: (passed ++ (argued ++ ascii ')' :: after)) =
            lead ++ mark :: (passed ++ argued) ++ ascii ')' :: after := by simp
        have isWhole : closing? flavour 0
            (lead ++ mark :: (passed ++ argued) ++ ascii ')' :: after) =
              some ([] ++ ascii ')' :: after) := by
          rw [← isText, isOpen _ (.same mark tail _), closing?_of_skip skipped, isClosed]
          rfl
        have isInside := arguments?_of_closing? isWhole
        rw [List.length_nil, Nat.sub_zero, List.take_length] at isInside
        rw [isText] at isEncoded ⊢
        have single := congrArg (Option.map (isSingleLiteral flavour)) isInside
        rw [Option.map_map, Function.comp_def, Option.map_some,
          not_isSingleLiteral_of_comment isIdentifier notQuote (isEncoded.cut (by decide)).1
            (reaches.alike (.same mark tail _)) skipped] at single
        exact single

end Arguments

/-! ## Sites before a comment -/

section Before

theorem Reaches.of_callSite? (isIdentifier : flavour.IsIdentifier name)
    (called : callSite? flavour name before lead = some callee)
    (reaches : Reaches flavour rest lead) : Reaches flavour rest callee.inside := by
  have isPassed := passed_of_callSite? isIdentifier called
  have isLead : lead = (callee.name ++ [ascii '(']) ++ callee.inside := by
    simpa using (callSite?_spec called).1
  rw [isLead] at reaches
  apply reaches.of_plain
  intro byte member
  rcases List.mem_append.mp member with inName | isOpen
  · exact (isPassed byte inName).1
  · rw [List.mem_singleton.mp isOpen]
    cases flavour <;> decide

/-- A site before a comment has the same mark whatever the comment says. -/
theorem exists_mark (isIdentifier : flavour.IsIdentifier name)
    (isMark : mark = ascii '#' ∨ mark = ascii '/') (before : Bytes) {tail : Bytes}
    (reaches : Reaches flavour (mark :: tail) lead) (rest : Bytes) :
    ∃ marked, (∀ found ∈ marked, found.1.start = before.length) ∧
      ∀ passed, skip? flavour mark (passed ++ rest) = some rest →
        IsEncoded (before.reverse ++ (lead ++ mark :: (passed ++ rest))) →
        (site? flavour name ⟨before, lead ++ mark :: (passed ++ rest)⟩).map
          (Site.mark flavour) = marked := by
  have notWord : flavour.isWordByte mark = false := by
    rcases isMark with rfl | rfl <;> cases flavour <;> decide
  have notOther : isGap mark = false ∧ mark ≠ ascii '(' := by
    rcases isMark with rfl | rfl <;> decide
  have sameCall (after : Bytes) :=
    callSite?_append_cons isIdentifier notWord notOther.1 notOther.2 before lead after
  cases called : callSite? flavour name before lead with
  | none =>
      refine ⟨none, by simp, fun passed _ _ => ?_⟩
      rw [site?_eq_none (by rw [sameCall, called]; rfl), Option.map_none]
  | some callee =>
      have notQuote : flavour.isQuote mark = false := by
        rcases isMark with rfl | rfl <;> cases flavour <;> decide
      obtain ⟨single, isSingle⟩ := exists_isSingleLiteral isIdentifier notQuote
        (reaches.of_callSite? isIdentifier called) rest
      refine ⟨single.map (⟨before.length, before.length + callee.name.length⟩, ·),
        fun found member => ?_, fun passed skipped isEncoded => ?_⟩
      · obtain ⟨_, _, rfl⟩ := Option.map_eq_some_iff.mp member
        rfl
      rw [(callSite?_spec called).1, List.append_assoc, ← List.append_assoc] at isEncoded
      rw [← isSingle passed skipped (isEncoded.cut (by decide)).2, site?, sameCall, called,
        Option.map_some, Option.bind_some, Option.map_map, Option.map_map]
      rfl

/-- The sites before a comment have the same marks whatever the comment says. -/
theorem exists_marks (isIdentifier : flavour.IsIdentifier name)
    (isMark : mark = ascii '#' ∨ mark = ascii '/') (before : Bytes) {tail : Bytes}
    (reaches : Reaches flavour (mark :: tail) lead) (rest : Bytes) :
    ∃ marks, (∀ marked ∈ marks, marked.1.start < before.length + lead.length) ∧
      ∀ passed, skip? flavour mark (passed ++ rest) = some rest →
        IsEncoded (before.reverse ++ (lead ++ mark :: (passed ++ rest))) →
        (sites flavour name before (lead ++ mark :: (passed ++ rest))).map (Site.mark flavour) =
          marks ++ (sites flavour name (lead.reverse ++ before)
            (mark :: (passed ++ rest))).map (Site.mark flavour) := by
  induction reaches generalizing before with
  | nil => exact ⟨[], by simp, fun _ _ _ => rfl⟩
  | @code byte lead isCode later ih =>
      obtain ⟨marks, isBefore, isMarks⟩ := ih (byte :: before)
      obtain ⟨marked, isHere, isMarked⟩ :=
        exists_mark isIdentifier isMark before (.code isCode later) rest
      refine ⟨marked.toList ++ marks, fun found member => ?_, fun passed skipped isEncoded => ?_⟩
      · rw [List.length_cons]
        rcases List.mem_append.mp member with isFirst | inLater
        · have isStart := isHere found (Option.mem_toList.mp isFirst)
          omega
        · have further := isBefore found inLater
          rw [List.length_cons] at further
          omega
      · have isCode :=
          skip?_beyond_code ((Alike.same mark tail (passed ++ rest)).append lead) isCode
        have isFirst := isMarked passed skipped isEncoded
        rw [List.cons_append] at isFirst ⊢
        rw [sites_of_code isCode, List.map_append,
          isMarks passed skipped (by simpa using isEncoded), ← isFirst, Option.toList_map]
        simp
  | @skip byte text lead skipped later ih =>
      obtain ⟨marks, isBefore, isMarks⟩ := ih ((byte :: text).reverse ++ before)
      refine ⟨marks, fun marked member => ?_, fun passed isComment isEncoded => ?_⟩
      · have further := isBefore marked member
        simp only [List.length_append, List.length_reverse, List.length_cons] at further ⊢
        omega
      · have goesOn := skip?_beyond ((Alike.same mark tail (passed ++ rest)).append lead) skipped
        rw [List.cons_append, List.append_assoc, sites_of_skip goesOn (List.cons_append ..).symm,
          isMarks passed isComment (by simpa using isEncoded)]
        simp

end Before

/-! ## Sites behind a comment -/

section Behind

theorem isBlocked_nil (flavour : Flavour) : isBlocked flavour [] = false := by
  cases flavour <;> rfl

theorem isBlocked_of_blank {blank : Bytes} (isBlank : ∀ byte ∈ blank, isAsciiBlank byte = true)
    (outer : Bytes) : isBlocked flavour (blank ++ outer) = isBlocked flavour outer := by
  rw [isBlocked, isBlocked, List.dropWhile_append_of_pos isBlank]

/-- Behind a byte that is not blank it makes no difference what stands before that byte, if no
word does. -/
theorem isBlocked_of_visible {between : Bytes}
    (visible : ∃ byte ∈ between, isAsciiBlank byte = false)
    (apart : outer.head?.any flavour.isWordByte = false) :
    isBlocked flavour (between ++ outer) = isBlocked flavour between := by
  have isVisible : between.dropWhile isAsciiBlank ≠ [] := by
    simpa [List.dropWhile_eq_nil_iff] using visible
  have isDropped : (between ++ outer).dropWhile isAsciiBlank =
      between.dropWhile isAsciiBlank ++ outer := by
    rw [List.dropWhile_append, if_neg (by simpa using isVisible)]
  have noWord : outer.takeWhile flavour.isWordByte = [] := by
    cases outer with
    | nil => rfl
    | cons byte outer => exact List.takeWhile_cons_of_neg (by simpa using apart)
  have isTaken : (between.dropWhile isAsciiBlank ++ outer).takeWhile flavour.isWordByte =
      (between.dropWhile isAsciiBlank).takeWhile flavour.isWordByte := by
    rw [List.takeWhile_append, noWord, List.append_nil]
    split
    · rename_i isWord
      exact ((List.takeWhile_prefix _).eq_of_length isWord).symm
    · rfl
  obtain ⟨last, others, isCons⟩ := List.exists_cons_of_ne_nil isVisible
  rw [isBlocked, isBlocked, isDropped, isTaken, isCons]
  rfl

theorem site?_append {between : Bytes} (visible : ∃ byte ∈ between, isAsciiBlank byte = false)
    (apart : outer.head?.any flavour.isWordByte = false) (here : Bytes) :
    site? flavour name ⟨between ++ outer, here⟩ =
      (site? flavour name ⟨between, here⟩).map (Site.shift outer.length) := by
  have sameHead : (between ++ outer).head?.any flavour.isWordByte =
      between.head?.any flavour.isWordByte := by
    obtain ⟨byte, member, -⟩ := visible
    cases between with
    | nil => contradiction
    | cons first between => rfl
  rw [site?, site?, callSite?_congr sameHead (isBlocked_of_visible visible apart)]
  cases callSite? flavour name between here with
  | none => rfl
  | some callee =>
      rw [Option.bind_some, Option.bind_some, Option.map_map, List.length_append]
      congr 1
      funext found
      rw [Function.comp_apply, Site.shift, Nat.add_right_comm]

theorem sites_append {between : Bytes} (visible : ∃ byte ∈ between, isAsciiBlank byte = false)
    (apart : outer.head?.any flavour.isWordByte = false) (here : Bytes) :
    sites flavour name (between ++ outer) here =
      (sites flavour name between here).map (Site.shift outer.length) := by
  obtain ⟨seen, isSeen, notBlank⟩ := visible
  fun_induction codePlaces flavour between here with
  | case1 between => simp
  | case2 between byte rest after isSkipped ih =>
      obtain ⟨passed, rfl, skipped⟩ := exists_passed isSkipped
      have cut : byte :: (passed ++ after) = byte :: passed ++ after := (List.cons_append ..).symm
      rw [take_passed cut] at ih
      rw [sites_of_skip skipped cut, sites_of_skip skipped cut, ← List.append_assoc]
      exact ih (List.mem_append_right _ isSeen)
  | case3 between byte rest isCode ih =>
      rw [sites_of_code isCode, sites_of_code isCode,
        site?_append ⟨seen, isSeen, notBlank⟩ apart, List.map_append, ← List.cons_append,
        Option.toList_map, ih (List.mem_cons_of_mem _ isSeen)]

/-- The first byte behind a text that is not blank: a call that begins there is rewritten unless
the text blocks it. -/
theorem site?_of_apart (apart : outer.head?.any flavour.isWordByte = false) (here : Bytes) :
    site? flavour name ⟨outer, here⟩ =
      if isBlocked flavour outer then none
      else (site? flavour name ⟨[], here⟩).map (Site.shift outer.length) := by
  split
  · rename_i blocked
    apply site?_eq_none
    cases called : callSite? flavour name outer here with
    | none => rfl
    | some callee =>
        rw [(callSite?_eq_some_iff.mp called).2.2] at blocked
        contradiction
  · rename_i isFree
    have sameCall : callSite? flavour name outer here = callSite? flavour name [] here :=
      callSite?_congr apart (by rw [isBlocked_nil]; simpa using isFree) here
    rw [site?, site?, sameCall]
    cases callSite? flavour name [] here with
    | none => rfl
    | some callee =>
        rw [Option.bind_some, Option.bind_some, Option.map_map]
        congr 1
        funext found
        rw [Function.comp_apply, Site.shift, List.length_nil, Nat.zero_add, Nat.zero_add,
          Nat.add_comm]

theorem passed_of_isAsciiBlank (isIdentifier : flavour.IsIdentifier name)
    (isBlank : isAsciiBlank byte = true) : flavour.isPlain byte = true ∧ byte ∉ name := by
  simp only [isAsciiBlank, Bool.or_eq_true, decide_eq_true_eq] at isBlank
  have isCase : byte ∈ [(0x20 : UInt8), 0x09, 0x0A, 0x0C, 0x0D] := by
    simp only [List.mem_cons, List.not_mem_nil, or_false]
    tauto
  have each : [(0x20 : UInt8), 0x09, 0x0A, 0x0C, 0x0D].all fun blank =>
      flavour.isPlain blank && !flavour.isWordByte blank := by
    cases flavour <;> rfl
  have both := List.all_eq_true.mp each byte isCase
  rw [Bool.and_eq_true, Bool.not_eq_true'] at both
  exact ⟨both.1, isIdentifier.not_mem both.2⟩

/-- From a byte on that is not blank, only the call that begins with it may depend on what stands
before it. -/
theorem exists_sites_of_visible (isIdentifier : flavour.IsIdentifier name)
    (notBlank : isAsciiBlank byte = false) (rest : Bytes) :
    ∃ further, ∀ outer, outer.head?.any flavour.isWordByte = false →
      sites flavour name outer (byte :: rest) =
        ((if isBlocked flavour outer then []
            else (site? flavour name ⟨[], byte :: rest⟩).toList) ++ further).map
          (Site.shift outer.length) := by
  cases isSkipped : skip? flavour byte rest with
  | none =>
      refine ⟨sites flavour name [byte] rest, fun outer apart => ?_⟩
      have behind : sites flavour name (byte :: outer) rest = _ :=
        @sites_append _ _ _ [byte] ⟨byte, List.mem_singleton_self byte, notBlank⟩ apart rest
      rw [sites_of_code isSkipped, behind, site?_of_apart apart, List.map_append]
      split
      · rfl
      · rw [Option.toList_map]
  | some after =>
      obtain ⟨passed, rfl, skipped⟩ := exists_passed isSkipped
      have cut : byte :: (passed ++ after) = byte :: passed ++ after := (List.cons_append ..).symm
      have isOther : byte ∉ name := by
        intro member
        rw [skip?_of_isPlain (isPlain_of_isWordByte (isIdentifier.2 byte member).1)] at skipped
        contradiction
      refine ⟨sites flavour name (byte :: passed).reverse after, fun outer apart => ?_⟩
      rw [sites_of_skip skipped cut,
        sites_append ⟨byte, List.mem_reverse.mpr List.mem_cons_self, notBlank⟩ apart,
        site?_eq_none (callSite?_of_not_mem isIdentifier.1 isOther _)]
      simp

/-- The sites behind some text: only the first of them may depend on what the text is. -/
theorem exists_sites (isIdentifier : flavour.IsIdentifier name) (rest : Bytes) :
    ∃ further, ∀ outer,
      (rest ≠ [] → ((rest.takeWhile isAsciiBlank).reverse ++ outer).head?.any
        flavour.isWordByte = false) →
      sites flavour name outer rest =
        ((if isBlocked flavour outer then []
            else (site? flavour name ⟨[], rest.dropWhile isAsciiBlank⟩).toList) ++ further).map
          (Site.shift (outer.length + (rest.takeWhile isAsciiBlank).length)) := by
  have isBlank : ∀ byte ∈ rest.takeWhile isAsciiBlank, isAsciiBlank byte = true :=
    List.all_eq_true.mp List.all_takeWhile
  have behind (outer : Bytes) : sites flavour name outer rest =
      sites flavour name ((rest.takeWhile isAsciiBlank).reverse ++ outer)
        (rest.dropWhile isAsciiBlank) := by
    conv_lhs => rw [← List.takeWhile_append_dropWhile (p := isAsciiBlank) (l := rest)]
    exact sites_of_passed isIdentifier.1 fun byte member =>
      passed_of_isAsciiBlank isIdentifier (isBlank byte member)
  have sameBlocked (outer : Bytes) :
      isBlocked flavour ((rest.takeWhile isAsciiBlank).reverse ++ outer) =
        isBlocked flavour outer :=
    isBlocked_of_blank (by simpa using isBlank) outer
  have isLength (outer : Bytes) : ((rest.takeWhile isAsciiBlank).reverse ++ outer).length =
      outer.length + (rest.takeWhile isAsciiBlank).length := by
    rw [List.length_append, List.length_reverse, Nat.add_comm]
  cases isNext : rest.dropWhile isAsciiBlank with
  | nil =>
      refine ⟨[], fun outer _ => ?_⟩
      have noSite : site? flavour name ⟨[], []⟩ = none := by
        apply site?_eq_none
        obtain ⟨first, tail, rfl⟩ := List.exists_cons_of_ne_nil isIdentifier.1
        rfl
      rw [behind, isNext, sites_nil, noSite]
      simp
  | cons byte next =>
      have notBlank : isAsciiBlank byte = false := by
        have isHead := List.head?_dropWhile_not isAsciiBlank rest
        rw [isNext] at isHead
        simpa using isHead
      obtain ⟨further, isSites⟩ := exists_sites_of_visible isIdentifier notBlank next
      refine ⟨further, fun outer apart => ?_⟩
      have nonempty : rest ≠ [] := by
        rintro rfl
        simp at isNext
      rw [behind, isNext, isSites _ (apart nonempty), sameBlocked, isLength]

end Behind

/-! ## Comments that say something else -/

section Saying

variable {inside : Bytes}

theorem fromLineFeed_of_not_mem (fits : lineFeed ∉ inside) (rest : Bytes) :
    fromLineFeed (inside ++ rest) = fromLineFeed rest := by
  apply List.dropWhile_append_of_pos
  intro byte member
  rw [decide_eq_true_eq]
  rintro rfl
  exact fits member

theorem encode_closing : encode "*/" = [ascii '*', ascii '/'] := rfl

/-- The mark at the end of a block does not begin before what follows it. -/
theorem not_closing_of_fits (fits : ¬ encode "*/" <:+: byte :: inside)
    (isOther : rest.head? ≠ some (ascii '/')) :
    [ascii '*', ascii '/'].isPrefixOf (byte :: (inside ++ rest)) = false := by
  rw [encode_closing] at fits
  rw [Bool.eq_false_iff]
  intro closes
  obtain ⟨later, isText⟩ := List.isPrefixOf_iff_prefix.mp closes
  obtain ⟨rfl, isNext⟩ := List.cons.inj isText
  cases inside with
  | nil =>
      rw [List.nil_append] at isNext
      exact isOther (isNext ▸ rfl)
  | cons next inside =>
      obtain ⟨rfl, -⟩ := List.cons.inj isNext
      exact fits (List.prefix_append [ascii '*', ascii '/'] inside).isInfix

theorem afterBlockComment_of_fits (fits : ¬ encode "*/" <:+: inside)
    (isOther : rest.head? ≠ some (ascii '/')) :
    afterBlockComment (inside ++ rest) = afterBlockComment rest := by
  induction inside with
  | nil => rfl
  | cons byte inside ih =>
      rw [List.cons_append, afterBlockComment, not_closing_of_fits fits isOther,
        if_neg Bool.false_ne_true]
      exact ih fun isInfix => fits (isInfix.trans (List.suffix_cons ..).isInfix)

/-- What follows a block that is not closed is part of it. -/
theorem length_afterBlockComment_lt (fits : ¬ encode "*/" <:+: inside) (nonempty : rest ≠ []) :
    (afterBlockComment (inside ++ rest)).length < rest.length := by
  obtain ⟨first, later, rfl⟩ := List.exists_cons_of_ne_nil nonempty
  by_cases isSlash : first = ascii '/'
  · induction inside with
    | nil =>
        have isOther : (ascii '*' == ascii '/') = false := by decide
        rw [List.nil_append, isSlash, afterBlockComment, List.isPrefixOf, isOther, Bool.false_and,
          if_neg Bool.false_ne_true]
        exact Nat.lt_succ_of_le (length_afterBlockComment_le later)
    | cons byte inside ih =>
        rw [List.cons_append, afterBlockComment]
        split
        · rename_i closes
          cases inside with
          | nil => simp
          | cons next inside =>
              have isText := List.isPrefixOf_iff_prefix.mp closes
              rw [encode_closing] at fits
              rw [← List.cons_append] at isText
              exact absurd (List.prefix_of_prefix_length_le isText (List.prefix_append _ _)
                (by simp)).isInfix fits
        · exact ih fun isInfix => fits (isInfix.trans (List.suffix_cons ..).isInfix)
  · rw [afterBlockComment_of_fits fits (by simpa using isSlash), afterBlockComment]
    split
    · simp only [List.length_drop, List.length_cons]
      omega
    · exact Nat.lt_succ_of_le (length_afterBlockComment_le later)

namespace CommentKind

theorem encode_write (kind : CommentKind) (inside : String) :
    encode (kind.write inside) = kind.mark :: kind.passed (encode inside) := by
  have isOpening : encode kind.opening = kind.mark :: (encode kind.opening).drop 1 := by
    cases kind <;> rfl
  rw [write, encode_append, encode_append, passed, ← List.cons_append, ← List.cons_append,
    ← isOpening]

theorem isMark (kind : CommentKind) : kind.mark = ascii '#' ∨ kind.mark = ascii '/' := by
  cases kind <;> simp [mark]

theorem skip?_hash (inside rest : Bytes) :
    skip? hash.flavour hash.mark (hash.passed inside ++ rest) =
      some (fromLineFeed (inside ++ rest)) := by
  have isPassed : hash.passed inside = inside := by
    have isOpening : (encode hash.opening).drop 1 = [] := rfl
    have isClosing : encode hash.closing = [] := rfl
    rw [passed, isOpening, isClosing, List.nil_append, List.append_nil]
  rw [isPassed]
  rfl

theorem skip?_slashes (inside rest : Bytes) :
    skip? slashes.flavour slashes.mark (slashes.passed inside ++ rest) =
      some (fromLineFeed (inside ++ rest)) := by
  have isPassed : slashes.passed inside = ascii '/' :: inside := by
    have isOpening : (encode slashes.opening).drop 1 = [ascii '/'] := rfl
    have isClosing : encode slashes.closing = [] := rfl
    rw [passed, isOpening, isClosing, List.append_nil, List.singleton_append]
  rw [isPassed]
  rfl

theorem skip?_block (inside rest : Bytes) :
    skip? block.flavour block.mark (block.passed inside ++ rest) =
      some (afterBlockComment (inside ++ ascii '*' :: ascii '/' :: rest)) := by
  have isPassed : block.passed inside = ascii '*' :: (inside ++ [ascii '*', ascii '/']) := by
    have isOpening : (encode block.opening).drop 1 = [ascii '*'] := rfl
    have isClosing : encode block.closing = [ascii '*', ascii '/'] := encode_closing
    rw [passed, isOpening, isClosing, List.append_assoc, List.singleton_append]
  rw [isPassed, List.cons_append, List.append_assoc]
  rfl

theorem skip?_unclosed (inside rest : Bytes) :
    skip? unclosed.flavour unclosed.mark (unclosed.passed inside ++ rest) =
      some (afterBlockComment (inside ++ rest)) := by
  have isPassed : unclosed.passed inside = ascii '*' :: inside := by
    have isOpening : (encode unclosed.opening).drop 1 = [ascii '*'] := rfl
    have isClosing : encode unclosed.closing = [] := rfl
    rw [passed, isOpening, isClosing, List.append_nil, List.singleton_append]
  rw [isPassed]
  rfl

/-- A comment that is found in a text is reached there, and passed. -/
theorem reaches_of_mem (kind : CommentKind) {lead inside rest : String}
    (isComment : ⟨(encode lead).length, encode (kind.write inside)⟩ ∈
      lexemes kind.flavour 0 (encode (lead ++ kind.write inside ++ rest))) :
    skip? kind.flavour kind.mark (kind.passed (encode inside) ++ encode rest) =
        some (encode rest) ∧
      Reaches kind.flavour (kind.mark :: (kind.passed (encode inside) ++ encode rest))
        (encode lead) := by
  obtain ⟨leading, first, text, after, isText, isLexeme, skipped, reaches⟩ :=
    exists_reaches isComment
  obtain ⟨isStart, isWritten⟩ := Lexeme.mk.inj isLexeme
  rw [encode_append, encode_append, isWritten, List.append_assoc, List.cons_append] at isText
  obtain ⟨rfl, isRest⟩ := List.append_inj isText (by omega)
  rw [kind.encode_write] at isWritten
  obtain ⟨rfl, rfl⟩ := List.cons.inj isWritten
  obtain rfl := List.append_cancel_left (List.cons.inj isRest).2
  exact ⟨skipped, reaches⟩

/-- Where a comment ends does not depend on what it says. -/
theorem skip?_of_fits {kind : CommentKind} {inside inside' : String} (fits : kind.Fits inside)
    (fits' : kind.Fits inside')
    (skipped : skip? kind.flavour kind.mark (kind.passed (encode inside) ++ rest) = some rest) :
    skip? kind.flavour kind.mark (kind.passed (encode inside') ++ rest) = some rest := by
  cases kind with
  | hash =>
      rw [skip?_hash, fromLineFeed_of_not_mem fits] at skipped
      rw [skip?_hash, fromLineFeed_of_not_mem fits', skipped]
  | slashes =>
      rw [skip?_slashes, fromLineFeed_of_not_mem fits] at skipped
      rw [skip?_slashes, fromLineFeed_of_not_mem fits', skipped]
  | block =>
      have isOther : (ascii '*' :: ascii '/' :: rest).head? ≠ some (ascii '/') := by
        rw [List.head?_cons]
        decide
      rw [skip?_block, afterBlockComment_of_fits fits' isOther]
      rfl
  | unclosed =>
      rw [skip?_unclosed] at skipped
      have atEnd : rest = [] := by
        by_contra nonempty
        have shorter := length_afterBlockComment_lt fits nonempty
        rw [Option.some.inj skipped] at shorter
        exact Nat.lt_irrefl _ shorter
      rw [skip?_unclosed, atEnd, afterBlockComment_of_fits fits' (by simp)]
      rfl

theorem apart_of_blank {blank : Bytes} (isBlank : ∀ byte ∈ blank, isAsciiBlank byte = true)
    (apart : blank ≠ [] ∨ outer.head?.any flavour.isWordByte = false) :
    (blank ++ outer).head?.any flavour.isWordByte = false := by
  cases blank with
  | nil => exact apart.resolve_left (fun nonempty => nonempty rfl)
  | cons byte blank =>
      have isByte := isBlank byte List.mem_cons_self
      simp only [isAsciiBlank, Bool.or_eq_true, decide_eq_true_eq] at isByte
      rcases isByte with (((rfl | rfl) | rfl) | rfl) | rfl <;> cases flavour <;> rfl

/-- No word goes on from a comment into what follows it. -/
theorem apart_of_skip? {kind : CommentKind} {inside : String} (fits : kind.Fits inside)
    (skipped : skip? kind.flavour kind.mark (kind.passed (encode inside) ++ rest) = some rest)
    (nonempty : rest ≠ []) (outer : Bytes) :
    ((rest.takeWhile isAsciiBlank).reverse ++
      ((encode (kind.write inside)).reverse ++ outer)).head?.any kind.flavour.isWordByte =
        false := by
  have isBlank : ∀ byte ∈ (rest.takeWhile isAsciiBlank).reverse, isAsciiBlank byte = true := by
    simpa using List.all_eq_true.mp (List.all_takeWhile (p := isAsciiBlank) (l := rest))
  apply apart_of_blank isBlank
  have ofLine (atEnd : fromLineFeed rest = rest) : (rest.takeWhile isAsciiBlank).reverse ≠ [] := by
    cases rest with
    | nil => contradiction
    | cons byte later =>
        have isFeed : byte = lineFeed := by
          by_contra notFeed
          have shorter := length_fromLineFeed_le later
          rw [fromLineFeed_cons, if_neg notFeed] at atEnd
          rw [atEnd, List.length_cons] at shorter
          omega
        rw [isFeed, List.takeWhile_cons_of_pos (by decide)]
        simp
  cases kind with
  | hash =>
      rw [skip?_hash, fromLineFeed_of_not_mem fits] at skipped
      exact .inl (ofLine (Option.some.inj skipped))
  | slashes =>
      rw [skip?_slashes, fromLineFeed_of_not_mem fits] at skipped
      exact .inl (ofLine (Option.some.inj skipped))
  | block =>
      have isClosing : encode block.closing = [ascii '*', ascii '/'] := encode_closing
      right
      rw [write, encode_append, isClosing, List.reverse_append]
      rfl
  | unclosed =>
      have shorter := length_afterBlockComment_lt fits nonempty
      rw [skip?_unclosed] at skipped
      rw [Option.some.inj skipped] at shorter
      exact absurd shorter (Nat.lt_irrefl _)

/-- The mark of a comment hides what stands before the comment. -/
theorem isBlocked_write (kind : CommentKind) (inside : String) (outer : Bytes) :
    isBlocked kind.flavour ((encode (kind.write inside)).reverse ++ outer) =
      isBlocked kind.flavour (encode (inside ++ kind.closing)).reverse := by
  have isOpening : ∃ stop more, (encode kind.opening).reverse = stop :: more ∧
      kind.flavour.isWordByte stop = false ∧ isAsciiBlank stop = false ∧ stop ≠ ascii '.' := by
    cases kind with
    | hash => exact ⟨ascii '#', [], rfl, by decide, by decide, by decide⟩
    | slashes => exact ⟨ascii '/', [ascii '/'], rfl, by decide, by decide, by decide⟩
    | block => exact ⟨ascii '*', [ascii '/'], rfl, by decide, by decide, by decide⟩
    | unclosed => exact ⟨ascii '*', [ascii '/'], rfl, by decide, by decide, by decide⟩
  obtain ⟨stop, more, isStop, notWord, notBlank, notPoint⟩ := isOpening
  rw [write, encode_append, encode_append, encode_append, List.append_assoc, List.reverse_append,
    isStop, List.append_assoc, List.cons_append, isBlocked_append_cons notWord notBlank notPoint]

end CommentKind

end Saying

/-! ## Calls around a comment -/

section Around

variable {replacement code code' : String} {stop stop' blank : Nat}

theorem Stretch.move_shift (stop stop' blank : Nat) (stretch : Stretch) :
    (stretch.shift (stop + blank)).move stop stop' = stretch.shift (stop' + blank) := by
  have behind : ¬ stretch.start + (stop + blank) < stop := by omega
  rw [Stretch.move, Stretch.shift, if_neg behind, Stretch.shift, Stretch.mk.injEq]
  dsimp only
  omega

/-- Texts whose calls have the same marks, some of them moved, have the same calls. -/
theorem sameCalls_of_marks {name : String} (isIdentifier : flavour.IsIdentifier (encode name))
    {earlier later : List (Stretch × Bool)} (isEarlier : ∀ marked ∈ earlier, marked.1.start < stop)
    (isMarks : (sites flavour (encode name) [] (encode code)).map (Site.mark flavour) =
      earlier ++ later.map (Prod.map (Stretch.shift (stop + blank)) id))
    (isMarks' : (sites flavour (encode name) [] (encode code')).map (Site.mark flavour) =
      earlier ++ later.map (Prod.map (Stretch.shift (stop' + blank)) id)) :
    SameCalls flavour name replacement stop stop' code code' := by
  have sameFlags : ((sites flavour (encode name) [] (encode code')).map (Site.mark flavour)).map
      Prod.snd = ((sites flavour (encode name) [] (encode code)).map (Site.mark flavour)).map
        Prod.snd := by
    rw [isMarks, isMarks', List.map_append, List.map_append, List.map_map, List.map_map]
    rfl
  rw [List.map_map, List.map_map] at sameFlags
  have sameCount (test : Bool → Bool) :
      (sites flavour (encode name) [] (encode code')).countP
          (test <| isSingleLiteral flavour ·.argument) =
        (sites flavour (encode name) [] (encode code)).countP
          (test <| isSingleLiteral flavour ·.argument) := by
    have counted := congrArg (List.countP test) sameFlags
    simpa only [List.countP_map, Function.comp_def, Site.mark] using counted
  constructor
  case stretches =>
    have isStretches := congrArg (List.map fun marked => marked.1.move stop stop') isMarks
    have isStretches' := congrArg (List.map Prod.fst) isMarks'
    rw [List.map_map] at isStretches isStretches'
    refine isStretches'.trans (Eq.trans ?_ isStretches.symm)
    rw [List.map_append, List.map_append, List.map_map, List.map_map]
    congr 1
    · apply List.map_congr_left
      intro marked member
      rw [Stretch.move, if_pos (isEarlier marked member)]
    · apply List.map_congr_left
      intro marked _
      exact (marked.1.move_shift stop stop' blank).symm
  case literalCalls =>
    rw [literalCalls_rewriteCalls isIdentifier, literalCalls_rewriteCalls isIdentifier]
    simpa only [id] using sameCount id
  case expressionCalls =>
    rw [expressionCalls_rewriteCalls isIdentifier, expressionCalls_rewriteCalls isIdentifier]
    exact sameCount not

theorem SameCalls.length {name : String} (isIdentifier : flavour.IsIdentifier (encode name))
    (sameCalls : SameCalls flavour name replacement stop stop' code code') :
    (sites flavour (encode name) [] (encode code')).length =
      (sites flavour (encode name) [] (encode code)).length := by
  rw [← total_rewriteCalls isIdentifier replacement, ← total_rewriteCalls isIdentifier replacement,
    Rewriting.total, Rewriting.total, sameCalls.literalCalls, sameCalls.expressionCalls]

/-- The marks of the calls of a text with a comment: only the call that follows the comment may
depend on what it says. -/
theorem exists_marks_around (kind : CommentKind) (isIdentifier : kind.flavour.IsIdentifier name)
    {lead inside rest : String} (fits : kind.Fits inside)
    (isComment : ⟨(encode lead).length, encode (kind.write inside)⟩ ∈
      lexemes kind.flavour 0 (encode (lead ++ kind.write inside ++ rest))) :
    ∃ (earlier : List (Stretch × Bool)) (further : List Site),
      (∀ marked ∈ earlier, marked.1.start < (encode lead).length) ∧
      ∀ inside', kind.Fits inside' →
        (sites kind.flavour name [] (encode (lead ++ kind.write inside' ++ rest))).map
            (Site.mark kind.flavour) =
          earlier ++
            (((if isBlocked kind.flavour (encode (inside' ++ kind.closing)).reverse then []
                else (site? kind.flavour name
                  ⟨[], (encode rest).dropWhile isAsciiBlank⟩).toList) ++
              further).map (Site.mark kind.flavour)).map
                (Prod.map (Stretch.shift ((encode (lead ++ kind.write inside')).length +
                  ((encode rest).takeWhile isAsciiBlank).length)) id) := by
  obtain ⟨skipped, reaches⟩ := kind.reaches_of_mem isComment
  obtain ⟨earlier, isEarlier, isMarks⟩ :=
    exists_marks isIdentifier kind.isMark [] reaches (encode rest)
  obtain ⟨further, isFurther⟩ := exists_sites isIdentifier (encode rest)
  rw [List.length_nil] at isEarlier
  refine ⟨earlier, further, by simpa using isEarlier, fun inside' fits' => ?_⟩
  have skipped' := kind.skip?_of_fits fits fits' skipped
  have apart := kind.apart_of_skip? fits' skipped'
  have isText : encode (lead ++ kind.write inside' ++ rest) =
      encode lead ++ kind.mark :: (kind.passed (encode inside') ++ encode rest) := by
    rw [encode_append, encode_append, kind.encode_write, List.append_assoc, List.cons_append]
  have isOuter :
      (kind.mark :: kind.passed (encode inside')).reverse ++ ((encode lead).reverse ++ []) =
        (encode (kind.write inside')).reverse ++ (encode lead).reverse := by
    rw [kind.encode_write, List.append_nil]
  have isLength : ((encode (kind.write inside')).reverse ++ (encode lead).reverse).length =
      (encode (lead ++ kind.write inside')).length := by
    rw [encode_append, ← List.reverse_append, List.length_reverse]
  rw [isText, isMarks _ skipped' (by rw [List.reverse_nil, ← isText]; exact isEncoded_encode _),
    sites_of_skip skipped' (List.cons_append ..).symm, isOuter,
    isFurther _ fun nonempty => apart nonempty _, kind.isBlocked_write, isLength, mark_shift]

theorem same_or_none {blocked blocked' : Bool} {next : Option Site}
    (same : (if blocked' then [] else next.toList).length =
      (if blocked then [] else next.toList).length) : blocked' = blocked ∨ next = none := by
  cases next with
  | none => exact .inr rfl
  | some site =>
      left
      cases blocked with
      | false =>
          cases blocked' with
          | false => rfl
          | true => contradiction
      | true =>
          cases blocked' with
          | false => contradiction
          | true => rfl

/-- The calls of a text do not depend on what a comment says, but for one: where the last word or
point of the comment blocks a call, none is rewritten that follows the comment and blank bytes. -/
theorem sameCalls_iff (kind : CommentKind) {name : String} (replacement lead rest : String)
    {inside inside' : String} (isIdentifier : kind.flavour.IsIdentifier (encode name))
    (fits : kind.Fits inside) (fits' : kind.Fits inside')
    (isComment : ⟨(encode lead).length, encode (kind.write inside)⟩ ∈
      lexemes kind.flavour 0 (encode (lead ++ kind.write inside ++ rest))) :
    SameCalls kind.flavour name replacement (encode (lead ++ kind.write inside)).length
        (encode (lead ++ kind.write inside')).length (lead ++ kind.write inside ++ rest)
        (lead ++ kind.write inside' ++ rest) ↔
      isBlocked kind.flavour (encode (inside' ++ kind.closing)).reverse =
          isBlocked kind.flavour (encode (inside ++ kind.closing)).reverse ∨
        site? kind.flavour (encode name) ⟨[], (encode rest).dropWhile isAsciiBlank⟩ = none := by
  obtain ⟨earlier, further, isEarlier, isMarks⟩ :=
    exists_marks_around kind isIdentifier fits isComment
  have before := isMarks inside fits
  have after := isMarks inside' fits'
  constructor
  · intro sameCalls
    have sameLength := sameCalls.length isIdentifier
    rw [← List.length_map (Site.mark kind.flavour), after,
      ← List.length_map (Site.mark kind.flavour), before] at sameLength
    simp only [List.length_append, List.length_map, Nat.add_left_cancel_iff,
      Nat.add_right_cancel_iff] at sameLength
    exact same_or_none sameLength
  · intro harmless
    have same : (if isBlocked kind.flavour (encode (inside' ++ kind.closing)).reverse then []
          else (site? kind.flavour (encode name)
            ⟨[], (encode rest).dropWhile isAsciiBlank⟩).toList) =
        if isBlocked kind.flavour (encode (inside ++ kind.closing)).reverse then []
          else (site? kind.flavour (encode name)
            ⟨[], (encode rest).dropWhile isAsciiBlank⟩).toList := by
      rcases harmless with sameBlocked | noSite
      · rw [sameBlocked]
      · rw [noSite]
        simp
    rw [same] at after
    refine sameCalls_of_marks isIdentifier (fun marked member => ?_) before after
    have within := isEarlier marked member
    rw [encode_append, List.length_append]
    omega

/-- The marks at the end of a block stand between its words and a call. -/
theorem sameCalls_iff_block :
    CommentKind.block.flavour.IsIdentifier (encode "prompt") ∧ CommentKind.block.Fits " let " ∧
      CommentKind.block.Fits " await " ∧
      ⟨(encode "f()").length, encode (CommentKind.block.write " let ")⟩ ∈
        lexemes .javaScript 0 (encode ("f()" ++ CommentKind.block.write " let " ++ "prompt()")) ∧
      SameCalls .javaScript "prompt" "__runnrPrompt"
        (encode ("f()" ++ CommentKind.block.write " let ")).length
        (encode ("f()" ++ CommentKind.block.write " await ")).length
        ("f()" ++ CommentKind.block.write " let " ++ "prompt()")
        ("f()" ++ CommentKind.block.write " await " ++ "prompt()") := by
  have isIdentifier : CommentKind.block.flavour.IsIdentifier (encode "prompt") := by
    decide +kernel
  have fits : ¬ encode "*/" <:+: encode " let " := by decide
  have fits' : ¬ encode "*/" <:+: encode " await " := by decide
  have isComment : ⟨(encode "f()").length, encode (CommentKind.block.write " let ")⟩ ∈
      lexemes CommentKind.block.flavour 0
        (encode ("f()" ++ CommentKind.block.write " let " ++ "prompt()")) := by
    decide +kernel
  exact ⟨isIdentifier, fits, fits', isComment,
    (sameCalls_iff .block "__runnrPrompt" "f()" "prompt()" isIdentifier fits fits' isComment).mpr
      (.inl (by decide +kernel))⟩

/-- The last word of a comment on a line keeps a call on the next line from being rewritten. -/
theorem not_sameCalls_of_word :
    CommentKind.hash.Fits " x" ∧ CommentKind.hash.Fits " def" ∧
      ⟨0, encode "# x"⟩ ∈ lexemes .python 0 (encode "# x\ninput()") ∧
      ⟨0, encode "# def"⟩ ∈ lexemes .python 0 (encode "# def\ninput()") ∧
      (rewriteCalls .python "input" "async_input" "# x\ninput()").code =
        "# x\nawait async_input()" ∧
      (rewriteCalls .python "input" "async_input" "# def\ninput()").code = "# def\ninput()" ∧
      ¬ SameCalls .python "input" "async_input" 3 5 "# x\ninput()" "# def\ninput()" := by
  have fits : lineFeed ∉ encode " x" := by decide
  have fits' : lineFeed ∉ encode " def" := by decide
  refine ⟨fits, fits', by decide +kernel, by decide +kernel, by decide +kernel, by decide +kernel,
    fun sameCalls => ?_⟩
  exact absurd sameCalls.expressionCalls (by decide +kernel)

end Around

end Polyglot.Scan
