import Polyglot.Proofs.Scan.Cursor.Calling
import Polyglot.Proofs.Scan.Splicing

/-!
# Rewriting by places

Calls are rewritten in one go over the places of a text.  What is before a call is copied when its
arguments are known, and what is behind the last call at the end.
-/

namespace Polyglot.Scan.Cursor

open Text

/-- A text that is being written. -/
structure Draft where
  code : Bytes := []
  literalCalls : Nat := 0
  expressionCalls : Nat := 0
  deriving Repr, DecidableEq

/-- How far a text is rewritten. -/
structure Progress extends Draft where
  place : Nat := 0
  /-- The place up to which the text was copied. -/
  copied : Nat := 0
  deriving Repr, DecidableEq

/-- The arguments of a call, rewritten unless they are one literal; arguments are shorter than the
text they stand in. -/
def argumentsAt (flavour : Flavour) (bytes inside : Bytes)
    (nested : (inside : Bytes) → inside.length < bytes.length → Except Fault Draft) :
    Except Fault Draft := do
  if ← isSingleLiteralAt flavour inside then return ⟨inside, 1, 0⟩
  else if shorter : inside.length < bytes.length then
    let draft ← nested inside shorter
    return { draft with expressionCalls := draft.expressionCalls + 1 }
  else .error .stuck

/-- Rewrites the call between two parentheses. -/
def callStep (flavour : Flavour) (replacement bytes : Bytes)
    (nested : (inside : Bytes) → inside.length < bytes.length → Except Fault Draft)
    (progress : Progress) (opening closing : Nat) : Except Fault (Step Progress Draft) :=
  if progress.copied ≤ progress.place ∧ progress.place ≤ opening ∧ opening < closing ∧
      closing < bytes.length then do
    let inside ← textBetween bytes (opening + 1) closing
    let arguments ← argumentsAt flavour bytes inside nested
    let passed ← textBetween bytes progress.copied progress.place
    return .goOn {
      code := progress.code ++ passed ++ encode "await " ++ replacement ++ [ascii '('] ++
        arguments.code ++ [ascii ')']
      literalCalls := progress.literalCalls + arguments.literalCalls
      expressionCalls := progress.expressionCalls + arguments.expressionCalls
      place := closing + 1
      copied := closing + 1 }
  else .error .disordered

/-- A step of rewriting. -/
def rewriteStep (flavour : Flavour) (name replacement bytes : Bytes)
    (nested : (inside : Bytes) → inside.length < bytes.length → Except Fault Draft)
    (progress : Progress) : Except Fault (Step Progress Draft) := do
  match ← skipAt flavour bytes progress.place with
  | some after => return .goOn { progress with place := after }
  | none =>
    match ← callSiteAt flavour name bytes progress.place with
    | none => return .goOn { progress with place := progress.place + 1 }
    | some opening =>
      match ← closingAt flavour bytes opening with
      | none => return .goOn { progress with place := progress.place + name.length }
      | some closing => callStep flavour replacement bytes nested progress opening closing

/-- What is behind the last call is copied. -/
def copyLast (bytes : Bytes) (progress : Progress) : Except Fault Draft := do
  let last ← textBetween bytes progress.copied bytes.length
  return { progress.toDraft with code := progress.code ++ last }

/-- Rewrites the bare calls of `name` in a text. -/
def rewriteAt (flavour : Flavour) (name replacement bytes : Bytes) : Except Fault Draft :=
  loop bytes Progress.place
    (rewriteStep flavour name replacement bytes fun inside _shorter =>
      rewriteAt flavour name replacement inside)
    (copyLast bytes) {}
termination_by bytes.length

/-- Turns every bare call of `name` into an awaited call of `replacement`, by places. -/
def rewriteCallsAt (flavour : Flavour) (name replacement code : String) :
    Except Fault Rewriting := do
  let draft ← rewriteAt flavour (encode name) (encode replacement) (encode code)
  return ⟨decode draft.code, draft.literalCalls, draft.expressionCalls⟩

variable {flavour : Flavour} {name replacement before bytes rest after inside : Bytes}
  {byte : UInt8} {place : Nat} {callee : Callee} {found : Arguments}

/-! ## Cutting step by step -/

section Cutting

theorem segments_of_skip {passed : Bytes} (skipped : skip? flavour byte rest = some after)
    (cut : byte :: rest = passed ++ after) :
    segments flavour name before (byte :: rest) =
      .kept passed :: segments flavour name (passed.reverse ++ before) after := by
  rw [segments.eq_def]
  dsimp only
  split
  · rename_i other isOther
    rw [skipped] at isOther
    cases isOther
    rw [take_passed cut]
  · rename_i isNone
    rw [skipped] at isNone
    contradiction

theorem segments_of_code (isCode : skip? flavour byte rest = none)
    (uncalled : callSite? flavour name before (byte :: rest) = none) :
    segments flavour name before (byte :: rest) =
      .kept [byte] :: segments flavour name (byte :: before) rest := by
  rw [segments.eq_def]
  dsimp only
  split
  · rename_i isSome
    rw [isCode] at isSome
    contradiction
  · split
    · rfl
    · rename_i isSome
      rw [uncalled] at isSome
      contradiction

theorem segments_of_unclosed (isCode : skip? flavour byte rest = none)
    (called : callSite? flavour name before (byte :: rest) = some callee)
    (unclosed : arguments? flavour callee.inside = none) (nonempty : name ≠ [])
    (starts : byte :: rest = name ++ after) :
    segments flavour name before (byte :: rest) =
      .kept name :: segments flavour name (name.reverse ++ before) after := by
  obtain ⟨isName, isAfter⟩ := take_name nonempty starts
  rw [segments.eq_def]
  dsimp only
  split
  · rename_i isSome
    rw [isCode] at isSome
    contradiction
  · split
    · rename_i isNone
      rw [called] at isNone
      contradiction
    · rename_i other isOther
      rw [called] at isOther
      cases isOther
      split
      · rw [isName, isAfter]
      · rename_i isSome
        rw [unclosed] at isSome
        contradiction

/-- The cut of the arguments of a call. -/
def insideCut (flavour : Flavour) (name inside : Bytes) : List Segment :=
  if isSingleLiteral flavour inside then [.kept inside] else segments flavour name [] inside

theorem segments_of_call {passed : Bytes} (isCode : skip? flavour byte rest = none)
    (called : callSite? flavour name before (byte :: rest) = some callee)
    (closed : arguments? flavour callee.inside = some found)
    (cut : byte :: rest = passed ++ found.after) :
    segments flavour name before (byte :: rest) =
      .call callee.name (isSingleLiteral flavour found.inside) :: .kept [ascii '('] ::
        insideCut flavour name found.inside ++ .kept [ascii ')'] ::
          segments flavour name (passed.reverse ++ before) found.after := by
  rw [segments.eq_def]
  dsimp only
  split
  · rename_i isSome
    rw [isCode] at isSome
    contradiction
  · split
    · rename_i isNone
      rw [called] at isNone
      contradiction
    · rename_i other isOther
      rw [called] at isOther
      cases isOther
      split
      · rename_i isNone
        rw [closed] at isNone
        contradiction
      · rename_i another isAnother
        rw [closed] at isAnother
        cases isAnother
        rw [take_passed cut]
        rfl

end Cutting

/-! ## Drafts -/

section Drafts

@[simp] theorem isLiteralCall_kept (passed : Bytes) :
    (Segment.kept passed).isLiteralCall = false := rfl

@[simp] theorem isLiteralCall_call (written : Bytes) (literal : Bool) :
    (Segment.call written literal).isLiteralCall = literal := rfl

@[simp] theorem isExpressionCall_kept (passed : Bytes) :
    (Segment.kept passed).isExpressionCall = false := rfl

@[simp] theorem isExpressionCall_call (written : Bytes) (literal : Bool) :
    (Segment.call written literal).isExpressionCall = !literal := rfl

/-- The draft that a cut text stands for. -/
def Draft.ofSegments (replacement : Bytes) (cut : List Segment) : Draft where
  code := cut.flatMap (·.rewritten replacement)
  literalCalls := cut.countP (·.isLiteralCall)
  expressionCalls := cut.countP (·.isExpressionCall)

/-- The cut of a text from a place on. -/
def cutAt (flavour : Flavour) (name bytes : Bytes) (place : Nat) : List Segment :=
  segments flavour name (bytes.take place).reverse (bytes.drop place)

/-- What becomes of a text that is rewritten so far. -/
def Progress.result (flavour : Flavour) (name replacement bytes : Bytes) (progress : Progress) :
    Draft :=
  let later := Draft.ofSegments replacement (cutAt flavour name bytes progress.place)
  { code := progress.code ++ (bytes.take progress.place).drop progress.copied ++ later.code
    literalCalls := progress.literalCalls + later.literalCalls
    expressionCalls := progress.expressionCalls + later.expressionCalls }

/-- The places of a text that is rewritten so far. -/
structure Progress.IsSound (bytes : Bytes) (progress : Progress) : Prop where
  ordered : progress.copied ≤ progress.place
  inside : progress.place ≤ bytes.length
  boundary : isBoundary bytes progress.copied = true

/-- The cut from a place behind is that of what is left. -/
theorem cutAt_add {passed : Bytes} (here : bytes.drop place = passed ++ after) :
    cutAt flavour name bytes (place + passed.length) =
      segments flavour name (passed.reverse ++ (bytes.take place).reverse) after := by
  rw [cutAt, ← List.drop_drop, List.take_add, here, List.drop_left, List.take_left,
    List.reverse_append]

theorem cutAt_of_kept {passed : Bytes} (here : bytes.drop place = passed ++ after)
    (cut : segments flavour name (bytes.take place).reverse (bytes.drop place) =
      .kept passed :: segments flavour name (passed.reverse ++ (bytes.take place).reverse) after) :
    cutAt flavour name bytes place =
      .kept passed :: cutAt flavour name bytes (place + passed.length) := by
  rw [cutAt, cut, cutAt_add here]

theorem cutAt_of_call (here : bytes.drop place = byte :: rest)
    (isCode : skip? flavour byte rest = none)
    (called : callSite? flavour name (bytes.take place).reverse (bytes.drop place) = some callee)
    (closed : arguments? flavour callee.inside = some found) :
    cutAt flavour name bytes place =
      .call callee.name (isSingleLiteral flavour found.inside) :: .kept [ascii '('] ::
        insideCut flavour name found.inside ++ .kept [ascii ')'] ::
          cutAt flavour name bytes (place + callee.name.length + 1 + found.inside.length + 1) := by
  have cut : bytes.drop place =
      (callee.name ++ ascii '(' :: found.inside ++ [ascii ')']) ++ found.after := by
    rw [(callSite?_spec called).1, (arguments?_spec closed).1]
    simp
  have isBehind : place + callee.name.length + 1 + found.inside.length + 1 =
      place + (callee.name ++ ascii '(' :: found.inside ++ [ascii ')']).length := by
    simp only [List.length_append, List.length_cons, List.length_nil]
    omega
  rw [isBehind, cutAt_add cut, cutAt]
  rw [here] at called cut ⊢
  exact segments_of_call isCode called closed cut

/-- A step over text that is kept does not change what becomes of the text. -/
theorem result_of_kept {progress : Progress} {passed : Bytes} (sound : progress.IsSound bytes)
    (here : bytes.drop progress.place = passed ++ after)
    (cut : cutAt flavour name bytes progress.place =
      .kept passed :: cutAt flavour name bytes (progress.place + passed.length)) :
    Progress.result flavour name replacement bytes
        { progress with place := progress.place + passed.length } =
      progress.result flavour name replacement bytes := by
  have within : progress.copied ≤ (bytes.take progress.place).length := by
    rw [List.length_take]
    have ordered := sound.ordered
    have inside := sound.inside
    omega
  have isPassed : (bytes.take (progress.place + passed.length)).drop progress.copied =
      (bytes.take progress.place).drop progress.copied ++ passed := by
    rw [List.take_add, here, List.take_left, List.drop_append_of_le_length within]
  simp only [Progress.result, cut, isPassed, Draft.ofSegments, List.flatMap_cons,
    Segment.rewritten, List.countP_cons, isLiteralCall_kept, isExpressionCall_kept,
    List.append_assoc, Bool.false_eq_true, if_false, Nat.add_zero]

end Drafts

/-! ## Steps -/

section Steps

variable {nested : (inside : Bytes) → inside.length < bytes.length → Except Fault Draft}
  {progress : Progress}

/-- A step over text that is kept leads to the result. -/
theorem leads_kept {passed : Bytes} (sound : progress.IsSound bytes) (nonempty : passed ≠ [])
    (here : bytes.drop progress.place = passed ++ after)
    (cut : segments flavour name (bytes.take progress.place).reverse
        (bytes.drop progress.place) =
      .kept passed ::
        segments flavour name (passed.reverse ++ (bytes.take progress.place).reverse) after)
    {next : Nat} (isNext : next = progress.place + passed.length) :
    Leads Progress.place (Progress.IsSound bytes)
      (Progress.result flavour name replacement bytes) progress
      (.ok (.goOn { progress with place := next })) := by
  have some := List.length_pos_iff.mpr nonempty
  have fits := length_add_le_of_drop nonempty here
  have ordered := sound.ordered
  subst isNext
  refine .goOn (Nat.lt_add_of_pos_right some) ⟨?_, fits, sound.boundary⟩
    (result_of_kept sound here (cutAt_of_kept here cut))
  exact Nat.le_trans ordered (Nat.le_add_right ..)

/-- Arguments are rewritten without a fault if the texts inside of a text are. -/
theorem argumentsAt_eq
    (nests : ∀ inside shorter, IsEncoded inside → nested inside shorter =
      .ok (.ofSegments replacement (segments flavour name [] inside)))
    (isEncoded : IsEncoded inside) (shorter : inside.length < bytes.length) (written : Bytes) :
    argumentsAt flavour bytes inside nested =
      .ok { Draft.ofSegments replacement (.call written (isSingleLiteral flavour inside) ::
          insideCut flavour name inside) with
        code := (insideCut flavour name inside).flatMap (·.rewritten replacement) } := by
  rw [argumentsAt, isSingleLiteralAt_eq, ok_bind, insideCut]
  cases isSingleLiteral flavour inside with
  | true =>
      simp [Draft.ofSegments, Segment.rewritten, List.countP_cons]
  | false =>
      rw [if_neg Bool.false_ne_true, dif_pos shorter, nests inside shorter isEncoded, ok_bind]
      simp [Draft.ofSegments]

/-- Where the parts of a call stand: its bounds are in order, and text may be cut at each. -/
structure CallPlaces (bytes : Bytes) (place opening closing : Nat) (found : Arguments) : Prop where
  hereOpening : bytes.drop opening = ascii '(' :: (found.inside ++ ascii ')' :: found.after)
  hereClosing : bytes.drop closing = ascii ')' :: found.after
  behindName : place ≤ opening
  isClosing : closing = opening + 1 + found.inside.length
  atName : isBoundary bytes place = true
  atInside : isBoundary bytes (opening + 1) = true
  atClosing : isBoundary bytes closing = true
  atAfter : isBoundary bytes (closing + 1) = true

theorem callPlaces (isEncoded : IsEncoded bytes) (isName : IsEncoded name) (nonempty : name ≠ [])
    (called : callSite? flavour name before (bytes.drop place) = some callee)
    (closed : arguments? flavour callee.inside = some found) :
    CallPlaces bytes place (place + callee.name.length)
      (place + callee.name.length + 1 + found.inside.length) found := by
  obtain ⟨isHere, gap, isCallee, -⟩ := callSite?_spec called
  have isInside := (arguments?_spec closed).1
  have hereOpening : bytes.drop (place + callee.name.length) =
      ascii '(' :: (found.inside ++ ascii ')' :: found.after) := by
    rw [← List.drop_drop, isHere, List.drop_left, isInside]
  have hereInside := drop_succ hereOpening
  have hereClosing : bytes.drop (place + callee.name.length + 1 + found.inside.length) =
      ascii ')' :: found.after := by
    rw [← List.drop_drop, hereInside, List.drop_left]
  have atName : isBoundary bytes place = true := by
    cases name with
    | nil => contradiction
    | cons byte name =>
        rw [isCallee, List.append_assoc, List.cons_append] at isHere
        exact isBoundary_of_byte isHere (isContinuation_of_isEncoded isName)
  exact {
    hereOpening, hereClosing, atName
    behindName := Nat.le_add_right ..
    isClosing := rfl
    atInside := isBoundary_succ isEncoded hereOpening (by decide)
    atClosing := isBoundary_of_byte hereClosing (by decide)
    atAfter := isBoundary_succ isEncoded hereClosing (by decide) }

/-- A step over a call leads to the result. -/
theorem leads_call (isEncoded : IsEncoded bytes)
    (nests : ∀ inside shorter, IsEncoded inside → nested inside shorter =
      .ok (.ofSegments replacement (segments flavour name [] inside)))
    (sound : progress.IsSound bytes) {opening closing : Nat}
    (places : CallPlaces bytes progress.place opening closing found) {written : Bytes}
    (cut : cutAt flavour name bytes progress.place =
      .call written (isSingleLiteral flavour found.inside) :: .kept [ascii '('] ::
        insideCut flavour name found.inside ++ .kept [ascii ')'] ::
          cutAt flavour name bytes (closing + 1)) :
    Leads Progress.place (Progress.IsSound bytes)
      (Progress.result flavour name replacement bytes) progress
      (callStep flavour replacement bytes nested progress opening closing) := by
  have within := lt_of_drop_eq_cons places.hereClosing
  obtain ⟨hereOpening, hereClosing, behindName, rfl, atName, atInside, atClosing, atAfter⟩ := places
  have ordered : opening + 1 ≤ opening + 1 + found.inside.length := Nat.le_add_right ..
  have shorter : found.inside.length < bytes.length := by omega
  have isInside := drop_take_of_drop (drop_succ hereOpening)
  have encoded := isEncoded_between isEncoded atInside atClosing ordered (Nat.le_of_lt within)
  rw [isInside] at encoded
  have isOrdered : progress.copied ≤ progress.place ∧ progress.place ≤ opening ∧
      opening < opening + 1 + found.inside.length ∧
      opening + 1 + found.inside.length < bytes.length :=
    ⟨sound.ordered, behindName, ordered, within⟩
  rw [callStep, if_pos isOrdered,
    textBetween_eq atInside atClosing ordered (Nat.le_of_lt within), isInside, ok_bind,
    argumentsAt_eq nests encoded shorter written, ok_bind,
    textBetween_eq sound.boundary atName sound.ordered sound.inside, ok_bind]
  refine .goOn (by dsimp only; omega) ⟨Nat.le_refl _, within, atAfter⟩ ?_
  have nothing : (bytes.take (opening + 1 + found.inside.length + 1)).drop
      (opening + 1 + found.inside.length + 1) = [] :=
    List.drop_eq_nil_of_le (List.length_take_le ..)
  simp only [Progress.result, cut, nothing, Draft.ofSegments, List.flatMap_cons,
    List.flatMap_append, Segment.rewritten, List.countP_cons, List.countP_append,
    isLiteralCall_kept, isLiteralCall_call, isExpressionCall_kept, isExpressionCall_call,
    List.append_nil, List.append_assoc, List.cons_append, Bool.false_eq_true, if_false,
    List.nil_append, Draft.mk.injEq, true_and]
  omega

/-- Every step leads to the result: it passes a literal, a comment, a byte, a name that is not
called or a whole call. -/
theorem leads_rewriteStep (isEncoded : IsEncoded bytes) (isName : IsEncoded name)
    (nonempty : name ≠ [])
    (nests : ∀ inside shorter, IsEncoded inside → nested inside shorter =
      .ok (.ofSegments replacement (segments flavour name [] inside)))
    (sound : progress.IsSound bytes) (inside : progress.place < bytes.length) :
    Leads Progress.place (Progress.IsSound bytes)
      (Progress.result flavour name replacement bytes) progress
      (rewriteStep flavour name replacement bytes nested progress) := by
  obtain ⟨byte, here⟩ := exists_here inside
  rw [rewriteStep, skipAt_eq here, ok_bind]
  cases skipped : skip? flavour byte (bytes.drop (progress.place + 1)) with
  | some after =>
      obtain ⟨further, isAfter⟩ := further_of_skip? here skipped
      obtain ⟨passed, isPassed, -⟩ := exists_passed skipped
      have cut : byte :: bytes.drop (progress.place + 1) = (byte :: passed) ++ after := by
        rw [List.cons_append, ← isPassed]
      refine leads_kept sound (List.cons_ne_nil byte passed) (here.trans cut) ?_ ?_
      · rw [here, segments_of_skip skipped cut]
      · have whole := congrArg List.length (here.trans cut)
        rw [List.length_drop, List.length_append] at whole
        rw [placeOf]
        omega
  | none =>
      rw [Option.map_none]
      dsimp only
      rw [callSiteAt_eq sound.inside, ok_bind]
      cases called : callSite? flavour name (bytes.take progress.place).reverse
          (bytes.drop progress.place) with
      | none =>
          refine leads_kept sound (List.cons_ne_nil byte []) here ?_ rfl
          rw [here] at called ⊢
          exact segments_of_code skipped called
      | some callee =>
          obtain ⟨isHere, gap, isCallee, -⟩ := callSite?_spec called
          have hereOpening : bytes.drop (progress.place + callee.name.length) =
              ascii '(' :: callee.inside := by
            rw [← List.drop_drop, isHere, List.drop_left]
          rw [Option.map_some]
          dsimp only
          rw [closingAt_eq hereOpening, ok_bind]
          cases closed : arguments? flavour callee.inside with
          | none =>
              have starts : bytes.drop progress.place =
                  name ++ (gap ++ ascii '(' :: callee.inside) := by
                rw [isHere, isCallee, List.append_assoc]
              refine leads_kept sound nonempty starts ?_ rfl
              rw [here] at starts called ⊢
              exact segments_of_unclosed skipped called closed nonempty starts
          | some found =>
              have places := callPlaces isEncoded isName nonempty called closed
              have cut := cutAt_of_call here skipped called closed
              exact leads_call isEncoded nests sound places cut

end Steps

/-! ## Texts -/

/-- A text is rewritten without a fault. -/
theorem rewriteAt_eq (flavour : Flavour) (replacement : Bytes) (isName : IsEncoded name)
    (nonempty : name ≠ []) (isEncoded : IsEncoded bytes) :
    rewriteAt flavour name replacement bytes =
      .ok (.ofSegments replacement (segments flavour name [] bytes)) := by
  induction size : bytes.length using Nat.strongRecOn generalizing bytes with
  | ind size ih =>
      have nests (inside : Bytes) (shorter : inside.length < bytes.length)
          (isInside : IsEncoded inside) : rewriteAt flavour name replacement inside =
            .ok (.ofSegments replacement (segments flavour name [] inside)) :=
        ih inside.length (size ▸ shorter) isInside rfl
      have isWhole : Draft.ofSegments replacement (segments flavour name [] bytes) =
          Progress.result flavour name replacement bytes {} := by
        simp [Progress.result, cutAt, Draft.ofSegments]
      rw [rewriteAt, isWhole]
      refine loop_eq (Progress.IsSound bytes) (Progress.result flavour name replacement bytes)
        ?_ ?_ ⟨Nat.le_refl 0, Nat.zero_le _, isBoundary_zero bytes⟩
      · intro progress sound atEnd
        have isEnd : progress.place = bytes.length := Nat.le_antisymm sound.inside atEnd
        have isNothing : cutAt flavour name bytes bytes.length = [] := by
          rw [cutAt, List.drop_length, segments]
        rw [copyLast, textBetween_eq sound.boundary (isBoundary_length bytes)
          (isEnd ▸ sound.ordered) (Nat.le_refl _), ok_bind, Progress.result, isEnd, isNothing]
        simp [Draft.ofSegments]
      · intro progress sound inside
        exact leads_rewriteStep isEncoded isName nonempty nests sound inside

/-- Rewriting by places is rewriting. -/
theorem rewriteCallsAt_eq (flavour : Flavour) {name : String} (named : name ≠ "")
    (replacement code : String) :
    rewriteCallsAt flavour name replacement code =
      .ok (rewriteCalls flavour name replacement code) := by
  have nonempty : encode name ≠ [] := by
    intro isEmpty
    apply named
    rw [← decode_encode name, isEmpty]
    rfl
  rw [rewriteCallsAt, rewriteAt_eq flavour (encode replacement) (isEncoded_encode name) nonempty
    (isEncoded_encode code)]
  rfl

end Polyglot.Scan.Cursor
