import Polyglot.Proofs.Scan.Literal

/-!
# Rewriting is splicing

Rewriting cuts the argument of a call out and rewrites it as a text of its own.  All the same, it
is one pass over the text: the stretches of the sites are replaced where they stand, and every
other byte is kept.
-/

namespace Polyglot.Scan

open Text

/-- A text, of which `position` bytes are passed, with `value` in place of the given stretches. -/
def splice (value : Bytes) : (position : Nat) → List Stretch → Bytes → Bytes
  | _, [], text => text
  | position, stretch :: later, text =>
    text.take (stretch.start - position) ++ value ++
      splice value stretch.stop later (text.drop (stretch.stop - position))

/-- A stretch some bytes further on. -/
def Stretch.shift (bytes : Nat) (stretch : Stretch) : Stretch :=
  ⟨stretch.start + bytes, stretch.stop + bytes⟩

/-- The stretch of a site, and whether its argument is one literal. -/
def Site.mark (flavour : Flavour) (site : Site) : Stretch × Bool :=
  (site.toStretch, isSingleLiteral flavour site.argument)

namespace Segment

/-- The calls of a cut text, of which `position` bytes are passed: the stretch of each, and
whether its argument is one literal. -/
def calls : (position : Nat) → List Segment → List (Stretch × Bool)
  | _, [] => []
  | position, kept bytes :: cut => calls (position + bytes.length) cut
  | position, call name literal :: cut =>
    (⟨position, position + name.length⟩, literal) :: calls (position + name.length) cut

end Segment

variable {flavour : Flavour} {name before here value : Bytes}

/-! ## Cut texts -/

section Cut

variable {cut : List Segment} {position : Nat}

theorem calls_append (position : Nat) (first second : List Segment) :
    Segment.calls position (first ++ second) =
      Segment.calls position first ++
        Segment.calls (position + (first.flatMap (·.source)).length) second := by
  induction first generalizing position with
  | nil => rfl
  | cons segment first ih =>
      cases segment with
      | kept bytes =>
          simp only [List.cons_append, Segment.calls, ih, List.flatMap_cons, Segment.source,
            List.length_append, Nat.add_assoc]
      | call name literal =>
          simp only [List.cons_append, Segment.calls, ih, List.flatMap_cons, Segment.source,
            List.length_append, Nat.add_assoc]

theorem calls_shift (bytes position : Nat) (cut : List Segment) :
    Segment.calls (position + bytes) cut =
      (Segment.calls position cut).map (Prod.map (Stretch.shift bytes) id) := by
  induction cut generalizing position with
  | nil => rfl
  | cons segment cut ih =>
      cases segment with
      | kept passed =>
          rw [Segment.calls, Segment.calls, Nat.add_right_comm, ih]
      | call name literal =>
          rw [Segment.calls, Segment.calls, Nat.add_right_comm, ih, List.map_cons]
          rfl

theorem start_of_mem_calls {call : Stretch × Bool} (member : call ∈ Segment.calls position cut) :
    position ≤ call.1.start ∧ call.1.start ≤ call.1.stop := by
  induction cut generalizing position with
  | nil => simp [Segment.calls] at member
  | cons segment cut ih =>
      cases segment with
      | kept passed =>
          have further := ih member
          omega
      | call name literal =>
          rcases List.mem_cons.mp member with rfl | inCut
          · exact ⟨Nat.le_refl _, Nat.le_add_right ..⟩
          · have further := ih inCut
            omega

theorem pairwise_calls (position : Nat) (cut : List Segment) :
    (Segment.calls position cut).Pairwise fun first second => first.1.stop ≤ second.1.start := by
  induction cut generalizing position with
  | nil => exact .nil
  | cons segment cut ih =>
      cases segment with
      | kept passed => exact ih _
      | call name literal =>
          exact .cons (fun call member => (start_of_mem_calls member).1) (ih _)

/-- Bytes before all stretches are kept. -/
theorem splice_append (position : Nat) {stretches : List Stretch} (passed text : Bytes)
    (further : ∀ stretch ∈ stretches,
      position + passed.length ≤ stretch.start ∧ stretch.start ≤ stretch.stop) :
    splice value position stretches (passed ++ text) =
      passed ++ splice value (position + passed.length) stretches text := by
  cases stretches with
  | nil => rfl
  | cons stretch later =>
      obtain ⟨isStart, isStop⟩ := further stretch List.mem_cons_self
      have toStart : stretch.start - position =
          passed.length + (stretch.start - (position + passed.length)) := by omega
      have toStop : stretch.stop - position =
          passed.length + (stretch.stop - (position + passed.length)) := by omega
      rw [splice, splice, toStart, toStop, List.take_length_add_append,
        List.drop_length_add_append, List.append_assoc, List.append_assoc, List.append_assoc]

/-- A rewritten text is the text with the stretches of its calls replaced. -/
theorem flatMap_rewritten (replacement : Bytes) (position : Nat) (cut : List Segment) :
    cut.flatMap (·.rewritten replacement) =
      splice (encode "await " ++ replacement) position
        ((Segment.calls position cut).map Prod.fst) (cut.flatMap (·.source)) := by
  induction cut generalizing position with
  | nil => rfl
  | cons segment cut ih =>
      rw [List.flatMap_cons, List.flatMap_cons]
      cases segment with
      | kept passed =>
          rw [Segment.calls, Segment.source, splice_append, ← ih, Segment.rewritten]
          intro stretch member
          obtain ⟨call, inCut, rfl⟩ := List.mem_map.mp member
          exact start_of_mem_calls inCut
      | call name literal =>
          rw [Segment.calls, List.map_cons, splice, Segment.source, Segment.rewritten,
            Nat.sub_self, List.take_zero, List.nil_append, Nat.add_sub_cancel_left,
            List.drop_left, ← ih]

/-- The calls of one kind are those that are marked so. -/
theorem countP_calls {isCall : Segment → Bool} (isMarked : Bool → Bool)
    (kept : ∀ bytes, isCall (.kept bytes) = false)
    (call : ∀ name literal, isCall (.call name literal) = isMarked literal) (position : Nat)
    (cut : List Segment) :
    cut.countP isCall = (Segment.calls position cut).countP (isMarked ·.2) := by
  induction cut generalizing position with
  | nil => rfl
  | cons segment cut ih =>
      cases segment with
      | kept passed =>
          rw [Segment.calls, List.countP_cons_of_neg (by simp [kept]), ih]
      | call name literal =>
          rw [Segment.calls, List.countP_cons, List.countP_cons, ih (position + name.length), call]

theorem countP_isLiteralCall (position : Nat) (cut : List Segment) :
    cut.countP (·.isLiteralCall) = (Segment.calls position cut).countP (·.2) :=
  countP_calls id (fun _ => rfl) (fun _ _ => rfl) position cut

theorem countP_isExpressionCall (position : Nat) (cut : List Segment) :
    cut.countP (·.isExpressionCall) = (Segment.calls position cut).countP (!·.2) :=
  countP_calls not (fun _ => rfl) (fun _ _ => rfl) position cut

end Cut

/-! ## Cutting -/

section Cutting

/-- Where a bare call stands, the name is what the text begins with. -/
theorem take_name (nonempty : name ≠ []) {byte : UInt8} {rest after : Bytes}
    (starts : byte :: rest = name ++ after) :
    byte :: rest.take (name.length - 1) = name ∧ rest.drop (name.length - 1) = after := by
  cases name with
  | nil => contradiction
  | cons first name =>
      obtain ⟨rfl, rfl⟩ := List.cons.inj starts
      simp

/-- Cutting a text loses nothing. -/
theorem flatMap_source_segments (flavour : Flavour) (name before here : Bytes) :
    (segments flavour name before here).flatMap (·.source) = here := by
  fun_induction segments flavour name before here with
  | case1 => rfl
  | case2 before byte rest after skipped passed ih =>
      obtain ⟨first, isCut⟩ := (skip?_suffix skipped).trans (List.suffix_cons byte rest)
      rw [List.flatMap_cons, ih, Segment.source]
      exact (congrArg (· ++ after) (take_passed isCut.symm)).trans isCut
  | case3 before byte rest isCode uncalled ih =>
      rw [List.flatMap_cons, ih]
      rfl
  | case4 before byte rest isCode callee called unclosed written ih =>
      rw [List.flatMap_cons, ih, Segment.source]
      simp [written]
  | case5 before byte rest isCode callee called found closed literal inside passed ih₁ ih₂ =>
      have isHere := (callSite?_spec called).1
      have isInside := (arguments?_spec closed).1
      have sourceInside : inside.flatMap (·.source) = found.inside := by
        simp only [inside]
        split
        · simp [Segment.source]
        · exact ih₁
      rw [List.cons_append, List.cons_append, List.flatMap_cons, List.flatMap_cons,
        List.flatMap_append, List.flatMap_cons, sourceInside, ih₂, isHere, isInside]
      simp [Segment.source]

theorem mark_shift (flavour : Flavour) (bytes : Nat) (marked : List Site) :
    (marked.map (Site.shift bytes)).map (Site.mark flavour) =
      (marked.map (Site.mark flavour)).map (Prod.map (Stretch.shift bytes) id) := by
  simp only [List.map_map, Function.comp_def, Site.mark, Site.shift, Stretch.shift,
    Prod.map_apply, id_eq]

/-- A call that is never closed is no site, and the scan goes on after its name. -/
theorem sites_of_unclosed (isIdentifier : flavour.IsIdentifier name) {byte : UInt8}
    {rest : Bytes} {callee : Callee}
    (called : callSite? flavour name before (byte :: rest) = some callee)
    (unclosed : arguments? flavour callee.inside = none) :
    byte :: rest.take (name.length - 1) = name ∧
      sites flavour name before (byte :: rest) =
        sites flavour name (name.reverse ++ before) (rest.drop (name.length - 1)) := by
  obtain ⟨isHere, gap, isName, -⟩ := callSite?_spec called
  rw [isName, List.append_assoc] at isHere
  obtain ⟨isFirst, isRest⟩ := take_name isIdentifier.1 isHere
  have noSite : site? flavour name ⟨before, byte :: rest⟩ = none := by
    rw [site?, called, Option.bind_some, unclosed, Option.map_none]
  refine ⟨isFirst, ?_⟩
  rw [isHere] at noSite ⊢
  rw [isRest, sites_of_name isIdentifier, noSite, Option.toList_none, List.nil_append]

/-- The calls that a text is cut at are its sites. -/
theorem calls_segments (isIdentifier : flavour.IsIdentifier name)
    (isEncoded : IsEncoded (before.reverse ++ here)) :
    Segment.calls before.length (segments flavour name before here) =
      (sites flavour name before here).map (Site.mark flavour) := by
  fun_induction segments flavour name before here with
  | case1 => simp [Segment.calls]
  | case2 before byte rest after skipped passed ih =>
      obtain ⟨first, isCut⟩ := (skip?_suffix skipped).trans (List.suffix_cons byte rest)
      obtain rfl : passed = first := take_passed isCut.symm
      have later := ih (by simpa [← isCut] using isEncoded)
      rw [List.length_append, List.length_reverse, Nat.add_comm] at later
      rw [Segment.calls, later, sites_of_skip skipped isCut.symm]
  | case3 before byte rest isCode uncalled ih =>
      have later := ih (by simpa using isEncoded)
      rw [Segment.calls, sites_of_code isCode, site?_eq_none uncalled]
      exact later
  | case4 before byte rest isCode callee called unclosed written ih =>
      obtain ⟨isWritten, sameSites⟩ := sites_of_unclosed isIdentifier called unclosed
      have isWritten : written = name := isWritten
      have isHere : written ++ rest.drop (name.length - 1) = byte :: rest := by simp [written]
      have later := ih (by simpa [isHere] using isEncoded)
      rw [List.length_append, List.length_reverse, Nat.add_comm] at later
      rw [Segment.calls, later, sameSites, isWritten]
  | case5 before byte rest isCode callee called found closed literal inside passed ih₁ ih₂ =>
      have isHere := (callSite?_spec called).1
      have isInside := (arguments?_spec closed).1
      rw [isInside] at isHere
      have isPassed : passed = callee.name ++ ascii '(' :: found.inside ++ [ascii ')'] :=
        take_passed (by simp [isHere])
      rw [isHere] at isEncoded
      have encodedInside : IsEncoded found.inside := by
        rw [← List.append_assoc] at isEncoded
        exact ((isEncoded.cut (by decide)).2.cut (by decide)).1
      have sourceInside : inside.flatMap (·.source) = found.inside := by
        simp only [inside]
        split
        · simp [Segment.source]
        · exact flatMap_source_segments ..
      have callsInside : Segment.calls 0 inside =
          (sites flavour name [] found.inside).map (Site.mark flavour) := by
        simp only [inside]
        split
        · rename_i isLiteral
          rw [sites_of_isQuotedLiteral isIdentifier (.of_isSingleLiteral encodedInside isLiteral)]
          rfl
        · exact ih₁ encodedInside
      have callsWithin (bytes : Nat) : Segment.calls bytes inside =
          ((sites flavour name [] found.inside).map (Site.shift bytes)).map
            (Site.mark flavour) := by
        rw [mark_shift, ← callsInside, ← calls_shift, Nat.zero_add]
      have isBefore : passed.reverse ++ before =
          ascii ')' :: found.inside.reverse ++ ascii '(' :: callee.name.reverse ++ before := by
        simp [isPassed]
      have later := ih₂ (by simpa [isPassed] using isEncoded)
      have position : before.length + callee.name.length + 1 + found.inside.length + 1 =
          (passed.reverse ++ before).length := by
        simp only [isPassed, List.length_append, List.length_reverse, List.length_cons,
          List.length_nil]
        omega
      rw [sites_of_closed isIdentifier called closed, ← isBefore, List.map_append, List.map_cons,
        ← callsWithin, ← later, ← position, List.cons_append, List.cons_append, Segment.calls,
        Segment.calls, calls_append, sourceInside, Segment.calls, List.length_singleton,
        List.length_singleton, Site.mark, List.cons_append]

end Cutting

/-! ## Bytes of texts -/

section Encoded

variable {cut : List Segment}

/-- The names that are replaced are ASCII. -/
theorem ascii_of_call_mem (isIdentifier : flavour.IsIdentifier name) {written : Bytes}
    {literal : Bool} (member : .call written literal ∈ segments flavour name before here) :
    written ≠ [] ∧ ∀ byte ∈ written, byte.toNat < 0x80 := by
  fun_induction segments flavour name before here with
  | case1 => simp at member
  | case2 before byte rest after skipped passed ih => exact ih (by simpa using member)
  | case3 before byte rest isCode uncalled ih => exact ih (by simpa using member)
  | case4 before byte rest isCode callee called unclosed written ih =>
      exact ih (by simpa using member)
  | case5 before byte rest isCode callee called found closed literal inside passed ih₁ ih₂ =>
      simp only [List.cons_append, List.mem_cons, List.mem_append, Segment.call.injEq,
        reduceCtorEq, false_or] at member
      rcases member with ⟨rfl, -⟩ | inInside | inLater
      · obtain ⟨-, gap, isName, isGap⟩ := callSite?_spec called
        rw [isName]
        refine ⟨List.append_ne_nil_of_left_ne_nil isIdentifier.1 gap, fun byte inName => ?_⟩
        rcases List.mem_append.mp inName with inWord | inGap
        · exact (isIdentifier.2 byte inWord).2
        · have isByte := isGap byte inGap
          simp only [Scan.isGap, Bool.or_eq_true, decide_eq_true_eq] at isByte
          rcases isByte with rfl | rfl <;> decide
      · apply ih₁
        simp only [inside] at inInside
        split at inInside
        · simp at inInside
        · exact inInside
      · exact ih₂ inLater

/-- Replacing ASCII names leaves the bytes of a text. -/
theorem IsEncoded.rewritten {value lead : Bytes} (isValue : IsEncoded value)
    (isAscii : ∀ written literal, .call written literal ∈ cut →
      written ≠ [] ∧ ∀ byte ∈ written, byte.toNat < 0x80)
    (isEncoded : IsEncoded (lead ++ cut.flatMap (·.source))) :
    IsEncoded (lead ++ cut.flatMap (·.rewritten value)) := by
  induction cut generalizing lead with
  | nil => exact isEncoded
  | cons segment cut ih =>
      have isLater written literal member := isAscii written literal (List.mem_cons_of_mem _ member)
      rw [List.flatMap_cons] at isEncoded ⊢
      cases segment with
      | kept passed =>
          rw [← List.append_assoc] at isEncoded ⊢
          exact ih isLater isEncoded
      | call written literal =>
          obtain ⟨nonempty, isWord⟩ := isAscii written literal List.mem_cons_self
          obtain ⟨first, word, rfl⟩ := List.exists_cons_of_ne_nil nonempty
          obtain ⟨isLead, isRest⟩ := isEncoded.cut (isWord first List.mem_cons_self)
          have isRest := isRest.of_ascii_append fun byte member =>
            isWord byte (List.mem_cons_of_mem _ member)
          exact isLead.append (((isEncoded_encode _).append isValue).append
            (@ih [] isLater isRest))

end Encoded

/-! ## Rewriting -/

section Rewriting

variable {code : Bytes}

/-- The calls that a whole text is cut at are its sites. -/
theorem calls_whole (isIdentifier : flavour.IsIdentifier name) (isEncoded : IsEncoded code) :
    Segment.calls 0 (segments flavour name [] code) =
      (sites flavour name [] code).map (Site.mark flavour) :=
  @calls_segments flavour name [] code isIdentifier isEncoded

theorem ordered_sites (isIdentifier : flavour.IsIdentifier name) (isEncoded : IsEncoded code) :
    (sites flavour name [] code).Pairwise fun first second => first.stop ≤ second.start := by
  have ordered := pairwise_calls 0 (segments flavour name [] code)
  rw [calls_whole isIdentifier isEncoded, List.pairwise_map] at ordered
  exact ordered

theorem isEncoded_argument (isEncoded : IsEncoded code) {site : Site}
    (member : site ∈ sites flavour name [] code) : IsEncoded site.argument := by
  obtain ⟨place, isPlace, isSite⟩ := List.mem_filterMap.mp member
  obtain ⟨callee, called, isSite⟩ := Option.bind_eq_some_iff.mp isSite
  obtain ⟨found, closed, rfl⟩ := Option.map_eq_some_iff.mp isSite
  have sameText := (codePlaces_from isPlace).2.1
  rw [(callSite?_spec called).1, (arguments?_spec closed).1, ← List.append_assoc] at sameText
  rw [List.reverse_nil, List.nil_append] at sameText
  rw [← sameText] at isEncoded
  exact ((isEncoded.cut (by decide)).2.cut (by decide)).1

theorem encode_rewriteCalls {name : String} (isIdentifier : flavour.IsIdentifier (encode name))
    (replacement code : String) :
    encode (rewriteCalls flavour name replacement code).code =
      splice (encode "await " ++ encode replacement) 0
        ((sites flavour (encode name) [] (encode code)).map (·.toStretch)) (encode code) := by
  have source := flatMap_source_segments flavour (encode name) [] (encode code)
  have isRewritten : IsEncoded ((segments flavour (encode name) [] (encode code)).flatMap
      (·.rewritten (encode replacement))) :=
    @IsEncoded.rewritten _ _ [] (isEncoded_encode replacement)
      (fun _ _ => ascii_of_call_mem isIdentifier)
      (by rw [List.nil_append, source]; exact isEncoded_encode code)
  rw [rewriteCalls, Rewriting.ofSegments, isRewritten.encode_decode, flatMap_rewritten _ 0,
    calls_whole isIdentifier (isEncoded_encode code), List.map_map, source]
  simp only [Function.comp_def, Site.mark]

theorem literalCalls_rewriteCalls {name : String}
    (isIdentifier : flavour.IsIdentifier (encode name)) (replacement code : String) :
    (rewriteCalls flavour name replacement code).literalCalls =
      (sites flavour (encode name) [] (encode code)).countP
        (isSingleLiteral flavour ·.argument) := by
  rw [rewriteCalls, Rewriting.ofSegments, countP_isLiteralCall 0,
    calls_whole isIdentifier (isEncoded_encode code), List.countP_map]
  simp only [Function.comp_def, Site.mark]

theorem expressionCalls_rewriteCalls {name : String}
    (isIdentifier : flavour.IsIdentifier (encode name)) (replacement code : String) :
    (rewriteCalls flavour name replacement code).expressionCalls =
      (sites flavour (encode name) [] (encode code)).countP
        (!isSingleLiteral flavour ·.argument) := by
  rw [rewriteCalls, Rewriting.ofSegments, countP_isExpressionCall 0,
    calls_whole isIdentifier (isEncoded_encode code), List.countP_map]
  simp only [Function.comp_def, Site.mark]

theorem total_rewriteCalls {name : String} (isIdentifier : flavour.IsIdentifier (encode name))
    (replacement code : String) :
    (rewriteCalls flavour name replacement code).total =
      (sites flavour (encode name) [] (encode code)).length := by
  rw [Rewriting.total, literalCalls_rewriteCalls isIdentifier,
    expressionCalls_rewriteCalls isIdentifier,
    List.length_eq_countP_add_countP (isSingleLiteral flavour ·.argument)]
  simp

/-- What a text rewritten for calls of `name` is, in terms of one pass over the text. -/
structure Splices (flavour : Flavour) (name value code : Bytes) (rewriting : Rewriting) :
    Prop where
  /-- The stretches of the sites are replaced, and every other byte is kept. -/
  text : encode rewriting.code =
    splice (encode "await " ++ value) 0 ((sites flavour name [] code).map (·.toStretch)) code
  /-- The stretches stand in order and apart. -/
  ordered : (sites flavour name [] code).Pairwise fun first second => first.stop ≤ second.start
  /-- Every site is counted. -/
  total : rewriting.total = (sites flavour name [] code).length
  /-- Those whose argument is one literal are counted as such. -/
  literalCalls : rewriting.literalCalls =
    (sites flavour name [] code).countP (isSingleLiteral flavour ·.argument)
  /-- What counts as one literal. -/
  literal : ∀ site ∈ sites flavour name [] code,
    isSingleLiteral flavour site.argument = true ↔ IsQuotedLiteral flavour site.argument
  /-- Where the parenthesis of a bare call is closed, the sites are those before it, the call
  itself, those of its argument taken by itself, and those behind its closing parenthesis. -/
  closed : ∀ place ∈ codePlaces flavour [] code, ∀ callee found,
    callSite? flavour name place.before place.here = some callee →
    arguments? flavour callee.inside = some found →
    ∃ earlier later, sites flavour name [] code =
        earlier ++
          ⟨⟨place.before.length, place.before.length + callee.name.length⟩, found.inside⟩ ::
            ((sites flavour name [] found.inside).map
                (Site.shift (place.before.length + callee.name.length + 1)) ++ later) ∧
      (∀ site ∈ earlier, site.stop < place.before.length) ∧
      ∀ site ∈ later,
        place.before.length + callee.name.length + 1 + found.inside.length < site.start
  /-- Where it is not closed, the sites are those before the name and those behind the open
  parenthesis. -/
  unclosed : ∀ place ∈ codePlaces flavour [] code, ∀ callee,
    callSite? flavour name place.before place.here = some callee →
    arguments? flavour callee.inside = none →
    ∃ earlier later, sites flavour name [] code = earlier ++ later ∧
      later = sites flavour name (ascii '(' :: callee.name.reverse ++ place.before)
        callee.inside ∧
      (∀ site ∈ earlier, site.stop < place.before.length) ∧
      ∀ site ∈ later, place.before.length + callee.name.length < site.start

/-- Rewriting replaces the stretches of the sites where they stand. -/
theorem rewriteCalls_splices (flavour : Flavour) (name replacement code : String)
    (isIdentifier : flavour.IsIdentifier (encode name)) :
    Splices flavour (encode name) (encode replacement) (encode code)
      (rewriteCalls flavour name replacement code) := by
  have isCode := isEncoded_encode code
  constructor
  case text => exact encode_rewriteCalls isIdentifier replacement code
  case ordered => exact ordered_sites isIdentifier isCode
  case total => exact total_rewriteCalls isIdentifier replacement code
  case literalCalls => exact literalCalls_rewriteCalls isIdentifier replacement code
  case literal =>
    intro site member
    exact isSingleLiteral_iff (isEncoded_argument isCode member)
  case closed =>
    intro place isPlace callee found called closed
    obtain ⟨earlier, isSplit, isEarlier⟩ := sites_at_call isIdentifier isPlace called
    rw [sites_of_closed isIdentifier called closed] at isSplit
    refine ⟨earlier, _, isSplit, isEarlier, fun site member => ?_⟩
    have further := start_of_mem_sites member
    simp only [List.cons_append, List.length_cons, List.length_append,
      List.length_reverse] at further
    omega
  case unclosed =>
    intro place isPlace callee called unclosed
    obtain ⟨earlier, isSplit, isEarlier⟩ := sites_at_call isIdentifier isPlace called
    have noSite : site? flavour (encode name) place = none := by
      rw [site?, called, Option.bind_some, unclosed, Option.map_none]
    rw [sites_of_call isIdentifier called, noSite, Option.toList_none, List.nil_append] at isSplit
    refine ⟨earlier, _, isSplit, rfl, isEarlier, fun site member => ?_⟩
    have further := start_of_mem_sites member
    simp only [List.cons_append, List.length_cons, List.length_append,
      List.length_reverse] at further
    omega

/-- The first of two calls is not closed. -/
theorem rewriteCalls_splices_unclosed :
    Flavour.python.IsIdentifier (encode "input") ∧
      Splices .python (encode "input") (encode "async_input") (encode "input(input('a')")
        (rewriteCalls .python "input" "async_input" "input(input('a')") :=
  ⟨by decide +kernel, rewriteCalls_splices _ _ _ _ (by decide +kernel)⟩

example : (rewriteCalls .python "input" "async_input" "input(input('a')").code =
    "input(await async_input('a')" := by
  decide +kernel

end Rewriting

end Polyglot.Scan
