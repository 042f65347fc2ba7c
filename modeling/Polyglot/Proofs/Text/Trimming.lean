import Polyglot.Text.Blank

/-!
# Trimmed texts

Trimming leaves a text as it is when the text is empty, and when neither its first character nor
its last one is blank.  Whatever was trimmed once is trimmed.
-/

namespace Polyglot.Text

/-- Trimming leaves a text as it is. -/
def IsTrimmed (text : String) : Prop := trim text = text

instance (text : String) : Decidable (IsTrimmed text) :=
  inferInstanceAs (Decidable (trim text = text))

/-- The first character of a text is not blank. -/
def BeginsVisibly (text : String) : Prop :=
  ∃ first, text.toList.head? = some first ∧ isBlank first = false

/-- The last character of a text is not blank. -/
def EndsVisibly (text : String) : Prop :=
  ∃ last, text.toList.getLast? = some last ∧ isBlank last = false

instance (text : String) : Decidable (BeginsVisibly text) :=
  decidable_of_iff (text.toList.head?.any (!isBlank ·) = true) (by
    rw [Option.any_eq_true]
    simp [BeginsVisibly])

instance (text : String) : Decidable (EndsVisibly text) :=
  decidable_of_iff (text.toList.getLast?.any (!isBlank ·) = true) (by
    rw [Option.any_eq_true]
    simp [EndsVisibly])

theorem isBlank_of_isDigit {character : Char} (isDigit : character.isDigit = true) :
    isBlank character = false := by
  rw [Char.isDigit, Bool.and_eq_true, decide_eq_true_eq, decide_eq_true_eq] at isDigit
  have low : 48 ≤ character.toNat := isDigit.1
  have high : character.toNat ≤ 57 := isDigit.2
  rw [isBlank, List.any_eq_false]
  simp only [blankRanges, List.mem_cons, List.not_mem_nil, or_false, Bool.and_eq_true,
    decide_eq_true_eq]
  rintro ⟨first, last⟩ isRange
  simp only [Prod.mk.injEq] at isRange
  dsimp only
  omega

/-! ## What trimming leaves -/

section Trimming

variable {first last : Char} {lead inside trail : List Char}

theorem trimList_split (characters : List Char) :
    ∃ lead trail, characters = lead ++ trimList characters ++ trail ∧
      lead.all isBlank = true ∧ trail.all isBlank = true := by
  refine ⟨characters.takeWhile isBlank,
    ((characters.dropWhile isBlank).reverse.takeWhile isBlank).reverse, ?_,
    List.all_takeWhile, by rw [List.all_reverse, List.all_takeWhile]⟩
  rw [List.append_assoc, trimList, dropTrailingBlank, dropLeadingBlank, ← List.reverse_append,
    List.takeWhile_append_dropWhile, List.reverse_reverse, List.takeWhile_append_dropWhile]

/-- Trimming stops at characters that are not blank. -/
theorem trimList_append (isLead : lead.all isBlank = true) (isTrail : trail.all isBlank = true)
    (isFirst : isBlank first = false) (isLast : isBlank last = false) :
    trimList (lead ++ (first :: inside ++ [last]) ++ trail) = first :: inside ++ [last] := by
  have leading : dropLeadingBlank (lead ++ (first :: inside ++ [last]) ++ trail) =
      first :: inside ++ [last] ++ trail := by
    rw [dropLeadingBlank, List.append_assoc,
      List.dropWhile_append_of_pos (List.all_eq_true.mp isLead), List.cons_append,
      List.cons_append, List.dropWhile_cons_of_neg (by simp [isFirst])]
  rw [trimList, leading, dropTrailingBlank, List.reverse_append,
    List.dropWhile_append_of_pos (by simpa using isTrail), List.reverse_append,
    List.reverse_singleton, List.singleton_append,
    List.dropWhile_cons_of_neg (by simp [isLast]), List.reverse_cons, List.reverse_reverse]

theorem not_isBlank_of_head?_dropWhile {characters : List Char}
    (isFirst : (characters.dropWhile isBlank).head? = some first) : isBlank first = false := by
  have stops := List.head?_dropWhile_not isBlank characters
  rw [isFirst] at stops
  simpa using stops

/-- What is left of a text that was trimmed begins and ends with characters that are not blank. -/
theorem visible_trimList {characters : List Char} (isText : trimList characters ≠ []) :
    (∃ first, (trimList characters).head? = some first ∧ isBlank first = false) ∧
      ∃ last, (trimList characters).getLast? = some last ∧ isBlank last = false := by
  have isPrefix : trimList characters <+: characters.dropWhile isBlank :=
    List.reverse_suffix.mp (by
      rw [trimList, dropTrailingBlank, List.reverse_reverse]
      exact List.dropWhile_suffix isBlank)
  constructor
  · obtain ⟨first, rest, isList⟩ := List.exists_cons_of_ne_nil isText
    refine ⟨first, by rw [isList, List.head?_cons], ?_⟩
    obtain ⟨trail, whole⟩ := isPrefix
    apply not_isBlank_of_head?_dropWhile
    rw [← whole, isList, List.cons_append, List.head?_cons]
  · obtain ⟨last, isLast⟩ := Option.isSome_iff_exists.mp (List.getLast?_isSome.mpr isText)
    refine ⟨last, isLast, ?_⟩
    rw [trimList, dropTrailingBlank, List.getLast?_reverse] at isLast
    exact not_isBlank_of_head?_dropWhile isLast

end Trimming

/-! ## Trimmed texts -/

variable {text first last : String}

theorem isTrimmed_of_visible (begins : BeginsVisibly text) (ends : EndsVisibly text) :
    IsTrimmed text := by
  obtain ⟨first, isFirst, firstVisible⟩ := begins
  obtain ⟨last, isLast, lastVisible⟩ := ends
  obtain ⟨rest, isList⟩ := List.head?_eq_some_iff.mp isFirst
  obtain ⟨lead, isConcat⟩ := List.getLast?_eq_some_iff.mp isLast
  have leading : dropLeadingBlank text.toList = text.toList := by
    rw [isList, dropLeadingBlank, List.dropWhile_cons_of_neg (by simp [firstVisible])]
  have trailing : dropTrailingBlank text.toList = text.toList := by
    rw [isConcat, dropTrailingBlank, List.reverse_concat,
      List.dropWhile_cons_of_neg (by simp [lastVisible]), List.reverse_cons, List.reverse_reverse]
  rw [IsTrimmed, trim, trimList, leading, trailing, String.ofList_toList]

theorem isTrimmed_trim (text : String) : IsTrimmed (trim text) := by
  by_cases isText : trimList text.toList = []
  · rw [trim, isText]
    decide
  · obtain ⟨begins, ends⟩ := visible_trimList isText
    apply isTrimmed_of_visible
    · rwa [BeginsVisibly, trim, String.toList_ofList]
    · rwa [EndsVisibly, trim, String.toList_ofList]

/-- A text is trimmed when it is empty, and when both its ends are visible. -/
theorem isTrimmed_iff : IsTrimmed text ↔ text = "" ∨ BeginsVisibly text ∧ EndsVisibly text := by
  constructor
  · intro trimmed
    have same : trimList text.toList = text.toList := by
      rw [← String.toList_ofList (l := trimList text.toList)]
      exact congrArg String.toList trimmed
    by_cases isEmpty : text = ""
    · exact .inl isEmpty
    · have isText : trimList text.toList ≠ [] := by
        rw [same]
        exact fun none => isEmpty (String.toList_inj.mp none)
      have visible := visible_trimList isText
      rw [same] at visible
      exact .inr visible
  · rintro (rfl | ⟨begins, ends⟩)
    · decide
    · exact isTrimmed_of_visible begins ends

/-- Something is left of a text unless all of it is blank. -/
theorem endsVisibly_trim_iff : EndsVisibly (trim text) ↔ isBlankText text = false := by
  obtain ⟨lead, trail, isSplit, isLead, isTrail⟩ := trimList_split text.toList
  constructor
  · rintro ⟨last, isLast, visible⟩
    rw [trim, String.toList_ofList] at isLast
    have member : last ∈ text.toList := by
      rw [isSplit]
      exact List.mem_append_left _ (List.mem_append_right _ (List.mem_of_getLast? isLast))
    rw [isBlankText, List.all_eq_false]
    exact ⟨last, member, by simp [visible]⟩
  · intro isText
    rw [EndsVisibly, trim, String.toList_ofList]
    refine (visible_trimList fun none => ?_).2
    rw [none, List.append_nil] at isSplit
    rw [isBlankText, isSplit, List.all_append, isLead, isTrail] at isText
    contradiction

theorem trim_eq_empty_iff : trim text = "" ↔ isBlankText text = true := by
  have ends : EndsVisibly (trim text) ↔ isBlankText text = false := endsVisibly_trim_iff
  rw [← Bool.not_eq_false, ← ends]
  constructor
  · rintro isEmpty ⟨last, isLast, -⟩
    rw [isEmpty] at isLast
    contradiction
  · intro unended
    exact (isTrimmed_iff.mp (isTrimmed_trim text)).resolve_right fun visible => unended visible.2

theorem isEmpty_trim (text : String) : (trim text).isEmpty = isBlankText text := by
  rw [Bool.eq_iff_iff, String.isEmpty_iff, trim_eq_empty_iff]

/-- A text is what is left of another without blank characters at its two ends. -/
structure Trims (text left : String) : Prop where
  cut : ∃ lead trail, text = lead ++ left ++ trail ∧
    isBlankText lead = true ∧ isBlankText trail = true
  ends : left = "" ∨ BeginsVisibly left ∧ EndsVisibly left

theorem trims_trim (text : String) : Trims text (trim text) where
  cut := by
    obtain ⟨lead, trail, isSplit, isLead, isTrail⟩ := trimList_split text.toList
    refine ⟨String.ofList lead, String.ofList trail, ?_, ?_, ?_⟩
    · rw [trim, ← String.ofList_append, ← String.ofList_append, ← isSplit, String.ofList_toList]
    · rwa [isBlankText, String.toList_ofList]
    · rwa [isBlankText, String.toList_ofList]
  ends := isTrimmed_iff.mp (isTrimmed_trim text)

/-! ## Texts that are put together -/

theorem BeginsVisibly.append (begins : BeginsVisibly first) (last : String) :
    BeginsVisibly (first ++ last) := by
  obtain ⟨character, isFirst, visible⟩ := begins
  exact ⟨character, by rw [String.toList_append, List.head?_append, isFirst, Option.some_or],
    visible⟩

theorem EndsVisibly.append (ends : EndsVisibly last) (first : String) :
    EndsVisibly (first ++ last) := by
  obtain ⟨character, isLast, visible⟩ := ends
  exact ⟨character, by rw [String.toList_append, List.getLast?_append, isLast, Option.some_or],
    visible⟩

/-- What has no blanks at its ends stays as it is at the front of a longer text. -/
theorem prefix_trim_append (begins : BeginsVisibly first) (ends : EndsVisibly first)
    (last : String) : first.toList <+: (trim (first ++ last)).toList := by
  obtain ⟨head, isHead, headVisible⟩ := begins
  obtain ⟨tail, isTail, tailVisible⟩ := ends
  obtain ⟨rest, isList⟩ := List.head?_eq_some_iff.mp isHead
  obtain ⟨lead, trail, isSplit, isLead, isTrail⟩ := trimList_split (first ++ last).toList
  rw [String.toList_append] at isSplit
  -- Nothing is cut off in front, because the text begins visibly.
  have noLead : lead = [] := by
    cases lead with
    | nil => rfl
    | cons blank lead =>
        rw [isList, List.cons_append, List.cons_append, List.cons_append] at isSplit
        rw [← (List.cons.inj isSplit).1, List.all_cons, headVisible] at isLead
        contradiction
  rw [noLead, List.nil_append] at isSplit
  rw [trim, String.toList_ofList, String.toList_append]
  have isPrefix : first.toList <+: trimList (first.toList ++ last.toList) ++ trail :=
    isSplit ▸ List.prefix_append _ _
  generalize trimList (first.toList ++ last.toList) = kept at isPrefix ⊢
  rcases List.prefix_or_prefix_of_prefix isPrefix (List.prefix_append _ _) with done | longer
  · exact done
  · -- What is cut off behind begins after the last character of the text, which is visible.
    obtain ⟨cut, isCut⟩ := longer
    rw [← isCut, List.prefix_append_right_inj] at isPrefix
    cases ends : cut.getLast? with
    | none =>
        rw [List.getLast?_eq_none_iff.mp ends, List.append_nil] at isCut
        exact isCut ▸ List.prefix_rfl
    | some final =>
        rw [← isCut, List.getLast?_append, ends, Option.some_or] at isTail
        have blank := List.all_eq_true.mp isTrail final
          (isPrefix.subset (List.mem_of_getLast? ends))
        rw [Option.some.inj isTail, tailVisible] at blank
        contradiction

/-- What follows a heading and a line feed decides whether the whole is trimmed. -/
theorem isTrimmed_append_iff (begins : BeginsVisibly first) (unended : ¬EndsVisibly first) :
    IsTrimmed (first ++ last) ↔ EndsVisibly last := by
  constructor
  · intro trimmed
    rcases isTrimmed_iff.mp trimmed with none | ⟨-, character, isLast, visible⟩
    · obtain ⟨character, isFirst, -⟩ := begins
      rw [(String.append_eq_empty_iff.mp none).1] at isFirst
      contradiction
    · rw [String.toList_append, List.getLast?_append] at isLast
      cases ends : last.toList.getLast? with
      | some other =>
          rw [ends, Option.some_or] at isLast
          exact ⟨other, ends, Option.some.inj isLast ▸ visible⟩
      | none =>
          rw [ends, Option.none_or] at isLast
          exact absurd ⟨character, isLast, visible⟩ unended
  · intro ends
    exact isTrimmed_of_visible (begins.append last) (ends.append first)

end Polyglot.Text
