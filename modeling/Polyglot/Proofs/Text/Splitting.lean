import Polyglot.Proofs.Text.Encoding
import Polyglot.Text.Lines

/-!
# Texts cut after the ends of lines

When elements are written out so that an end is written with one end, the last element of what is
written for it, and anything else with none, then writing commutes with cutting.  So the lines of
the bytes of a text are the bytes of its lines.
-/

namespace Polyglot.Text

variable {α β : Type} {ends : α → Bool} {breaks : β → Bool} {write : α → List β}
variable {element last : α} {elements body rest piece : List α}

/-! ## Pieces -/

section Pieces

/-- What pieces become when a text without ends is put before them. -/
def joinFirst (body : List α) : List (List α) → List (List α)
  | [] => [body]
  | piece :: pieces => (body ++ piece) :: pieces

@[simp] theorem splitAfter_nil : splitAfter ends [] = [] := rfl

theorem splitAfter_of_ends (isEnd : ends element = true) (rest : List α) :
    splitAfter ends (element :: rest) = [element] :: splitAfter ends rest := by
  rw [splitAfter, if_pos isEnd]

theorem splitAfter_of_not_ends (isOther : ends element = false) (rest : List α) :
    splitAfter ends (element :: rest) = joinFirst [element] (splitAfter ends rest) := by
  rw [splitAfter, if_neg (by simp [isOther])]
  cases splitAfter ends rest with
  | nil => rfl
  | cons piece pieces => rfl

theorem joinFirst_cons (body : List α) (pieces : List (List α)) :
    joinFirst [element] (joinFirst body pieces) = joinFirst (element :: body) pieces := by
  cases pieces with
  | nil => rfl
  | cons piece pieces => rfl

theorem splitAfter_body (nonempty : body ≠ []) (isBody : ∀ element ∈ body, ends element = false)
    (rest : List α) : splitAfter ends (body ++ rest) = joinFirst body (splitAfter ends rest) := by
  induction body with
  | nil => contradiction
  | cons element body ih =>
      have isElement := isBody element List.mem_cons_self
      rw [List.cons_append, splitAfter_of_not_ends isElement]
      cases body with
      | nil => rfl
      | cons next body =>
          rw [ih (List.cons_ne_nil _ _) fun other member =>
            isBody other (List.mem_cons_of_mem _ member), joinFirst_cons]

theorem splitAfter_line (isBody : ∀ element ∈ body, ends element = false)
    (isEnd : ends last = true) (rest : List α) :
    splitAfter ends (body ++ last :: rest) = (body ++ [last]) :: splitAfter ends rest := by
  by_cases nonempty : body = []
  · rw [nonempty, List.nil_append, splitAfter_of_ends isEnd, List.nil_append]
  · rw [splitAfter_body nonempty isBody, splitAfter_of_ends isEnd, joinFirst]

end Pieces

/-! ## Pieces between separators -/

section Between

variable {separates : α → Bool} {separator : α}

theorem splitOnAll_of_not_separates (isBody : ∀ element ∈ body, separates element = false) :
    splitOnAll separates body = [body] := by
  induction body with
  | nil => rfl
  | cons element body ih =>
      rw [splitOnAll, isBody element List.mem_cons_self, if_neg Bool.false_ne_true,
        ih fun other member => isBody other (List.mem_cons_of_mem _ member)]

theorem splitOnAll_ne_nil (elements : List α) : splitOnAll separates elements ≠ [] := by
  cases elements with
  | nil => exact List.cons_ne_nil _ _
  | cons element elements =>
      rw [splitOnAll]
      split
      · exact List.cons_ne_nil _ _
      · split <;> exact List.cons_ne_nil _ _

/-- A separator keeps the pieces before it and those behind it apart. -/
theorem splitOnAll_append_cons (isSeparator : separates separator = true) (first rest : List α) :
    splitOnAll separates (first ++ separator :: rest) =
      splitOnAll separates first ++ splitOnAll separates rest := by
  induction first with
  | nil =>
      rw [List.nil_append, splitOnAll.eq_def separates (separator :: rest)]
      exact if_pos isSeparator
  | cons element first ih =>
      rw [List.cons_append, splitOnAll, splitOnAll]
      split
      · rw [ih, List.cons_append]
      · rw [ih]
        cases isSplit : splitOnAll separates first with
        | nil => exact absurd isSplit (splitOnAll_ne_nil first)
        | cons piece pieces => rfl

/-- What no separator is in goes on with the first piece. -/
theorem splitOnAll_body (isBody : ∀ element ∈ body, separates element = false) (rest : List α) :
    splitOnAll separates (body ++ rest) = joinFirst body (splitOnAll separates rest) := by
  induction body with
  | nil =>
      cases isSplit : splitOnAll separates rest with
      | nil => exact absurd isSplit (splitOnAll_ne_nil rest)
      | cons piece pieces => rw [List.nil_append, isSplit]; rfl
  | cons element body ih =>
      have later := ih fun other member => isBody other (List.mem_cons_of_mem _ member)
      rw [List.cons_append, splitOnAll, isBody element List.mem_cons_self,
        if_neg Bool.false_ne_true, later]
      cases splitOnAll separates rest with
      | nil => rfl
      | cons piece pieces => rfl

end Between

/-! ## Writing elements out -/

section Writing

/-- A piece that ends a line, and has no other end, or a part of a line. -/
inductive Written (breaks : β → Bool) : Bool → List β → Prop where
  | line {body : List β} {last : β} :
      (∀ element ∈ body, breaks element = false) → breaks last = true →
      Written breaks true (body ++ [last])
  | part {body : List β} :
      body ≠ [] → (∀ element ∈ body, breaks element = false) → Written breaks false body

theorem Written.ne_nil {ended : Bool} {written : List β}
    (isWritten : Written breaks ended written) : written ≠ [] := by
  cases isWritten with
  | line isBody isLast => simp
  | part nonempty isBody => exact nonempty

theorem Written.cons {ended : Bool} (isOther : ends element = false)
    (isWritten : Written ends ended body) : Written ends ended (element :: body) := by
  cases isWritten with
  | line isBody isLast =>
      rw [← List.cons_append]
      apply Written.line _ isLast
      simpa [isOther] using isBody
  | part nonempty isBody =>
      apply Written.part (List.cons_ne_nil _ _)
      simpa [isOther] using isBody

theorem Written.append {ended : Bool} {lead : List α}
    (isLead : ∀ element ∈ lead, ends element = false) (isWritten : Written ends ended body) :
    Written ends ended (lead ++ body) := by
  induction lead with
  | nil => exact isWritten
  | cons element lead ih =>
      have later := ih fun other member => isLead other (List.mem_cons_of_mem _ member)
      exact later.cons (isLead element List.mem_cons_self)

/-- A piece has no end before its last element. -/
theorem written_of_mem_splitAfter (member : piece ∈ splitAfter ends elements) :
    ∃ ended, Written ends ended piece := by
  induction elements generalizing piece with
  | nil => simp at member
  | cons element elements ih =>
      cases isEnd : ends element with
      | true =>
          rw [splitAfter_of_ends isEnd] at member
          rcases List.mem_cons.mp member with rfl | inRest
          · exact ⟨true, @Written.line _ ends [] element (by simp) isEnd⟩
          · exact ih inRest
      | false =>
          rw [splitAfter_of_not_ends isEnd] at member
          cases pieces : splitAfter ends elements with
          | nil =>
              rw [pieces, joinFirst, List.mem_singleton] at member
              rw [member]
              exact ⟨false, .part (List.cons_ne_nil _ _) (by simp [isEnd])⟩
          | cons first others =>
              rw [pieces] at member ih
              rcases List.mem_cons.mp member with rfl | inOthers
              · have ⟨ended, isFirst⟩ := ih List.mem_cons_self
                exact ⟨ended, isFirst.cons isEnd⟩
              · exact ih (List.mem_cons_of_mem _ inOthers)

/-- Cutting what is written for elements is writing what they are cut into. -/
theorem splitAfter_flatMap
    (isWritten : ∀ element ∈ elements, Written breaks (ends element) (write element)) :
    splitAfter breaks (elements.flatMap write) =
      (splitAfter ends elements).map (·.flatMap write) := by
  induction elements with
  | nil => rfl
  | cons element elements ih =>
      have isFirst := isWritten element List.mem_cons_self
      have later := ih fun other member => isWritten other (List.mem_cons_of_mem _ member)
      have single : [element].flatMap write = write element := by simp
      rw [List.flatMap_cons]
      cases isEnd : ends element with
      | true =>
          rw [splitAfter_of_ends isEnd, List.map_cons, single]
          rw [isEnd] at isFirst
          generalize write element = written at isFirst
          cases isFirst with
          | line isBody isLast =>
              rw [List.append_assoc, List.singleton_append, splitAfter_line isBody isLast, later]
      | false =>
          rw [splitAfter_of_not_ends isEnd]
          rw [isEnd] at isFirst
          generalize isText : write element = written at isFirst
          cases isFirst with
          | part nonempty isBody =>
              rw [splitAfter_body nonempty isBody, later]
              cases splitAfter ends elements with
              | nil => simp [joinFirst, isText]
              | cons piece pieces => simp [joinFirst, isText]

/-- Lines that are put together come apart again. -/
theorem splitAfter_flatten {pieces : List (List α)}
    (isLine : ∀ piece ∈ pieces, Written ends true piece) :
    splitAfter ends pieces.flatten = pieces := by
  induction pieces with
  | nil => rfl
  | cons piece pieces ih =>
      have later := ih fun other member => isLine other (List.mem_cons_of_mem _ member)
      rw [List.flatten_cons]
      cases isLine piece List.mem_cons_self with
      | line isBody isLast =>
          rw [List.append_assoc, List.singleton_append, splitAfter_line isBody isLast, later]

end Writing

/-! ## Bytes of lines -/

section Bytes

theorem written_utf8EncodeChar (character : Char) :
    Written (fun byte : UInt8 => decide (byte = ascii '\n')) (decide (character = '\n'))
      (String.utf8EncodeChar character) := by
  by_cases isEnd : character = '\n'
  · rw [isEnd]
    exact @Written.line _ _ [] _ (by simp) (by decide)
  · rw [decide_eq_false isEnd]
    apply Written.part
    · simp
    · intro byte member
      apply decide_eq_false
      intro isFeed
      rw [isFeed] at member
      rcases utf8EncodeChar_cases character with ⟨only, single, same, -⟩ | beyond
      · rw [single, List.mem_singleton] at member
        rw [← member] at same
        exact isEnd (Char.toNat_inj.mp same.symm)
      · exact absurd (beyond _ member) (by decide)

theorem splitAfter_encode (text : String) :
    splitAfter (· = ascii '\n') (encode text) =
      (splitAfter (· = '\n') text.toList).map (·.flatMap String.utf8EncodeChar) := by
  rw [encode_eq]
  exact splitAfter_flatMap fun character _ => written_utf8EncodeChar character

/-- The lines of the bytes of a text are the bytes of texts. -/
theorem isEncoded_of_mem_splitAfter {text : String} {line : Bytes}
    (member : line ∈ splitAfter (· = ascii '\n') (encode text)) : IsEncoded line := by
  rw [splitAfter_encode] at member
  have ⟨characters, _, isLine⟩ := List.mem_map.mp member
  exact ⟨String.ofList characters, (encode_ofList characters).trans isLine⟩

theorem isEncoded_flatten {lines : List Bytes} (isEncoded : ∀ line ∈ lines, IsEncoded line) :
    IsEncoded lines.flatten := by
  induction lines with
  | nil => exact isEncoded_nil
  | cons line lines ih =>
      have later := ih fun other member => isEncoded other (List.mem_cons_of_mem _ member)
      exact (isEncoded line List.mem_cons_self).append later

end Bytes

end Polyglot.Text
