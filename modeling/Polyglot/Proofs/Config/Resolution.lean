import Mathlib.Data.List.Nodup
import Polyglot.Proofs.Config.Validity

/-!
# What a tag means

The languages of a configuration have no order of their own: each process lists them as it likes.
A tag that is an id means the same in every order, however it is spelled.  A tag that is only an
alias does so when no two languages have it.
-/

namespace Polyglot

open Text

/-! ## Spellings of a tag -/

section Spellings

/-- A text with a word in it and nothing else but blank characters around that. -/
def Surrounds (tag : String) (word : List Char) : Prop :=
  ∃ before after, tag.toList = before ++ word ++ after ∧
    (∀ character ∈ before, isBlank character = true) ∧
    ∀ character ∈ after, isBlank character = true

/-- Texts that differ only in the blank characters around them and in the case of ASCII letters. -/
def Alike (tag other : String) : Prop :=
  ∃ word respelled, Surrounds tag word ∧ Surrounds other respelled ∧
    word.map Char.toLower = respelled.map Char.toLower

theorem isBlank_toLower (character : Char) : isBlank character.toLower = isBlank character := by
  have letters : ∀ number, number < 0x5B → 0x41 ≤ number →
      isBlank (Char.ofNat number).toLower = isBlank (Char.ofNat number) := by decide
  by_cases isLetter : 0x41 ≤ character.toNat ∧ character.toNat < 0x5B
  · have same := letters character.toNat isLetter.2 isLetter.1
    rwa [Char.ofNat_toNat] at same
  · have notUpper : ¬ ('A'.val ≤ character.val ∧ character.val ≤ 'Z'.val) := by
      rintro ⟨low, high⟩
      exact isLetter ⟨low, Nat.lt_succ_of_le high⟩
    have same : character.toLower = character := dif_neg notUpper
    rw [same]

theorem trimList_map_toLower (characters : List Char) :
    trimList (characters.map Char.toLower) = (trimList characters).map Char.toLower := by
  have same : isBlank ∘ Char.toLower = isBlank := funext isBlank_toLower
  simp only [trimList, dropTrailingBlank, dropLeadingBlank, ← List.map_reverse,
    List.dropWhile_map, same]

theorem trimList_append_blank {word after : List Char}
    (isAfter : ∀ character ∈ after, isBlank character = true) :
    trimList (word ++ after) = trimList word := by
  have none : after.dropWhile isBlank = [] := by
    have dropped := @List.dropWhile_append_of_pos _ isBlank after [] isAfter
    rwa [List.append_nil, List.dropWhile_nil] at dropped
  simp only [trimList, dropLeadingBlank, List.dropWhile_append]
  split
  · rename_i isBlankWord
    rw [none, List.isEmpty_iff.mp isBlankWord]
  · rw [dropTrailingBlank, List.reverse_append, List.dropWhile_append_of_pos, ← dropTrailingBlank]
    intro character member
    exact isAfter character (List.mem_reverse.mp member)

/-- Nothing but the word that it surrounds counts in a tag. -/
theorem normalizeTag_surrounds {tag : String} {word : List Char} (surrounds : Surrounds tag word) :
    normalizeTag tag = String.ofList (trimList (word.map Char.toLower)) := by
  obtain ⟨before, after, isTag, isBefore, isAfter⟩ := surrounds
  have trimmed : trimList tag.toList = trimList word := by
    rw [isTag, trimList_append_blank isAfter, trimList, trimList, dropLeadingBlank,
      List.dropWhile_append_of_pos isBefore, ← dropLeadingBlank]
  rw [normalizeTag, asciiLower, trim, String.toList_ofList, trimmed, trimList_map_toLower]

theorem Alike.normalizeTag_eq {tag other : String} (alike : Alike tag other) :
    normalizeTag tag = normalizeTag other := by
  obtain ⟨word, respelled, isTag, isOther, same⟩ := alike
  rw [normalizeTag_surrounds isTag, normalizeTag_surrounds isOther, same]

end Spellings

/-! ## Orders of the languages -/

namespace Config

section Orders

/-- The same configuration with its languages listed in another order. -/
def listed (config : Config) (order : List (String × Language)) : Config :=
  { config with languages := order }

/-- Every tag means the same in whatever order the languages are listed. -/
def OrderFree (config : Config) : Prop :=
  ∀ order, order.Perm config.languages →
    ∀ tag, (config.listed order).resolve tag = config.resolve tag

/-- No two languages have an alias that is no id. -/
def AliasesApart (config : Config) : Prop :=
  ∀ tag, tag ≠ "" → config.language? tag = none →
    ∀ first ∈ config.languages, ∀ second ∈ config.languages,
      first.2.hasAlias tag = true → second.2.hasAlias tag = true → first.1 = second.1

section Search

variable {α : Type} {elements order : List α} {wanted : α → Bool}
  (only : ∀ first ∈ elements, ∀ second ∈ elements,
    wanted first = true → wanted second = true → first = second)

include only

/-- Whatever the order, the only element that is wanted is found. -/
theorem find?_eq_some_iff_of_only (perm : order.Perm elements) (element : α) :
    order.find? wanted = some element ↔ element ∈ elements ∧ wanted element = true := by
  constructor
  · intro found
    exact ⟨perm.mem_iff.mp (List.mem_of_find?_eq_some found), List.find?_some found⟩
  · rintro ⟨member, isWanted⟩
    obtain ⟨other, found⟩ := Option.isSome_iff_exists.mp
      (List.find?_isSome.mpr ⟨element, perm.mem_iff.mpr member, isWanted⟩)
    rw [found, only other (perm.mem_iff.mp (List.mem_of_find?_eq_some found)) element member
      (List.find?_some found) isWanted]

theorem find?_perm (perm : order.Perm elements) : order.find? wanted = elements.find? wanted := by
  apply Option.ext
  intro element
  rw [find?_eq_some_iff_of_only only perm, find?_eq_some_iff_of_only only (.refl elements)]

end Search

variable {config : Config} {order : List (String × Language)}
  (once : (config.languages.map Prod.fst).Nodup)

include once

theorem eq_of_id {first second : String × Language} (isFirst : first ∈ config.languages)
    (isSecond : second ∈ config.languages) (same : first.1 = second.1) : first = second :=
  List.inj_on_of_nodup_map once isFirst isSecond same

theorem only_id (id : String) : ∀ first ∈ config.languages, ∀ second ∈ config.languages,
    decide (first.1 = id) = true → decide (second.1 = id) = true → first = second := by
  intro first isFirst second isSecond firstId secondId
  exact eq_of_id once isFirst isSecond
    ((of_decide_eq_true firstId).trans (of_decide_eq_true secondId).symm)

/-- An id is found in every order. -/
theorem language?_listed (perm : order.Perm config.languages) (id : String) :
    (config.listed order).language? id = config.language? id := by
  rw [language?, language?, listed]
  rw [find?_perm (only_id once id) perm]

theorem language?_of_mem {id : String} {language : Language}
    (member : (id, language) ∈ config.languages) : config.language? id = some language := by
  have found := (find?_eq_some_iff_of_only (only_id once id) (.refl _) (id, language)).mpr
    ⟨member, decide_eq_true rfl⟩
  rw [language?, found]
  rfl

/-- Only the search among aliases depends on the order. -/
theorem resolve_listed (perm : order.Perm config.languages) (tag : String) :
    (config.listed order).resolve tag =
      if (normalizeTag tag).isEmpty then none
      else
        match config.language? (normalizeTag tag) with
        | some language => some (normalizeTag tag, language)
        | none => order.find? fun (_, language) => language.hasAlias (normalizeTag tag) := by
  rw [resolve, language?_listed once perm]
  rfl

/-- A tag that is only an alias means whichever of its languages is listed first. -/
theorem resolve_first {tag : String} {entry : String × Language}
    (member : entry ∈ config.languages) (notEmpty : normalizeTag tag ≠ "")
    (noId : config.language? (normalizeTag tag) = none)
    (isAlias : entry.2.hasAlias (normalizeTag tag) = true) :
    ∃ order, order.Perm config.languages ∧ (config.listed order).resolve tag = some entry := by
  have perm := (List.perm_cons_erase member).symm
  refine ⟨entry :: config.languages.erase entry, perm, ?_⟩
  rw [resolve_listed once perm, if_neg (by simpa using notEmpty), noId]
  exact List.find?_cons_of_pos isAlias

/-- The order of the languages is of no consequence just when no two languages share an alias. -/
theorem orderFree_iff : config.OrderFree ↔ config.AliasesApart := by
  constructor
  · intro free tag notEmpty noId first isFirst second isSecond firstAlias secondAlias
    obtain ⟨spelled, -, isTag⟩ := List.any_eq_true.mp firstAlias
    obtain rfl := of_decide_eq_true isTag
    obtain ⟨order, perm, isMeant⟩ := resolve_first once isFirst notEmpty noId firstAlias
    obtain ⟨other, otherPerm, isOther⟩ := resolve_first once isSecond notEmpty noId secondAlias
    rw [free order perm] at isMeant
    rw [free other otherPerm, isMeant] at isOther
    rw [Option.some.inj isOther]
  · intro apart order perm tag
    rw [resolve_listed once perm, resolve]
    split
    · rfl
    · rename_i notEmpty
      cases noId : config.language? (normalizeTag tag) with
      | some language => rfl
      | none =>
          refine find?_perm ?_ perm
          intro first isFirst second isSecond firstAlias secondAlias
          exact eq_of_id once isFirst isSecond
            (apart _ (by simpa using notEmpty) noId first isFirst second isSecond firstAlias
              secondAlias)

/-- An id goes before every alias, in every order and however it is spelled. -/
theorem resolve_id (valid : config.validate = .ok ()) {id : String} {language : Language}
    (member : (id, language) ∈ config.languages) (notEmpty : id ≠ "")
    (perm : order.Perm config.languages) {tag : String} (alike : Alike tag id) :
    (config.listed order).resolve tag = some (id, language) := by
  have normalized : normalizeTag tag = id :=
    alike.normalizeTag_eq.trans (validate_eq_ok.mp valid _ member).normalized
  rw [resolve_listed once perm, normalized, if_neg (by simpa using notEmpty),
    language?_of_mem once member]

end Orders

/-- What a tag means does not depend on the order of the languages just when no two of them share
an alias that is no id; an id always goes before aliases, and a tag may be spelled in any case
and with blanks around it. -/
theorem resolve_orders_iff (config : Config) (valid : config.validate = .ok ())
    (once : (config.languages.map Prod.fst).Nodup) :
    (config.OrderFree ↔ config.AliasesApart) ∧
      (∀ id language, (id, language) ∈ config.languages → id ≠ "" →
        ∀ order, order.Perm config.languages → ∀ tag, Alike tag id →
          (config.listed order).resolve tag = some (id, language)) ∧
      ∀ tag other, Alike tag other → config.resolve tag = config.resolve other := by
  refine ⟨orderFree_iff once, ?ids, ?spellings⟩
  case ids =>
    intro id language member notEmpty order perm tag alike
    exact resolve_id once valid member notEmpty perm alike
  case spellings =>
    intro tag other alike
    rw [resolve, resolve, alike.normalizeTag_eq]

section Shared

/-- A language in a sandbox with one alias. -/
def aliased (name tag : String) : Language where
  name := name
  extension := ⟨"x", by decide⟩
  aliases := [tag]
  backend := .sandbox
  runtime := some { command := ["run"] }

/-- Two languages that share an alias. -/
def sharing : Config where
  languages := [("a", aliased "A" "x"), ("b", aliased "B" "x")]

theorem not_aliasesApart_sharing : ¬ sharing.AliasesApart := by
  intro apart
  have same := apart "x" (by decide) (by decide +kernel) _ (.head _) _ (.tail _ (.head _))
    (by decide +kernel) (by decide +kernel)
  exact absurd same (by decide)

/-- The tag is both languages' alias, and its spelling is of no consequence. -/
theorem resolve_orders_sharing :
    sharing.validate = .ok () ∧ (sharing.languages.map Prod.fst).Nodup ∧ ¬ sharing.OrderFree ∧
      sharing.resolve " X\t" = sharing.resolve "x" := by
  have valid : sharing.validate = .ok () := by decide +kernel
  have once : (sharing.languages.map Prod.fst).Nodup := by decide
  have around : Surrounds " X\t" ['X'] :=
    ⟨[' '], ['\t'], rfl, List.forall_mem_singleton.mpr (by decide),
      List.forall_mem_singleton.mpr (by decide)⟩
  have alike : Alike " X\t" "x" :=
    ⟨['X'], ['x'], around, ⟨[], [], rfl, List.forall_mem_nil _, List.forall_mem_nil _⟩, rfl⟩
  obtain ⟨free, -, spellings⟩ := resolve_orders_iff sharing valid once
  exact ⟨valid, once, fun isFree => not_aliasesApart_sharing (free.mp isFree), spellings _ _ alike⟩

/-- In a configuration that is accepted, the one language is meant in the one order, and the other
in the other. -/
theorem resolve_depends_on_order :
    sharing.validate = .ok () ∧ sharing.languages.reverse.Perm sharing.languages ∧
      (sharing.resolve "x").map Prod.fst = some "a" ∧
      ((sharing.listed sharing.languages.reverse).resolve "x").map Prod.fst = some "b" :=
  ⟨by decide +kernel, List.reverse_perm _, by decide +kernel, by decide +kernel⟩

end Shared

end Config

end Polyglot
