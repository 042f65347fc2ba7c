import Mathlib.Data.List.Infix
import Mathlib.Data.List.Nodup
import Mathlib.Tactic.Linarith
import Mathlib.Tactic.Zify
import Polyglot.Language

/-!
# Substitution

A key is a name between braces.  Keys cannot overlap, so there is exactly one text that has the
values of all keys in the places of the keys and is as before everywhere else.  To replace one more
key in that text is to substitute it along with the others just when the key stands there no more
often than it did before: then no value makes a key, alone or with what is next to it.
-/

namespace Polyglot

open Text

/-- A name without braces, between braces. -/
def IsKey (key : List Char) : Prop :=
  ∃ name, key = '{' :: name ++ ['}'] ∧ '{' ∉ name ∧ '}' ∉ name

/-- The placeholders are keys, each with one value. -/
structure AreKeys (placeholders : List Placeholder) : Prop where
  keys : ∀ placeholder ∈ placeholders, IsKey placeholder.1.toList
  distinct : (placeholders.map (·.1)).Nodup

/-- The values of all placeholders are put in the places of their keys, at once; what is put in is
not looked at again, and what is no key stays. -/
inductive Substitutes (placeholders : List Placeholder) : List Char → List Char → Prop where
  | done : Substitutes placeholders [] []
  | key {key value : String} {rest result : List Char} : (key, value) ∈ placeholders →
      Substitutes placeholders rest result →
      Substitutes placeholders (key.toList ++ rest) (value.toList ++ result)
  | keep {character : Char} {rest result : List Char} :
      (∀ placeholder ∈ placeholders, ¬placeholder.1.toList <+: character :: rest) →
      Substitutes placeholders rest result →
      Substitutes placeholders (character :: rest) (character :: result)

/-- In how many places of a text a key stands. -/
def places (key text : List Char) : Nat := text.tails.countP (key.isPrefixOf ·)

/-- Between two braces that open there is one that closes. -/
def Unnested (text : List Char) : Prop :=
  ∀ before between after, text = before ++ '{' :: between ++ '{' :: after → '}' ∈ between

/-- In how many places two texts differ. -/
def differences (first second : List Char) : Nat :=
  (first.zip second).countP fun pair => pair.1 ≠ pair.2

variable {placeholders others : List Placeholder} {key value : String}
  {name other part rest text result made : List Char}

/-! ## Keys -/

theorem IsKey.exists_cons (isKey : IsKey name) : ∃ rest, name = '{' :: rest ∧ '{' ∉ rest := by
  obtain ⟨inner, rfl, unopened, -⟩ := isKey
  exact ⟨inner ++ ['}'], rfl, by simp [unopened]⟩

theorem IsKey.not_prefix_nil (isKey : IsKey name) : ¬name <+: [] := by
  obtain ⟨rest, rfl, -⟩ := isKey.exists_cons
  exact fun isPrefix => nomatch List.prefix_nil.mp isPrefix

theorem IsKey.not_prefix_cons (isKey : IsKey name) {character : Char}
    (isPlain : character ≠ '{') : ¬name <+: character :: rest := by
  obtain ⟨inner, rfl, -⟩ := isKey.exists_cons
  exact fun isPrefix => isPlain (List.cons_prefix_cons.mp isPrefix).1.symm

/-- No key is the beginning of another one. -/
theorem IsKey.eq_of_isPrefix (isKey : IsKey name) (isOther : IsKey other)
    (isPrefix : name <+: other) : name = other := by
  obtain ⟨inner, rfl, -, unclosed⟩ := isOther
  rcases List.prefix_concat_iff.mp isPrefix with same | shorter
  · exact same
  · obtain ⟨own, rfl, -⟩ := isKey
    have closes := shorter.subset (List.mem_append_right _ List.mem_cons_self)
    exact absurd (List.mem_of_ne_of_mem (by decide) closes) unclosed

theorem IsKey.eq_of_begins (isKey : IsKey name) (isOther : IsKey other)
    (begins : name <+: text) (alsoBegins : other <+: text) : name = other := by
  rcases List.prefix_or_prefix_of_prefix begins alsoBegins with isPrefix | isPrefix
  · exact isKey.eq_of_isPrefix isOther isPrefix
  · exact (isOther.eq_of_isPrefix isKey isPrefix).symm

theorem AreKeys.eq_value {first second : String} (areKeys : AreKeys placeholders)
    (isFirst : (key, first) ∈ placeholders) (isSecond : (key, second) ∈ placeholders) :
    first = second :=
  congrArg Prod.snd (List.inj_on_of_nodup_map areKeys.distinct isFirst isSecond rfl)

theorem AreKeys.head (areKeys : AreKeys ((key, value) :: placeholders)) : IsKey key.toList :=
  areKeys.keys _ List.mem_cons_self

theorem AreKeys.tail (areKeys : AreKeys ((key, value) :: placeholders)) : AreKeys placeholders where
  keys placeholder member := areKeys.keys placeholder (List.mem_cons_of_mem _ member)
  distinct := (List.nodup_cons.mp areKeys.distinct).2

theorem AreKeys.same (areKeys : AreKeys ((key, value) :: placeholders)) :
    AreKeys ((key, key) :: placeholders) where
  keys := by simpa using areKeys.keys
  distinct := areKeys.distinct

/-- A key that is not among the others begins nowhere where one of them begins. -/
theorem AreKeys.not_begins (areKeys : AreKeys ((key, value) :: placeholders))
    {placeholder : Placeholder} (member : placeholder ∈ placeholders)
    (begins : key.toList <+: text) : ¬placeholder.1.toList <+: text := by
  intro alsoBegins
  have same := areKeys.head.eq_of_begins (areKeys.tail.keys _ member) begins alsoBegins
  have among : placeholder.1 ∈ placeholders.map (·.1) := List.mem_map_of_mem member
  rw [← String.toList_inj.mp same] at among
  exact (List.nodup_cons.mp areKeys.distinct).1 among

/-! ## Places -/

@[simp] theorem places_cons {character : Char} : places name (character :: rest) =
    places name rest + if name <+: character :: rest then 1 else 0 := by
  simp [places, List.countP_cons]

theorem IsKey.places_nil (isKey : IsKey name) : places name [] = 0 := by
  have := isKey.not_prefix_nil
  simpa [places] using this

/-- Where no brace opens there is no key. -/
theorem IsKey.places_append (isKey : IsKey name) (unopened : '{' ∉ part) :
    places name (part ++ rest) = places name rest := by
  induction part with
  | nil => rfl
  | cons character part ih =>
      rw [List.mem_cons, not_or] at unopened
      rw [List.cons_append, places_cons, ih unopened.2,
        if_neg (isKey.not_prefix_cons (Ne.symm unopened.1)), Nat.add_zero]

/-- The places in a key and what follows it are those in what follows it, and the first. -/
theorem IsKey.places_key (isKey : IsKey name) (isOther : IsKey other) :
    places name (other ++ rest) =
      places name rest + if name <+: other ++ rest then 1 else 0 := by
  obtain ⟨inner, rfl, unopened⟩ := isOther.exists_cons
  rw [List.cons_append, places_cons, isKey.places_append unopened]

theorem IsKey.places_self (isKey : IsKey name) :
    places name (name ++ rest) = places name rest + 1 := by
  rw [isKey.places_key isKey, if_pos (List.prefix_append name rest)]

/-- A key that is not among the others does not stand in them. -/
theorem AreKeys.places_other (areKeys : AreKeys ((key, value) :: placeholders))
    {placeholder : Placeholder} (member : placeholder ∈ placeholders) :
    places key.toList (placeholder.1.toList ++ rest) = places key.toList rest := by
  rw [areKeys.head.places_key (areKeys.tail.keys _ member), if_neg, Nat.add_zero]
  exact fun begins => areKeys.not_begins member begins (List.prefix_append _ _)

theorem places_le_append (name part rest : List Char) :
    places name rest ≤ places name (part ++ rest) := by
  induction part with
  | nil => exact Nat.le_refl _
  | cons character part ih =>
      rw [List.cons_append, places_cons]
      exact Nat.le_add_right_of_le ih

/-! ## There is one substitution -/

/-- It does not matter in which order the placeholders are. -/
theorem Substitutes.congr (made : Substitutes placeholders text result)
    (same : ∀ placeholder, placeholder ∈ placeholders ↔ placeholder ∈ others) :
    Substitutes others text result := by
  induction made with
  | done => exact .done
  | key member _ ih => exact .key ((same _).mp member) ih
  | keep isFree _ ih =>
      exact .keep (fun placeholder member => isFree placeholder ((same placeholder).mpr member)) ih

theorem substitutes_nil (text : List Char) : Substitutes [] text text := by
  induction text with
  | nil => exact .done
  | cons character rest ih => exact .keep nofun ih

theorem exists_substitutes (areKeys : AreKeys placeholders) (text : List Char) :
    ∃ result, Substitutes placeholders text result := by
  induction h : text.length using Nat.strong_induction_on generalizing text with
  | h length ih =>
      subst h
      by_cases begins : ∃ placeholder ∈ placeholders, placeholder.1.toList <+: text
      · obtain ⟨⟨key, value⟩, member, rest, rfl⟩ := begins
        have isShorter : rest.length < (key.toList ++ rest).length := by
          obtain ⟨inner, isKey, -⟩ := (areKeys.keys _ member).exists_cons
          rw [isKey, List.length_append, List.length_cons]
          omega
        obtain ⟨result, made⟩ := ih _ isShorter rest rfl
        exact ⟨value.toList ++ result, .key member made⟩
      · cases text with
        | nil => exact ⟨[], .done⟩
        | cons character rest =>
            obtain ⟨result, made⟩ := ih _ (Nat.lt_succ_self rest.length) rest rfl
            refine ⟨character :: result, .keep (fun placeholder member isPrefix => ?_) made⟩
            exact begins ⟨placeholder, member, isPrefix⟩

theorem Substitutes.unique (areKeys : AreKeys placeholders)
    (made : Substitutes placeholders text result) {again : List Char}
    (madeAgain : Substitutes placeholders text again) : result = again := by
  induction made generalizing again with
  | done =>
      generalize isText : ([] : List Char) = text at madeAgain
      cases madeAgain with
      | done => rfl
      | key member _ =>
          exact absurd (isText ▸ List.prefix_append _ _) (areKeys.keys _ member).not_prefix_nil
      | keep => contradiction
  | @key key value rest result member _ ih =>
      generalize isText : key.toList ++ rest = text at madeAgain
      have begins : key.toList <+: text := isText ▸ List.prefix_append _ _
      cases madeAgain with
      | done => exact absurd begins (areKeys.keys _ member).not_prefix_nil
      | @key other _ _ _ isOther made =>
          have same := (areKeys.keys _ member).eq_of_begins (areKeys.keys _ isOther)
            begins (List.prefix_append _ _)
          obtain rfl : key = other := String.toList_inj.mp same
          obtain rfl := areKeys.eq_value member isOther
          rw [List.append_cancel_left_eq] at isText
          rw [ih (isText ▸ made)]
      | keep isFree _ => exact absurd begins (isFree _ member)
  | @keep character rest result isFree _ ih =>
      generalize isText : character :: rest = text at madeAgain
      cases madeAgain with
      | done => contradiction
      | key member _ =>
          exact absurd (isText ▸ List.prefix_append _ _) (isFree _ member)
      | keep _ made =>
          obtain ⟨rfl, rfl⟩ := List.cons.inj isText
          rw [ih made]

/-- What has no opening brace is kept. -/
theorem Substitutes.append (areKeys : AreKeys placeholders)
    (made : Substitutes placeholders rest result) (unopened : '{' ∉ part) :
    Substitutes placeholders (part ++ rest) (part ++ result) := by
  induction part with
  | nil => exact made
  | cons character part ih =>
      rw [List.mem_cons, not_or] at unopened
      exact .keep (fun _ member => (areKeys.keys _ member).not_prefix_cons (Ne.symm unopened.1))
        (ih unopened.2)

/-- A substitution with one key apart from the others. -/
theorem Substitutes.apart {motive : ∀ text result,
      Substitutes ((key, value) :: placeholders) text result → Prop}
    (done : motive [] [] .done)
    (own : ∀ {rest result : List Char}
      (made : Substitutes ((key, value) :: placeholders) rest result),
      motive rest result made →
        motive (key.toList ++ rest) (value.toList ++ result) (.key List.mem_cons_self made))
    (others : ∀ {other own : String} {rest result : List Char}
      (member : (other, own) ∈ placeholders)
      (made : Substitutes ((key, value) :: placeholders) rest result), motive rest result made →
        motive (other.toList ++ rest) (own.toList ++ result)
          (.key (List.mem_cons_of_mem _ member) made))
    (keep : ∀ {character : Char} {rest result : List Char}
      (isFree : ∀ placeholder ∈ (key, value) :: placeholders,
        ¬placeholder.1.toList <+: character :: rest)
      (made : Substitutes ((key, value) :: placeholders) rest result), motive rest result made →
        motive (character :: rest) (character :: result) (.keep isFree made))
    {text result : List Char} (made : Substitutes ((key, value) :: placeholders) text result) :
    motive text result made := by
  induction made with
  | done => exact done
  | key member made ih =>
      rcases List.mem_cons.mp member with isOwn | isOther
      · obtain ⟨rfl, rfl⟩ := Prod.mk.inj isOwn
        exact own made ih
      · exact others isOther made ih
  | keep isFree made ih => exact keep isFree made ih

/-- A key that is to stay as it is might as well be none. -/
theorem Substitutes.of_self (areKeys : AreKeys ((key, value) :: placeholders))
    (made : Substitutes ((key, key) :: placeholders) text result) :
    Substitutes placeholders text result := by
  induction made using Substitutes.apart with
  | done => exact .done
  | @own rest result _ ih =>
      obtain ⟨inner, isKey, unopened⟩ := areKeys.head.exists_cons
      have isFree (placeholder : Placeholder) (member : placeholder ∈ placeholders) :=
        areKeys.not_begins member (List.prefix_append _ rest)
      rw [isKey, List.cons_append, List.cons_append]
      simp only [isKey, List.cons_append] at isFree
      exact .keep isFree (ih.append areKeys.tail unopened)
  | others member _ ih => exact .key member ih
  | keep isFree _ ih => exact .keep (List.forall_mem_cons.mp isFree).2 ih

theorem substitutes_self_iff (areKeys : AreKeys ((key, value) :: placeholders)) :
    Substitutes ((key, key) :: placeholders) text result ↔
      Substitutes placeholders text result := by
  refine ⟨fun made => made.of_self areKeys, fun made => ?_⟩
  obtain ⟨again, madeAgain⟩ := exists_substitutes areKeys.same text
  rw [made.unique areKeys.tail (madeAgain.of_self areKeys)]
  exact madeAgain

/-! ## One more key -/

/-- To replace a key is to substitute it alone. -/
theorem substitutes_replaceAll (isKey : IsKey key.toList) (value text : String) :
    Substitutes [(key, value)] text.toList (replaceAll key value text).toList := by
  obtain ⟨inner, isInner, -⟩ := isKey.exists_cons
  have isText : ¬key.isEmpty = true := by
    rw [String.isEmpty_iff]
    rintro rfl
    contradiction
  rw [replaceAll, if_neg isText, String.toList_ofList]
  suffices ∀ skip text, Substitutes [(key, value)] (text.drop skip)
      (replaceFrom key.toList value.toList skip text) from this 0 text.toList
  intro skip text
  induction text generalizing skip with
  | nil =>
      rw [List.drop_nil]
      cases skip <;> exact .done
  | cons character rest ih =>
      cases skip with
      | succ skip => exact ih skip
      | zero =>
          rw [replaceFrom, List.drop_zero]
          split
          · rename_i begins
            obtain ⟨left, isSplit⟩ := List.isPrefixOf_iff_prefix.mp begins
            have isRest : rest = inner ++ left := by
              rw [isInner, List.cons_append] at isSplit
              exact (List.cons.inj isSplit).2.symm
            have isLeft : rest.drop (key.toList.length - 1) = left := by
              rw [isRest, isInner, List.length_cons, Nat.add_sub_cancel, List.drop_left]
            rw [← isSplit, ← isLeft]
            exact .key (List.mem_singleton_self _) (ih _)
          · rename_i isFree
            refine .keep ?_ (ih 0)
            simpa using isFree

/-- A part of a text in which the key does not begin is kept. -/
theorem Substitutes.append_calm (made : Substitutes [(key, value)] rest result)
    (isCalm : places key.toList (part ++ rest) = places key.toList rest) :
    Substitutes [(key, value)] (part ++ rest) (part ++ result) := by
  induction part with
  | nil => exact made
  | cons character part ih =>
      rw [List.cons_append, places_cons] at isCalm
      have atMost := places_le_append key.toList part rest
      split at isCalm
      · omega
      · rename_i isFree
        exact .keep (by simpa using isFree) (ih isCalm)

/-- Substitution takes no key away that is not among the placeholders. -/
theorem Substitutes.places_le (areKeys : AreKeys ((key, value) :: placeholders))
    (made : Substitutes ((key, key) :: placeholders) text result) :
    places key.toList text ≤ places key.toList result := by
  have isKey := areKeys.head
  induction made using Substitutes.apart with
  | done => exact Nat.le_refl _
  | own _ ih =>
      rw [isKey.places_self, isKey.places_self]
      exact Nat.add_le_add_right ih 1
  | others member _ ih =>
      rw [areKeys.places_other member]
      exact ih.trans (places_le_append _ _ _)
  | keep isFree _ ih =>
      rw [places_cons, if_neg (isFree _ List.mem_cons_self)]
      exact ih.trans (places_le_append _ [_] _)

/-- If the key has no new places, then replacing it is the same as to substitute it, too. -/
theorem Substitutes.replace (areKeys : AreKeys ((key, value) :: placeholders))
    (made : Substitutes ((key, key) :: placeholders) text result)
    (isCalm : places key.toList result = places key.toList text) :
    ∃ final, Substitutes [(key, value)] result final ∧
      Substitutes ((key, value) :: placeholders) text final := by
  have isKey := areKeys.head
  induction made using Substitutes.apart with
  | done => exact ⟨[], .done, .done⟩
  | own _ ih =>
      rw [isKey.places_self, isKey.places_self] at isCalm
      obtain ⟨final, alone, along⟩ := ih (Nat.add_right_cancel isCalm)
      exact ⟨value.toList ++ final, .key (List.mem_singleton_self _) alone,
        .key List.mem_cons_self along⟩
  | @others _ own _ result member isMade ih =>
      -- No place was lost, so none begins in the value, and the rest has none that is new.
      rw [areKeys.places_other member] at isCalm
      have atLeast := isMade.places_le areKeys
      have atMost := places_le_append key.toList own.toList result
      obtain ⟨final, alone, along⟩ := ih (by omega)
      exact ⟨own.toList ++ final, alone.append_calm (by omega),
        .key (List.mem_cons_of_mem _ member) along⟩
  | @keep character _ _ isFree isMade ih =>
      rw [places_cons, places_cons, if_neg (isFree _ List.mem_cons_self)] at isCalm
      have atLeast := isMade.places_le areKeys
      split at isCalm
      · omega
      · rename_i isStill
        obtain ⟨final, alone, along⟩ := ih isCalm
        exact ⟨character :: final, .keep (by simpa using isStill) alone,
          .keep (by simpa using isFree) along⟩

theorem Unnested.of_append (unnested : Unnested (part ++ rest)) : Unnested rest :=
  fun before between after isRest =>
    unnested (part ++ before) between after (by simp only [isRest, List.append_assoc])

/-- Up to the first brace that closes, nothing is substituted if no brace opens before it. -/
theorem Substitutes.prefix_of_unnested (areKeys : AreKeys placeholders)
    (made : Substitutes placeholders text result)
    (closes : ∀ between after, text = between ++ '{' :: after → '}' ∈ between)
    (unclosed : '}' ∉ name) (isPrefix : name ++ ['}'] <+: result) : name ++ ['}'] <+: text := by
  induction made generalizing name with
  | done =>
      rw [List.prefix_nil] at isPrefix
      simp at isPrefix
  | key member _ _ =>
      obtain ⟨inner, isKey, -⟩ := (areKeys.keys _ member).exists_cons
      rw [isKey] at closes
      nomatch closes [] _ rfl
  | @keep character rest result _ _ ih =>
      cases name with
      | nil =>
          rw [List.nil_append, List.cons_prefix_cons] at isPrefix ⊢
          exact ⟨isPrefix.1, List.nil_prefix⟩
      | cons first name =>
          rw [List.cons_append, List.cons_prefix_cons] at isPrefix ⊢
          rw [List.mem_cons, not_or] at unclosed
          refine ⟨isPrefix.1, ih (fun between after isRest => ?_) unclosed.2 isPrefix.2⟩
          have closed := closes (character :: between) after (by rw [isRest, List.cons_append])
          rw [← isPrefix.1] at closed
          exact List.mem_of_ne_of_mem unclosed.1 closed

/-- Values in which no brace opens make no key in a text with its braces side by side. -/
theorem Substitutes.places_eq (areKeys : AreKeys ((key, value) :: placeholders))
    (made : Substitutes ((key, key) :: placeholders) text result)
    (unopened : ∀ placeholder ∈ placeholders, '{' ∉ placeholder.2.toList)
    (unnested : Unnested text) : places key.toList result = places key.toList text := by
  have isKey := areKeys.head
  induction made using Substitutes.apart with
  | done => rfl
  | own _ ih => rw [isKey.places_self, isKey.places_self, ih unnested.of_append]
  | others member _ ih =>
      rw [isKey.places_append (unopened _ member), areKeys.places_other member,
        ih unnested.of_append]
  | @keep character rest _ isFree isMade ih =>
      have isLonger : Unnested ([character] ++ rest) := unnested
      rw [places_cons, places_cons, if_neg (isFree _ List.mem_cons_self), ih isLonger.of_append,
        if_neg]
      -- A key that begins here now would have closed before anything was substituted in it.
      intro begins
      refine isFree _ List.mem_cons_self ?_
      by_cases opens : character = '{'
      · subst opens
        obtain ⟨inner, isName, -, unclosed⟩ := isKey
        dsimp only
        rw [isName, List.cons_append, List.cons_prefix_cons] at begins ⊢
        refine ⟨rfl, isMade.prefix_of_unnested areKeys.same ?_ unclosed begins.2⟩
        rintro between after rfl
        exact unnested [] between after rfl
      · exact absurd begins (isKey.not_prefix_cons opens)

/-! ## What a replacement changes -/

theorem differences_self (text : List Char) : differences text text = 0 := by
  induction text with
  | nil => rfl
  | cons character rest ih => simpa [differences] using ih

theorem differences_append {first second : List Char} (same : first.length = second.length) :
    differences (first ++ part) (second ++ rest) =
      differences first second + differences part rest := by
  rw [differences, List.zip_append same, List.countP_append]
  rfl

theorem eq_of_differences {first second : List Char} (same : first.length = second.length)
    (isNone : differences first second = 0) : first = second := by
  induction first generalizing second with
  | nil => exact (List.length_eq_zero_iff.mp same.symm).symm
  | cons character first ih =>
      cases second with
      | nil => contradiction
      | cons other second =>
          rw [differences, List.zip_cons_cons, List.countP_cons, Nat.add_eq_zero_iff] at isNone
          obtain rfl : character = other := by simpa using isNone.2
          rw [ih (Nat.succ.inj same) isNone.1]

/-- How much longer a text gets by a key that is substituted, and, if the value is as long as the
key, in how many places it changes, depends only on how often the key stands there. -/
theorem Substitutes.exists_kept (areKeys : AreKeys ((key, value) :: placeholders))
    (made : Substitutes ((key, value) :: placeholders) text result) :
    ∃ kept, Substitutes ((key, key) :: placeholders) text kept ∧
      result.length + places key.toList text * key.toList.length =
        kept.length + places key.toList text * value.toList.length ∧
      (value.toList.length = key.toList.length → result.length = kept.length ∧
        differences result kept =
          places key.toList text * differences value.toList key.toList) := by
  have isKey := areKeys.head
  induction made using Substitutes.apart with
  | done => exact ⟨[], .done, by simp [isKey.places_nil], by simp [isKey.places_nil, differences]⟩
  | own _ ih =>
      obtain ⟨kept, isKept, lengths, changes⟩ := ih
      refine ⟨key.toList ++ kept, .key List.mem_cons_self isKept, ?_, fun same => ?_⟩
      · simp only [isKey.places_self, Nat.add_mul, List.length_append, Nat.one_mul]
        omega
      · obtain ⟨isLength, isChange⟩ := changes same
        rw [differences_append same, isChange, isKey.places_self, Nat.add_mul, Nat.one_mul,
          Nat.add_comm]
        simp [same, isLength]
  | @others _ own _ _ member _ ih =>
      obtain ⟨kept, isKept, lengths, changes⟩ := ih
      rw [areKeys.places_other member]
      refine ⟨own.toList ++ kept, .key (List.mem_cons_of_mem _ member) isKept, ?_, fun same => ?_⟩
      · simp only [List.length_append]
        omega
      · obtain ⟨isLength, isChange⟩ := changes same
        rw [differences_append rfl, differences_self, isChange, Nat.zero_add]
        simp [isLength]
  | @keep character _ _ isFree _ ih =>
      obtain ⟨kept, isKept, lengths, changes⟩ := ih
      rw [places_cons, if_neg (isFree _ List.mem_cons_self), Nat.add_zero]
      refine ⟨character :: kept, .keep (by simpa using isFree) isKept, ?_, fun same => ?_⟩
      · simp only [List.length_cons]
        omega
      · obtain ⟨isLength, isChange⟩ := changes same
        exact ⟨congrArg (· + 1) isLength, by simpa [differences] using isChange⟩

/-- A key that is replaced in a text with other keys substituted is substituted along with them just
when it has no places there but those that it had before, or is its own value. -/
theorem Substitutes.replace_iff (areKeys : AreKeys ((key, value) :: placeholders))
    (made : Substitutes placeholders text result) {final : List Char}
    (replaced : Substitutes [(key, value)] result final) :
    Substitutes ((key, value) :: placeholders) text final ↔
      value = key ∨ places key.toList result = places key.toList text := by
  have isAlone : AreKeys [(key, value)] :=
    ⟨by simpa using areKeys.head, List.nodup_singleton key⟩
  have made := (substitutes_self_iff areKeys).mpr made
  constructor
  · intro along
    obtain ⟨kept, isKept, lengths, changes⟩ := along.exists_kept areKeys
    obtain ⟨still, isStill, ownLengths, ownChanges⟩ := replaced.exists_kept isAlone
    rw [isKept.unique areKeys.same made] at lengths changes
    rw [((substitutes_self_iff isAlone).mp isStill).unique isAlone.tail
      (substitutes_nil result)] at ownLengths ownChanges
    -- Values as long as the key leave every place where it is, others change the length.
    by_cases same : value.toList.length = key.toList.length
    · have counts := (ownChanges same).2.symm.trans (changes same).2
      rcases Nat.eq_zero_or_pos (differences value.toList key.toList) with none | some
      · exact .inl (String.toList_inj.mp (eq_of_differences same none))
      · exact .inr (Nat.eq_of_mul_eq_mul_right some counts)
    · right
      zify at *
      have noDifference : ((places key.toList result : ℤ) - places key.toList text) *
          (value.toList.length - key.toList.length) = 0 := by linarith
      rcases mul_eq_zero.mp noDifference with isCalm | isSame
      · linarith
      · exact absurd (by linarith) same
  · rintro (rfl | isCalm)
    · have isSame := (substitutes_self_iff isAlone).mp replaced
      rw [isSame.unique isAlone.tail (substitutes_nil result)]
      exact made
    · obtain ⟨again, alone, along⟩ := made.replace areKeys isCalm
      rw [replaced.unique isAlone alone]
      exact along

end Polyglot
