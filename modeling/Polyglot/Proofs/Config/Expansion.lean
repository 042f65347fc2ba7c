import Polyglot.Compile.Command
import Polyglot.Proofs.Config.Substitution
import Polyglot.Toolchain.Command

/-!
# The expansion of commands

The placeholders of a command are replaced one after the other, so what was put in for one of them
is looked at again for those that come after it.  The expansion is the substitution of all of them
at once exactly as long as no key turns up that the command itself did not have.
-/

namespace Polyglot

open Text

/-- The expansion of a command is what the placeholders, all at once, make of it, and so it is for
the placeholders up to any of them. -/
def Verbatim (placeholders : List Placeholder) (command : List String) : Prop :=
  ∀ earlier, earlier <+: placeholders →
    List.Forall₂ (fun word expanded => Substitutes earlier word.toList expanded.toList)
      command (expandCommand earlier command)

/-- A key that is to be replaced stands only where it stood in the beginning, unless it is its own
value. -/
def Undisturbed (placeholders : List Placeholder) (word : String) : Prop :=
  ∀ earlier key value later, placeholders = earlier ++ (key, value) :: later →
    value = key ∨
      places key.toList (expandWord earlier word).toList = places key.toList word.toList

/-- What is known of the expansion of a command. -/
structure Expands (placeholders : List Placeholder) (command : List String) : Prop where
  /-- It is a substitution just when no key turns up that the command did not have. -/
  verbatim_iff : Verbatim placeholders command ↔ ∀ word ∈ command, Undisturbed placeholders word
  /-- Then it does not matter in which order the placeholders are. -/
  anyOrder : ∀ others : List Placeholder, others.Perm placeholders →
    Verbatim placeholders command → Verbatim others command →
      expandCommand others command = expandCommand placeholders command
  /-- So it is if no brace opens in a value and braces are side by side in the command. -/
  unnested : (∀ placeholder ∈ placeholders, '{' ∉ placeholder.2.toList) →
    (∀ word ∈ command, Unnested word.toList) →
      ∀ others : List Placeholder, others.Perm placeholders → Verbatim others command

variable {placeholders earlier others : List Placeholder} {key value word : String}
  {command : List String}

/-! ## Parts of lists of placeholders -/

theorem AreKeys.initial (areKeys : AreKeys placeholders) (isPrefix : earlier <+: placeholders) :
    AreKeys earlier where
  keys placeholder member := areKeys.keys placeholder (isPrefix.subset member)
  distinct := areKeys.distinct.sublist (isPrefix.sublist.map _)

theorem AreKeys.perm (areKeys : AreKeys placeholders) (same : others.Perm placeholders) :
    AreKeys others where
  keys placeholder member := areKeys.keys placeholder (same.subset member)
  distinct := (same.map _).nodup_iff.mpr areKeys.distinct

/-! ## Words -/

/-- The expansion of a word is the substitution of all placeholders at once. -/
def IsSubstituted (placeholders : List Placeholder) (word : String) : Prop :=
  Substitutes placeholders word.toList (expandWord placeholders word).toList

theorem verbatim_iff : Verbatim placeholders command ↔
    ∀ earlier, earlier <+: placeholders → ∀ word ∈ command, IsSubstituted earlier word := by
  simp only [Verbatim, expandCommand, List.forall₂_map_right_iff, List.forall₂_same, IsSubstituted]

theorem isSubstituted_nil (word : String) : IsSubstituted [] word := substitutes_nil word.toList

theorem expandWord_concat : expandWord (earlier ++ [(key, value)]) word =
    replaceAll key value (expandWord earlier word) := by
  rw [expandWord, List.foldl_append]
  rfl

/-- One more placeholder is substituted with the others just when its key did not turn up. -/
theorem IsSubstituted.concat_iff (isSubstituted : IsSubstituted earlier word)
    (areKeys : AreKeys (earlier ++ [(key, value)])) :
    IsSubstituted (earlier ++ [(key, value)]) word ↔ value = key ∨
      places key.toList (expandWord earlier word).toList = places key.toList word.toList := by
  have same : (earlier ++ [(key, value)]).Perm ((key, value) :: earlier) :=
    List.perm_append_singleton _ _
  have areKeys := areKeys.perm same.symm
  rw [IsSubstituted, expandWord_concat,
    ← isSubstituted.replace_iff areKeys (substitutes_replaceAll areKeys.head _ _)]
  exact ⟨fun made => made.congr fun _ => same.mem_iff,
    fun made => made.congr fun _ => same.symm.mem_iff⟩

theorem isSubstituted_iff (areKeys : AreKeys placeholders) :
    (∀ earlier, earlier <+: placeholders → IsSubstituted earlier word) ↔
      Undisturbed placeholders word := by
  constructor
  · rintro isSubstituted earlier key value later rfl
    have isPrefix : earlier ++ [(key, value)] <+: earlier ++ (key, value) :: later :=
      ⟨later, by simp⟩
    exact ((isSubstituted earlier (List.prefix_append _ _)).concat_iff
      (areKeys.initial isPrefix)).mp (isSubstituted _ isPrefix)
  · intro undisturbed earlier isPrefix
    induction earlier using List.reverseRecOn with
    | nil => exact isSubstituted_nil word
    | append_singleton earlier placeholder ih =>
        obtain ⟨later, isSplit⟩ := isPrefix
        have before := ih ⟨placeholder :: later, by simpa using isSplit⟩
        refine (before.concat_iff (areKeys.initial ⟨later, isSplit⟩)).mpr ?_
        exact undisturbed earlier _ _ later (by simpa using isSplit.symm)

/-- Values in which no brace opens disturb nothing in a word with its braces side by side. -/
theorem isSubstituted_of_unnested (areKeys : AreKeys placeholders)
    (unopened : ∀ placeholder ∈ placeholders, '{' ∉ placeholder.2.toList)
    (unnested : Unnested word.toList) : IsSubstituted placeholders word := by
  induction placeholders using List.reverseRecOn with
  | nil => exact isSubstituted_nil word
  | append_singleton earlier placeholder ih =>
      obtain ⟨key, value⟩ := placeholder
      have unopened (placeholder : Placeholder) (member : placeholder ∈ earlier) :=
        unopened placeholder (List.mem_append_left _ member)
      have before := ih (areKeys.initial (List.prefix_append _ _)) unopened
      refine (before.concat_iff areKeys).mpr (.inr ?_)
      have areKeys := areKeys.perm (List.perm_append_singleton (key, value) earlier).symm
      exact ((substitutes_self_iff areKeys).mpr before).places_eq areKeys unopened unnested

/-- Braces in braces make a key of a value and what is next to it. -/
example : expandWord [("\x7ba\x7d", "b"), ("\x7bb\x7d", "x")] "\x7b\x7ba\x7d\x7d" = "x" := by
  decide

/-! ## Commands -/

theorem Verbatim.unique (isVerbatim : Verbatim placeholders command)
    (alsoVerbatim : Verbatim others command) (areKeys : AreKeys placeholders)
    (same : others.Perm placeholders) :
    expandCommand others command = expandCommand placeholders command := by
  refine List.map_congr_left fun word member => String.toList_inj.mp ?_
  have expanded := verbatim_iff.mp isVerbatim _ List.prefix_rfl word member
  have alsoExpanded := verbatim_iff.mp alsoVerbatim _ List.prefix_rfl word member
  exact (alsoExpanded.congr fun _ => same.mem_iff).unique areKeys expanded

theorem expands_of_areKeys (areKeys : AreKeys placeholders) (command : List String) :
    Expands placeholders command where
  verbatim_iff := by
    rw [Polyglot.verbatim_iff]
    constructor
    · exact fun all word member => (isSubstituted_iff areKeys).mp fun earlier isPrefix =>
        all earlier isPrefix word member
    · exact fun all earlier isPrefix word member =>
        (isSubstituted_iff areKeys).mpr (all word member) earlier isPrefix
  anyOrder _ same isVerbatim alsoVerbatim := isVerbatim.unique alsoVerbatim areKeys same
  unnested unopened unnested others same := by
    refine Polyglot.verbatim_iff.mpr fun earlier isPrefix word member => ?_
    refine isSubstituted_of_unnested ((areKeys.perm same).initial isPrefix) ?_
      (unnested word member)
    exact fun placeholder among => unopened placeholder (same.subset (isPrefix.subset among))

/-! ## The placeholders that there are -/

theorem areKeys_toolchain (scratch : Toolchain.CommandPair.Scratch) (libraries : List String) :
    AreKeys (Toolchain.CommandPair.placeholders scratch libraries) where
  keys := by
    simp only [Toolchain.CommandPair.placeholders, List.forall_mem_cons]
    exact ⟨⟨"source".toList, by decide⟩, ⟨"output".toList, by decide⟩,
      ⟨"binary".toList, by decide⟩, ⟨"dir".toList, by decide⟩, ⟨"libs".toList, by decide⟩, nofun⟩
  distinct := by
    simp only [Toolchain.CommandPair.placeholders, List.map_cons, List.map_nil]
    decide

theorem areKeys_compiler (options : CompilerOptions) :
    AreKeys (Compile.CommandLine.placeholders options) where
  keys := by
    simp only [Compile.CommandLine.placeholders, List.forall_mem_cons]
    exact ⟨⟨"target".toList, by decide⟩, ⟨"module".toList, by decide⟩,
      ⟨"strict".toList, by decide⟩, nofun⟩
  distinct := by
    simp only [Compile.CommandLine.placeholders, List.map_cons, List.map_nil]
    decide

/-- Whatever the values are, commands are expanded so, and those of toolchains and compilers are,
because their placeholders are keys. -/
theorem expands_commands (command : List String) :
    (∀ placeholders, AreKeys placeholders → Expands placeholders command) ∧
      (∀ scratch libraries,
        Expands (Toolchain.CommandPair.placeholders scratch libraries) command) ∧
      ∀ options, Expands (Compile.CommandLine.placeholders options) command :=
  ⟨fun _ areKeys => expands_of_areKeys areKeys command,
    fun scratch libraries => expands_of_areKeys (areKeys_toolchain scratch libraries) command,
    fun options => expands_of_areKeys (areKeys_compiler options) command⟩

/-- A scratch directory with a source file. -/
def scratchWith (name : String) : Toolchain.CommandPair.Scratch where
  directory := "/tmp/runnr-scratch"
  source := "/tmp/runnr-scratch/" ++ name
  output := "/tmp/runnr-scratch/Main.class"
  tree := {}

theorem unnested_of_count {text : List Char} (isOnly : text.count '{' ≤ 1) : Unnested text := by
  rintro before between after rfl
  simp only [List.count_append, List.count_cons_self] at isOnly
  omega

/-- The usual command of a compiler, with the usual name of a source file. -/
theorem expands_commands_javac :
    Verbatim (Toolchain.CommandPair.placeholders (scratchWith "Main.java") [])
      ["javac", "\x7bsource\x7d"] := by
  have areKeys := areKeys_toolchain (scratchWith "Main.java") []
  refine ((expands_commands _).1 _ areKeys).unnested (by decide) ?_ _ (.refl _)
  simp only [List.forall_mem_cons]
  exact ⟨unnested_of_count (by decide), unnested_of_count (by decide), nofun⟩

/-- A source file whose name has a placeholder in it is compiled under another name. -/
theorem not_substitutes_source : ¬List.Forall₂
    (fun word expanded => Substitutes
      (Toolchain.CommandPair.placeholders (scratchWith "\x7bdir\x7d.sh") [])
      word.toList expanded.toList)
    ["\x7bsource\x7d"]
    (expandCommand (Toolchain.CommandPair.placeholders (scratchWith "\x7bdir\x7d.sh") [])
      ["\x7bsource\x7d"]) := by
  rintro (_ | ⟨made, -⟩)
  have right : Substitutes
      (Toolchain.CommandPair.placeholders (scratchWith "\x7bdir\x7d.sh") [])
      ("\x7bsource\x7d".toList ++ []) ((scratchWith "\x7bdir\x7d.sh").source.toList ++ []) :=
    .key List.mem_cons_self .done
  have same := made.unique (areKeys_toolchain _ _) right
  revert same
  decide +kernel

end Polyglot
