import Polyglot.Compile.Executor
import Polyglot.Proofs.Text.Trimming
import Polyglot.Run.Aggregator
import Polyglot.Toolchain.Executor

/-!
# Trimmed results

A result that is collected from the output of a run is trimmed, and a toolchain trims whatever it
reports.  What is reported of a compilation is put together from texts of the compiler, so it is
trimmed only if these end well.
-/

namespace Polyglot

open Text

namespace RunResult

/-- Trimming leaves both texts of a result as they are. -/
structure IsTrimmed (result : RunResult) : Prop where
  stdout : Text.IsTrimmed result.stdout
  stderr : Text.IsTrimmed result.stderr

/-- A result was collected from the output of a run. -/
def IsCollected (result : RunResult) : Prop := ∃ output : Aggregator, result = output.finish

/-- If there is a result, it was collected. -/
def AllCollected (returned : Option RunResult) : Prop :=
  ∀ result, returned = some result → result.IsCollected

variable {result : RunResult}

theorem IsCollected.isTrimmed (collected : result.IsCollected) : result.IsTrimmed := by
  obtain ⟨output, rfl⟩ := collected
  exact ⟨isTrimmed_trim output.stdout, isTrimmed_trim output.stderr⟩

theorem IsCollected.diagnostics (collected : result.IsCollected) : result.diagnostics = [] := by
  obtain ⟨output, rfl⟩ := collected
  rfl

theorem allCollected_none : AllCollected none := by
  intro result found
  contradiction

theorem allCollected_finish (output : Aggregator) : AllCollected (some output.finish) := by
  intro result found
  exact ⟨output, (Option.some.inj found).symm⟩

theorem isTrimmed_success {stdout : String} :
    (success stdout).IsTrimmed ↔ Text.IsTrimmed stdout :=
  ⟨fun trimmed => trimmed.stdout, fun trimmed => ⟨trimmed, isTrimmed_iff.mpr (.inl rfl)⟩⟩

theorem isTrimmed_failure {stderr : String} :
    (failure stderr).IsTrimmed ↔ Text.IsTrimmed stderr :=
  ⟨fun trimmed => trimmed.stderr, fun trimmed => ⟨isTrimmed_iff.mpr (.inl rfl), trimmed⟩⟩

end RunResult

/-! ## Toolchains -/

namespace Toolchain

variable {ran : Except ToolchainError Output} {result : RunResult}

theorem endsVisibly_toString (code : Int) : EndsVisibly (toString code) := by
  have digits (value : Nat) : EndsVisibly (Nat.repr value) := by
    obtain ⟨last, isLast⟩ :=
      Option.isSome_iff_exists.mp (List.getLast?_isSome.mpr (@Nat.toDigits_ne_nil value 10))
    exact ⟨last, by rw [Nat.repr, String.toList_ofList, isLast], isBlank_of_isDigit
      (Nat.isDigit_of_mem_toDigits (by decide) (by decide) (List.mem_of_getLast? isLast))⟩
  cases code with
  | ofNat value => exact digits value
  | negSucc value => exact (digits value.succ).append "-"

/-- What is said of how a program ended has no blanks at its ends. -/
theorem Output.visible_statusText? (output : Output) {status : String}
    (said : output.statusText? = some status) : BeginsVisibly status ∧ EndsVisibly status := by
  simp only [statusText?] at said
  split at said
  · contradiction
  · rename_i code _ _
    obtain rfl := Option.some.inj said
    have begins : BeginsVisibly "Process exited with code " := by decide
    exact ⟨begins.append _, (endsVisibly_toString code).append _⟩
  · obtain rfl := Option.some.inj said
    exact ⟨by decide, by decide⟩

theorem Output.isTrimmed_toResult (output : Output) : output.toResult.IsTrimmed where
  stdout := by
    simp only [toResult]
    split
    · decide
    · exact isTrimmed_trim output.stdout
  stderr := by
    have trimmed := isTrimmed_trim output.stderr
    simp only [toResult]
    split
    · exact trimmed
    · rename_i status said
      obtain ⟨begins, ends⟩ := output.visible_statusText? said
      split
      · exact isTrimmed_of_visible begins ends
      · rename_i isText
        rcases isTrimmed_iff.mp trimmed with none | ⟨visible, -⟩
        · rw [none] at isText
          contradiction
        · exact isTrimmed_of_visible ((visible.append _).append _) (ends.append _)

theorem isTrimmed_cancelledResult : cancelledResult.IsTrimmed :=
  RunResult.isTrimmed_failure.mpr (by decide)

/-- Whatever a toolchain reports is trimmed. -/
theorem isTrimmed_resultOf (returned : resultOf ran = .ok result) : result.IsTrimmed := by
  simp only [resultOf] at returned
  split at returned
  · rename_i output
    rw [← Except.ok.inj returned]
    exact output.isTrimmed_toResult
  · rw [← Except.ok.inj returned]
    exact ⟨isTrimmed_iff.mpr (.inl rfl), isTrimmed_trim _⟩
  · rw [← Except.ok.inj returned]
    exact RunResult.isTrimmed_failure.mpr (isTrimmed_trim _)
  · contradiction

/-- A toolchain points to places in code only if it could not compile it. -/
theorem exists_details_of_resultOf (returned : resultOf ran = .ok result)
    (told : result.diagnostics ≠ []) : ∃ details, ran = .error (.compile details) := by
  simp only [resultOf] at returned
  split at returned
  · rw [← Except.ok.inj returned] at told
    contradiction
  · rename_i details
    exact ⟨details, rfl⟩
  · rw [← Except.ok.inj returned] at told
    contradiction
  · contradiction

end Toolchain

/-! ## Compilers -/

/-- The code that a compilation gave. -/
def Compilation.given? (compilation : Compilation) : Option String :=
  if compilation.success then compilation.code else none

namespace Compile

/-- What a compilation leaves to report has no blanks at its end: code that is only shown is not
blank, and the last of the compiler's messages ends in a character that is not. -/
def Reportable (delegated : Bool) (compilation : Compilation) : Prop :=
  match compilation.given? with
  | some code => delegated = true ∨ isBlankText code = false
  | none => EndsVisibly compilation.failureText

variable {delegated : Bool} {compilation : Compilation} {result : RunResult}

theorem verdict_of_given {code : String} (given : compilation.given? = some code) :
    verdict delegated compilation =
      if delegated then .run code
      else .result (.success s!"Successfully compiled to JavaScript:\n\n{trim code}") := by
  obtain ⟨success, made, errors⟩ := compilation
  cases success with
  | false => contradiction
  | true =>
      obtain rfl : made = some code := given
      rfl

theorem verdict_of_not_given (refused : compilation.given? = none) :
    verdict delegated compilation = .result (refusal compilation) := by
  obtain ⟨success, made, errors⟩ := compilation
  cases success with
  | false => rfl
  | true =>
      obtain rfl : made = none := refused
      rfl

/-- What is reported of a compilation is trimmed exactly if it has no blanks at its end. -/
theorem isTrimmed_iff_reportable (judged : verdict delegated compilation = .result result) :
    result.IsTrimmed ↔ Reportable delegated compilation := by
  cases given : compilation.given? with
  | some code =>
      rw [verdict_of_given given] at judged
      split at judged
      · contradiction
      · rename_i alone
        have isHeaded :
            Text.IsTrimmed ("Successfully compiled to JavaScript:\n\n" ++ trim code) ↔
              EndsVisibly (trim code) :=
          isTrimmed_append_iff (by decide) (by decide)
        rw [← Verdict.result.inj judged, RunResult.isTrimmed_success, Reportable, given]
        exact isHeaded.trans (endsVisibly_trim_iff.trans (by simp [alone]))
  | none =>
      rw [verdict_of_not_given given] at judged
      have isHeaded : Text.IsTrimmed ("Compilation failed:\n" ++ compilation.failureText) ↔
          EndsVisibly compilation.failureText :=
        isTrimmed_append_iff (by decide) (by decide)
      rw [← Verdict.result.inj judged, Reportable, given]
      refine ⟨fun trimmed => isHeaded.mp trimmed.stderr, fun ends => ?_⟩
      exact ⟨isTrimmed_iff.mpr (.inl rfl), isHeaded.mpr ends⟩

/-- Compiled code that is to be run is not reported, whatever it ends in. -/
theorem reportable_of_run {made : String} (judged : verdict delegated compilation = .run made) :
    Reportable delegated compilation := by
  cases given : compilation.given? with
  | some code =>
      rw [verdict_of_given given] at judged
      rw [Reportable, given]
      split at judged
      · exact .inl ‹_›
      · contradiction
  | none =>
      rw [verdict_of_not_given given] at judged
      contradiction

/-- A compile executor points to places in code only if the compiler gave no code. -/
theorem not_given_of_diagnostics (judged : verdict delegated compilation = .result result)
    (told : result.diagnostics ≠ []) : compilation.given? = none := by
  cases given : compilation.given? with
  | none => rfl
  | some code =>
      rw [verdict_of_given given] at judged
      split at judged
      · contradiction
      · rw [← Verdict.result.inj judged] at told
        contradiction

end Compile

end Polyglot
