import Mathlib.Logic.Relation
import Polyglot.Proofs.Host.Results
import Polyglot.Proofs.Run.Diagnostics

/-!
# What a toolchain's results tell

A call of a toolchain executor that has a result was concluded in one of four ways.  The way can be
told from the result, although all text in it is that of a program or of a compiler: a program that
ran always has output, and each of the other ways has a heading of its own.
-/

namespace Polyglot.Toolchain

open Text

/-- How a call that has a result was concluded. -/
inductive Conclusion where
  /-- The program ran. -/
  | ran (output : Output)
  /-- It could not be compiled. -/
  | uncompiled (details : String)
  /-- It has no entry point. -/
  | entryless (details : String)
  /-- It was cancelled. -/
  | cancelled
  deriving Repr, DecidableEq

namespace Conclusion

/-- Whether two calls were concluded in the same way. -/
def isLike : Conclusion → Conclusion → Bool
  | ran _, ran _ | uncompiled _, uncompiled _ | entryless _, entryless _ | cancelled, cancelled =>
    true
  | _, _ => false

/-- What the toolchain answered, unless the call was cancelled. -/
def answer? : Conclusion → Option (Except ToolchainError Output)
  | ran output => some (.ok output)
  | uncompiled details => some (.error (.compile details))
  | entryless details => some (.error (.missingEntryPoint details))
  | cancelled => none

/-- The result of a call that was concluded so. -/
def Gives (conclusion : Conclusion) (result : RunResult) : Prop :=
  match conclusion.answer? with
  | some outcome => resultOf outcome = .ok result
  | none => result = cancelledResult

/-- A result tells how the call was concluded. -/
structure IsToldBy (conclusion : Conclusion) (result : RunResult) : Prop where
  /-- There is output just when the program ran. -/
  stdout : result.stdout ≠ "" ↔ ∃ output, conclusion = .ran output
  /-- There is no error just when the program ended well and did not complain. -/
  errors : result.hasErrors = false ↔ ∃ output, conclusion = .ran output ∧
    output.exitCode = some 0 ∧ isBlankText output.stderr = true
  /-- Places are pointed to only in code that was not compiled. -/
  pointed : result.diagnostics ≠ [] → ∃ details, conclusion = .uncompiled details
  /-- Then each line that is not blank is one diagnostic. -/
  described : ∀ details, conclusion = .uncompiled details →
    List.Forall₂ (fun line diagnostic => diagnostic.Describes line)
      ((lines details).filter (!isBlankText ·)) result.diagnostics
  /-- No call that was concluded in another way has the same result. -/
  apart : ∀ other : Conclusion, other.Gives result → other.isLike conclusion = true

end Conclusion

namespace Executor

variable {State : Type}

/-- What the toolchain, once it is prepared, makes of code that an executor is to run. -/
inductive Concludes (toolchain : Interface State) (state : State) (executor : Executor)
    (code : String) (conclusion : Conclusion) : Prop where
  | answered {prepared : State} {outcome : Except ToolchainError Output} :
      executor.destroyed = false →
      toolchain.prepare state executor.artifacts = (prepared, .ok ()) →
      (toolchain.run prepared code).2 = some outcome → conclusion.answer? = some outcome →
      Concludes toolchain state executor code conclusion
  | cancelled {prepared : State} :
      toolchain.prepare state executor.artifacts = (prepared, .ok ()) →
      (executor.destroyed = true ∨ (toolchain.run prepared code).2 = none) →
      conclusion = .cancelled → Concludes toolchain state executor code conclusion

end Executor

namespace Conclusion

variable {conclusion other : Conclusion} {output : Output} {returned : RunResult}

/-! ## The four results -/

/-- The result that a conclusion gives. -/
def result : Conclusion → RunResult
  | ran output => output.toResult
  | uncompiled details =>
    { stderr := trim ("Compilation failed:" ++ ("\n" ++ details))
      diagnostics := Diagnostic.ofText details }
  | entryless details =>
    .failure (trim ("Execution failed: missing entry point" ++ ("\n" ++ details)))
  | cancelled => cancelledResult

theorem resultOf_of_answer {outcome : Except ToolchainError Output}
    (answered : conclusion.answer? = some outcome) : resultOf outcome = .ok conclusion.result := by
  cases conclusion with
  | ran output =>
      cases answered
      rfl
  | uncompiled details =>
      cases answered
      rw [result, ← String.append_assoc]
      rfl
  | entryless details =>
      cases answered
      rw [result, ← String.append_assoc]
      rfl
  | cancelled => cases answered

theorem gives_iff : conclusion.Gives returned ↔ returned = conclusion.result := by
  rw [Gives]
  split
  · rename_i outcome answered
    rw [resultOf_of_answer answered, Except.ok.injEq, eq_comm]
  · rename_i unanswered
    cases conclusion with
    | cancelled => rfl
    | ran | uncompiled | entryless => cases unanswered

/-! ## What the results tell -/

/-- What the errors begin with, whatever follows. -/
def heading : Conclusion → String
  | ran _ => ""
  | uncompiled _ => "Compilation failed:"
  | entryless _ => "Execution failed: missing entry point"
  | cancelled => "Execution cancelled"

theorem begins_heading (conclusion : Conclusion) :
    conclusion.heading.toList <+: conclusion.result.stderr.toList := by
  cases conclusion with
  | ran output => exact List.nil_prefix
  | uncompiled details =>
      rw [heading, result]
      exact prefix_trim_append (by decide) (by decide) _
  | entryless details =>
      rw [heading, result]
      exact prefix_trim_append (by decide) (by decide) _
  | cancelled => exact List.prefix_rfl

theorem stdout_toResult_ne (output : Output) : output.toResult.stdout ≠ "" := by
  rw [Output.toResult]
  dsimp only
  split
  · decide
  · rename_i isText
    exact fun isEmpty => isText (String.isEmpty_iff.mpr isEmpty)

theorem stdout_iff : conclusion.result.stdout ≠ "" ↔ ∃ output, conclusion = .ran output := by
  cases conclusion with
  | ran output => exact iff_of_true (stdout_toResult_ne output) ⟨output, rfl⟩
  | uncompiled | entryless | cancelled =>
      refine iff_of_false (fun isText => isText rfl) ?_
      rintro ⟨_, ⟨⟩⟩

theorem statusText?_eq_none_iff : output.statusText? = none ↔ output.exitCode = some 0 := by
  rw [Output.statusText?]
  split <;> simp_all

theorem stderr_toResult_iff : output.toResult.stderr = "" ↔
    output.exitCode = some 0 ∧ isBlankText output.stderr = true := by
  rw [← statusText?_eq_none_iff, ← trim_eq_empty_iff, Output.toResult]
  dsimp only
  cases said : output.statusText? with
  | none => simp
  | some status =>
      obtain ⟨first, isFirst, -⟩ := (output.visible_statusText? said).1
      have isStatus : status ≠ "" := by
        rintro rfl
        contradiction
      refine iff_of_false ?_ fun isClean => Option.some_ne_none _ isClean.1
      dsimp only
      split
      · exact isStatus
      · exact fun isEmpty => isStatus (String.append_eq_empty_iff.mp isEmpty).2

theorem hasErrors_iff : conclusion.result.hasErrors = false ↔ ∃ output,
    conclusion = .ran output ∧ output.exitCode = some 0 ∧ isBlankText output.stderr = true := by
  rw [RunResult.hasErrors, Bool.not_eq_false', String.isEmpty_iff]
  have begins := begins_heading conclusion
  cases conclusion with
  | ran output =>
      rw [result, stderr_toResult_iff]
      constructor
      · exact fun isClean => ⟨output, rfl, isClean⟩
      · rintro ⟨_, ⟨⟩, isClean⟩
        exact isClean
  | uncompiled | entryless | cancelled =>
      refine iff_of_false (fun isEmpty => ?_) ?_
      · rw [isEmpty] at begins
        exact absurd (List.prefix_nil.mp begins) (by simp [heading])
      · rintro ⟨_, ⟨⟩, -⟩

theorem exists_details_of_diagnostics (told : conclusion.result.diagnostics ≠ []) :
    ∃ details, conclusion = .uncompiled details := by
  cases conclusion with
  | uncompiled details => exact ⟨details, rfl⟩
  | ran | entryless | cancelled => exact absurd rfl told

/-- Calls that have the same result were concluded in the same way. -/
theorem isLike_of_result (same : conclusion.result = other.result) :
    other.isLike conclusion = true := by
  have ran : (∃ output, conclusion = .ran output) ↔ ∃ output, other = .ran output := by
    rw [← stdout_iff, ← stdout_iff, same]
  have headings := List.prefix_or_prefix_of_prefix (begins_heading conclusion)
    (same ▸ begins_heading other)
  cases conclusion with
  | ran output =>
      obtain ⟨_, rfl⟩ := ran.mp ⟨output, rfl⟩
      rfl
  | uncompiled | entryless | cancelled =>
      cases other with
      | ran output =>
          obtain ⟨_, ⟨⟩⟩ := ran.mpr ⟨output, rfl⟩
      | uncompiled | entryless | cancelled =>
          first
          | rfl
          | exact absurd headings (by simp only [heading]; decide)

theorem isToldBy (gives : conclusion.Gives returned) : conclusion.IsToldBy returned := by
  obtain rfl := gives_iff.mp gives
  refine ⟨stdout_iff, hasErrors_iff, exists_details_of_diagnostics, ?_, fun other also => ?_⟩
  · rintro details rfl
    exact Diagnostic.describes_ofText details
  · exact isLike_of_result (gives_iff.mp also)

end Conclusion

/-! ## What executors return -/

namespace Executor

variable {State : Type} {toolchain : Interface State} {state : State} {executor after : Executor}
  {code : String} {outcome : Except ToolchainError Output} {result : RunResult}

theorem exists_answer_of_resultOf (isResult : resultOf outcome = .ok result) :
    ∃ conclusion : Conclusion, conclusion.answer? = some outcome ∧ conclusion.Gives result := by
  have gives {conclusion : Conclusion} (answered : conclusion.answer? = some outcome) :
      conclusion.Gives result := by
    rw [Conclusion.resultOf_of_answer answered] at isResult
    exact Conclusion.gives_iff.mpr (Except.ok.inj isResult).symm
  rw [resultOf.eq_def] at isResult
  split at isResult
  · exact ⟨.ran _, rfl, gives rfl⟩
  · exact ⟨.uncompiled _, rfl, gives rfl⟩
  · exact ⟨.entryless _, rfl, gives rfl⟩
  · contradiction

/-- A call either is over at once, or its program goes on and on and can only be cancelled. -/
theorem begin_execute (toolchain : Interface State) (state : State) (executor : Executor)
    (code : String) :
    (begin toolchain state executor (.execute code)).2 = .hanging ∧
        Concludes toolchain state executor code .cancelled ∨
      ∃ settled, (begin toolchain state executor (.execute code)).2 = .finished settled ∧
        ∀ result, settled = .ok (some result) → ∃ conclusion,
          Concludes toolchain state executor code conclusion ∧ conclusion.Gives result := by
  rcases isPrepared : toolchain.prepare state executor.artifacts with ⟨prepared, failed | ready⟩
  · exact .inr ⟨.error failed, by simp only [begin, isPrepared], nofun⟩
  · cases isDestroyed : executor.destroyed with
    | true =>
        refine .inr ⟨.ok (some cancelledResult), by simp [begin, isPrepared, isDestroyed], ?_⟩
        rintro result ⟨⟩
        exact ⟨.cancelled, .cancelled isPrepared (.inl isDestroyed) rfl, rfl⟩
    | false =>
        rcases isRun : toolchain.run prepared code with ⟨left, _ | outcome⟩
        · refine .inl ⟨by simp [begin, isPrepared, isDestroyed, isRun], ?_⟩
          exact .cancelled isPrepared (.inr (by rw [isRun])) rfl
        · refine .inr ⟨(resultOf outcome).map some, ?_, fun result isResult => ?_⟩
          · simp [begin, isPrepared, isDestroyed, isRun]
          · have made : resultOf outcome = .ok result := by
              cases made : resultOf outcome with
              | error cause => simp [made, Except.map] at isResult
              | ok given => simpa [made, Except.map] using isResult
            obtain ⟨conclusion, answered, gives⟩ := exists_answer_of_resultOf made
            exact ⟨conclusion, .answered isDestroyed isPrepared (by rw [isRun]) answered, gives⟩

/-- Whatever happens to an executor after a call that runs code, the call returns what its
conclusion gives, and that tells the conclusion. -/
theorem tells_conclusion
    (moved : Relation.ReflTransGen Moves (call toolchain state executor (.execute code)).2.1 after)
    (returned : after.outcome? executor.calls.length = some (.ok (some result))) :
    ∃ conclusion, Concludes toolchain state executor code conclusion ∧
      conclusion.Gives result ∧ conclusion.IsToldBy result := by
  have isCalled : (call toolchain state executor (.execute code)).2.1.calls =
      executor.calls ++ [(begin toolchain state executor (.execute code)).2] := rfl
  suffices ∃ conclusion, Concludes toolchain state executor code conclusion ∧
      conclusion.Gives result by
    obtain ⟨conclusion, concludes, gives⟩ := this
    exact ⟨conclusion, concludes, gives, conclusion.isToldBy gives⟩
  rcases begin_execute toolchain state executor code with
    ⟨hangs, concludes⟩ | ⟨settled, isSettled, concludes⟩
  · have returns : after.Returns executor.calls.length (· = cancelledResult) := by
      clear returned
      induction moved with
      | refl => exact ⟨by simp [isCalled], by simp [Executor.outcome?, isCalled, hangs]⟩
      | tail _ moves ih => exact ih.moves rfl moves
    exact ⟨.cancelled, concludes, returns.result result returned⟩
  · have ended : after.outcome? executor.calls.length = some settled := by
      clear returned
      induction moved with
      | refl => simp [Executor.outcome?, isCalled, isSettled]
      | tail _ moves ih => exact moves.outcome? ih
    exact concludes result (Option.some.inj (ended.symm.trans returned))

/-- A toolchain that always finds the same fault in the third line. -/
def faulty : Interface Unit where
  prepare _ _ := ((), .ok ())
  run _ _ := ((), some (.error (.compile "Main.java:3:9: ';' expected\n\n1 error\n")))

/-- What is returned of code that such a toolchain was given. -/
def faultFound : RunResult where
  stderr := "Compilation failed:\nMain.java:3:9: ';' expected\n\n1 error"
  diagnostics := [⟨"Main.java:3:9: ';' expected", some 3, some 9⟩, ⟨"1 error", none, none⟩]

/-- A call that such a toolchain answered, after its executor was destroyed. -/
theorem tells_conclusion_faulty : ∃ conclusion : Conclusion,
    Concludes faulty () ⟨"java", 0, {}, false, []⟩ "class Main" conclusion ∧
      conclusion.Gives faultFound ∧ conclusion.IsToldBy faultFound :=
  tells_conclusion (.single .destroy) (by decide +kernel)

end Executor

end Polyglot.Toolchain
