import Polyglot.Facade.Basic
import Polyglot.Proofs.Host.Duty

/-!
# The executors that a facade makes

A facade makes an executor in one of four ways.  Whatever is to hold of a new executor
holds if it does in each of them.
-/

namespace Polyglot.Facade

/-- A host after an executor was made for a request, and the executor. -/
inductive Made (host : Host) (facade : Facade) : Host → Executor → Prop where
  /-- It is a new sandbox executor, or delegates to one. -/
  | sandbox {executor : Executor} (launcher : Nat) (id : String)
      (isSandbox : executor.sandbox? = some host.sandboxes.length) :
      Made host facade (host.addSandbox facade.hook launcher id).1 executor
  | worker (launcher : Nat) (id : String) (timeout : Duration) :
      Made host facade (host.addWorker facade.hook facade.registry launcher id timeout).1
        (.worker host.workers.length)
  /-- It only compiles. -/
  | alone {compiled : Compile.Executor} (alone : compiled.delegate = none) :
      Made host facade host (.compiled compiled)
  | toolchain (toolchain : Nat) (id : String) (artifacts : Toolchain.Artifacts) :
      Made host facade (host.addToolchain toolchain id artifacts).1
        (.toolchain host.toolchainExecutors.length)

variable {host after : Host} {facade : Facade} {id : String} {language : Language} {number : Nat}

theorem made_sandboxFor {executor : Executor} (isSandbox : executor.sandbox? = some number)
    (made : sandboxFor host facade id = .ok (after, number)) : Made host facade after executor := by
  simp only [sandboxFor] at made
  split at made
  · contradiction
  · cases made
    exact .sandbox _ _ isSandbox

theorem made_workerFor (made : workerFor host facade id = .ok (after, number)) :
    Made host facade after (.worker number) := by
  simp only [workerFor] at made
  split at made
  · contradiction
  · split at made
    · contradiction
    · cases made
      exact .worker _ _ _

theorem made_compilerFor {compiled : Compile.Executor}
    (made : compilerFor host facade id language = .ok (after, compiled)) :
    Made host facade after (.compiled compiled) := by
  simp only [compilerFor] at made
  split at made
  · split at made
    · cases made
      exact .alone rfl
    · split at made
      · cases made
      · rename_i delegateId _ _
        cases sandbox : sandboxFor host facade delegateId with
        | error obstacle =>
            rw [sandbox] at made
            cases made
        | ok pair =>
            rw [sandbox] at made
            cases made
            exact made_sandboxFor rfl sandbox
  · contradiction

theorem made_toolchainFor (made : toolchainFor host facade id = .ok (after, number)) :
    Made host facade after (.toolchain number) := by
  simp only [toolchainFor] at made
  split at made
  · contradiction
  · cases made
    exact .toolchain _ _ _

/-- An executor is made in one of the four ways, and of the kind that the language says. -/
theorem made_executorFor {executor : Executor}
    (made : executorFor host facade id language = .ok (after, executor)) :
    Made host facade after executor ∧ language.backend = executor.backend := by
  simp only [executorFor] at made
  split at made
  · rename_i isSandbox
    cases sandbox : sandboxFor host facade id with
    | error obstacle => simp [sandbox, Except.map] at made
    | ok pair =>
        simp only [sandbox, Except.map] at made
        cases made
        exact ⟨made_sandboxFor rfl sandbox, isSandbox⟩
  · rename_i isWorker
    cases worker : workerFor host facade id with
    | error obstacle => simp [worker, Except.map] at made
    | ok pair =>
        simp only [worker, Except.map] at made
        cases made
        exact ⟨made_workerFor worker, isWorker⟩
  · rename_i isTranspile
    cases compiler : compilerFor host facade id language with
    | error obstacle => simp [compiler, Except.map] at made
    | ok pair =>
        simp only [compiler, Except.map] at made
        cases made
        exact ⟨made_compilerFor compiler, isTranspile⟩
  · rename_i isToolchain
    cases toolchain : toolchainFor host facade id with
    | error obstacle => simp [toolchain, Except.map] at made
    | ok pair =>
        simp only [toolchain, Except.map] at made
        cases made
        exact ⟨made_toolchainFor toolchain, isToolchain⟩

end Polyglot.Facade
