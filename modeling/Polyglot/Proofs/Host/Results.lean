import Polyglot.Proofs.Host.Refusal
import Polyglot.Proofs.Sandbox.Collecting
import Polyglot.Proofs.Worker.Collecting

/-!
# Results at a host

Whatever happens at a host, what its sandbox executors and its worker executors return was
collected from the output of a run, and its toolchains trim what they report.  Only what a compile
executor reports itself is put together from texts of the compiler as they are, so that alone can
end in blanks.
-/

namespace Polyglot

namespace Toolchain.Executor

variable {executor after : Executor} {number : Nat} {holds : RunResult → Prop}

/-- A call was made, and what it returns has a property. -/
structure Returns (executor : Executor) (number : Nat) (holds : RunResult → Prop) : Prop where
  made : number < executor.calls.length
  result : ∀ result, executor.outcome? number = some (.ok (some result)) → holds result

theorem Returns.set (returns : executor.Returns number holds) (other : Nat) {phase : Phase}
    (result : ∀ result, phase = .finished (.ok (some result)) → holds result) :
    Returns { executor with calls := executor.calls.set other phase } number holds where
  made := by simpa using returns.made
  result returned isResult := by
    by_cases same : other = number
    · have ended := getElem?_of_outcome? isResult
      rw [same, List.getElem?_set_self returns.made] at ended
      exact result returned (Option.some.inj ended)
    · refine returns.result returned ?_
      simpa only [Executor.outcome?, List.getElem?_set_ne same] using isResult

/-- Once a call was made, nothing can make it return anything else but that it was cancelled. -/
theorem Returns.moves (returns : executor.Returns number holds) (cancelled : holds cancelledResult)
    (moves : executor.Moves after) : after.Returns number holds := by
  cases moves with
  | stays => exact returns
  | call phase =>
      refine ⟨Nat.lt_of_lt_of_le returns.made (by simp), fun result isResult => ?_⟩
      refine returns.result result ?_
      simpa only [Executor.outcome?, List.getElem?_append_left returns.made] using isResult
  | @turn other _ turned =>
      simp only [Executor.turn] at turned
      obtain ⟨phase, -, turned⟩ := Option.bind_eq_some_iff.mp turned
      split at turned
      · split at turned
        · cases turned
          refine returns.set other fun result same => ?_
          cases same
          exact cancelled
        · contradiction
      · contradiction
  | abandon other =>
      simp only [Executor.abandon]
      split
      · exact returns
      · exact returns.set other fun result same => by contradiction
  | destroy => exact ⟨returns.made, returns.result⟩

/-- What a new call returns with code, it made of what the toolchain answered. -/
theorem returns_call {State : Type} (executor : Executor) (toolchain : Interface State)
    (state : State) (code : String) (cancelled : holds cancelledResult)
    (reported : ∀ (ran : Except ToolchainError Output) (result : RunResult),
      (toolchain.run (toolchain.prepare state executor.artifacts).1 code).2 = some ran →
        resultOf ran = .ok result → holds result) :
    (executor.call toolchain state (.execute code)).2.1.Returns executor.calls.length holds := by
  refine ⟨by simp [call], fun result isResult => ?_⟩
  have ended := getElem?_of_outcome? isResult
  simp only [call, List.getElem?_concat_length, Option.some.injEq] at ended
  rcases prepared : toolchain.prepare state executor.artifacts with ⟨after, outcome⟩
  rw [prepared] at reported
  simp only [begin, prepared] at ended
  cases outcome with
  | error cause => cases ended
  | ok =>
      cases destroyed : executor.destroyed with
      | true =>
          simp only [destroyed, if_true] at ended
          rw [← Option.some.inj (Except.ok.inj (Phase.finished.inj ended))]
          exact cancelled
      | false =>
          simp only [destroyed, Bool.false_eq_true, if_false] at ended
          rcases answer : toolchain.run after code with ⟨last, _ | ran⟩
          · simp only [answer, reduceCtorEq] at ended
          · simp only [answer, Phase.finished.injEq] at ended
            cases made : resultOf ran with
            | error cause => simp [made, Except.map] at ended
            | ok given =>
                obtain rfl : given = result := by simpa [made, Except.map] using ended
                exact reported ran given (by rw [answer]) made

end Toolchain.Executor

namespace Host

/-! ## What executors collect -/

/-- What the workers and the worker executors of a host return was collected. -/
structure Collects (host : Host) : Prop where
  handles : ∀ (number : Nat) (registry : Worker.Registry),
    host.registries[number]? = some registry → registry.AllHandles Worker.Handle.Collects
  results : ∀ (number lender : Nat) (executor : Worker.Executor),
    host.workers[number]? = some (lender, executor) → executor.Collects

variable {host after : Host} {number : Nat} {executor : Executor} {pending : Pending}

section Changes

/-- Nothing happens to the workers. -/
theorem Collects.congr (collects : host.Collects) (registries : after.registries = host.registries)
    (workers : after.workers = host.workers) : after.Collects := by
  refine ⟨?_, ?_⟩
  · rw [registries]
    exact collects.handles
  · rw [workers]
    exact collects.results

theorem Collects.modifyRegistry (collects : host.Collects) (number : Nat)
    {change : Worker.Registry → Worker.Registry}
    (keeps : ∀ registry, registry.AllHandles Worker.Handle.Collects →
      (change registry).AllHandles Worker.Handle.Collects) :
    (host.modifyRegistry number change).Collects := by
  refine ⟨fun other registry found => ?_, collects.results⟩
  rw [Host.modifyRegistry, List.getElem?_modify] at found
  obtain ⟨before, wasThere, rfl⟩ := Option.map_eq_some_iff.mp found
  have kept := collects.handles other before wasThere
  split
  · exact keeps before kept
  · exact kept

/-- A worker does something, whoever it is. -/
theorem Collects.changeHandle (collects : host.Collects) (registry handle : Nat)
    {change : Worker.Handle → Worker.Handle}
    (keeps : ∀ worker, worker.Collects → (change worker).Collects) :
    (Facade.World.changeHandle host registry handle change).Collects :=
  collects.modifyRegistry registry fun _ all =>
    all.modifyHandle fun worker found => keeps worker (all handle worker found)

theorem Collects.place (collects : host.Collects) {registry : Nat} {place : Worker.Place}
    (at_ : host.workerPlace? number = some (registry, place)) : place.Collects := by
  simp only [workerPlace?] at at_
  obtain ⟨⟨owner, executor⟩, found, at_⟩ := Option.bind_eq_some_iff.mp at_
  obtain ⟨lent, kept, at_⟩ := Option.bind_eq_some_iff.mp at_
  cases at_
  exact ⟨collects.handles _ lent kept, collects.results number _ executor found⟩

theorem Collects.setWorkerPlace (collects : host.Collects) {place : Worker.Place}
    (collected : place.Collects) (number registry : Nat) :
    (host.setWorkerPlace number registry place).Collects := by
  have lent := collects.modifyRegistry registry fun _ _ => collected.handles
  refine ⟨lent.handles, fun other lender executor found => ?_⟩
  by_cases same : number = other
  · rw [Host.setWorkerPlace, same, List.getElem?_set] at found
    simp only [if_true] at found
    split at found
    · cases found
      exact collected.results
    · contradiction
  · rw [Host.setWorkerPlace, List.getElem?_set_ne same] at found
    exact collects.results other lender executor found

end Changes

/-! ## Operations of a host -/

section Operations

/-- Whatever one executor does, what the workers return was collected. -/
theorem Collects.effect {destroys : Prop} (collects : host.Collects)
    (effect : host.Effect destroys after) : after.Collects := by
  cases effect with
  | aside log compilers => exact collects.congr rfl rfl
  | sandbox found event isHosted acts => exact collects.congr rfl rfl
  | release found => exact collects.congr rfl rfl
  | @worker number registry place next at_ does =>
      refine collects.setWorkerPlace ?_ number registry
      have collected := collects.place at_
      cases does with
      | call purpose => exact collected.call purpose
      | turn turned => exact collected.turn turned
      | abandon call => exact collected.abandon call
      | destroy may => exact collected.destroy
  | toolchain found moves log toolchains => exact collects.congr rfl rfl

/-- Whatever moves behind the executors, what the workers return was collected. -/
theorem Collects.move (collects : host.Collects) (event : Facade.Event) :
    (Facade.World.move host event).Collects := by
  cases event with
  | launched launcher launching awaiting =>
      simp only [Facade.World.move]
      split
      · cases awaiting with
        | call executor call =>
            simp only [deliver]
            split
            · exact collects
            · exact collects.congr rfl rfl
        | relay registry handle =>
            have told := collects.changeHandle registry handle fun worker collected =>
              collected.launched launching.outcome
            exact told.congr rfl rfl
      · exact collects
  | context executor context act => exact collects.congr rfl rfl
  | interpreter registry handle act =>
      exact collects.changeHandle registry handle fun worker collected =>
        Worker.Handle.isLasting_collects.move worker (.interpreter act) collected
  | request registry handle =>
      exact collects.changeHandle registry handle fun worker collected =>
        Worker.Handle.isLasting_collects.move worker .request collected
  | message registry handle =>
      exact collects.changeHandle registry handle fun worker collected =>
        Worker.Handle.isLasting_collects.move worker .message collected
  | expire registry start =>
      exact collects.modifyRegistry registry fun _ all =>
        all.expire Worker.Handle.isLasting_collects start
  | release registry handle =>
      exact collects.changeHandle registry handle fun worker collected =>
        Worker.Handle.isLasting_collects.move worker .drop collected
  | _ => exact collects

end Operations

theorem Collects.step (collects : host.Collects) (happening : Happening) :
    (host.step happening).Collects := by
  cases happening with
  | addSandbox hook launcher language => exact collects.congr rfl rfl
  | addWorker hook registry launcher language timeout =>
      refine ⟨collects.handles, fun number lender executor found => ?_⟩
      rcases Worker.Registry.getElem?_concat found with wasThere | isNew
      · exact collects.results number lender executor wasThere
      · cases isNew
        exact fun _ => RunResult.allCollected_none
  | addToolchain toolchain language artifacts => exact collects.congr rfl rfl
  | call executor purpose => exact collects.effect (host.effect_call executor purpose)
  | compile compiler source options =>
      exact collects.effect (host.effect_compile compiler source options)
  | turn receiver pending =>
      simp only [Host.step]
      cases turned : Host.turnCall receiver host pending with
      | none => exact collects
      | some after => exact collects.effect (host.effect_turnCall pending turned)
  | abandon pending => exact collects.effect (host.effect_abandon pending)
  | destroy executor => exact collects.effect (host.effect_destroy executor)
  | drop executor => exact collects.effect (host.effect_drop executor)
  | provide broker value => cases broker <;> exact collects.congr rfl rfl
  | onInput hook callback => exact collects.congr rfl rfl
  | behind event => exact collects.move event

theorem Collects.run (collects : host.Collects) (history : List Happening) :
    (host.run history).Collects := by
  induction history generalizing host with
  | nil => exact collects
  | cons happening history ih => exact ih (collects.step happening)

/-! ## What calls return -/

/-- Whatever a call returns, now or later, has a property. -/
inductive Returns (host : Host) (holds : RunResult → Prop) : Pending → Prop where
  /-- A sandbox executor returns what it collected. -/
  | sandbox {number call launcher : Nat} {sandbox : Sandbox.Executor}
      (found : host.sandboxes[number]? = some (launcher, sandbox))
      (collects : sandbox.Collects call)
      (collected : ∀ result : RunResult, result.IsCollected → holds result) :
      Returns host holds (.sandbox number call)
  /-- A worker executor returns what its workers collected. -/
  | worker {number call registry : Nat} {worker : Worker.Executor}
      (found : host.workers[number]? = some (registry, worker)) (collects : host.Collects)
      (collected : ∀ result : RunResult, result.IsCollected → holds result) :
      Returns host holds (.worker number call)
  /-- A toolchain executor returns what it made of an answer, or that it was cancelled. -/
  | toolchain {number call : Nat} {executor : Toolchain.Executor}
      (found : host.toolchainExecutors[number]? = some executor)
      (returns : executor.Returns call holds) (cancelled : holds Toolchain.cancelledResult) :
      Returns host holds (.toolchain number call)
  | finished {outcome : Outcome} (known : ∀ result, outcome = .ok (some result) → holds result) :
      Returns host holds (.finished outcome)

section Returns

variable {holds : RunResult → Prop} {result : RunResult}

theorem Returns.step (returns : host.Returns holds pending) (happening : Happening) :
    (host.step happening).Returns holds pending := by
  have moves := host.moves_step happening
  cases returns with
  | sandbox found collects collected =>
      obtain ⟨⟨launcher, next⟩, foundNext, -, moved⟩ := moves.sandboxes _ _ found
      exact .sandbox foundNext (collects.moves moved) collected
  | worker found collects collected =>
      obtain ⟨⟨registry, next⟩, foundNext, -⟩ := moves.workers _ _ found
      exact .worker foundNext (collects.step happening) collected
  | toolchain found returns cancelled =>
      obtain ⟨next, foundNext, moved⟩ := moves.toolchainExecutors _ _ found
      exact .toolchain foundNext (returns.moves cancelled moved) cancelled
  | finished known => exact .finished known

theorem Returns.run (returns : host.Returns holds pending) (history : List Happening) :
    (host.run history).Returns holds pending := by
  induction history generalizing host with
  | nil => exact returns
  | cons happening history ih => exact ih (returns.step happening)

theorem Returns.of_outcome? (returns : host.Returns holds pending)
    (returned : host.outcome? pending = some (.ok (some result))) : holds result := by
  have isOwn {Error : Type} {own : Except Error (Option RunResult)} {wrap : Error → ExecutorError}
      (same : Except.ok (some result) = own.mapError wrap) : own = .ok (some result) := by
    cases own with
    | error cause => cases same
    | ok given => rw [← Except.ok.inj same]
  cases returns with
  | sandbox found collects collected =>
      obtain ⟨own, ended, same⟩ := outcome?_sandbox found returned
      rw [isOwn same] at ended
      exact collected result (collects result (Sandbox.Executor.result?_eq_some.mpr ended))
  | @worker number call _ _ found collects collected =>
      obtain ⟨own, ended, same⟩ := outcome?_worker found returned
      rw [isOwn same] at ended
      have kept := Worker.Executor.result?_eq_some.mpr ended
      exact collected result (collects.results _ _ _ found call result kept)
  | toolchain found returns cancelled =>
      obtain ⟨own, ended, same⟩ := outcome?_toolchain found returned
      rw [isOwn same] at ended
      exact returns.result result ended
  | finished known => exact known result (Option.some.inj returned)

theorem returns_callSandbox (host : Host) (number : Nat) (code : String)
    (collected : ∀ result : RunResult, result.IsCollected → holds result) :
    (host.callSandbox number (.execute code)).1.Returns holds
      (host.callSandbox number (.execute code)).2 := by
  simp only [Host.callSandbox]
  split
  · exact .finished fun result same => by contradiction
  · rename_i launcher sandbox found
    have foundNext : (host.setSandbox number
        (sandbox.call host.desk (.execute code)).2.1).sandboxes[number]? =
          some (launcher, (sandbox.call host.desk (.execute code)).2.1) := by
      simp [setSandbox, found]
    have numbered : (sandbox.call host.desk (.execute code)).2.2 = sandbox.calls.length := rfl
    rw [numbered]
    exact .sandbox foundNext (sandbox.collects_length.call host.desk _) collected

theorem Collects.returns_callWorker (collects : host.Collects) (number : Nat) (purpose : Purpose)
    (collected : ∀ result : RunResult, result.IsCollected → holds result) :
    (host.callWorker number purpose).1.Returns holds (host.callWorker number purpose).2 := by
  have called := collects.effect (host.effect_call (.worker number) purpose)
  simp only [Host.call, callWorker] at called ⊢
  cases at_ : host.workerPlace? number with
  | none => exact .finished fun result same => by contradiction
  | some found =>
      simp only [at_] at called
      exact .worker (workers_setWorkerPlace at_).1 called collected

end Returns

/-! ## Where results come from -/

/-- A toolchain answers an executor that gives it code. -/
def Answers (staff : Staff) (host : Host) (code : String) (number : Nat)
    (ran : Except ToolchainError Toolchain.Output) : Prop :=
  ∃ (executor : Toolchain.Executor) (toolchain : ToolchainBackend),
    host.toolchainExecutors[number]? = some executor ∧
    host.toolchains[executor.toolchain]? = some toolchain ∧
    let prepared := ToolchainBackend.prepare host.site (host.log, toolchain) executor.artifacts
    (staff.run prepared.1 code).2 = some ran

/-- What the compiler of an executor makes of code. -/
def compilation (staff : Staff) (host : Host) (compiled : Compile.Executor) (code : String) :
    Compilation :=
  (staff.compile compiled.compiler host code compiled.options).2

/-- The result of an executor that was given code can come from this. -/
inductive Arises (staff : Staff) (host : Host) (code : String) : Executor → RunResult → Prop where
  /-- It was collected from the output of a run. -/
  | collected {executor : Executor} {result : RunResult} (collected : result.IsCollected) :
      Arises staff host code executor result
  /-- There was no code to compile. -/
  | blank {compiled : Compile.Executor} (blank : Text.isBlankText code = true) :
      Arises staff host code (.compiled compiled) (.failure emptySourceMessage)
  /-- The code was compiled, and there is nothing to run. -/
  | judged {compiled : Compile.Executor} {result : RunResult}
      (source : Text.isBlankText code = false)
      (judged : Compile.verdict compiled.delegate.isSome (compilation staff host compiled code) =
        .result result) :
      Arises staff host code (.compiled compiled) result
  /-- A toolchain answered. -/
  | answered {number : Nat} {ran : Except ToolchainError Toolchain.Output} {result : RunResult}
      (answers : Answers staff host code number ran)
      (reported : Toolchain.resultOf ran = .ok result) :
      Arises staff host code (.toolchain number) result
  /-- A toolchain executor was destroyed. -/
  | cancelled {number : Nat} :
      Arises staff host code (.toolchain number) Toolchain.cancelledResult

section Arises

variable {staff : Staff} {code : String} {result : RunResult}

theorem returns_callCompiled (staff : Staff) (host : Host) (compiled : Compile.Executor)
    (code : String) :
    (callCompiledWith staff host compiled (.execute code)).1.Returns
      (Arises staff host code (.compiled compiled))
      (callCompiledWith staff host compiled (.execute code)).2 := by
  simp only [callCompiledWith, Compile.Executor.judge]
  cases blank : Text.isBlankText code with
  | true =>
      refine .finished fun result same => ?_
      rw [← Option.some.inj (Except.ok.inj same)]
      exact .blank blank
  | false =>
      simp only [Bool.false_eq_true, if_false]
      split
      · rename_i after known judged
        refine .finished fun result same => ?_
        rw [← Option.some.inj (Except.ok.inj same)]
        exact .judged blank (congrArg Prod.snd judged)
      · exact returns_callSandbox _ _ _ fun _ => .collected

theorem returns_callToolchain (staff : Staff) (host : Host) (number : Nat) (code : String) :
    (callToolchainWith staff host number (.execute code)).1.Returns
      (Arises staff host code (.toolchain number))
      (callToolchainWith staff host number (.execute code)).2 := by
  simp only [callToolchainWith]
  split
  · exact .finished fun result same => by contradiction
  · rename_i executor toolchain lookup
    obtain ⟨owner, found, lookup⟩ := Option.bind_eq_some_iff.mp lookup
    obtain ⟨backend, kept, lookup⟩ := Option.bind_eq_some_iff.mp lookup
    cases lookup
    have inside : number < host.toolchainExecutors.length :=
      (List.getElem?_eq_some_iff.mp found).1
    refine .toolchain (List.getElem?_set_self inside) ?_ .cancelled
    exact executor.returns_call _ _ code .cancelled fun ran result answered reported =>
      .answered ⟨executor, toolchain, found, kept, answered⟩ reported

/-- Whoever does the work of compilers and toolchains, what an executor returns arises from it. -/
theorem Collects.returns_callWith (collects : host.Collects) (staff : Staff) (executor : Executor)
    (code : String) :
    (callWith staff host executor (.execute code)).1.Returns (Arises staff host code executor)
      (callWith staff host executor (.execute code)).2 := by
  cases executor with
  | sandboxed number => exact host.returns_callSandbox number code fun _ => .collected
  | worker number => exact collects.returns_callWorker number (.execute code) fun _ => .collected
  | compiled compiled => exact returns_callCompiled staff host compiled code
  | toolchain number => exact returns_callToolchain staff host number code

end Arises

/-! ## Trimmed results -/

/-- An executor that is given code can return a result: it does so at once or later, whatever
happens to the host meanwhile. -/
def MayReturn (staff : Staff) (host : Host) (executor : Executor) (code : String)
    (result : RunResult) : Prop :=
  let called := callWith staff host executor (.execute code)
  ∃ later : List Happening, (called.1.run later).outcome? called.2 = some (.ok (some result))

/-- Whatever an executor returns for code is trimmed. -/
def Trims (staff : Staff) (host : Host) (executor : Executor) (code : String) : Prop :=
  ∀ result, MayReturn staff host executor code result → result.IsTrimmed

/-- Code cannot be compiled: a compiler gives nothing for it, or a toolchain says what is wrong
with it. -/
def FailsToCompile (staff : Staff) (host : Host) (code : String) : Executor → Prop
  | .compiled compiled => (compilation staff host compiled code).given? = none
  | .toolchain number => ∃ details, Answers staff host code number (.error (.compile details))
  | .sandboxed _ | .worker _ => False

/-- An executor points to places in code only if it cannot be compiled. -/
def Explains (staff : Staff) (host : Host) (executor : Executor) (code : String) : Prop :=
  ∀ result, MayReturn staff host executor code result → result.diagnostics ≠ [] →
    FailsToCompile staff host code executor

/-- Nobody has made an executor at a host, and its registries are new. -/
def fresh (host : Host) (registries : Nat) : Host :=
  { host with
    sandboxes := []
    workers := []
    toolchainExecutors := []
    registries := List.replicate registries {} }

section Trims

variable {staff : Staff} {code : String} {result : RunResult}

theorem collects_fresh (host : Host) (registries : Nat) : (host.fresh registries).Collects where
  handles number registry found := by
    rw [(List.mem_replicate.mp (List.mem_of_getElem? found)).2]
    intro handle worker isWorker
    contradiction
  results number lender executor found := by contradiction

/-- Whatever happens later, a result arises from what the executor worked with. -/
theorem Collects.arises (collects : host.Collects)
    (returned : MayReturn staff host executor code result) :
    Arises staff host code executor result := by
  obtain ⟨later, ended⟩ := returned
  exact ((collects.returns_callWith staff executor code).run later).of_outcome? ended

theorem Arises.failsToCompile (arises : Arises staff host code executor result)
    (told : result.diagnostics ≠ []) : FailsToCompile staff host code executor := by
  cases arises with
  | collected collected => exact absurd collected.diagnostics told
  | blank blank => exact absurd rfl told
  | judged source judged => exact Compile.not_given_of_diagnostics judged told
  | answered answers reported =>
      obtain ⟨details, rfl⟩ := Toolchain.exists_details_of_resultOf reported told
      exact ⟨details, answers⟩
  | cancelled => exact absurd rfl told

/-- A result is trimmed, unless it comes from a compiler that leaves blanks. -/
theorem Arises.isTrimmed (arises : Arises staff host code executor result)
    (reportable : ∀ compiled, executor = .compiled compiled → Text.isBlankText code = false →
      Compile.Reportable compiled.delegate.isSome (compilation staff host compiled code)) :
    result.IsTrimmed := by
  cases arises with
  | collected collected => exact collected.isTrimmed
  | blank blank => exact RunResult.isTrimmed_failure.mpr (by decide)
  | judged source judged =>
      exact (Compile.isTrimmed_iff_reportable judged).mpr (reportable _ rfl source)
  | answered answers reported => exact Toolchain.isTrimmed_resultOf reported
  | cancelled => exact Toolchain.isTrimmed_cancelledResult

/-- A compile executor that was given code returns at once what it reports itself. -/
theorem mayReturn_of_judged {compiled : Compile.Executor} (source : Text.isBlankText code = false)
    (judged : Compile.verdict compiled.delegate.isSome (compilation staff host compiled code) =
      .result result) :
    MayReturn staff host (.compiled compiled) code result := by
  refine ⟨[], ?_⟩
  simp only [compilation] at judged
  simp only [callWith, callCompiledWith, Compile.Executor.judge, source, Bool.false_eq_true,
    if_false, judged]
  rfl

/-- Whatever has happened at a host, and whatever happens after an executor was given code: it
points to places only in code that cannot be compiled.  What it returns is trimmed exactly if it
does not compile, the code is blank, or what its compiler leaves to report has no blanks at its
end. -/
theorem trims_results_iff (host : Host) (registries : Nat) (history : List Happening)
    (staff : Staff) (executor : Executor) (code : String) :
    let before := (host.fresh registries).run history
    Explains staff before executor code ∧
      (Trims staff before executor code ↔
        ∀ compiled, executor = .compiled compiled → Text.isBlankText code = false →
          Compile.Reportable compiled.delegate.isSome
            (compilation staff before compiled code)) := by
  intro before
  have collects : before.Collects := (host.collects_fresh registries).run history
  refine ⟨fun result returned told => (collects.arises returned).failsToCompile told, ?_, ?_⟩
  · rintro trims compiled rfl source
    cases judged : Compile.verdict compiled.delegate.isSome
        (compilation staff before compiled code) with
    | result result =>
        exact (Compile.isTrimmed_iff_reportable judged).mp
          (trims result (mayReturn_of_judged source judged))
    | run made => exact Compile.reportable_of_run judged
  · intro reportable result returned
    exact (collects.arises returned).isTrimmed reportable

/-- A compile executor reports a message as its compiler wrote it, and a heading with nothing
below it. -/
theorem reports_trailing_blanks :
    let host (answer : Compilation) : Host := { compilers := [.scripted "tsc" [some answer]] }
    let executor : Executor := .compiled { language := "typescript", compiler := 0 }
    let result (answer : Compilation) : Option Outcome :=
      let called := (host answer).call executor (.execute "x")
      called.1.outcome? called.2
    let errors : List Diagnostic := [{ message := "x " }]
    result (.failed errors) =
        some (.ok (some { stderr := "Compilation failed:\nx ", diagnostics := errors })) ∧
      ¬Trims (host (.failed errors)).staff (host (.failed errors)) executor "x" ∧
      result (.compiled " ") =
        some (.ok (some (.success "Successfully compiled to JavaScript:\n\n"))) ∧
      ¬Trims (host (.compiled " ")).staff (host (.compiled " ")) executor "x" := by
  intro host executor result errors
  have untrimmed {answer : Compilation} {given : RunResult}
      (returned : result answer = some (.ok (some given))) (blanks : ¬given.IsTrimmed) :
      ¬Trims (host answer).staff (host answer) executor "x" := by
    intro trims
    refine blanks (trims given ⟨[], ?_⟩)
    rw [callWith_staff]
    exact returned
  have refused : result (.failed errors) =
      some (.ok (some { stderr := "Compilation failed:\nx ", diagnostics := errors })) := rfl
  have alone : result (.compiled " ") =
      some (.ok (some (.success "Successfully compiled to JavaScript:\n\n"))) := rfl
  exact ⟨refused, untrimmed refused fun trimmed => absurd trimmed.stderr (by decide), alone,
    untrimmed alone fun trimmed => absurd trimmed.stdout (by decide)⟩

end Trims

end Host

end Polyglot
