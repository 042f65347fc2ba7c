import Polyglot.Proofs.Host.Endings
import Polyglot.Proofs.Host.History

/-!
# Executors that refuse after they were destroyed

A destroyed executor that is given code has nothing done behind it: no compiler and no
toolchain is given the code, nobody comes to wait for a launch and nothing is sent to a
context.  What comes of the call is a failure.  All of this holds for every executor but
one that compiles: that one does not know whether it was destroyed, and gives any code that
is not blank to its compiler.
-/

namespace Polyglot

/-- What compilers and toolchains make of source text. -/
structure Staff where
  compile : Nat → Host → String → CompilerOptions → Host × Compilation
  run : Log × ToolchainBackend → String →
    (Log × ToolchainBackend) × Option (Except ToolchainError Toolchain.Output)

namespace Worker

/-- An executor that has refused one call more. -/
def Executor.refusing (executor : Executor) (purpose : Purpose) : Executor :=
  { executor with
    calls := executor.calls ++ [⟨purpose, .finished (.error (.shutDown executor.language))⟩] }

theorem Executor.outcome?_refusing (executor : Executor) (purpose : Purpose) :
    (executor.refusing purpose).outcome? executor.calls.length =
      some (.error (.shutDown executor.language)) := by
  simp [refusing, outcome?, phase?]

theorem Place.call_eq_of_destroyed {place : Place} (destroyed : place.executor.destroyed = true)
    (purpose : Purpose) :
    place.call purpose =
      ({ place with executor := place.executor.refusing purpose }, place.executor.calls.length) := by
  simp only [call, destroyed, if_true, Executor.refusing]

end Worker

/-- A destroyed executor that is given code looks for what its toolchain needs, and then
stops.  It does not run anything. -/
theorem Toolchain.Executor.call_of_destroyed {State : Type} {executor : Executor}
    (destroyed : executor.destroyed = true) (toolchain : Interface State) (state : State)
    (code : String) :
    executor.call toolchain state (.execute code) =
      ((toolchain.prepare state executor.artifacts).1,
        { executor with
          calls := executor.calls ++ [.finished
            ((toolchain.prepare state executor.artifacts).2.map fun _ => some cancelledResult)] },
        executor.calls.length) := by
  simp only [call, begin, destroyed, if_true]
  rcases toolchain.prepare state executor.artifacts with ⟨after, prepared⟩
  cases prepared <;> rfl

/-- A toolchain that looks for what it needs writes nothing else down. -/
theorem ToolchainBackend.log_prepare (site : Exec.Site) (state : Log × ToolchainBackend)
    (artifacts : Toolchain.Artifacts) :
    ∃ entries : Log, (prepare site state artifacts).1.1 = state.1 ++ entries ∧
      ∀ entry ∈ entries, ∃ artifacts, entry.2 = .prepared artifacts := by
  obtain ⟨log, toolchain⟩ := state
  cases toolchain with
  | commands pair => exact ⟨[], by simp [prepare], by simp⟩
  | scripted name preparations runs =>
      exact ⟨[(name, .prepared artifacts)], rfl, by simp⟩

namespace Host

/-! ## Calls that depend on nobody -/

/-- The compilers and toolchains of a host. -/
def staff (host : Host) : Staff := ⟨compile, ToolchainBackend.run host.site⟩

/-- A new call of a compile executor, with anybody in place of the compilers. -/
def callCompiledWith (staff : Staff) (host : Host) (executor : Compile.Executor) :
    Purpose → Host × Pending
  | .start => host.callCompiled executor .start
  | .execute code =>
    match executor.judge (staff.compile executor.compiler) host code with
    | (host, .result result) => (host, .finished (.ok (some result)))
    | (host, .run code) => host.callSandbox (executor.delegate.getD 0) (.execute code)

/-- A new call of a toolchain executor, with anybody in place of the toolchains. -/
def callToolchainWith (staff : Staff) (host : Host) (number : Nat) (purpose : Purpose) :
    Host × Pending :=
  match do
    let executor ← host.toolchainExecutors[number]?
    return (executor, ← host.toolchains[executor.toolchain]?) with
  | none => (host, .finished (.error (.toolchain .notInitialized)))
  | some (executor, toolchain) =>
    let ((log, toolchain), executor, call) :=
      executor.call ⟨ToolchainBackend.prepare host.site, staff.run⟩ (host.log, toolchain) purpose
    ({ host with
        log
        toolchains := host.toolchains.set executor.toolchain toolchain
        toolchainExecutors := host.toolchainExecutors.set number executor },
      .toolchain number call)

/-- A new call of an executor, with anybody in place of the compilers and toolchains. -/
def callWith (staff : Staff) (host : Host) (executor : Executor) (purpose : Purpose) :
    Host × Pending :=
  match executor with
  | .sandboxed number => host.callSandbox number purpose
  | .worker number => host.callWorker number purpose
  | .compiled executor => callCompiledWith staff host executor purpose
  | .toolchain number => callToolchainWith staff host number purpose

/-- With its own staff a host does what it does. -/
theorem callWith_staff (host : Host) (executor : Executor) (purpose : Purpose) :
    callWith host.staff host executor purpose = host.call executor purpose := by
  cases executor with
  | compiled compiled => cases purpose <;> rfl
  | _ => rfl

/-! ## What counts as a refusal -/

/-- An outcome that tells of a failure: an error, or something on standard error. -/
def IsFailure : Outcome → Prop
  | .error _ => True
  | .ok result => ∃ said, result = some said ∧ said.stderr ≠ ""

/-- Nothing behind the executors was given anything to do.  A toolchain may have looked for
what it needs. -/
structure Undisturbed (before after : Host) : Prop where
  compilers : after.compilers = before.compilers
  launchers : after.launchers = before.launchers
  launches : after.launches = before.launches
  peers : after.peers = before.peers
  /-- No worker was started, and none was sent anything. -/
  registries : after.registries = before.registries
  /-- No context of a sandbox executor was sent anything. -/
  links : ∀ executor context,
    after.sandboxLink? executor context = before.sandboxLink? executor context
  /-- Nobody has come to wait for a launch. -/
  awaits : ∀ awaiting, after.launcherOf? awaiting = before.launcherOf? awaiting
  log : ∃ entries : Log, after.log = before.log ++ entries ∧
    ∀ entry ∈ entries, ∃ artifacts, entry.2 = .prepared artifacts

/-- How a call stands that has no outcome yet. -/
inductive Stands (host : Host) : Pending → Prop where
  /-- It can go on. -/
  | ready {pending : Pending}
      (turns : ∀ receiver, (turnCall receiver host pending).isSome = true) : Stands host pending
  /-- Another call holds the lock that it waits for. -/
  | behind {number call other launcher : Nat} {sandbox : Sandbox.Executor}
      (found : host.sandboxes[number]? = some (launcher, sandbox))
      (held : sandbox.lock.holder = some other) (different : other ≠ call) :
      Stands host (.sandbox number call)
  /-- Its caller has gone away. -/
  | abandoned {number call launcher : Nat} {sandbox : Sandbox.Executor}
      (found : host.sandboxes[number]? = some (launcher, sandbox))
      (left : sandbox.phase? call = some .abandoned) : Stands host (.sandbox number call)

/-- A call is refused: its first turn that comes to anything ends it, nothing is done behind
the executors for it, and what comes of it is a failure. -/
structure IsRefused (host : Host) (pending : Pending) : Prop where
  outcome : ∀ outcome, host.outcome? pending = some outcome → IsFailure outcome
  turn : ∀ (receiver : String → Option Nat) (after : Host),
    turnCall receiver host pending = some after →
      host.Undisturbed after ∧ (after.outcome? pending).isSome = true
  stands : host.outcome? pending = none → host.Stands pending

/-- An executor refuses to execute code.  The call asks no compiler and no toolchain, does
nothing behind the executors, and is refused whatever happens after it. -/
structure Refuses (host : Host) (executor : Executor) (code : String) : Prop where
  unasked : ∀ staff : Staff,
    callWith staff host executor (.execute code) = host.call executor (.execute code)
  undisturbed : host.Undisturbed (host.call executor (.execute code)).1
  refused : ∀ history : List Happening,
    ((host.call executor (.execute code)).1.run history).IsRefused
      (host.call executor (.execute code)).2

/-! ## Hosts that nothing is done behind -/

section Undisturbed

variable {host after : Host} {number launcher : Nat}

theorem Undisturbed.refl (host : Host) : host.Undisturbed host where
  compilers := rfl
  launchers := rfl
  launches := rfl
  peers := rfl
  registries := rfl
  links _ _ := rfl
  awaits _ := rfl
  log := ⟨[], by simp, by simp⟩

/-- A sandbox executor has left its contexts alone. -/
theorem undisturbed_setSandbox {old new : Sandbox.Executor}
    (found : host.sandboxes[number]? = some (launcher, old)) (leaves : old.LeavesAlone new)
    (desk : Desk) : host.Undisturbed { host.setSandbox number new with desk } := by
  have foundNew : (host.setSandbox number new).sandboxes[number]? = some (launcher, new) := by
    simp [setSandbox, found]
  have others {other : Nat} (different : ¬number = other) :
      (host.setSandbox number new).sandboxes[other]? = host.sandboxes[other]? := by
    simp [setSandbox, different]
  refine ⟨rfl, rfl, rfl, rfl, rfl, fun executor context => ?_, fun awaiting => ?_,
    ⟨[], (List.append_nil _).symm, by simp⟩⟩
  · by_cases same : number = executor
    · subst same
      simp only [sandboxLink?, foundNew, found, Option.bind_eq_bind, Option.bind_some,
        leaves.contexts]
    · simp only [sandboxLink?, others same]
  · cases awaiting with
    | call executor call =>
        by_cases same : number = executor
        · subst same
          simp only [launcherOf?, foundNew, found, Option.bind_eq_bind, Option.bind_some,
            leaves.isLaunching]
        · simp only [launcherOf?, others same]
    | relay registry handle => rfl

/-- A worker executor has only noted something about its own calls. -/
theorem undisturbed_setWorkerPlace {registry : Nat} {place : Worker.Place}
    (at_ : host.workerPlace? number = some (registry, place)) (executor : Worker.Executor) :
    host.Undisturbed (host.setWorkerPlace number registry { place with executor }) := by
  have kept : host.registries[registry]? = some place.registry := by
    simp only [workerPlace?] at at_
    obtain ⟨⟨owner, worker⟩, -, at_⟩ := Option.bind_eq_some_iff.mp at_
    obtain ⟨lent, kept, at_⟩ := Option.bind_eq_some_iff.mp at_
    cases at_
    exact kept
  have registries : (host.setWorkerPlace number registry { place with executor }).registries =
      host.registries := by
    apply List.ext_getElem?
    intro other
    simp only [setWorkerPlace, modifyRegistry, List.getElem?_modify]
    by_cases same : registry = other
    · subst same
      simp [kept]
    · simp [same]
  exact {
    compilers := rfl
    launchers := rfl
    launches := rfl
    peers := rfl
    registries
    links := fun _ _ => rfl
    awaits := fun awaiting => by
      cases awaiting with
      | call executor call => rfl
      | relay number handle => simp only [launcherOf?, registries]
    log := ⟨[], (List.append_nil _).symm, by simp⟩ }

end Undisturbed

/-! ## Calls that are refused -/

/-- A call is being refused. -/
inductive Declines (host : Host) : Pending → Prop where
  /-- A destroyed sandbox executor refuses it. -/
  | sandbox {number call launcher : Nat} {sandbox : Sandbox.Executor}
      (found : host.sandboxes[number]? = some (launcher, sandbox))
      (refuses : sandbox.Refuses call) : Declines host (.sandbox number call)
  /-- It has failed. -/
  | failed {pending : Pending} {outcome : Outcome}
      (aside : ∀ number call, pending ≠ .sandbox number call)
      (ended : host.outcome? pending = some outcome) (failure : IsFailure outcome) :
      Declines host pending

section Declines

variable {host after : Host} {pending : Pending} {outcome : Outcome}

/-- What came of a call does not change. -/
theorem Moves.outcome? (moves : host.Moves after)
    (aside : ∀ number call, pending ≠ .sandbox number call)
    (ended : host.outcome? pending = some outcome) : after.outcome? pending = some outcome := by
  cases pending with
  | sandbox number call => exact absurd rfl (aside number call)
  | worker number call =>
      simp only [Host.outcome?] at ended
      obtain ⟨⟨registry, worker⟩, found, ended⟩ := Option.bind_eq_some_iff.mp ended
      obtain ⟨own, isOwn, ended⟩ := Option.bind_eq_some_iff.mp ended
      obtain ⟨⟨same, next⟩, foundNext, -, moved⟩ := moves.workers number _ found
      cases ended
      simp [Host.outcome?, foundNext, moved.outcome? isOwn]
  | toolchain number call =>
      simp only [Host.outcome?] at ended
      obtain ⟨executor, found, ended⟩ := Option.bind_eq_some_iff.mp ended
      obtain ⟨own, isOwn, ended⟩ := Option.bind_eq_some_iff.mp ended
      obtain ⟨next, foundNext, moved⟩ := moves.toolchainExecutors number _ found
      cases ended
      simp [Host.outcome?, foundNext, moved.outcome? isOwn]
  | finished known => exact ended

/-- A call that has an outcome takes no turns. -/
theorem turnCall_of_outcome? (ended : host.outcome? pending = some outcome)
    (receiver : String → Option Nat) : turnCall receiver host pending = none := by
  cases pending with
  | sandbox number call =>
      simp only [Host.outcome?] at ended
      obtain ⟨⟨launcher, sandbox⟩, found, ended⟩ := Option.bind_eq_some_iff.mp ended
      obtain ⟨own, isOwn, -⟩ := Option.bind_eq_some_iff.mp ended
      simp only [Sandbox.Executor.outcome?, Sandbox.Executor.phase?] at isOwn
      split at isOwn
      · rename_i isOver
        obtain ⟨made, foundCall, isFinished⟩ := Option.map_eq_some_iff.mp isOver
        simp [turnCall, found, Sandbox.Executor.turn, foundCall, isFinished]
      · contradiction
  | worker number call =>
      simp only [Host.outcome?] at ended
      obtain ⟨⟨registry, worker⟩, found, ended⟩ := Option.bind_eq_some_iff.mp ended
      obtain ⟨own, isOwn, -⟩ := Option.bind_eq_some_iff.mp ended
      have isOver := Worker.Executor.phase?_of_outcome? isOwn
      obtain ⟨made, foundCall, isFinished⟩ := Option.map_eq_some_iff.mp isOver
      simp only [turnCall, workerPlace?, found, Option.bind_eq_bind, Option.bind_some]
      cases host.registries[registry]? with
      | none => rfl
      | some lent => simp [Worker.Place.turn, foundCall, isFinished]
  | toolchain number call =>
      simp only [Host.outcome?] at ended
      obtain ⟨executor, found, ended⟩ := Option.bind_eq_some_iff.mp ended
      obtain ⟨own, isOwn, -⟩ := Option.bind_eq_some_iff.mp ended
      have isOver := Toolchain.Executor.getElem?_of_outcome? isOwn
      simp [turnCall, found, Toolchain.Executor.turn, isOver]
  | finished known => rfl

/-- Whatever happens at a host, a call that is being refused is still refused. -/
theorem Declines.moves (declines : host.Declines pending) (moves : host.Moves after) :
    after.Declines pending := by
  cases declines with
  | sandbox found refuses =>
      obtain ⟨⟨launcher, next⟩, foundNext, -, moved⟩ := moves.sandboxes _ _ found
      exact .sandbox foundNext (refuses.moves moved)
  | failed aside ended failure => exact .failed aside (moves.outcome? aside ended) failure

theorem Declines.run (declines : host.Declines pending) (history : List Happening) :
    (host.run history).Declines pending := by
  induction history generalizing host with
  | nil => exact declines
  | cons happening history ih => exact ih (declines.moves (host.moves_step happening))

theorem Declines.isRefused (declines : host.Declines pending) : host.IsRefused pending := by
  cases declines with
  | failed aside ended failure =>
      refine ⟨?_, ?_, ?_⟩
      · intro outcome isOutcome
        rw [ended] at isOutcome
        cases isOutcome
        exact failure
      · intro receiver after turned
        rw [turnCall_of_outcome? ended] at turned
        contradiction
      · intro unended
        rw [ended] at unended
        contradiction
  | @sandbox number call launcher sandbox found refuses =>
      refine ⟨?_, ?_, ?_⟩
      · intro outcome isOutcome
        obtain ⟨own, isOwn, rfl⟩ := outcome?_sandbox found isOutcome
        rw [refuses.outcome isOwn]
        trivial
      · intro receiver after turned
        simp only [turnCall, found, Option.bind_eq_bind, Option.bind_some] at turned
        obtain ⟨⟨desk, next⟩, moved, turned⟩ := Option.bind_eq_some_iff.mp turned
        cases turned
        refine ⟨undisturbed_setSandbox found (refuses.leavesAlone moved) desk, ?_⟩
        obtain ⟨-, told, queued⟩ := refuses.turned moved
        have ended : next.outcome? call = some (.error .destroyed) := by
          have phases : next.phase? call = some (.finished (.error .destroyed)) := by
            rw [told]
            have set : (sandbox.finish call (.error .destroyed)).phase? call =
                (sandbox.setPhase call (.finished (.error .destroyed))).phase? call := rfl
            rw [set, Sandbox.Executor.phase?_setPhase, if_pos rfl, queued, Option.map_some]
          simp only [Sandbox.Executor.outcome?, phases]
        simp [Host.outcome?, setSandbox, found, ended]
      · intro unended
        have open_ : sandbox.outcome? call = none := by
          cases own : sandbox.outcome? call with
          | none => rfl
          | some outcome => simp [Host.outcome?, found, own] at unended
        rcases refuses.stands open_ with left | ⟨other, held, different⟩ | turns
        · exact .abandoned found left
        · exact .behind found held different
        · refine .ready fun receiver => ?_
          obtain ⟨⟨desk, next⟩, turned⟩ := Option.isSome_iff_exists.mp (turns receiver host.desk)
          simp [turnCall, found, turned]

end Declines

/-! ## Executors that were destroyed -/

section Executors

variable {host : Host} {number : Nat}

/-- A destroyed sandbox executor is given code. -/
theorem callSandbox_of_isSandboxDestroyed (destroyed : host.IsSandboxDestroyed number)
    (code : String) :
    host.Undisturbed (host.callSandbox number (.execute code)).1 ∧
      (host.callSandbox number (.execute code)).1.Declines
        (host.callSandbox number (.execute code)).2 := by
  obtain ⟨launcher, sandbox, found, isDestroyed⟩ := destroyed
  have leaves := Sandbox.Executor.leavesAlone_call isDestroyed host.desk code
  have refuses := Sandbox.Executor.refuses_call isDestroyed host.desk code
  have numbered : (sandbox.call host.desk (.execute code)).2.2 = sandbox.calls.length := rfl
  have foundNext : (host.setSandbox number
      (sandbox.call host.desk (.execute code)).2.1).sandboxes[number]? =
        some (launcher, (sandbox.call host.desk (.execute code)).2.1) := by
    simp [setSandbox, found]
  simp only [callSandbox, found]
  rw [numbered]
  exact ⟨undisturbed_setSandbox found leaves _, .sandbox foundNext refuses⟩

/-- A destroyed worker executor is given code. -/
theorem callWorker_of_destroyed (destroyed : host.IsDestroyed (.worker number)) (code : String) :
    host.Undisturbed (host.callWorker number (.execute code)).1 ∧
      (host.callWorker number (.execute code)).1.Declines
        (host.callWorker number (.execute code)).2 := by
  obtain ⟨registry, worker, found, isDestroyed⟩ := destroyed
  simp only [callWorker]
  cases at_ : host.workerPlace? number with
  | none => exact ⟨.refl host, .failed (fun _ _ => by simp) rfl trivial⟩
  | some pair =>
      obtain ⟨owner, place⟩ := pair
      have ofPlace := at_
      simp only [workerPlace?, found, Option.bind_eq_bind, Option.bind_some] at ofPlace
      obtain ⟨lent, -, same⟩ := Option.bind_eq_some_iff.mp ofPlace
      cases same
      have called : Worker.Place.call ⟨host.desk, lent, worker⟩ (.execute code) =
          (⟨host.desk, lent, worker.refusing (.execute code)⟩, worker.calls.length) :=
        Worker.Place.call_eq_of_destroyed isDestroyed (.execute code)
      have foundNext : (host.setWorkerPlace number registry
          ⟨host.desk, lent, worker.refusing (.execute code)⟩).workers[number]? =
            some (registry, worker.refusing (.execute code)) :=
        (workers_setWorkerPlace at_).1
      have ended : (host.setWorkerPlace number registry
          ⟨host.desk, lent, worker.refusing (.execute code)⟩).outcome?
            (.worker number worker.calls.length) =
              some (.error (.worker (.shutDown worker.language))) := by
        simp [Host.outcome?, foundNext, Worker.Executor.outcome?_refusing, Except.mapError]
      simp only [called]
      exact ⟨undisturbed_setWorkerPlace at_ _, .failed (fun _ _ => by simp) ended trivial⟩

/-- A destroyed toolchain executor is given code. -/
theorem callToolchain_of_destroyed (destroyed : host.IsDestroyed (.toolchain number))
    (code : String) :
    (∀ staff, callToolchainWith staff host number (.execute code) =
        host.callToolchain number (.execute code)) ∧
      host.Undisturbed (host.callToolchain number (.execute code)).1 ∧
        (host.callToolchain number (.execute code)).1.Declines
          (host.callToolchain number (.execute code)).2 := by
  obtain ⟨executor, found, isDestroyed⟩ := destroyed
  simp only [callToolchainWith, callToolchain, found, Option.bind_eq_bind, Option.bind_some]
  cases host.toolchains[executor.toolchain]? with
  | none => exact ⟨fun _ => rfl, .refl host, .failed (fun _ _ => by simp) rfl trivial⟩
  | some toolchain =>
      simp only [Option.bind_some, pure,
        Toolchain.Executor.call_of_destroyed isDestroyed, ToolchainBackend.interface]
      refine ⟨fun _ => trivial, ?_, ?_⟩
      · exact {
          compilers := rfl
          launchers := rfl
          launches := rfl
          peers := rfl
          registries := rfl
          links := fun _ _ => rfl
          awaits := fun awaiting => by cases awaiting <;> rfl
          log := ToolchainBackend.log_prepare host.site (host.log, toolchain) executor.artifacts }
      · rcases ToolchainBackend.prepare host.site (host.log, toolchain) executor.artifacts with
          ⟨state, prepared⟩
        have inside := (List.getElem?_eq_some_iff.mp found).1
        cases prepared with
        | error cause =>
            refine .failed (fun _ _ => by simp)
              (show _ = some (.error (.toolchain cause)) from ?_) trivial
            simp [Host.outcome?, inside, Toolchain.Executor.outcome?, Except.map,
              Except.mapError]
        | ok nothing =>
            refine .failed (fun _ _ => by simp)
              (show _ = some (.ok (some Toolchain.cancelledResult)) from ?_)
              ⟨Toolchain.cancelledResult, rfl, by decide⟩
            simp [Host.outcome?, inside, Toolchain.Executor.outcome?, Except.map,
              Except.mapError]

/-- A compile executor that is given blank code does not ask its compiler. -/
theorem callCompiled_of_blank (host : Host) (compiled : Compile.Executor) {code : String}
    (blank : Text.isBlankText code = true) :
    (∀ staff, callCompiledWith staff host compiled (.execute code) =
        host.callCompiled compiled (.execute code)) ∧
      host.callCompiled compiled (.execute code) =
        (host, .finished (.ok (some (.failure emptySourceMessage)))) := by
  simp [callCompiledWith, callCompiled, Compile.Executor.judge, blank]

/-- A compile executor that is given any other code asks its compiler: what it does depends
on who that is. -/
theorem callCompiled_of_not_blank (host : Host) (compiled : Compile.Executor) {code : String}
    (source : Text.isBlankText code = false) :
    ∃ staff, callCompiledWith staff host compiled (.execute code) ≠
      host.callCompiled compiled (.execute code) := by
  -- Whatever the host's own compiler does, it writes down one entry at most.
  have short : (host.callCompiled compiled (.execute code)).1.log.length ≤
      host.log.length + 1 := by
    have sandbox (host : Host) (number : Nat) (code : String) :
        (host.callSandbox number (.execute code)).1.log = host.log := by
      simp only [callSandbox]
      split <;> rfl
    have judged : (compiled.judge (compile compiled.compiler) host code).1.log.length ≤
        host.log.length + 1 := by
      simp only [Compile.Executor.judge, source, Bool.false_eq_true, if_false, compile]
      cases host.compilers[compiled.compiler]? with
      | none => simp
      | some compiler => cases compiler <;> simp [Compiler.compile]
    simp only [callCompiled]
    split
    · rename_i after result equal
      rw [equal] at judged
      exact judged
    · rename_i after made equal
      rw [equal] at judged
      rw [sandbox]
      exact judged
  let verbose : Staff :=
    ⟨fun _ host _ _ => ((host.write "" .launched).write "" .launched, .failed []), host.staff.run⟩
  refine ⟨verbose, fun same => ?_⟩
  have long : (callCompiledWith verbose host compiled (.execute code)).1.log.length =
      host.log.length + 2 := by
    simp [callCompiledWith, Compile.Executor.judge, source, verbose, Compile.verdict,
      Compilation.failed, Host.write]
  rw [same] at long
  omega

/-- The failure that a compiler's refusal is reported as. -/
theorem isFailure_verdict {delegated : Bool} {compilation : Compilation} {result : RunResult}
    (judged : Compile.verdict delegated compilation = .result result)
    (isDelegated : delegated = true) : IsFailure (.ok (some result)) := by
  refine ⟨result, rfl, ?_⟩
  simp only [Compile.verdict, isDelegated, if_true] at judged
  split at judged
  · contradiction
  · cases judged
    simp only [Compile.refusal, ne_eq, String.append_eq_empty_iff, not_and]
    intro silent
    exact absurd silent (by decide)

/-- A compile executor that runs code in a sandbox does compile the code it is given, but
what comes of the call is a failure all the same. -/
theorem callCompiled_of_delegated {compiled : Compile.Executor}
    (delegated : compiled.delegate.isSome = true)
    (destroyed : host.IsDestroyed (.compiled compiled)) (code : String) :
    (host.callCompiled compiled (.execute code)).1.Declines
      (host.callCompiled compiled (.execute code)).2 := by
  obtain ⟨number, isDelegate⟩ := Option.isSome_iff_exists.mp delegated
  have sandboxes : (compiled.judge (compile compiled.compiler) host code).1.sandboxes =
      host.sandboxes := (host.calm_judge compiled code).sandboxes
  simp only [callCompiled]
  cases judged : compiled.judge (compile compiled.compiler) host code with
  | mk after verdict =>
      rw [judged] at sandboxes
      cases verdict with
      | run made =>
          have stays : after.IsSandboxDestroyed number := by
            obtain ⟨launcher, sandbox, found, isDestroyed⟩ := destroyed number isDelegate
            exact ⟨launcher, sandbox, sandboxes ▸ found, isDestroyed⟩
          simp only [isDelegate, Option.getD_some]
          exact (callSandbox_of_isSandboxDestroyed stays made).2
      | result result =>
          refine .failed (fun _ _ => by simp) rfl ?_
          simp only [Compile.Executor.judge] at judged
          split at judged
          · cases judged
            exact ⟨_, rfl, by decide⟩
          · exact isFailure_verdict (congrArg Prod.snd judged) delegated

end Executors

/-! ## Every executor -/

/-- A destroyed executor refuses code, unless it compiles and the code is not blank. -/
theorem refuses_of_isDestroyed {host : Host} {executor : Executor}
    (destroyed : host.IsDestroyed executor) {code : String}
    (blank : ∀ compiled, executor = .compiled compiled → Text.isBlankText code = true) :
    host.Refuses executor code := by
  cases executor with
  | sandboxed number =>
      obtain ⟨undisturbed, declines⟩ := callSandbox_of_isSandboxDestroyed destroyed code
      exact ⟨fun _ => rfl, undisturbed, fun history => (declines.run history).isRefused⟩
  | worker number =>
      obtain ⟨undisturbed, declines⟩ := callWorker_of_destroyed destroyed code
      exact ⟨fun _ => rfl, undisturbed, fun history => (declines.run history).isRefused⟩
  | toolchain number =>
      obtain ⟨unasked, undisturbed, declines⟩ := callToolchain_of_destroyed destroyed code
      exact ⟨unasked, undisturbed, fun history => (declines.run history).isRefused⟩
  | compiled compiled =>
      obtain ⟨unasked, called⟩ := callCompiled_of_blank host compiled (blank compiled rfl)
      have declines : host.Declines (.finished (.ok (some (.failure emptySourceMessage)))) :=
        .failed (fun _ _ => by simp) rfl ⟨_, rfl, by decide⟩
      refine ⟨unasked, ?_, fun history => ?_⟩
      · rw [Host.call, called]
        exact .refl host
      · rw [Host.call, called]
        exact (declines.run history).isRefused

/-- After an executor was destroyed and whatever else has happened, it refuses code exactly
when it does not compile or the code is blank. -/
theorem refuses_after_destroy_iff (host : Host) (executor : Executor)
    (has : host.Has executor) (history : List Happening) (code : String) :
    ((host.destroy executor).run history).Refuses executor code ↔
      ∀ compiled, executor = .compiled compiled → Text.isBlankText code = true := by
  constructor
  · rintro refuses compiled rfl
    rw [← Bool.not_eq_false]
    intro source
    obtain ⟨staff, different⟩ :=
      callCompiled_of_not_blank ((host.destroy (.compiled compiled)).run history) compiled source
    exact different (refuses.unasked staff)
  · exact refuses_of_isDestroyed ((keeps_run _ history).isDestroyed (isDestroyed_destroy has))

/-- A sandbox executor that is destroyed while a call of it waits for a launch refuses the
next call. -/
theorem refuses_while_launching :
    let host : Host := { sandboxes := [(0, { language := "javascript", broker := 0 })] }
    let called := (host.call (.sandboxed 0) (.execute "y")).1
    called.Has (.sandboxed 0) ∧
      ((called.destroy (.sandboxed 0)).run [.abandon (.sandbox 0 0)]).Refuses (.sandboxed 0)
        "x" := by
  intro host called
  have has : called.Has (.sandboxed 0) := Nat.zero_lt_one
  exact ⟨has, (refuses_after_destroy_iff called (.sandboxed 0) has _ "x").mpr nofun⟩

/-- An executor that only compiles goes on compiling when it was destroyed, and succeeds. -/
theorem compiles_after_destroy :
    let host : Host := { compilers := [.scripted "tsc" []] }
    let executor : Executor := .compiled { language := "typescript", compiler := 0 }
    let called := (host.destroy executor).call executor (.execute "x")
    called.1.log.map (·.1) = ["tsc"] ∧
      called.1.outcome? called.2 =
        some (.ok (some (.success "Successfully compiled to JavaScript:\n\nx"))) ∧
      ¬(host.destroy executor).Refuses executor "x" := by
  refine ⟨rfl, rfl, fun refuses => ?_⟩
  obtain ⟨said, isSaid, complains⟩ := (refuses.refused []).outcome _ rfl
  cases isSaid
  exact complains rfl

end Host

end Polyglot
