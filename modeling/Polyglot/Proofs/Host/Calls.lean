import Polyglot.Proofs.Host.Duty
import Polyglot.Proofs.Host.Effects

/-!
# Calls of a host

A host that makes a call, lets it take a turn or sees it end goes on doing its duty, and
submits no code but that of the call.
-/

namespace Polyglot

/-- A cause that tells nothing of what a context said. -/
def ExecutorError.IsOwn (failures : List TransportError) : ExecutorError → Prop
  | .sandbox cause => cause.IsOwn failures
  | .worker cause => cause.IsOwn failures
  | .toolchain _ => False

/-- What a context receives when an executor is given source text. -/
inductive Backend.Submits (source : String) : Backend → Seat → String → Prop where
  | sandbox (executor context : Nat) :
      Submits source .sandbox (.sandbox executor context) (Scan.prepareForSandbox source)
  | worker (registry handle : Nat) : Submits source .worker (.interpreter registry handle) source
  | transpile {compiled : Compile.Executor} {before after : Host} {code : String}
      (judged : compiled.judge (Host.compile compiled.compiler) before source = (after, .run code))
      (executor context : Nat) :
      Submits source .transpile (.sandbox executor context) (Scan.prepareForSandbox code)

/-- What may come of somebody's source text.  All of the output was emitted for it, or is
the host's own. -/
inductive Owes (failures : List TransportError) (accounts : Seat → Account) (owner : Nat)
    (source : String) : Backend → Outcome → Prop where
  | ran {backend : Backend} {seat : Seat} {code : String} {result : RunResult}
      (submits : backend.Submits source seat code)
      (yields : (accounts seat).Yields failures owner code result) :
      Owes failures accounts owner source backend (.ok (some result))
  | nothing (backend : Backend) : Owes failures accounts owner source backend (.ok none)
  | failed {backend : Backend} {cause : ExecutorError} (isOwn : cause.IsOwn failures) :
      Owes failures accounts owner source backend (.error cause)
  /-- A compiler has the last word. -/
  | judged {compiled : Compile.Executor} {before after : Host} {result : RunResult}
      (judged : compiled.judge (Host.compile compiled.compiler) before source =
        (after, .result result)) :
      Owes failures accounts owner source .transpile (.ok (some result))
  /-- A toolchain has no contexts. -/
  | toolchain (outcome : Outcome) : Owes failures accounts owner source .toolchain outcome

theorem Owes.mono {failures more : List TransportError} {accounts accounts' : Seat → Account}
    {owner : Nat} {source : String} {backend : Backend} {outcome : Outcome}
    (owes : Owes failures accounts owner source backend outcome)
    (later : ∀ seat, (accounts seat).Extends (accounts' seat)) (subset : failures ⊆ more) :
    Owes more accounts' owner source backend outcome := by
  cases owes with
  | ran submits yields => exact .ran submits (yields.mono (later _) subset)
  | nothing => exact .nothing backend
  | @failed _ cause isOwn =>
      refine .failed ?_
      cases cause with
      | sandbox cause => exact SandboxError.IsOwn.mono isOwn subset
      | worker cause => exact WorkerError.IsOwn.mono isOwn subset
      | toolchain cause => exact isOwn
  | judged judged => exact .judged judged
  | toolchain => exact .toolchain outcome

namespace Host

variable {host after : Host} {accounts accounts' : Seat → Account} {registry owner : Nat}
  {failures : List TransportError} {executor : Executor} {purpose inner : Purpose}
  {pending : Pending} {number index launcher : Nat}

/-! ## Accounts of one executor or registry -/

section Accounts

/-- Accounts that are others at the contexts of one sandbox executor. -/
def withSandbox (accounts : Seat → Account) (number : Nat) (changed : Nat → Account) :
    Seat → Account
  | .sandbox executor context =>
    if executor = number then changed context else accounts (.sandbox executor context)
  | .interpreter registry handle => accounts (.interpreter registry handle)

/-- Accounts that are others at the workers of one registry. -/
def withRegistry (accounts : Seat → Account) (number : Nat) (changed : Nat → Account) :
    Seat → Account
  | .sandbox executor context => accounts (.sandbox executor context)
  | .interpreter registry handle =>
    if registry = number then changed handle else accounts (.interpreter registry handle)

theorem Lends.withSandbox {job : Worker.Job} (lends : host.Lends failures accounts registry job)
    (registries : after.registries = host.registries) (number : Nat) (changed : Nat → Account) :
    after.Lends failures (withSandbox accounts number changed) registry job :=
  lends.congr (by rw [registries]) fun _ => rfl

/-- A sandbox executor goes on with a call. -/
theorem tends_setSandbox {old new : Sandbox.Executor}
    (lends : host.Lends failures accounts registry .idle)
    (isSandbox : executor.sandbox? = some number) (passes : executor.Passes purpose inner)
    (found : host.sandboxes[number]? = some (launcher, old))
    (moves : ∃ changed, Posts owner old.codes (fun context => accounts (.sandbox number context))
      new.codes changed ∧ new.Tends failures changed index owner inner)
    (calm : (host.setSandbox number new).Calm after) :
    ∃ accounts', Posts owner host.codes accounts after.codes accounts' ∧
      after.Tends failures accounts' registry
        (.call owner executor purpose (.sandbox number index)) := by
  obtain ⟨changed, posts, tends⟩ := moves
  have foundNew : after.sandboxes[number]? = some (launcher, new) := by
    simp [calm.sandboxes, setSandbox, found]
  refine ⟨withSandbox accounts number changed, ?_, .sandbox
    (lends.withSandbox calm.registries number changed) isSandbox passes foundNew ?_⟩
  · intro seat
    cases seat with
    | sandbox other context =>
        by_cases same : other = number
        · subst same
          obtain ⟨codes, submitted, posted⟩ := posts context
          exact ⟨codes, by simpa [Host.codes, foundNew, found] using submitted,
            by simpa [withSandbox] using posted⟩
        · have different : ¬number = other := fun equal => same equal.symm
          exact ⟨[], by simp [Host.codes, calm.sandboxes, setSandbox, different],
            by simp [withSandbox, same]⟩
    | interpreter registry handle =>
        exact ⟨[], by simp [Host.codes, calm.registries, setSandbox], by simp [withSandbox]⟩
  · simpa [withSandbox] using tends

/-- A worker executor goes on with a call. -/
theorem tends_setWorkerPlace {worker : Worker.Executor} {lent : Worker.Registry}
    {next : Worker.Place} (found : host.workers[number]? = some (registry, worker))
    (kept : host.registries[registry]? = some lent)
    (moves : ∃ changed, Posts owner lent.codes
      (fun handle => accounts (.interpreter registry handle)) next.registry.codes changed ∧
        next.executor.Tends failures next.registry changed index owner purpose.code) :
    ∃ accounts', Posts owner host.codes accounts (host.setWorkerPlace number registry next).codes
        accounts' ∧
      (host.setWorkerPlace number registry next).Tends failures accounts' registry
        (.call owner (.worker number) purpose (.worker number index)) := by
  obtain ⟨changed, posts, tends⟩ := moves
  have foundNew : (host.setWorkerPlace number registry next).workers[number]? =
      some (registry, next.executor) := by
    have inside : number < host.workers.length := (List.getElem?_eq_some_iff.mp found).1
    simp [setWorkerPlace, inside]
  have keptNew : (host.setWorkerPlace number registry next).registries[registry]? =
      some next.registry := by
    simp [setWorkerPlace, modifyRegistry, kept]
  refine ⟨withRegistry accounts registry changed, ?_, .worker foundNew keptNew ?_⟩
  · intro seat
    cases seat with
    | sandbox executor context => exact ⟨[], by simp [Host.codes, setWorkerPlace, modifyRegistry],
        by simp [withRegistry]⟩
    | interpreter other handle =>
        by_cases same : other = registry
        · subst same
          obtain ⟨codes, submitted, posted⟩ := posts handle
          exact ⟨codes, by simpa [Host.codes, keptNew, kept] using submitted,
            by simpa [withRegistry] using posted⟩
        · have different : ¬registry = other := fun equal => same equal.symm
          exact ⟨[], by simp [Host.codes, setWorkerPlace, modifyRegistry, different],
            by simp [withRegistry, same]⟩
  · simpa [withRegistry] using tends

end Accounts

/-! ## New calls -/

section Calls

/-- A sandbox executor whose contexts have nothing to do is called. -/
theorem Rests.callSandbox (rests : host.Rests failures accounts registry executor)
    (isSandbox : executor.sandbox? = some number) (passes : executor.Passes purpose inner)
    (owner : Nat) :
    ∃ accounts', Posts owner host.codes accounts (host.callSandbox number inner).1.codes accounts' ∧
      (host.callSandbox number inner).1.Tends failures accounts' registry
        (.call owner executor purpose (host.callSandbox number inner).2) := by
  obtain ⟨launcher, sandbox, found, isFor, unused⟩ := rests.unused number isSandbox
  simp only [Host.callSandbox, found]
  exact tends_setSandbox rests.lends isSandbox passes found
    (sandbox.tends_call isFor unused host.desk inner failures owner) ⟨rfl, rfl, rfl⟩

theorem Rests.callWorker (rests : host.Rests failures accounts registry (.worker number))
    (purpose : Purpose) (owner : Nat) :
    ∃ accounts', Posts owner host.codes accounts (host.callWorker number purpose).1.codes
        accounts' ∧
      (host.callWorker number purpose).1.Tends failures accounts' registry
        (.call owner (.worker number) purpose (host.callWorker number purpose).2) := by
  obtain ⟨worker, found, forgotten⟩ := rests.forgotten number rfl
  obtain ⟨lent, kept, serves⟩ := rests.lends
  have place : host.workerPlace? number = some (registry, ⟨host.desk, lent, worker⟩) := by
    simp [workerPlace?, found, kept]
  simp only [Host.callWorker, place]
  exact tends_setWorkerPlace found kept
    (Worker.Place.tends_call ⟨serves, forgotten lent kept⟩ purpose owner)

/-- A compiler that is given source text has nothing to do with contexts. -/
theorem calm_judge (host : Host) (compiled : Compile.Executor) (source : String) :
    host.Calm (compiled.judge (compile compiled.compiler) host source).1 := by
  obtain ⟨log, compilers, judged⟩ := host.judge_eq compiled source
  rw [judged]
  exact ⟨rfl, rfl, rfl⟩

/-- Compiled code is run in a sandbox. -/
theorem delegate_of_judge {compiled : Compile.Executor} {before after : Host} {source code : String}
    (judged : compiled.judge (compile compiled.compiler) before source = (after, .run code)) :
    compiled.delegate = some (compiled.delegate.getD 0) := by
  cases delegate : compiled.delegate with
  | some number => rfl
  | none =>
      simp only [Compile.Executor.judge, Compile.verdict, delegate] at judged
      split at judged
      · simp at judged
      · have verdict := congrArg Prod.snd judged
        simp only [Option.isSome_none, Bool.false_eq_true, if_false] at verdict
        split at verdict <;> contradiction

theorem Rests.callCompiled {compiled : Compile.Executor}
    (rests : host.Rests failures accounts registry (.compiled compiled)) (purpose : Purpose)
    (owner : Nat) :
    ∃ accounts', Posts owner host.codes accounts (host.callCompiled compiled purpose).1.codes
        accounts' ∧
      (host.callCompiled compiled purpose).1.Tends failures accounts' registry
        (.call owner (.compiled compiled) purpose (host.callCompiled compiled purpose).2) := by
  cases purpose with
  | start =>
      simp only [Host.callCompiled]
      cases delegate : compiled.delegate with
      | none =>
          exact ⟨accounts, posts_nothing owner accounts fun _ => rfl,
            .aside rests.lends (.prepared delegate)⟩
      | some number => exact rests.callSandbox delegate (.start compiled) owner
  | execute source =>
      have calm := host.calm_judge compiled source
      simp only [Host.callCompiled]
      cases judged : compiled.judge (compile compiled.compiler) host source with
      | mk after verdict =>
          rw [judged] at calm
          have resting := rests.calm calm
          have same := posts_nothing owner accounts calm.codes
          cases verdict with
          | result result => exact ⟨accounts, same, .aside resting.lends (.judged judged)⟩
          | run code =>
              obtain ⟨accounts', posts, tends⟩ := resting.callSandbox (delegate_of_judge judged)
                (.execute judged) owner
              exact ⟨accounts', same.trans posts, tends⟩

theorem Rests.callToolchain (rests : host.Rests failures accounts registry (.toolchain number))
    (purpose : Purpose) (owner : Nat) :
    host.Calm (host.callToolchain number purpose).1 ∧
      (host.callToolchain number purpose).1.Tends failures accounts registry
        (.call owner (.toolchain number) purpose (host.callToolchain number purpose).2) := by
  simp only [Host.callToolchain]
  split
  · exact ⟨⟨rfl, rfl, rfl⟩, .aside rests.lends (.missing owner number purpose _)⟩
  · exact ⟨⟨rfl, rfl, rfl⟩, .aside (rests.lends.congr rfl fun _ => rfl)
      (.toolchain owner number _ purpose)⟩

/-- Somebody calls an executor whose contexts have nothing to do. -/
theorem Rests.call (rests : host.Rests failures accounts registry executor) (purpose : Purpose)
    (owner : Nat) :
    ∃ accounts', Posts owner host.codes accounts (host.call executor purpose).1.codes accounts' ∧
      (host.call executor purpose).1.Tends failures accounts' registry
        (.call owner executor purpose (host.call executor purpose).2) := by
  cases executor with
  | sandboxed number => exact rests.callSandbox rfl (.sandboxed number purpose) owner
  | worker number => exact rests.callWorker purpose owner
  | compiled compiled => exact rests.callCompiled purpose owner
  | toolchain number =>
      obtain ⟨calm, tends⟩ := rests.callToolchain purpose owner
      exact ⟨accounts, posts_nothing owner accounts calm.codes, tends⟩

end Calls

/-! ## Turns -/

/-- Somebody's call takes a turn. -/
theorem Tends.turn
    (tends : host.Tends failures accounts registry (.call owner executor purpose pending))
    {receiver : String → Option Nat} (turned : host.turnCall receiver pending = some after) :
    ∃ accounts', Posts owner host.codes accounts after.codes accounts' ∧
      after.Tends failures accounts' registry (.call owner executor purpose pending) := by
  cases tends with
  | aside lends isAside =>
      cases isAside with
      | toolchain owner number call purpose =>
          simp only [turnCall] at turned
          obtain ⟨toolchain, -, turned⟩ := Option.bind_eq_some_iff.mp turned
          obtain ⟨next, -, turned⟩ := Option.bind_eq_some_iff.mp turned
          cases turned
          exact ⟨accounts, posts_nothing owner accounts fun seat => by cases seat <;> rfl,
            .aside lends (.toolchain owner number call purpose)⟩
      | prepared alone => contradiction
      | judged judged => contradiction
      | missing owner number purpose outcome => contradiction
  | sandbox lends isSandbox passes found tends =>
      simp only [turnCall, found, Option.bind_eq_bind, Option.bind_some] at turned
      obtain ⟨⟨desk, next⟩, moved, turned⟩ := Option.bind_eq_some_iff.mp turned
      cases turned
      exact tends_setSandbox lends isSandbox passes found (tends.turn moved) ⟨rfl, rfl, rfl⟩
  | @worker owner number call purpose worker lent found kept tends =>
      have place : host.workerPlace? number = some (registry, ⟨host.desk, lent, worker⟩) := by
        simp [workerPlace?, found, kept]
      simp only [turnCall, place, Option.bind_eq_bind, Option.bind_some] at turned
      obtain ⟨next, moved, turned⟩ := Option.bind_eq_some_iff.mp turned
      cases turned
      exact tends_setWorkerPlace found kept (Worker.Place.tends_turn tends moved)

end Host

end Polyglot
