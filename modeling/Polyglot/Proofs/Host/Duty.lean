import Polyglot.Host.Executor
import Polyglot.Proofs.Sandbox.Run
import Polyglot.Proofs.Worker.Borrowing

/-!
# Duties of a host

A host does one thing at a time for the caller of a registry: somebody's call of an
executor, or nothing.  What holds of the contexts meanwhile is said here once for every
kind of executor.
-/

namespace Polyglot

/-- The sandbox executor in which an executor runs code. -/
def Executor.sandbox? : Executor → Option Nat
  | .sandboxed number => some number
  | .compiled executor => executor.delegate
  | .worker _ | .toolchain _ => none

/-- What that sandbox executor is called for when the executor is. -/
inductive Executor.Passes : Executor → Purpose → Purpose → Prop where
  | sandboxed (number : Nat) (purpose : Purpose) : Passes (.sandboxed number) purpose purpose
  | start (compiled : Compile.Executor) : Passes (.compiled compiled) .start .start
  /-- The code that some compiler made of the source. -/
  | execute {compiled : Compile.Executor} {source code : String} {before after : Host}
      (judged : compiled.judge (Host.compile compiled.compiler) before source =
        (after, .run code)) : Passes (.compiled compiled) (.execute source) (.execute code)

/-- What a host does for the caller of a registry. -/
inductive Duty where
  | idle
  /-- It does somebody's call of an executor. -/
  | call (owner : Nat) (executor : Executor) (purpose : Purpose) (pending : Pending)

/-- The sandbox executor that is called. -/
def Duty.sandbox? : Duty → Option Nat
  | .call _ _ _ (.sandbox number _) => some number
  | _ => none

/-- No context has anything to do with a duty. -/
inductive Duty.IsAside : Duty → Prop where
  | idle : IsAside .idle
  | prepared {owner : Nat} {compiled : Compile.Executor} (alone : compiled.delegate = none) :
      IsAside (.call owner (.compiled compiled) .start (.finished (.ok none)))
  | judged {owner : Nat} {compiled : Compile.Executor} {source : String} {result : RunResult}
      {before after : Host}
      (judged : compiled.judge (Host.compile compiled.compiler) before source =
        (after, .result result)) :
      IsAside (.call owner (.compiled compiled) (.execute source) (.finished (.ok (some result))))
  | toolchain (owner number call : Nat) (purpose : Purpose) :
      IsAside (.call owner (.toolchain number) purpose (.toolchain number call))
  | missing (owner number : Nat) (purpose : Purpose) (outcome : Outcome) :
      IsAside (.call owner (.toolchain number) purpose (.finished outcome))

namespace Host

/-- The code that is queued for a context. -/
def codes (host : Host) : Seat → List String
  | .sandbox executor context => host.sandboxes[executor]?.elim [] (·.2.codes context)
  | .interpreter registry handle => host.registries[registry]?.elim [] (·.codes handle)

/-- A registry of a host is used for one thing. -/
def Lends (failures : List TransportError) (host : Host) (accounts : Seat → Account)
    (registry : Nat) (job : Worker.Job) : Prop :=
  ∃ lent, host.registries[registry]? = some lent ∧
    lent.Serves failures (fun handle => accounts (.interpreter registry handle)) job

/-- A host does its duty, and nothing else for the caller of that registry. -/
inductive Tends (failures : List TransportError) (host : Host) (accounts : Seat → Account)
    (registry : Nat) : Duty → Prop where
  | aside {duty : Duty} (lends : host.Lends failures accounts registry .idle)
      (isAside : duty.IsAside) : Tends failures host accounts registry duty
  | sandbox {owner number call launcher : Nat} {executor : Executor} {purpose inner : Purpose}
      {sandbox : Sandbox.Executor} (lends : host.Lends failures accounts registry .idle)
      (isSandbox : executor.sandbox? = some number) (passes : executor.Passes purpose inner)
      (found : host.sandboxes[number]? = some (launcher, sandbox))
      (tends : sandbox.Tends failures (fun context => accounts (.sandbox number context)) call
        owner inner) :
      Tends failures host accounts registry (.call owner executor purpose (.sandbox number call))
  | worker {owner number call : Nat} {purpose : Purpose} {worker : Worker.Executor}
      {lent : Worker.Registry} (found : host.workers[number]? = some (registry, worker))
      (kept : host.registries[registry]? = some lent)
      (tends : worker.Tends failures lent (fun handle => accounts (.interpreter registry handle))
        call owner purpose.code) :
      Tends failures host accounts registry
        (.call owner (.worker number) purpose (.worker number call))

/-- An executor whose contexts have nothing to do. -/
structure Rests (failures : List TransportError) (host : Host) (accounts : Seat → Account)
    (registry : Nat) (executor : Executor) : Prop where
  lends : host.Lends failures accounts registry .idle
  unused : ∀ number, executor.sandbox? = some number → ∃ launcher sandbox,
    host.sandboxes[number]? = some (launcher, sandbox) ∧
      sandbox.IsFor (fun context => accounts (.sandbox number context)) sandbox.calls.length ∧
      sandbox.IsUnused fun context => accounts (.sandbox number context)
  forgotten : ∀ number, executor = .worker number → ∃ worker,
    host.workers[number]? = some (registry, worker) ∧
      ∀ lent, host.registries[registry]? = some lent → worker.destroyed = true →
        lent.slot? worker.language = none

variable {host after : Host} {accounts accounts' : Seat → Account} {registry : Nat} {duty : Duty}
  {failures more : List TransportError} {executor : Executor} {job : Worker.Job}

/-! ## What a duty does not look at -/

section Frames

theorem Lends.congr (lends : host.Lends failures accounts registry job)
    (registries : after.registries[registry]? = host.registries[registry]?)
    (interpreters : ∀ handle,
      accounts' (.interpreter registry handle) = accounts (.interpreter registry handle)) :
    after.Lends failures accounts' registry job := by
  obtain ⟨lent, kept, serves⟩ := lends
  refine ⟨lent, registries.trans kept, ?_⟩
  simpa only [interpreters] using serves

/-- A duty looks at the registry and at the sandbox executor that is called. -/
theorem Tends.congr (tends : host.Tends failures accounts registry duty)
    (sandboxes : ∀ number, duty.sandbox? = some number →
      after.sandboxes[number]? = host.sandboxes[number]? ∧
        ∀ context, accounts' (.sandbox number context) = accounts (.sandbox number context))
    (registries : after.registries[registry]? = host.registries[registry]?)
    (interpreters : ∀ handle,
      accounts' (.interpreter registry handle) = accounts (.interpreter registry handle))
    (workers : after.workers = host.workers) : after.Tends failures accounts' registry duty := by
  cases tends with
  | aside lends isAside => exact .aside (lends.congr registries interpreters) isAside
  | sandbox lends isSandbox passes found tends =>
      obtain ⟨same, heard⟩ := sandboxes _ rfl
      refine .sandbox (lends.congr registries interpreters) isSandbox passes (same.trans found) ?_
      simpa only [heard] using tends
  | worker found kept tends =>
      refine .worker (workers ▸ found) (registries.trans kept) ?_
      simpa only [interpreters] using tends

/-- Nothing has happened to the contexts of a host. -/
structure Calm (before after : Host) : Prop where
  sandboxes : after.sandboxes = before.sandboxes
  registries : after.registries = before.registries
  workers : after.workers = before.workers

theorem Tends.calm (tends : host.Tends failures accounts registry duty) (calm : host.Calm after) :
    after.Tends failures accounts registry duty :=
  tends.congr (fun _ _ => ⟨by rw [calm.sandboxes], fun _ => rfl⟩) (by rw [calm.registries])
    (fun _ => rfl) calm.workers

theorem Rests.calm (rests : host.Rests failures accounts registry executor)
    (calm : host.Calm after) : after.Rests failures accounts registry executor where
  lends := rests.lends.congr (by rw [calm.registries]) fun _ => rfl
  unused := by
    rw [calm.sandboxes]
    exact rests.unused
  forgotten := by
    rw [calm.workers, calm.registries]
    exact rests.forgotten

theorem Calm.codes (calm : host.Calm after) (seat : Seat) : after.codes seat = host.codes seat := by
  cases seat with
  | sandbox executor context => simp only [Host.codes, calm.sandboxes]
  | interpreter registry handle => simp only [Host.codes, calm.registries]

/-- The registry is not used for anything while a host is idle. -/
theorem Tends.lends (tends : host.Tends failures accounts registry .idle) :
    host.Lends failures accounts registry .idle := by
  cases tends with
  | aside lends isAside => exact lends

/-- Something happens to the registry that leaves what is done with it what it is. -/
theorem Tends.modifyRegistry (tends : host.Tends failures accounts registry duty)
    {change : Worker.Registry → Worker.Registry}
    (serves : ∀ lent job, host.registries[registry]? = some lent →
      lent.Serves failures (fun handle => accounts (.interpreter registry handle)) job →
      (change lent).Serves failures (fun handle => accounts' (.interpreter registry handle)) job)
    (extends_ : ∀ seat, (accounts seat).Extends (accounts' seat))
    (sandboxes : ∀ number context,
      accounts' (.sandbox number context) = accounts (.sandbox number context))
    (slots : ∀ (lent : Worker.Registry) (language : String), lent.slot? language = none →
      (change lent).slot? language = none) :
    (host.modifyRegistry registry change).Tends failures accounts' registry duty := by
  have changed {lent : Worker.Registry} (kept : host.registries[registry]? = some lent) :
      (host.modifyRegistry registry change).registries[registry]? = some (change lent) := by
    simp [Host.modifyRegistry, kept]
  have lent (lends : host.Lends failures accounts registry .idle) :
      (host.modifyRegistry registry change).Lends failures accounts' registry .idle := by
    obtain ⟨lent, kept, serving⟩ := lends
    exact ⟨change lent, changed kept, serves lent .idle kept serving⟩
  cases tends with
  | aside lends isAside => exact .aside (lent lends) isAside
  | sandbox lends isSandbox passes found tends =>
      refine .sandbox (lent lends) isSandbox passes found ?_
      simpa only [sandboxes] using tends
  | worker found kept tends =>
      exact .worker found (changed kept) (tends.keep (fun job => serves _ job kept)
        (fun handle => extends_ (.interpreter registry handle)) (slots _ _))

/-- Something happens to another registry. -/
theorem Tends.modifyOther (tends : host.Tends failures accounts registry duty) {other : Nat}
    (different : other ≠ registry) (change : Worker.Registry → Worker.Registry) :
    (host.modifyRegistry other change).Tends failures accounts registry duty :=
  tends.congr (fun _ _ => ⟨rfl, fun _ => rfl⟩) (by simp [Host.modifyRegistry, different])
    (fun _ => rfl) rfl

/-- A duty is done when more launches have failed. -/
theorem Tends.mono (tends : host.Tends failures accounts registry duty)
    (subset : failures ⊆ more) : host.Tends more accounts registry duty := by
  have lent (lends : host.Lends failures accounts registry .idle) :
      host.Lends more accounts registry .idle := by
    obtain ⟨lent, kept, serves⟩ := lends
    exact ⟨lent, kept, serves.mono subset⟩
  cases tends with
  | aside lends isAside => exact .aside (lent lends) isAside
  | sandbox lends isSandbox passes found tends =>
      exact .sandbox (lent lends) isSandbox passes found (tends.mono subset)
  | worker found kept tends => exact .worker found kept (tends.mono subset)

end Frames

end Host

end Polyglot
