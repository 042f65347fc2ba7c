import Polyglot.Proofs.Host.Brokers

/-!
# The calls that the brokers of a host serve

Every executor that runs code has a broker of its own.  While somebody calls the executor,
its broker serves the call that goes on, whatever else happens at the host.
-/

namespace Polyglot

namespace Host

/-- The tickets of the input requests of a call that its code was not told the answers to,
oldest first. -/
def heldTickets (host : Host) : Pending → List Nat
  | .sandbox number call => host.sandboxes[number]?.elim [] (·.2.heldTickets call)
  | .worker number call => (host.workerPlace? number).elim [] (·.2.heldTickets call)
  | .toolchain _ _ | .finished _ => []

/-- A call has asked an executor's broker for input, and no value has come for the ticket. -/
structure Asks (host : Host) (executor : Executor) (pending : Pending) (broker ticket : Nat) :
    Prop where
  isBroker : host.brokerOf? executor = some broker
  held : ticket ∈ host.heldTickets pending
  unanswered : ∀ kept, host.desk.broker? broker = some kept → kept.IsUnanswered ticket

/-- The broker of an executor serves a call of it and nobody else. -/
inductive Serves (host : Host) : Executor → Pending → Prop where
  | sandbox {executor : Executor} {number call launcher : Nat} {sandbox : Sandbox.Executor}
      (isSandbox : executor.sandbox? = some number)
      (found : host.sandboxes[number]? = some (launcher, sandbox))
      (serves : sandbox.Serves host.desk call) : Serves host executor (.sandbox number call)
  | worker {number call registry : Nat} {worker : Worker.Executor} {lent : Worker.Registry}
      (found : host.workers[number]? = some (registry, worker))
      (kept : host.registries[registry]? = some lent)
      (serves : Worker.Place.Serves ⟨host.desk, lent, worker⟩ call) :
      Serves host (.worker number) (.worker number call)
  | deaf {executor : Executor} {pending : Pending} (isDeaf : executor.IsDeaf)
      (nothing : ∀ host : Host, host.heldTickets pending = []) : Serves host executor pending

variable {host after : Host} {executor : Executor} {pending : Pending} {number registry : Nat}
  {receiver : String → Option Nat} {purpose : Purpose}

/-! ## The brokers of executors -/

section Brokers

/-- An executor that runs code in a sandbox is destroyed exactly if the sandbox is. -/
theorem isDestroyed_of_sandbox? {launcher : Nat} {sandbox : Sandbox.Executor}
    (isSandbox : executor.sandbox? = some number)
    (found : host.sandboxes[number]? = some (launcher, sandbox)) :
    host.IsDestroyed executor ↔ sandbox.isDestroyed = true := by
  have own : host.IsSandboxDestroyed number ↔ sandbox.isDestroyed = true := by
    constructor
    · rintro ⟨_, same, isSame, destroyed⟩
      rw [found] at isSame
      cases isSame
      exact destroyed
    · exact fun destroyed => ⟨launcher, sandbox, found, destroyed⟩
  cases executor with
  | sandboxed same => cases isSandbox; exact own
  | compiled compiled =>
      have delegated : compiled.delegate = some number := isSandbox
      simp only [IsDestroyed, delegated, Option.some.injEq, forall_eq', own]
  | worker other => contradiction
  | toolchain other => contradiction

/-- The broker of an executor that is called is at the desk and serves the call. -/
theorem Serves.reaches (serves : host.Serves executor pending) {broker : Nat}
    (isBroker : host.brokerOf? executor = some broker) :
    ∃ withdrawn, host.desk.Serves broker withdrawn (host.heldTickets pending) ∧
      (withdrawn = true ↔ host.IsDestroyed executor) := by
  cases serves with
  | sandbox isSandbox found serves =>
      rw [brokerOf?_of_found isSandbox found] at isBroker
      cases isBroker
      refine ⟨_, ?_, (isDestroyed_of_sandbox? isSandbox found).symm⟩
      simp only [heldTickets, found, Option.elim_some]
      exact serves.serves
  | @worker _ _ _ worker _ found kept serves =>
      simp only [brokerOf?, found, Option.map_some, Option.some.injEq] at isBroker
      subst isBroker
      refine ⟨worker.destroyed, ?_, by simp [IsDestroyed, found]⟩
      simp only [heldTickets, workerPlace?_eq_some found kept, Option.elim_some]
      exact serves.serves
  | deaf isDeaf nothing =>
      rw [brokerOf?_of_isDeaf host isDeaf] at isBroker
      contradiction

/-- The tickets that are waited for at the broker of an executor that is called are those
that the call has asked for, unless the executor was destroyed. -/
theorem Serves.asks_iff (serves : host.Serves executor pending) {broker ticket : Nat}
    (isBroker : host.brokerOf? executor = some broker) {kept : Broker}
    (found : host.desk.broker? broker = some kept) :
    kept.ticket ticket = .waiting ↔
      ¬host.IsDestroyed executor ∧ host.Asks executor pending broker ticket := by
  obtain ⟨withdrawn, ⟨same, isSame, serves⟩, gone⟩ := serves.reaches isBroker
  obtain rfl := Option.some.inj (found.symm.trans isSame)
  rw [serves.waiting_iff, ← Bool.not_eq_true, gone]
  constructor
  · rintro ⟨stands, held, unanswered⟩
    refine ⟨stands, isBroker, held, fun other isOther => ?_⟩
    rw [found] at isOther
    exact Option.some.inj isOther ▸ unanswered
  · rintro ⟨stands, -, held, unanswered⟩
    exact ⟨stands, held, unanswered kept found⟩

/-- A call that is over holds nothing. -/
theorem heldTickets_of_outcome? {outcome : Outcome}
    (ended : host.outcome? pending = some outcome) : host.heldTickets pending = [] := by
  cases pending with
  | sandbox number call =>
      simp only [outcome?] at ended
      obtain ⟨⟨launcher, sandbox⟩, found, ended⟩ := Option.bind_eq_some_iff.mp ended
      obtain ⟨own, isOwn, -⟩ := Option.bind_eq_some_iff.mp ended
      simp only [heldTickets, found, Option.elim_some]
      exact Sandbox.Executor.heldTickets_of_outcome? isOwn
  | worker number call =>
      simp only [outcome?] at ended
      obtain ⟨⟨registry, worker⟩, found, ended⟩ := Option.bind_eq_some_iff.mp ended
      obtain ⟨own, isOwn, -⟩ := Option.bind_eq_some_iff.mp ended
      simp only [heldTickets]
      cases at_ : host.workerPlace? number with
      | none => rfl
      | some pair =>
          simp only [workerPlace?, found, Option.bind_eq_bind, Option.bind_some] at at_
          obtain ⟨lent, kept, at_⟩ := Option.bind_eq_some_iff.mp at_
          cases at_
          apply Worker.Place.heldTickets_of_phase?
          intro handle run isRunning
          simp only [Worker.Executor.outcome?, isRunning] at isOwn
          contradiction
  | toolchain number call => rfl
  | finished known => rfl

end Brokers

/-! ## What leaves a call alone -/

section Frames

/-- Whatever happens elsewhere, the broker of an executor goes on serving the call. -/
theorem Serves.frame (serves : host.Serves executor pending)
    (desk : ∀ broker withdrawn tickets, host.brokerOf? executor = some broker →
      host.desk.Serves broker withdrawn tickets → after.desk.Serves broker withdrawn tickets)
    (sandboxes : ∀ number, executor.sandbox? = some number →
      after.sandboxes[number]? = host.sandboxes[number]?)
    (workers : after.workers = host.workers)
    (registries : ∀ (registry : Nat) (lent : Worker.Registry),
      host.registries[registry]? = some lent →
        ∃ next, after.registries[registry]? = some next ∧ lent.KeepsRuns next) :
    after.Serves executor pending := by
  cases serves with
  | sandbox isSandbox found serves =>
      have isBroker := brokerOf?_of_found isSandbox found
      exact .sandbox isSandbox ((sandboxes _ isSandbox).trans found)
        ⟨serves.coherent, desk _ _ _ isBroker serves.serves⟩
  | @worker number call registry worker lent found kept serves =>
      obtain ⟨next, isNext, keeps⟩ := registries registry lent kept
      have isBroker : host.brokerOf? (.worker number) = some worker.broker := by
        simp [brokerOf?, found]
      obtain ⟨running, served⟩ := serves.keepsRuns keeps
      exact .worker (by rw [workers, found]) isNext ⟨running, desk _ _ _ isBroker served⟩
  | deaf isDeaf nothing => exact .deaf isDeaf nothing

theorem keepsRuns_self (host : Host) (registry : Nat) (lent : Worker.Registry)
    (kept : host.registries[registry]? = some lent) :
    ∃ next, host.registries[registry]? = some next ∧ lent.KeepsRuns next :=
  ⟨lent, kept, Worker.Registry.keepsRuns_of_handles rfl⟩

/-- Only the desk changes. -/
theorem Serves.changeDesk (serves : host.Serves executor pending) {desk : Desk}
    (keeps : ∀ broker withdrawn tickets, host.desk.Serves broker withdrawn tickets →
      desk.Serves broker withdrawn tickets) :
    Serves { host with desk } executor pending :=
  serves.frame (fun broker withdrawn tickets _ => keeps broker withdrawn tickets) (fun _ _ => rfl)
    rfl host.keepsRuns_self

/-- Something happens in a registry that gets no run anywhere. -/
theorem Serves.modifyRegistry (serves : host.Serves executor pending) (number : Nat)
    {change : Worker.Registry → Worker.Registry}
    (keeps : ∀ lent : Worker.Registry, lent.KeepsRuns (change lent)) :
    (host.modifyRegistry number change).Serves executor pending := by
  refine serves.frame (fun _ _ _ _ => id) (fun _ _ => rfl) rfl fun registry lent kept => ?_
  simp only [Host.modifyRegistry, List.getElem?_modify, kept]
  by_cases same : number = registry
  · exact ⟨change lent, by simp [same], keeps lent⟩
  · exact ⟨lent, by simp [same], Worker.Registry.keepsRuns_of_handles rfl⟩

/-- Something happens to a worker that gets none of its runs anywhere. -/
theorem Serves.changeHandle (serves : host.Serves executor pending) (registry handle : Nat)
    {change : Worker.Handle → Worker.Handle}
    (runs : ∀ worker : Worker.Handle, (change worker).runs = worker.runs) :
    (Facade.World.changeHandle host registry handle change).Serves executor pending :=
  serves.modifyRegistry registry fun _ =>
    Worker.Registry.keepsRuns_modifyHandle fun worker _ => runs worker

theorem Serves.provide (serves : host.Serves executor pending) (broker : Option Nat)
    (value : String) : (host.provide broker value).1.Serves executor pending := by
  cases broker with
  | none => exact serves
  | some broker => exact serves.changeDesk fun _ _ _ served => served.provide broker value

end Frames

/-! ## Calls -/

section Calls

theorem sandboxes_setSandbox {launcher : Nat} {sandbox : Sandbox.Executor}
    (found : host.sandboxes[number]? = some (launcher, sandbox)) (next : Sandbox.Executor) :
    (host.setSandbox number next).sandboxes[number]? = some (launcher, next) := by
  simp [setSandbox, found]

theorem Serves.callSandbox {call : Nat} (serves : host.Serves executor (.sandbox number call))
    (isSandbox : executor.sandbox? = some number)
    (nothing : host.heldTickets (.sandbox number call) = []) (purpose : Purpose) :
    (host.callSandbox number purpose).1.Serves executor (host.callSandbox number purpose).2 := by
  cases serves with
  | sandbox _ found serves =>
      simp only [heldTickets, found, Option.elim_some] at nothing
      simp only [Host.callSandbox, found]
      refine .sandbox isSandbox (sandboxes_setSandbox found _) ?_
      rw [Sandbox.Executor.number_call]
      exact serves.call nothing purpose
  | deaf isDeaf silent => exact absurd isDeaf.1 (by simp [isSandbox])

theorem Serves.callWorker {call : Nat}
    (serves : host.Serves (.worker number) (.worker number call))
    (nothing : host.heldTickets (.worker number call) = []) (purpose : Purpose) :
    (host.callWorker number purpose).1.Serves (.worker number)
      (host.callWorker number purpose).2 := by
  cases serves with
  | worker found kept serves =>
      have at_ := workerPlace?_eq_some found kept
      simp only [heldTickets, at_, Option.elim_some] at nothing
      simp only [Host.callWorker, at_]
      obtain ⟨found', kept'⟩ := workers_setWorkerPlace at_
      refine .worker found' kept' ?_
      rw [Worker.Place.number_call]
      exact serves.call nothing purpose
  | deaf isDeaf silent => exact absurd rfl (isDeaf.2 number)

/-- Source text is compiled. -/
theorem Serves.judge (serves : host.Serves executor pending) (compiled : Compile.Executor)
    (source : String) :
    (compiled.judge (compile compiled.compiler) host source).1.Serves executor pending := by
  obtain ⟨log, compilers, judged⟩ := host.judge_eq compiled source
  rw [judged]
  exact serves.frame (fun _ _ _ _ => id) (fun _ _ => rfl) rfl host.keepsRuns_self

theorem heldTickets_of_sandboxes (same : after.sandboxes = host.sandboxes) (number call : Nat) :
    after.heldTickets (.sandbox number call) = host.heldTickets (.sandbox number call) := by
  simp only [heldTickets, same]

/-- An executor is called after a call that holds nothing any more, and the new call has to
wait or made it ready. -/
theorem Serves.call (serves : host.Serves executor pending)
    (nothing : host.heldTickets pending = [])
    (waits : purpose = .start ∨
      (host.call executor purpose).1.outcome? (host.call executor purpose).2 = none) :
    (host.call executor purpose).1.Serves executor (host.call executor purpose).2 := by
  cases executor with
  | sandboxed number =>
      cases serves with
      | sandbox isSandbox found serves =>
          cases isSandbox
          exact (Serves.sandbox rfl found serves).callSandbox rfl nothing purpose
      | deaf isDeaf silent => exact absurd isDeaf.1 (by simp [Executor.sandbox?])
  | worker number =>
      cases serves with
      | sandbox isSandbox found serves => contradiction
      | worker found kept serves =>
          exact (Serves.worker found kept serves).callWorker nothing purpose
      | deaf isDeaf silent => exact absurd rfl (isDeaf.2 number)
  | toolchain number =>
      refine .deaf ⟨rfl, by simp⟩ fun other => ?_
      simp only [Host.call, callToolchain]
      split <;> rfl
  | compiled compiled =>
      cases purpose with
      | start =>
          cases delegate : compiled.delegate with
          | none =>
              simp only [Host.call, callCompiled, delegate]
              exact .deaf ⟨delegate, by simp⟩ fun _ => rfl
          | some number =>
              cases serves with
              | sandbox isSandbox found serves =>
                  cases delegate.symm.trans isSandbox
                  simp only [Host.call, callCompiled, delegate]
                  exact (Serves.sandbox isSandbox found serves).callSandbox delegate nothing .start
              | deaf isDeaf silent =>
                  cases delegate.symm.trans isDeaf.1
      | execute code =>
          have waits := waits.resolve_left (by simp)
          have judgedServes := serves.judge compiled code
          have sandboxes := (host.calm_judge compiled code).sandboxes
          simp only [Host.call, callCompiled] at waits ⊢
          cases judged : compiled.judge (compile compiled.compiler) host code with
          | mk next verdict =>
              rw [judged] at judgedServes sandboxes
              cases verdict with
              | result result => simp [judged, outcome?] at waits
              | run made =>
                  have delegate := delegate_of_judge judged
                  cases judgedServes with
                  | sandbox isSandbox found judgedServes =>
                      have same : compiled.delegate.getD 0 = _ :=
                        Option.some.inj (delegate.symm.trans isSandbox)
                      rw [← heldTickets_of_sandboxes sandboxes] at nothing
                      simp only [same]
                      exact (Serves.sandbox isSandbox found judgedServes).callSandbox isSandbox
                        nothing _
                  | deaf isDeaf silent => cases delegate.symm.trans isDeaf.1

/-- A call takes a turn. -/
theorem Serves.turnCall (serves : host.Serves executor pending)
    (turned : turnCall receiver host pending = some after) : after.Serves executor pending := by
  cases serves with
  | sandbox isSandbox found serves =>
      simp only [Host.turnCall, found, Option.bind_eq_bind, Option.bind_some] at turned
      obtain ⟨⟨desk, next⟩, moved, turned⟩ := Option.bind_eq_some_iff.mp turned
      cases turned
      exact .sandbox isSandbox (sandboxes_setSandbox found _) (serves.turn moved)
  | worker found kept serves =>
      have at_ := workerPlace?_eq_some found kept
      simp only [Host.turnCall, at_, Option.bind_eq_bind, Option.bind_some] at turned
      obtain ⟨next, moved, turned⟩ := Option.bind_eq_some_iff.mp turned
      cases turned
      obtain ⟨found', kept'⟩ := workers_setWorkerPlace at_
      exact .worker found' kept' (serves.turn moved)
  | deaf isDeaf nothing => exact .deaf isDeaf nothing

/-- The executor is destroyed, and the requests of the call are withdrawn. -/
theorem Serves.destroy (serves : host.Serves executor pending) :
    (host.destroy executor).Serves executor pending := by
  cases serves with
  | sandbox isSandbox found serves =>
      rw [destroy_of_sandbox? host isSandbox]
      simp only [destroySandbox, found]
      exact .sandbox isSandbox (sandboxes_setSandbox found _) serves.destroy
  | worker found kept serves =>
      have at_ := workerPlace?_eq_some found kept
      simp only [Host.destroy, changeWorker_eq at_]
      obtain ⟨found', kept'⟩ := workers_setWorkerPlace at_
      exact .worker found' kept' serves.destroy
  | deaf isDeaf nothing => exact .deaf isDeaf nothing

end Calls

/-! ## What stands behind the executors -/

section Moves

/-- A worker that is launched gets none of its runs anywhere. -/
theorem runs_launched (worker : Worker.Handle) (outcome : Except TransportError Unit) :
    (worker.launched outcome).runs = worker.runs := by
  cases outcome with
  | ok => rfl
  | error cause => exact (worker.stirs_fault cause.message).runs

/-- Another sandbox executor deals with its broker. -/
theorem Serves.dealtAside (serves : host.Serves executor pending) (lone : host.IsLone executor)
    {launcher call : Nat} {sandbox next : Sandbox.Executor} {desk : Desk}
    (found : host.sandboxes[number]? = some (launcher, sandbox))
    (aside : executor.sandbox? ≠ some number)
    (dealt : sandbox.Dealt receiver host.desk call desk next) :
    Serves { host.setSandbox number next with desk } executor pending := by
  refine serves.frame (fun broker withdrawn tickets isBroker served => ?_) (fun other isOther => ?_)
    rfl host.keepsRuns_self
  · have isAsking : host.brokerOf? (.sandboxed number) = some sandbox.broker :=
      brokerOf?_of_found rfl found
    refine served.elsewhere dealt.deals fun same => ?_
    subst same
    exact aside (lone number sandbox.broker isBroker isAsking)
  · have different : number ≠ other := fun same => aside (same ▸ isOther)
    simp [Host.setSandbox, different]

/-- Whoever waits for a launch learns of its outcome. -/
theorem Serves.deliver (serves : host.Serves executor pending) (lone : host.IsLone executor)
    (launcher : Nat) (launching : Launching) {awaiting : Awaiting}
    (waits : (host.launcherOf? awaiting).isSome = true) :
    (host.deliver launcher launching awaiting).Serves executor pending := by
  -- What stands behind the new context is nothing to the executors.
  have seated {host : Host} (serves : host.Serves executor pending) (seat : Seat)
      (peer : Option Peer) : (host.addPeer seat peer).Serves executor pending :=
    serves.frame (fun _ _ _ _ => id) (fun _ _ => rfl) rfl host.keepsRuns_self
  cases awaiting with
  | relay registry handle =>
      exact seated (serves.changeHandle registry handle fun worker => runs_launched worker _) _ _
  | call number call =>
      simp only [Host.deliver]
      split
      · exact serves
      · rename_i owner sandbox found
        have isLaunching := isLaunching_of_launcherOf? found waits
        refine seated ?_ _ _
        by_cases own : executor.sandbox? = some number
        · cases serves with
          | sandbox isSandbox isFound serves =>
              cases own.symm.trans isSandbox
              cases found.symm.trans isFound
              exact .sandbox own (sandboxes_setSandbox found _)
                (serves.launched isLaunching _ launching.outcome)
          | worker isFound kept serves => contradiction
          | deaf isDeaf nothing => exact .deaf isDeaf nothing
        · exact serves.dealtAside lone found own (Sandbox.Executor.dealt_launched (fun _ => none)
            (Sandbox.Place.isInside_of_isLaunching isLaunching) host.desk _ launching.outcome)

/-- A context of a sandbox executor does something at its end of the link. -/
theorem Serves.act (serves : host.Serves executor pending) (number context : Nat)
    (act : Link.Act SandboxMessage) :
    (Facade.World.move host (.context number context act)).Serves executor pending := by
  by_cases own : executor.sandbox? = some number
  · cases serves with
    | @sandbox _ _ _ launcher sandbox isSandbox found serves =>
        cases own.symm.trans isSandbox
        have now : (Facade.World.move host (.context number context act)).sandboxes[number]? =
            some (launcher, { sandbox with
              contexts := sandbox.contexts.modify context (·.act act) }) := by
          simp [Facade.World.move, found]
        exact .sandbox own now (serves.act context act)
    | worker found kept serves => contradiction
    | deaf isDeaf nothing => exact .deaf isDeaf nothing
  · refine serves.frame (fun _ _ _ _ => id) (fun other isOther => ?_) rfl host.keepsRuns_self
    have different : number ≠ other := fun same => own (same ▸ isOther)
    simp [Facade.World.move, different]

/-- Whatever stands behind the executors moves. -/
theorem Serves.move (serves : host.Serves executor pending) (lone : host.IsLone executor)
    (event : Facade.Event) : (Facade.World.move host event).Serves executor pending := by
  cases event with
  | launched launcher launching awaiting =>
      simp only [Facade.World.move]
      split
      · rename_i waits
        exact serves.deliver lone launcher launching waits
      · exact serves
  | context number context act => exact serves.act number context act
  | interpreter registry handle act =>
      exact serves.changeHandle registry handle fun worker => (worker.stirs_act act).runs
  | request registry handle =>
      refine serves.changeHandle registry handle fun worker => ?_
      cases turned : worker.turnRequest with
      | none => rfl
      | some after => exact (Worker.Handle.stirs_turnRequest turned).runs
  | message registry handle =>
      refine serves.changeHandle registry handle fun worker => ?_
      cases turned : worker.turnMessage with
      | none => rfl
      | some after => exact (Worker.Handle.stirs_turnMessage turned).runs
  | expire registry start => exact serves.modifyRegistry registry (·.keepsRuns_expire start)
  | release registry handle =>
      exact serves.changeHandle registry handle fun worker => worker.stirs_drop.runs
  | _ => exact serves

end Moves

end Host

end Polyglot
