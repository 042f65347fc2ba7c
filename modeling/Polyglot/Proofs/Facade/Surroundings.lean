import Polyglot.Proofs.Facade.Ledger
import Polyglot.Proofs.Host.Endings

/-!
# What goes on behind the executors

Launches end, contexts act, relays pass messages on, starts take too long and workers are
let go.  A host goes on doing its duty meanwhile, as long as the contexts keep to their
order.
-/

namespace Polyglot.Host

open Facade.World (changeHandle)

variable {host after : Host} {accounts : Seat → Account} {registry number handle launcher : Nat}
  {failures : List TransportError} {duty : Duty}

/-! ## The registry -/

section Registry

/-- Something happens to a registry in which no interpreter has a part. -/
theorem Tends.changeRegistry (tends : host.Tends failures accounts registry duty)
    {change : Worker.Registry → Worker.Registry}
    (serves : ∀ (lent : Worker.Registry) (accounts : Nat → Account) (job : Worker.Job),
      lent.Serves failures accounts job → (change lent).Serves failures accounts job)
    (slots : ∀ (lent : Worker.Registry) (language : String), lent.slot? language = none →
      (change lent).slot? language = none) (number : Nat) :
    (host.modifyRegistry number change).Tends failures accounts registry duty := by
  by_cases same : number = registry
  · subst same
    exact tends.modifyRegistry (fun lent job _ => serves lent _ job) (fun _ => .refl _)
      (fun _ _ => rfl) slots
  · exact tends.modifyOther same change

/-- Something happens to a worker in which its interpreter has no part. -/
theorem Tends.changeHandle (tends : host.Tends failures accounts registry duty)
    {change : Worker.Handle → Worker.Handle}
    (drifts : ∀ (handle : Worker.Handle) (account : Account),
      handle.Drifts failures account (change handle) account) (number handle : Nat) :
    (changeHandle host number handle change).Tends failures accounts registry duty :=
  tends.changeRegistry (fun _ _ _ serves => serves.modifyHandle drifts handle)
    (fun _ _ unkept => unkept) number

theorem drifts_getD {handle : Worker.Handle} {turned : Option Worker.Handle} {account : Account}
    (drifts : ∀ next, turned = some next → handle.Drifts failures account next account) :
    handle.Drifts failures account (turned.getD handle) account := by
  cases turned with
  | none => exact .refl failures handle account
  | some next => exact drifts next rfl

theorem slot?_expire (lent : Worker.Registry) (start : Nat) (language : String) :
    (lent.expire start).slot? language = lent.slot? language := by
  simp only [Worker.Registry.expire]
  split
  · rfl
  · split <;> rfl

theorem Tends.expire (tends : host.Tends failures accounts registry duty) (number start : Nat) :
    (host.modifyRegistry number (·.expire start)).Tends failures accounts registry duty :=
  tends.changeRegistry (fun _ _ _ serves => serves.expire start)
    (fun lent language unkept => by rw [slot?_expire, unkept]) number

theorem Tends.shutdownAll (tends : host.Tends failures accounts registry duty) (number : Nat) :
    (host.modifyRegistry number Worker.Registry.shutdownAll).Tends failures accounts registry
      duty :=
  tends.changeRegistry (fun _ _ _ serves => serves.shutdownAll)
    (fun lent language _ => lent.slot?_shutdownAll language) number

/-- One worker of the registry is changed, and so is the account of its interpreter. -/
theorem Tends.drifts (tends : host.Tends failures accounts registry duty)
    {change : Worker.Handle → Worker.Handle} {account : Account}
    (later : (accounts (.interpreter registry handle)).Extends account)
    (drifts : ∀ lent worker, host.registries[registry]? = some lent →
      lent.handles[handle]? = some worker → worker.Candid failures →
        worker.Drifts failures (accounts (.interpreter registry handle)) (change worker) account)
    (nothing : ∀ lent, host.registries[registry]? = some lent → lent.handles[handle]? = none →
      account = accounts (.interpreter registry handle)) :
    (Facade.World.changeHandle host registry handle change).Tends failures
      (fun seat => if seat = .interpreter registry handle then account else accounts seat)
      registry duty := by
  refine tends.modifyRegistry ?_ ?_ ?_ fun _ _ unkept => unkept
  · intro lent job kept serves
    have drifted := serves.drifts (Worker.Registry.drifts_modifyHandle
      (fun worker found => drifts lent worker kept found (serves.candid handle worker found))
      (nothing lent kept))
    simpa only [Seat.interpreter.injEq, true_and] using drifted
  · intro seat
    split
    · rename_i same
      exact same ▸ later
    · exact .refl _
  · intro number context
    exact if_neg (by simp)

/-- One worker of the registry is changed, and its interpreter has no part in it. -/
theorem Tends.driftsAside (tends : host.Tends failures accounts registry duty)
    {change : Worker.Handle → Worker.Handle}
    (drifts : ∀ lent worker, host.registries[registry]? = some lent →
      lent.handles[handle]? = some worker → worker.Candid failures →
        worker.Drifts failures (accounts (.interpreter registry handle)) (change worker)
          (accounts (.interpreter registry handle))) :
    (Facade.World.changeHandle host registry handle change).Tends failures accounts registry
      duty := by
  have drifted := tends.drifts (.refl _) drifts fun _ _ _ => rfl
  have same : (fun seat => if seat = Seat.interpreter registry handle
      then accounts (.interpreter registry handle) else accounts seat) = accounts := by
    funext seat
    split
    · rename_i isSeat
      rw [isSeat]
    · rfl
  rwa [same] at drifted

/-- The interpreter of a worker of the registry handles its runs in order. -/
theorem Tends.actInterpreter (tends : host.Tends failures accounts registry duty)
    {link : Link InterpreterRequest WorkerMessage} {act : Link.Act WorkerMessage}
    (at_ : host.interpreterLink? registry handle = some link)
    (allowed : (accounts (.interpreter registry handle)).allows WorkerMessage.utterance link act =
      true) :
    (Facade.World.changeHandle host registry handle fun worker =>
        { worker with interpreter := worker.interpreter.map (·.act act) }).Tends failures
      (fun seat => if seat = .interpreter registry handle
        then (accounts (.interpreter registry handle)).act InterpreterRequest.isRun
          WorkerMessage.utterance link act
        else accounts seat) registry duty := by
  simp only [interpreterLink?, Option.bind_eq_bind, Option.bind_eq_some_iff] at at_
  obtain ⟨worker, ⟨lent, kept, found⟩, at_⟩ := at_
  refine tends.drifts (Account.extends_act _ _ _ _ _) ?_ ?_
  · intro same other keptSame foundOther candid
    rw [kept] at keptSame
    cases keptSame
    rw [found] at foundOther
    cases foundOther
    have acted := Worker.Handle.drifts_act candid at_ allowed
    simpa only [Worker.Handle.withInterpreter, at_, Option.map_some] using acted
  · intro same keptSame nothing
    rw [kept] at keptSame
    cases keptSame
    rw [found] at nothing
    contradiction

/-- A worker that has no interpreter is not changed by what its interpreter does. -/
theorem Tends.actNowhere (tends : host.Tends failures accounts registry duty)
    {act : Link.Act WorkerMessage} (nothing : host.interpreterLink? registry handle = none) :
    (Facade.World.changeHandle host registry handle fun worker =>
        { worker with interpreter := worker.interpreter.map (·.act act) }).Tends failures accounts
      registry duty := by
  refine tends.driftsAside fun lent worker kept found candid => ?_
  have bare : worker.interpreter = none := by
    simpa only [interpreterLink?, kept, found, Option.bind_eq_bind, Option.bind_some] using nothing
  have same : { worker with interpreter := worker.interpreter.map (·.act act) } = worker := by
    rw [bare, Option.map_none, ← bare]
  rw [same]
  exact .refl _ _ _

/-- The launch of an interpreter that a relay waited for has an outcome. -/
theorem Tends.launchedRelay (tends : host.Tends failures accounts registry duty)
    (waits : (host.launcherOf? (.relay number handle)).isSome = true)
    {outcome : Except TransportError Unit}
    (failed : ∀ cause, outcome = .error cause → cause ∈ failures) :
    (Facade.World.changeHandle host number handle fun worker => worker.launched outcome).Tends
      failures accounts registry duty := by
  by_cases same : number = registry
  · subst same
    have drifts (lent : Worker.Registry) (worker : Worker.Handle)
        (kept : host.registries[number]? = some lent)
        (found : lent.handles[handle]? = some worker) (candid : worker.Candid failures) :
        worker.Drifts failures (accounts (.interpreter number handle)) (worker.launched outcome)
          (accounts (.interpreter number handle)) := by
      have launching : worker.relay = .launching := by
        simp only [launcherOf?, kept, Option.bind_eq_bind, Option.bind_some, found] at waits
        by_contra unlaunched
        simp [unlaunched] at waits
      exact Worker.Handle.drifts_launched candid launching failed
    exact tends.driftsAside drifts
  · exact tends.modifyOther same _

end Registry

/-! ## The contexts of sandbox executors -/

section Sandboxes

/-- The sandbox executors after a context has done something at its end of the link. -/
def actContext (host : Host) (executor context : Nat) (act : Link.Act SandboxMessage) : Host :=
  { host with
    sandboxes := host.sandboxes.modify executor fun (launcher, sandbox) =>
      (launcher, { sandbox with contexts := sandbox.contexts.modify context (·.act act) }) }

variable {executor context : Nat} {act : Link.Act SandboxMessage}

theorem sandboxes_actContext_of_ne (host : Host) (different : number ≠ executor) :
    (host.actContext executor context act).sandboxes[number]? = host.sandboxes[number]? := by
  have other : ¬executor = number := fun equal => different equal.symm
  simp [actContext, other]

/-- A context that is not there does nothing. -/
theorem actContext_of_none (nothing : host.sandboxLink? executor context = none) :
    host.actContext executor context act = host := by
  have same : (host.actContext executor context act).sandboxes = host.sandboxes := by
    apply List.ext_getElem?
    intro number
    by_cases different : number = executor
    · subst different
      simp only [actContext, List.getElem?_modify, if_true, Option.map_eq_map]
      cases found : host.sandboxes[number]? with
      | none => rfl
      | some pair =>
          simp only [sandboxLink?, found, Option.bind_eq_bind, Option.bind_some] at nothing
          have unmoved : pair.2.contexts.modify context (·.act act) = pair.2.contexts :=
            List.modify_eq_self (List.getElem?_eq_none_iff.mp nothing)
          simp [unmoved]
    · exact host.sandboxes_actContext_of_ne different
  obtain ⟨_, _, _, _, _, _, _, _, _, _, _, _⟩ := host
  simp_all [actContext]

/-- A context of a sandbox executor does something; if the executor is called, it handles
its runs in order. -/
theorem Tends.actContext (tends : host.Tends failures accounts registry duty)
    {link : Sandbox.Context} (at_ : host.sandboxLink? executor context = some link)
    (allowed : duty.sandbox? = some executor →
      (accounts (.sandbox executor context)).allows SandboxMessage.utterance link act = true) :
    (host.actContext executor context act).Tends failures
      (fun seat => if seat = .sandbox executor context
        then (accounts (.sandbox executor context)).act HostMessage.isRun SandboxMessage.utterance
          link act
        else accounts seat) registry duty := by
  by_cases called : duty.sandbox? = some executor
  · simp only [sandboxLink?, Option.bind_eq_bind, Option.bind_eq_some_iff] at at_
    obtain ⟨⟨launcher, sandbox⟩, foundSame, at_⟩ := at_
    have foundNew : (host.actContext executor context act).sandboxes[executor]? = some (launcher,
        { sandbox with contexts := sandbox.contexts.modify context (·.act act) }) := by
      simp [Host.actContext, foundSame]
    cases tends with
    | aside lends isAside => cases isAside <;> contradiction
    | worker found kept tends => contradiction
    | sandbox lends isSandbox passes found tends =>
        cases called
        rw [found] at foundSame
        cases foundSame
        refine .sandbox (lends.congr rfl fun _ => if_neg (by simp)) isSandbox passes foundNew ?_
        have acted := tends.act at_ (allowed rfl)
        simpa only [Seat.sandbox.injEq, true_and] using acted
  · refine tends.congr (fun number isNumber => ?_) rfl (fun _ => if_neg (by simp)) rfl
    have different : number ≠ executor := by
      rintro rfl
      exact called isNumber
    exact ⟨host.sandboxes_actContext_of_ne different, fun _ => if_neg (by simp [different])⟩

/-- A launch that a call waited for does not change any other executor. -/
theorem sandboxes_deliver_of_ne (host : Host) (launcher : Nat) (launching : Launching)
    {call : Nat} (different : number ≠ executor) :
    (host.deliver launcher launching (.call executor call)).sandboxes[number]? =
      host.sandboxes[number]? := by
  have other : ¬executor = number := fun equal => different equal.symm
  simp only [deliver]
  split
  · rfl
  · simp [addPeer, setSandbox, other]

theorem registries_deliver (host : Host) (launcher : Nat) (launching : Launching)
    (executor call : Nat) :
    (host.deliver launcher launching (.call executor call)).registries = host.registries := by
  simp only [deliver]
  split <;> rfl

theorem workers_deliver (host : Host) (launcher : Nat) (launching : Launching)
    (executor call : Nat) :
    (host.deliver launcher launching (.call executor call)).workers = host.workers := by
  simp only [deliver]
  split <;> rfl

/-- The launch that somebody's call waited for has an outcome. -/
theorem Tends.launchedCall {owner call index : Nat} {caller : Executor} {purpose : Purpose}
    (tends : host.Tends failures accounts registry
      (.call owner caller purpose (.sandbox executor index)))
    (waits : (host.launcherOf? (.call executor call)).isSome = true) (launcher : Nat)
    {launching : Launching}
    (failed : ∀ cause, launching.outcome = .error cause → cause ∈ failures) :
    ∃ accounts', Posts owner host.codes accounts
        (host.deliver launcher launching (.call executor call)).codes accounts' ∧
      (host.deliver launcher launching (.call executor call)).Tends failures accounts' registry
        (.call owner caller purpose (.sandbox executor index)) := by
  cases tends with
  | aside lends isAside => contradiction
  | @sandbox _ _ _ _ _ _ inner sandbox lends isSandbox passes found tends =>
      have isLaunching : sandbox.isLaunching call = true := by
        simp only [launcherOf?, found] at waits
        by_contra unlaunched
        simp [unlaunched] at waits
      obtain rfl := tends.isFor.alone call isLaunching
      obtain ⟨isFor, phase, called, stands⟩ := tends
      have unused : sandbox.IsUnused fun context => accounts (.sandbox executor context) := by
        simp only [Sandbox.Executor.isLaunching, Sandbox.Executor.phase?, called,
          Option.map_some] at isLaunching
        cases phase with
        | launching => exact stands
        | _ => contradiction
      have isPurpose : (sandbox.calls[call]?.map (·.purpose)).getD .start = inner := by
        rw [called]
        rfl
      simp only [deliver, found, isPurpose]
      exact tends_setSandbox lends isSandbox passes found
        (sandbox.tends_launched isFor unused called host.desk failed owner) ⟨rfl, rfl, rfl⟩

end Sandboxes

end Polyglot.Host
