import Polyglot.Proofs.Host.Calls

/-!
# Ends of calls

A call comes to its end, its caller goes away, or its executor is destroyed.  In the end
the host is idle, and nothing is on its way to a context that anybody will use again.
-/

namespace Polyglot.Host

variable {host after : Host} {accounts : Seat → Account}
  {registry owner number index launcher : Nat} {failures : List TransportError}
  {executor : Executor} {purpose : Purpose} {pending : Pending}
  {outcome : Outcome} {source : String}

/-! ## Outcomes -/

section Outcomes

theorem outcome?_sandbox {sandbox : Sandbox.Executor}
    (found : host.sandboxes[number]? = some (launcher, sandbox))
    (ended : host.outcome? (.sandbox number index) = some outcome) :
    ∃ own, sandbox.outcome? index = some own ∧ outcome = own.mapError .sandbox := by
  simp only [outcome?, found, Option.bind_eq_bind, Option.bind_some] at ended
  obtain ⟨own, isOwn, ended⟩ := Option.bind_eq_some_iff.mp ended
  exact ⟨own, isOwn, (Option.some.inj ended).symm⟩

theorem outcome?_worker {worker : Worker.Executor}
    (found : host.workers[number]? = some (registry, worker))
    (ended : host.outcome? (.worker number index) = some outcome) :
    ∃ own, worker.outcome? index = some own ∧ outcome = own.mapError .worker := by
  simp only [outcome?, found, Option.bind_eq_bind, Option.bind_some] at ended
  obtain ⟨own, isOwn, ended⟩ := Option.bind_eq_some_iff.mp ended
  exact ⟨own, isOwn, (Option.some.inj ended).symm⟩

theorem outcome?_toolchain {toolchain : Toolchain.Executor}
    (found : host.toolchainExecutors[number]? = some toolchain)
    (ended : host.outcome? (.toolchain number index) = some outcome) :
    ∃ own, toolchain.outcome? index = some own ∧ outcome = own.mapError .toolchain := by
  simp only [outcome?, found, Option.bind_eq_bind, Option.bind_some] at ended
  obtain ⟨own, isOwn, ended⟩ := Option.bind_eq_some_iff.mp ended
  exact ⟨own, isOwn, (Option.some.inj ended).symm⟩

/-- A call that is over leaves the host idle. -/
theorem Tends.idle
    (tends : host.Tends failures accounts registry (.call owner executor purpose pending))
    (ended : host.outcome? pending = some outcome) :
    host.Tends failures accounts registry .idle := by
  cases tends with
  | aside lends isAside => exact .aside lends .idle
  | sandbox lends isSandbox passes found tends => exact .aside lends .idle
  | worker found kept tends =>
      obtain ⟨own, isOwn, -⟩ := outcome?_worker found ended
      exact .aside ⟨_, kept, (tends.ended isOwn).1.serves⟩ .idle

/-- An executor that was made ready can be called with code. -/
theorem Tends.rests
    (tends : host.Tends failures accounts registry (.call owner executor .start pending))
    {prepared : Option RunResult} (ended : host.outcome? pending = some (.ok prepared)) :
    host.Rests failures accounts registry executor := by
  cases tends with
  | aside lends isAside =>
      cases isAside with
      | prepared alone =>
          refine ⟨lends, fun number isSandbox => ?_, fun number isWorker => by contradiction⟩
          rw [Executor.sandbox?, alone] at isSandbox
          contradiction
      | toolchain => exact ⟨lends, fun _ _ => by contradiction, fun _ _ => by contradiction⟩
      | missing => exact ⟨lends, fun _ _ => by contradiction, fun _ _ => by contradiction⟩
  | @sandbox _ number index launcher _ _ _ sandbox lends isSandbox passes found tends =>
      obtain ⟨own, isOwn, same⟩ := outcome?_sandbox found ended
      cases own with
      | error cause => cases same
      | ok result =>
          have ready : sandbox.IsFor (fun context => accounts (.sandbox number context))
                sandbox.calls.length ∧
              sandbox.IsUnused fun context => accounts (.sandbox number context) := by
            cases passes with
            | sandboxed number purpose => exact tends.ready isOwn
            | start compiled => exact tends.ready isOwn
          refine ⟨lends, fun other isOther => ?_, fun other isWorker => ?_⟩
          · rw [isSandbox] at isOther
            cases isOther
            exact ⟨launcher, sandbox, found, ready⟩
          · subst isWorker
            contradiction
  | worker found kept tends =>
      obtain ⟨own, isOwn, -⟩ := outcome?_worker found ended
      obtain ⟨⟨serves, forgotten⟩, -⟩ := tends.ended isOwn
      refine ⟨⟨_, kept, serves⟩, fun other isSandbox => by contradiction, fun other same => ?_⟩
      cases same
      refine ⟨_, found, fun lent keptLent => ?_⟩
      rw [kept] at keptLent
      cases keptLent
      exact forgotten

/-- An executor that could not be made ready owes nothing but the reason. -/
theorem Tends.unprepared
    (tends : host.Tends failures accounts registry (.call owner executor .start pending))
    {cause : ExecutorError} (ended : host.outcome? pending = some (.error cause))
    (source : String) :
    Owes failures accounts owner source executor.backend (.error cause) := by
  cases tends with
  | aside lends isAside =>
      cases isAside with
      | prepared alone => cases ended
      | toolchain => exact .toolchain _
      | missing => exact .toolchain _
  | sandbox lends isSandbox passes found tends =>
      obtain ⟨own, isOwn, same⟩ := outcome?_sandbox found ended
      have stands := tends.ended isOwn
      cases own with
      | ok result => cases same
      | error reason =>
          cases same
          exact .failed stands
  | worker found kept tends =>
      obtain ⟨own, isOwn, same⟩ := outcome?_worker found ended
      have owned := (tends.ended isOwn).2
      cases own with
      | ok result => cases same
      | error reason =>
          cases same
          exact .failed owned

/-- What a call with code comes to is owed to its owner. -/
theorem Tends.owes
    (tends : host.Tends failures accounts registry (.call owner executor (.execute source) pending))
    (ended : host.outcome? pending = some outcome) :
    Owes failures accounts owner source executor.backend outcome := by
  cases tends with
  | aside lends isAside =>
      cases isAside with
      | judged judged =>
          cases ended
          exact .judged judged
      | toolchain => exact .toolchain _
      | missing => exact .toolchain _
  | @sandbox _ number _ _ _ _ inner _ lends isSandbox passes found tends =>
      obtain ⟨own, isOwn, rfl⟩ := outcome?_sandbox found ended
      have stands := tends.ended isOwn
      cases own with
      | error cause => exact .failed stands
      | ok result =>
          cases result with
          | none => exact .nothing _
          | some result =>
              obtain ⟨code, context, rfl, yields⟩ := stands
              cases passes with
              | sandboxed same purpose => exact .ran (.sandbox number context) yields
              | execute judged => exact .ran (.transpile judged number context) yields
  | worker found kept tends =>
      obtain ⟨own, isOwn, rfl⟩ := outcome?_worker found ended
      have owned := (tends.ended isOwn).2
      cases own with
      | error cause => exact .failed owned
      | ok result =>
          cases result with
          | none => exact .nothing _
          | some result =>
              obtain ⟨handle, yields⟩ := owned
              exact .ran (.worker registry handle) yields

end Outcomes

/-! ## Destroyed executors -/

section Destroyed

/-- An executor that runs code in a sandbox is destroyed with it. -/
theorem destroy_of_sandbox? (host : Host) (isSandbox : executor.sandbox? = some number) :
    host.destroy executor = host.destroySandbox number := by
  cases executor with
  | sandboxed same => cases isSandbox; rfl
  | compiled compiled =>
      rw [Executor.sandbox?] at isSandbox
      simp only [destroy, isSandbox, Option.elim_some]
  | worker other => contradiction
  | toolchain other => contradiction

theorem registries_destroySandbox (host : Host) (number : Nat) :
    (host.destroySandbox number).registries = host.registries := by
  simp only [destroySandbox]
  split <;> rfl

/-- Only worker executors have anything to do with registries. -/
theorem registries_destroy (host : Host) (unlent : ∀ number, executor ≠ .worker number) :
    (host.destroy executor).registries = host.registries := by
  cases executor with
  | sandboxed number => exact host.registries_destroySandbox number
  | worker number => exact absurd rfl (unlent number)
  | compiled compiled =>
      simp only [destroy]
      cases compiled.delegate with
      | none => rfl
      | some number => exact host.registries_destroySandbox number
  | toolchain number => rfl

theorem registries_drop (host : Host) (executor : Executor) :
    (host.drop executor).registries = host.registries := by
  rcases host.drop_cases executor with same | ⟨number, launcher, sandbox, -, dropped⟩
  · rw [same]
  · rw [dropped]
    rfl

/-- An executor that nobody has any more leaves an idle host idle. -/
theorem Tends.drop (tends : host.Tends failures accounts registry .idle) (executor : Executor) :
    (host.drop executor).Tends failures accounts registry .idle :=
  .aside (tends.lends.congr (by rw [registries_drop]) fun _ => rfl) .idle

section Place

variable {place next : Worker.Place}

theorem workerPlace?_eq_some {worker : Worker.Executor} {lent : Worker.Registry}
    (found : host.workers[number]? = some (registry, worker))
    (kept : host.registries[registry]? = some lent) :
    host.workerPlace? number = some (registry, ⟨host.desk, lent, worker⟩) := by
  simp [workerPlace?, found, kept]

theorem workers_setWorkerPlace (at_ : host.workerPlace? number = some (registry, place)) :
    (host.setWorkerPlace number registry next).workers[number]? =
        some (registry, next.executor) ∧
      (host.setWorkerPlace number registry next).registries[registry]? = some next.registry := by
  simp only [workerPlace?] at at_
  obtain ⟨⟨owner, worker⟩, found, at_⟩ := Option.bind_eq_some_iff.mp at_
  obtain ⟨lent, kept, at_⟩ := Option.bind_eq_some_iff.mp at_
  cases at_
  have inside : number < host.workers.length := (List.getElem?_eq_some_iff.mp found).1
  simp [setWorkerPlace, modifyRegistry, inside, kept]

theorem changeWorker_eq (at_ : host.workerPlace? number = some (registry, place))
    (change : Worker.Place → Worker.Place) :
    host.changeWorker number change = host.setWorkerPlace number registry (change place) := by
  simp only [changeWorker, at_]

end Place

/-- A host whose executor is destroyed goes on with its duty. -/
theorem Tends.destroy
    (tends : host.Tends failures accounts registry (.call owner executor purpose pending)) :
    (host.destroy executor).Tends failures accounts registry
      (.call owner executor purpose pending) := by
  cases tends with
  | aside lends isAside =>
      have unlent : ∀ number, executor ≠ .worker number := by
        rintro number rfl
        cases isAside
      exact .aside (lends.congr (by rw [registries_destroy host unlent]) fun _ => rfl) isAside
  | @sandbox _ number _ launcher _ _ _ sandbox lends isSandbox passes found tends =>
      have same := host.destroy_of_sandbox? isSandbox
      have foundNew : (host.destroy executor).sandboxes[number]? =
          some (launcher, (sandbox.destroy host.desk).2) := by
        simp [same, destroySandbox, found, setSandbox]
      refine .sandbox (lends.congr ?_ fun _ => rfl) isSandbox passes foundNew
        (tends.destroy host.desk)
      rw [same, registries_destroySandbox]
  | worker found kept tends =>
      have at_ := workerPlace?_eq_some found kept
      simp only [Host.destroy, changeWorker_eq at_]
      obtain ⟨foundNew, keptNew⟩ := workers_setWorkerPlace at_
      exact .worker foundNew keptNew (Worker.Place.tends_destroy tends)

end Destroyed

/-! ## Callers that go away -/

/-- The caller of a call goes away, and its executor is destroyed and dropped. -/
theorem Tends.abandon
    (tends : host.Tends failures accounts registry (.call owner executor purpose pending)) :
    (((host.abandon pending).destroy executor).drop executor).Tends failures accounts registry
      .idle := by
  apply Tends.drop
  have aside (lends : host.Lends failures accounts registry .idle)
      (unlent : ∀ number, executor ≠ .worker number)
      (registries : (host.abandon pending).registries = host.registries) :
      ((host.abandon pending).destroy executor).Tends failures accounts registry .idle :=
    .aside (lends.congr (by rw [registries_destroy _ unlent, registries]) fun _ => rfl) .idle
  cases tends with
  | aside lends isAside =>
      cases isAside with
      | prepared => exact aside lends (fun _ => nofun) rfl
      | judged => exact aside lends (fun _ => nofun) rfl
      | toolchain => exact aside lends (fun _ => nofun) rfl
      | missing => exact aside lends (fun _ => nofun) rfl
  | sandbox lends isSandbox passes found tends =>
      refine aside lends ?_ ?_
      · rintro number rfl
        contradiction
      · simp only [Host.abandon, found]
        rfl
  | @worker _ number call _ worker lent found kept tends =>
      have at_ := workerPlace?_eq_some found kept
      have quits : (Worker.Place.abandon ⟨host.desk, lent, worker⟩ call).executor.Quits failures
          (Worker.Place.abandon ⟨host.desk, lent, worker⟩ call).registry
          fun handle => accounts (.interpreter registry handle) :=
        Worker.Place.quits_abandon tends
      simp only [Host.abandon, Host.destroy, changeWorker_eq at_]
      obtain ⟨foundLeft, keptLeft⟩ := workers_setWorkerPlace at_
      have left := workerPlace?_eq_some foundLeft keptLeft
      obtain ⟨-, keptNew⟩ := workers_setWorkerPlace left
      rw [changeWorker_eq left]
      exact .aside ⟨_, keptNew, (Worker.Place.idles_destroy quits).serves⟩ .idle

end Polyglot.Host
