import Polyglot.Proofs.Worker.Interleaving

/-!
# Code that worker executors submit

Code is submitted to a worker by queueing it for the relay.  A turn of a call submits
code exactly when the call has just got the lock of a worker that is alive.  Whether
the executor was destroyed in the meantime is not looked at there, and so a call that
was in flight can submit its code afterwards.
-/

namespace Polyglot.Worker

/-- The code that a request submits. -/
def Request.code? : Request → Option String
  | .run code => some code
  | .inputResponse _ | .terminate => none

namespace Handle

/-- The code that is queued for the relay. -/
def codes (handle : Handle) : List String := handle.line.toContext.filterMap Request.code?

/-- Whether a run that would be asked for now would hold the lock at once. -/
def admitsNext (handle : Handle) : Bool :=
  (handle.lock.enter handle.runs.length).isHeldBy handle.runs.length

/-- The code that is submitted if a run is asked for now. -/
def admits? (handle : Handle) (code : String) : Option String :=
  if handle.admitsNext && handle.isAlive then some code else none

/-- The code that a run submits if it takes a turn now: it waits, it holds the lock, and
the worker is alive. -/
def next? (handle : Handle) (number : Nat) : Option String :=
  match handle.runs[number]? with
  | some ⟨code, _, .queued⟩ =>
    if handle.lock.isHeldBy number && handle.isAlive then some code else none
  | _ => none

/-! ## What the operations of a handle submit -/

section Codes

variable {handle after : Handle} {desk desk' : Desk}

@[simp] theorem codes_markDead (handle : Handle) : handle.markDead.codes = handle.codes := rfl

@[simp] theorem codes_setPhase (handle : Handle) (number : Nat) (phase : Phase) :
    (handle.setPhase number phase).codes = handle.codes := rfl

@[simp] theorem codes_finish (handle : Handle) (number : Nat) (output : Aggregator) :
    (handle.finish number output).codes = handle.codes := rfl

theorem codes_request? {request : Request} (sent : handle.request? request = some after) :
    after.codes = handle.codes ++ request.code?.toList := by
  simp only [request?] at sent
  obtain ⟨line, accepted, sent⟩ := Option.bind_eq_some_iff.mp sent
  cases sent
  simp only [Link.hostSend?] at accepted
  split at accepted
  · cases accepted
    cases request <;> simp [codes, Request.code?]
  · contradiction

@[simp] theorem codes_terminate (handle : Handle) : handle.terminate.codes = handle.codes := by
  simp only [terminate]
  split
  · cases sent : handle.markDead.request? .terminate with
    | none => rfl
    | some after => simpa [Request.code?] using codes_request? sent
  · rfl

@[simp] theorem codes_drop (handle : Handle) : handle.drop.codes = handle.codes :=
  codes_terminate handle

/-- Whatever the host takes out of the line, what is queued for the relay stays. -/
theorem codes_of_hostReceive {found : Received Event} {line : Link Request Event}
    (received : handle.line.hostReceive = (found, line)) :
    codes { handle with line } = handle.codes := by
  simp only [codes, Link.toContext_of_hostReceive received]

theorem codes_turnReadiness {found : Readiness}
    (turned : handle.turnReadiness = some (after, found)) : after.codes = handle.codes := by
  simp only [turnReadiness] at turned
  split at turned
  · contradiction
  · cases turned
    rfl
  all_goals
    rename_i received
    cases turned
    exact codes_of_hostReceive received

/-- The holder of the lock submits its code if the worker is alive. -/
theorem codes_turnQueued {number : Nat} {run : Run}
    (turned : turnQueued desk handle number run = some (desk', after)) :
    after.codes = handle.codes ++ if handle.isAlive then [run.code] else [] := by
  have drained : isAlive { handle with line := handle.line.drain } = handle.isAlive := rfl
  simp only [turnQueued, drained] at turned
  split at turned
  · contradiction
  · cases alive : handle.isAlive with
    | false =>
        simp only [alive, Bool.false_eq_true, if_false] at turned
        cases turned
        simp [codes, Link.drain, finish, setPhase, markDead]
    | true =>
        simp only [alive, if_true] at turned
        cases sent : request? { handle with line := handle.line.drain } (.run run.code) with
        | none =>
            have isOpen : handle.line.contextOpen = true := by
              simpa [isAlive, Link.isClosed] using And.right ((Bool.and_eq_true _ _).mp alive)
            simp [request?, Link.hostSend?, Link.drain, isOpen] at sent
        | some next =>
            simp only [sent] at turned
            cases turned
            exact codes_request? sent

/-- A run that waits takes a turn when it holds the lock, and only then. -/
theorem isSome_turnQueued (desk : Desk) (handle : Handle) (number : Nat) (run : Run) :
    (turnQueued desk handle number run).isSome = handle.lock.isHeldBy number := by
  simp only [turnQueued]
  cases handle.lock.isHeldBy number with
  | false => simp
  | true =>
      simp only [Bool.not_true, Bool.false_eq_true, if_false]
      split <;> simp

/-- A new run submits its code at once if it gets the lock of a worker that is alive. -/
theorem codes_run (desk : Desk) (handle : Handle) (broker : Nat) (code : String) :
    (handle.run desk broker code).2.1.codes =
      handle.codes ++ (handle.admits? code).toList := by
  have turns := isSome_turnQueued desk { handle with
      runs := handle.runs ++ [{ code, broker }], lock := handle.lock.enter handle.runs.length }
    handle.runs.length { code, broker }
  simp only [run]
  cases turned : turnQueued desk { handle with
      runs := handle.runs ++ [{ code, broker }], lock := handle.lock.enter handle.runs.length }
      handle.runs.length { code, broker } with
  | none =>
      have unheld : handle.admitsNext = false := by
        rw [turned] at turns
        exact turns.symm
      simp only [Option.getD_none]
      simp [codes, admits?, unheld]
  | some next =>
      have held : handle.admitsNext = true := by
        rw [turned] at turns
        exact turns.symm
      have submitted := codes_turnQueued turned
      have same : isAlive { handle with
          runs := handle.runs ++ [{ code, broker }],
          lock := handle.lock.enter handle.runs.length } = handle.isAlive := rfl
      rw [same] at submitted
      simp only [Option.getD_some, submitted, admits?, held, Bool.true_and]
      cases handle.isAlive <;> rfl

/-- Code that runs submits nothing more. -/
theorem codes_turnRunning {receiver : String → Option Nat} {cancelled : Bool}
    {number broker : Nat} {output : Aggregator} {pending : List Nat}
    (turned : turnRunning receiver cancelled desk handle number broker output pending =
      some (desk', after)) : after.codes = handle.codes := by
  simp only [turnRunning] at turned
  split at turned
  · cases turned
    exact codes_terminate handle
  · split at turned
    · rename_i event line received
      have same : codes { handle with line } = handle.codes := codes_of_hostReceive received
      have took := congrArg (fun turn => turn.2.codes) (Option.some.inj turned)
      rw [← same, ← took]
      rcases event with message | reason
      · cases message <;> simp [receive, conclude]
      · simp [receive, crash, conclude]
    · cases turned
      rfl
    · cases pending with
      | nil => simp [answer] at turned
      | cons ticket rest =>
          simp only [answer] at turned
          obtain ⟨value, -, turned⟩ := Option.bind_eq_some_iff.mp turned
          split at turned
          · cases turned
            rfl
          · rename_i answered sent
            cases turned
            simpa [Request.code?] using codes_request? sent

theorem codes_abandon (desk : Desk) (handle : Handle) (number : Nat) :
    (handle.abandon desk number).2.codes = handle.codes := by
  simp only [abandon]
  split
  · rfl
  · split <;> rfl

end Codes

/-- A turn of a run submits the code of the run if the run has just got the lock of a
worker that is alive. -/
theorem codes_turn {handle after : Handle} {desk desk' : Desk}
    {receiver : String → Option Nat} {cancelled : Bool} {number : Nat}
    (turned : handle.turn receiver cancelled desk number = some (desk', after)) :
    after.codes = handle.codes ++ (handle.next? number).toList := by
  simp only [turn] at turned
  obtain ⟨⟨code, broker, phase⟩, found, turned⟩ := Option.bind_eq_some_iff.mp turned
  cases phase with
  | queued =>
      have turned : turnQueued desk handle number ⟨code, broker, .queued⟩ =
        some (desk', after) := turned
      have held : handle.lock.isHeldBy number = true := by
        rw [← isSome_turnQueued desk handle number ⟨code, broker, .queued⟩, turned]
        rfl
      rw [codes_turnQueued turned]
      simp only [next?, found, held]
      cases handle.isAlive <;> rfl
  | running output pending =>
      rw [codes_turnRunning turned]
      simp [next?, found]
  | finished result => contradiction
  | abandoned => contradiction

/-- A run that has a result does not submit. -/
theorem next?_of_result? {handle : Handle} {number : Nat} {result : RunResult}
    (ended : handle.result? number = some result) : handle.next? number = none := by
  simp only [result?, phase?] at ended
  simp only [next?]
  cases found : handle.runs[number]? with
  | none => rfl
  | some run =>
      obtain ⟨code, broker, phase⟩ := run
      cases phase <;> simp_all

/-- A run that has to wait does not submit. -/
theorem next?_of_turn {handle : Handle} {desk : Desk} {receiver : String → Option Nat}
    {cancelled : Bool} {number : Nat} (waits : handle.turn receiver cancelled desk number = none) :
    handle.next? number = none := by
  simp only [turn] at waits
  simp only [next?]
  cases found : handle.runs[number]? with
  | none => rfl
  | some run =>
      obtain ⟨code, broker, phase⟩ := run
      cases phase with
      | queued =>
          have unheld := isSome_turnQueued desk handle number ⟨code, broker, .queued⟩
          simp only [found, Option.bind_eq_bind, Option.bind_some] at waits
          rw [waits] at unheld
          simp [← unheld]
      | running output pending => rfl
      | finished result => rfl
      | abandoned => rfl

end Handle

namespace Registry

/-- The code that is queued for the relay of a worker. -/
def codes (registry : Registry) (number : Nat) : List String :=
  registry.handles[number]?.elim [] Handle.codes

/-- The code that was submitted to workers between two states. -/
def submitted (before after : Registry) : List String :=
  (List.range after.handles.length).flatMap fun number =>
    (after.codes number).drop (before.codes number).length

/-- The worker that came of a start. -/
def started? (registry : Registry) (start : Nat) : Option Handle :=
  match registry.outcome? start with
  | some (.ok handle) => registry.handles[handle]?
  | some (.error _) | none => none

/-- Nothing is submitted where no queue changes. -/
theorem submitted_eq_nil {before after : Registry}
    (same : ∀ number, after.codes number = before.codes number) :
    before.submitted after = [] := by
  simp only [submitted, List.flatMap_eq_nil_iff, same, List.drop_length]
  exact fun _ _ => trivial

theorem codes_congr {before after : Registry} (same : after.handles = before.handles)
    (number : Nat) : after.codes number = before.codes number := by
  simp only [codes, same]

theorem codes_modifyHandle (registry : Registry) (changed : Nat) (change : Handle → Handle)
    (number : Nat) :
    (registry.modifyHandle changed change).codes number =
      if changed = number then registry.handles[number]?.elim [] fun handle => (change handle).codes
      else registry.codes number := by
  simp only [codes, modifyHandle, List.getElem?_modify]
  by_cases same : changed = number
  · cases registry.handles[number]? <;> simp [same]
  · cases registry.handles[number]? <;> simp [same]

/-- A worker that submits nothing leaves every queue as it was. -/
theorem codes_modifyHandle_same {registry : Registry} {changed : Nat}
    {change : Handle → Handle} (same : ∀ handle, registry.handles[changed]? = some handle →
      (change handle).codes = handle.codes) (number : Nat) :
    (registry.modifyHandle changed change).codes number = registry.codes number := by
  rw [codes_modifyHandle]
  by_cases equal : changed = number
  · rw [if_pos equal, codes]
    subst equal
    cases found : registry.handles[changed]? with
    | none => rfl
    | some handle => exact same handle found
  · rw [if_neg equal]

/-- Gathering over numbers of which only one has anything. -/
theorem flatMap_range_of_lt (codes : List String) {number length : Nat}
    (inside : number < length) :
    ((List.range length).flatMap fun other => if number = other then codes else []) = codes := by
  induction length with
  | zero => contradiction
  | succ length ih =>
      rw [List.range_succ, List.flatMap_append, List.flatMap_singleton]
      rcases Nat.lt_or_eq_of_le (Nat.le_of_lt_succ inside) with earlier | rfl
      · rw [ih earlier, if_neg (Nat.ne_of_lt earlier), List.append_nil]
      · have nothing : ((List.range number).flatMap fun other =>
            if number = other then codes else []) = [] := by
          simp only [List.flatMap_eq_nil_iff, List.mem_range]
          intro other below
          rw [if_neg (Nat.ne_of_gt below)]
        rw [nothing, if_pos rfl, List.nil_append]

/-- What one worker submits is all that is submitted. -/
theorem submitted_modifyHandle {registry : Registry} {number : Nat} {handle next : Handle}
    (found : registry.handles[number]? = some handle) {codes : List String}
    (submits : next.codes = handle.codes ++ codes) :
    registry.submitted (registry.modifyHandle number fun _ => next) = codes := by
  have inside : number < registry.handles.length := (List.getElem?_eq_some_iff.mp found).1
  have length : (registry.modifyHandle number fun _ => next).handles.length =
      registry.handles.length := by simp [modifyHandle]
  have one : ∀ other, ((registry.modifyHandle number fun _ => next).codes other).drop
      (registry.codes other).length = if number = other then codes else [] := by
    intro other
    rw [codes_modifyHandle]
    by_cases same : number = other
    · subst same
      simp [Registry.codes, found, submits]
    · simp [same]
  simp only [submitted, length, one]
  exact flatMap_range_of_lt codes inside

/-! ## Operations that submit nothing -/

section Quiet

variable (registry : Registry) (number : Nat)

theorem codes_setProgress (start : Nat) (progress : Progress) :
    (registry.setProgress start progress).codes number = registry.codes number := rfl

theorem codes_failStart (start handle : Nat) (cause : WorkerError) :
    (registry.failStart start handle cause).codes number = registry.codes number := by
  rw [failStart, codes_setProgress]
  exact codes_modifyHandle_same (fun worker _ => worker.codes_drop) number

/-- A new worker has nothing queued. -/
theorem codes_append_fresh (language : String) (launcher : Nat) :
    codes { registry with handles := registry.handles ++ [{ language, launcher }] } number =
      registry.codes number := by
  simp only [codes]
  by_cases below : number < registry.handles.length
  · rw [List.getElem?_append_left below]
  · rw [List.getElem?_append_right (Nat.le_of_not_lt below),
      List.getElem?_eq_none (Nat.le_of_not_lt below)]
    cases number - registry.handles.length <;> rfl

theorem codes_turnStart {after : Registry} {start : Nat}
    (turned : registry.turnStart start = some after) :
    after.codes number = registry.codes number := by
  simp only [turnStart] at turned
  obtain ⟨found, -, turned⟩ := Option.bind_eq_some_iff.mp turned
  split at turned
  · cases turned
    rw [codes_setProgress]
    exact registry.codes_append_fresh number _ _
  · rename_i handle _
    obtain ⟨⟨worker, found⟩, looked, turned⟩ := Option.bind_eq_some_iff.mp turned
    obtain ⟨old, oldFound, looked⟩ := Option.bind_eq_some_iff.mp looked
    have same : (registry.modifyHandle handle fun _ => worker).codes number =
        registry.codes number := by
      apply codes_modifyHandle_same
      intro other otherFound
      rw [oldFound] at otherFound
      cases otherFound
      exact Handle.codes_turnReadiness looked
    cases found with
    | ready => cases turned; exact same
    | ignored => cases turned; exact same
    | failed cause =>
        cases turned
        rw [codes_failStart]
        exact same
  · contradiction

theorem codes_collect (language : String) (start : Nat) (outcome : Except WorkerError Nat) :
    (registry.collect language start outcome).codes number = registry.codes number := by
  simp only [collect]
  split
  · cases outcome <;> rfl
  · rfl

end Quiet

@[simp] theorem handles_collect (registry : Registry) (language : String) (start : Nat)
    (outcome : Except WorkerError Nat) :
    (registry.collect language start outcome).handles = registry.handles := by
  simp only [collect]
  split
  · cases outcome <;> rfl
  · rfl

end Registry

/-! ## What a call submits -/

namespace Place

/-- The code that a call submits if it takes a turn now.  Either the call has waited
for a worker, or it has waited for the lock of one. -/
def submits? (place : Place) (number : Nat) : Option String :=
  match place.executor.calls[number]? with
  | some ⟨.execute code, .acquiring start⟩ =>
    place.registry.started? start >>= (·.admits? code)
  | some ⟨_, .running handle run⟩ => place.registry.handles[handle]? >>= (·.next? run)
  | _ => none

section Turns

variable {place : Place} {number : Nat}

theorem submitted_proceed {registry : Registry} (same : registry.handles = place.registry.handles)
    (number handle : Nat) (purpose : Purpose) :
    place.registry.submitted (proceed { place with registry } number handle purpose).registry =
      match purpose with
      | .start => []
      | .execute code => (place.registry.handles[handle]? >>= (·.admits? code)).toList := by
  cases purpose with
  | start => exact Registry.submitted_eq_nil (Registry.codes_congr same)
  | execute code =>
      cases found : place.registry.handles[handle]? with
      | none =>
          simp only [proceed, same, found]
          exact Registry.submitted_eq_nil (Registry.codes_congr same)
      | some worker =>
          have submits := worker.codes_run place.desk place.executor.broker code
          simp only [proceed, same, found, Option.bind_eq_bind, Option.bind_some]
          rw [← Registry.submitted_modifyHandle found submits]
          simp only [Registry.submitted, Registry.codes, setPhase, Registry.modifyHandle, same]

theorem submitted_turnAcquiring {start : Nat} {purpose : Purpose}
    (call : place.executor.calls[number]? = some ⟨purpose, .acquiring start⟩) :
    place.registry.submitted ((place.turnAcquiring number start purpose).getD place).registry =
      (place.submits? number).toList := by
  have waits : place.submits? number =
      match purpose with
      | .start => none
      | .execute code => place.registry.started? start >>= (·.admits? code) := by
    simp only [submits?, call]
    cases purpose <;> rfl
  have nothing : place.registry.submitted place.registry = [] :=
    Registry.submitted_eq_nil fun _ => rfl
  rw [waits]
  simp only [turnAcquiring, Registry.started?]
  cases settled : place.registry.outcome? start with
  | none =>
      cases turned : place.registry.turnStart start with
      | none => cases purpose <;> exact nothing
      | some after =>
          have same := Registry.submitted_eq_nil fun other =>
            place.registry.codes_turnStart other turned
          cases purpose <;> exact same
  | some outcome =>
      have collected := place.registry.handles_collect place.executor.language start outcome
      cases outcome with
      | error cause =>
          have same := Registry.submitted_eq_nil (Registry.codes_congr collected)
          cases purpose <;> exact same
      | ok handle =>
          have proceeded := submitted_proceed collected number handle purpose
          cases purpose <;> exact proceeded

theorem submitted_turnRunning (receiver : String → Option Nat) {handle run : Nat}
    {purpose : Purpose}
    (call : place.executor.calls[number]? = some ⟨purpose, .running handle run⟩) :
    place.registry.submitted
        ((turnRunning receiver place number handle run).getD place).registry =
      (place.submits? number).toList := by
  have nothing : place.registry.submitted place.registry = [] :=
    Registry.submitted_eq_nil fun _ => rfl
  have waits : place.submits? number =
      place.registry.handles[handle]? >>= (·.next? run) := by
    simp only [submits?, call]
  rw [waits]
  simp only [turnRunning]
  cases found : place.registry.handles[handle]? with
  | none => exact nothing
  | some worker =>
      simp only [Option.bind_eq_bind, Option.bind_some]
      cases ended : worker.result? run with
      | some result =>
          rw [Handle.next?_of_result? ended]
          exact nothing
      | none =>
          cases turned : worker.turn receiver place.executor.destroyed place.desk run with
          | none =>
              rw [Handle.next?_of_turn turned]
              exact nothing
          | some turn =>
              obtain ⟨desk, after⟩ := turn
              exact Registry.submitted_modifyHandle found (Handle.codes_turn turned)

/-- A turn of a call submits what it is said to submit. -/
theorem submitted_turn (place : Place) (receiver : String → Option Nat) (number : Nat) :
    place.registry.submitted ((place.turn receiver number).getD place).registry =
      (place.submits? number).toList := by
  have nothing : place.registry.submitted place.registry = [] :=
    Registry.submitted_eq_nil fun _ => rfl
  cases call : place.executor.calls[number]? with
  | none =>
      simp only [turn, submits?, call]
      exact nothing
  | some found =>
      obtain ⟨purpose, phase⟩ := found
      cases phase with
      | acquiring start =>
          rw [← submitted_turnAcquiring call]
          simp only [turn, call, Option.bind_eq_bind, Option.bind_some]
      | running handle run =>
          rw [← submitted_turnRunning receiver call]
          simp only [turn, call, Option.bind_eq_bind, Option.bind_some]
      | begun =>
          simp only [turn, submits?, call]
          cases purpose <;> exact nothing
      | finished outcome =>
          simp only [turn, submits?, call]
          cases purpose <;> exact nothing
      | abandoned =>
          simp only [turn, submits?, call]
          cases purpose <;> exact nothing

end Turns

end Place

end Polyglot.Worker
