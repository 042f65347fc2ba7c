import Polyglot.Proofs.Sandbox.Interleaving
import Polyglot.Proofs.Sandbox.Speech

/-!
# Runs of a sandbox executor

While one caller at a time uses an executor, no context of it has anything to do until
code is submitted to one, and then the run takes in what that context says until it is
over.  A context that is lost is let go, and is never the one that a run looks at.
-/

namespace Polyglot.Sandbox

/-- The output of a run that comes to its end like that. -/
def Ending.output (ending : Ending) (output : Aggregator) : Aggregator :=
  match ending with
  | .contextLost => output.push .stderr "Sandbox context terminated unexpectedly"
  | .completed | .destroyed => output

namespace Executor

/-- The code that is queued for a context. -/
def codes (executor : Executor) (number : Nat) : List String :=
  executor.contexts[number]?.elim [] codesOf

/-- No context of an executor has anything to do. -/
def IsUnused (executor : Executor) (accounts : Nat → Account) : Prop :=
  ∀ (number : Nat) (context : Context), executor.contexts[number]? = some context →
    (strandOf context).Quiet (accounts number)

/-- A context of an executor is busy with somebody's code, and no other is looked at. -/
def IsBusy (executor : Executor) (accounts : Nat → Account) (owner : Nat) (code : String)
    (heard : List Chunk) : Prop :=
  ∃ (number : Nat) (context : Context), executor.contexts[number]? = some context ∧
    (strandOf context).Busy (accounts number) owner code heard ∧
    ∀ slot, executor.slot = some slot → slot = number

/-- What holds of somebody's call that stands there. -/
def Stands (failures : List TransportError) (executor : Executor) (accounts : Nat → Account)
    (owner : Nat) (purpose : Purpose) : Phase → Prop
  | .queued | .launching | .finished (.ok none) => executor.IsUnused accounts
  | .running output _ => ∃ code heard, purpose = .execute code ∧
    executor.IsBusy accounts owner (Scan.prepareForSandbox code) heard ∧
      output = Aggregator.gather heard
  | .finished (.ok (some result)) => ∃ code number, purpose = .execute code ∧
    (accounts number).Yields failures owner (Scan.prepareForSandbox code) result
  | .finished (.error cause) => cause.IsOwn failures
  | .abandoned => True

/-- An executor that only one call can get a context from. -/
structure IsFor (executor : Executor) (accounts : Nat → Account) (number : Nat) : Prop where
  /-- Contexts that were not launched have nothing to their account. -/
  unheard : ∀ context : Nat, executor.contexts[context]? = none → accounts context = {}
  /-- No other call waits for a launch. -/
  alone : ∀ other : Nat, executor.isLaunching other = true → other = number

/-- An executor that does somebody's call, and nothing else. -/
structure Tends (failures : List TransportError) (executor : Executor) (accounts : Nat → Account)
    (number owner : Nat) (purpose : Purpose) : Prop where
  isFor : executor.IsFor accounts number
  stands : ∃ phase, executor.calls[number]? = some ⟨purpose, phase⟩ ∧
    executor.Stands failures accounts owner purpose phase

/-! ## What happens to the contexts while nothing is said -/

/-- What can happen to the contexts of an executor while nobody submits code or says
anything. -/
structure Settles (before after : Executor) : Prop where
  kept : ∀ (number : Nat) (context : Context), before.contexts[number]? = some context →
    ∃ next, after.contexts[number]? = some next ∧ (strandOf context).Fades (strandOf next) ∧
      codesOf next = codesOf context
  added : ∀ (number : Nat) (next : Context), before.contexts[number]? = none →
    after.contexts[number]? = some next →
      (strandOf next).queued = 0 ∧ (strandOf next).voice = []

variable {executor middle after : Executor} {accounts : Nat → Account}
  {failures : List TransportError} {number owner : Nat} {purpose : Purpose} {phase : Phase}
  {code : String} {heard : List Chunk} {output : Aggregator}

section Settles

theorem settles_congr (same : after.contexts = executor.contexts) : executor.Settles after where
  kept _ context found := ⟨context, same ▸ found, .refl _, rfl⟩
  added number next nothing found := by
    rw [same, nothing] at found
    contradiction

theorem Settles.trans (left : executor.Settles middle) (right : middle.Settles after) :
    executor.Settles after where
  kept number context found := by
    obtain ⟨next, foundNext, fades, codes⟩ := left.kept number context found
    obtain ⟨last, foundLast, fadesOn, codesOn⟩ := right.kept number next foundNext
    exact ⟨last, foundLast, fades.trans fadesOn, codesOn.trans codes⟩
  added number next nothing found := by
    cases between : middle.contexts[number]? with
    | none => exact right.added number next between found
    | some made =>
        obtain ⟨queued, voice⟩ := left.added number made nothing between
        obtain ⟨last, foundLast, fades, -⟩ := right.kept number made between
        rw [found] at foundLast
        cases foundLast
        have fewer := fades.voice
        rw [voice] at fewer
        exact ⟨Nat.le_zero.mp (queued ▸ fades.queued), List.prefix_nil.mp fewer⟩

theorem settles_release (executor : Executor) : executor.Settles executor.release := by
  cases slot : executor.slot with
  | none => exact settles_congr (by simp [release, slot])
  | some kept =>
      refine ⟨?_, ?_⟩
      · intro number context found
        by_cases same : kept = number
        · exact ⟨context.dropHost, by simp [release, slot, same, found],
            fades_dropHost context, rfl⟩
        · exact ⟨context, by simp [release, slot, same, found], .refl _, rfl⟩
      · intro number next nothing found
        simp only [release, slot, List.getElem?_modify, nothing] at found
        contradiction

theorem settles_adopt (executor : Executor) : executor.Settles executor.adopt := by
  refine executor.settles_release.trans ⟨?_, ?_⟩
  · intro number context found
    have inside : number < executor.release.contexts.length :=
      (List.getElem?_eq_some_iff.mp found).1
    exact ⟨context, (List.getElem?_append_left inside).trans found, .refl _, rfl⟩
  · intro number next nothing found
    have beyond := List.getElem?_eq_none_iff.mp nothing
    have foundNew : (executor.release.contexts ++ [({} : Context)])[number]? = some next := found
    rw [List.getElem?_append_right beyond] at foundNew
    rw [List.mem_singleton.mp (List.mem_of_getElem? foundNew)]
    exact ⟨rfl, rfl⟩

theorem Settles.codes (settles : executor.Settles after) (number : Nat) :
    after.codes number = executor.codes number := by
  simp only [Executor.codes]
  cases found : executor.contexts[number]? with
  | some context =>
      obtain ⟨next, foundNext, -, same⟩ := settles.kept number context found
      rw [foundNext, Option.elim_some, same, Option.elim_some]
  | none =>
      cases foundNext : after.contexts[number]? with
      | none => rfl
      | some next =>
          have queued := (settles.added number next found foundNext).1
          exact List.eq_nil_of_length_eq_zero queued

theorem IsUnused.settles (unused : executor.IsUnused accounts)
    (isFor : executor.IsFor accounts number) (settles : executor.Settles after) :
    after.IsUnused accounts := by
  intro other next foundNext
  cases found : executor.contexts[other]? with
  | some context =>
      obtain ⟨same, foundSame, fades, -⟩ := settles.kept other context found
      rw [foundNext] at foundSame
      cases foundSame
      exact (unused other context found).drift (.fade fades)
  | none =>
      obtain ⟨queued, voice⟩ := settles.added other next found foundNext
      rw [isFor.unheard other found]
      exact Strand.quiet_empty queued voice

theorem IsBusy.settles (busy : executor.IsBusy accounts owner code heard)
    (settles : executor.Settles after)
    (slot : ∀ number, after.slot = some number → executor.slot = some number) :
    after.IsBusy accounts owner code heard := by
  obtain ⟨number, context, found, busy, only⟩ := busy
  obtain ⟨next, foundNext, fades, -⟩ := settles.kept number context found
  exact ⟨number, next, foundNext, busy.drift (.fade fades), fun other kept =>
    only other (slot other kept)⟩

theorem isLaunching_congr (same : after.calls = executor.calls) (other : Nat) :
    after.isLaunching other = executor.isLaunching other := by
  simp only [isLaunching, phase?_congr same]

theorem IsFor.settles (isFor : executor.IsFor accounts number) (settles : executor.Settles after)
    (calls : after.calls = executor.calls) : after.IsFor accounts number where
  unheard context nothing := by
    cases found : executor.contexts[context]? with
    | none => exact isFor.unheard context found
    | some old =>
        obtain ⟨next, foundNext, -⟩ := settles.kept context old found
        rw [nothing] at foundNext
        contradiction
  alone other launching := isFor.alone other (isLaunching_congr calls other ▸ launching)

/-- The call has got somewhere. -/
theorem IsFor.setPhase (isFor : executor.IsFor accounts number) (phase : Phase) :
    (executor.setPhase number phase).IsFor accounts number where
  unheard := isFor.unheard
  alone other launching := by
    by_cases same : other = number
    · exact same
    · apply isFor.alone other
      simpa only [isLaunching, phase?_setPhase, if_neg same] using launching

end Settles

/-! ## The ends of a call -/

section Ends

/-- A call goes on standing where it stands while nothing is said. -/
theorem Stands.settles (stands : executor.Stands failures accounts owner purpose phase)
    (isFor : executor.IsFor accounts number) (settles : executor.Settles after)
    (slot : ∀ number, after.slot = some number → executor.slot = some number) :
    after.Stands failures accounts owner purpose phase := by
  cases phase with
  | finished outcome =>
      cases outcome with
      | ok result =>
          cases result with
          | none => exact IsUnused.settles stands isFor settles
          | some result => exact stands
      | error cause => exact stands
  | queued => exact IsUnused.settles stands isFor settles
  | launching => exact IsUnused.settles stands isFor settles
  | running output pending =>
      obtain ⟨code, heard, isCode, busy, collected⟩ := stands
      exact ⟨code, heard, isCode, busy.settles settles slot, collected⟩
  | abandoned => trivial

theorem Tends.settles (tends : executor.Tends failures accounts number owner purpose)
    (settles : executor.Settles after) (calls : after.calls = executor.calls)
    (slot : ∀ number, after.slot = some number → executor.slot = some number) :
    after.Tends failures accounts number owner purpose := by
  obtain ⟨isFor, phase, called, stands⟩ := tends
  exact ⟨isFor.settles settles calls, phase, calls ▸ called, stands.settles isFor settles slot⟩

theorem tends_setPhase (executor : Executor) (isFor : executor.IsFor accounts number)
    (called : executor.calls[number]? = some ⟨purpose, phase⟩) {next : Phase}
    (stands : executor.Stands failures accounts owner purpose next) :
    (executor.setPhase number next).Tends failures accounts number owner purpose :=
  ⟨isFor.setPhase next, next, by simp [setPhase, called],
    stands.settles isFor (settles_congr rfl) fun _ => id⟩

theorem tends_running (executor : Executor) (isFor : executor.IsFor accounts number)
    (called : executor.calls[number]? = some ⟨.execute code, phase⟩)
    (busy : executor.IsBusy accounts owner (Scan.prepareForSandbox code) heard)
    (failures : List TransportError) (pending : List Nat) :
    (executor.setPhase number (.running (Aggregator.gather heard) pending)).Tends failures accounts
      number owner (.execute code) :=
  executor.tends_setPhase isFor called
    (show executor.Stands failures accounts owner (.execute code)
      (.running (Aggregator.gather heard) pending) from ⟨code, heard, rfl, busy, rfl⟩)

theorem tends_finish (executor : Executor) (isFor : executor.IsFor accounts number)
    (called : executor.calls[number]? = some ⟨purpose, phase⟩)
    {outcome : Except SandboxError (Option RunResult)}
    (stands : executor.Stands failures accounts owner purpose (.finished outcome)) :
    (executor.finish number outcome).Tends failures accounts number owner purpose :=
  (executor.tends_setPhase isFor called stands).settles (settles_congr rfl) rfl fun _ => id

/-- A run is over, and its result is its owner's. -/
theorem tends_conclude (executor : Executor) (isFor : executor.IsFor accounts number)
    (called : executor.calls[number]? = some ⟨.execute code, phase⟩) (desk : Desk)
    (output : Aggregator) (ending : Ending) {context : Nat}
    (yields : (accounts context).Yields failures owner (Scan.prepareForSandbox code)
      (ending.output output).finish) :
    (conclude desk executor number output ending).2.Tends failures accounts number owner
        (.execute code) ∧
      ∀ other, (conclude desk executor number output ending).2.codes other =
        executor.codes other := by
  have released := executor.settles_release
  cases ending with
  | completed =>
      have same := settles_congr (contexts_transition executor .ready)
      exact ⟨(executor.transition .ready).tends_finish
        (isFor.settles same (calls_transition executor .ready)) (by rw [calls_transition, called])
        ⟨code, context, rfl, yields⟩, same.codes⟩
  | contextLost =>
      have same := released.trans (settles_congr (contexts_transition executor.release .unstarted))
      exact ⟨(executor.release.transition .unstarted).tends_finish
        (isFor.settles same (by rw [calls_transition, calls_release]))
        (by rw [calls_transition, calls_release, called]) ⟨code, context, rfl, yields⟩, same.codes⟩
  | destroyed =>
      exact ⟨executor.release.tends_finish
        (isFor.settles released executor.calls_release) (by rw [calls_release, called])
        ⟨code, context, rfl, yields⟩, released.codes⟩

end Ends

/-! ## The link of the context in use -/

section Links

variable {slot : Nat} {context next : Context}

theorem context?_eq_some :
    executor.context? = some context ↔
      ∃ slot, executor.slot = some slot ∧ executor.contexts[slot]? = some context :=
  Option.bind_eq_some_iff

theorem contexts_setContext_of (kept : executor.slot = some slot) (context : Context) :
    (executor.setContext context).contexts = executor.contexts.set slot context := by
  simp [setContext, kept]

theorem getElem?_setContext (kept : executor.slot = some slot)
    (found : executor.contexts[slot]? = some context) (next : Context) :
    (executor.setContext next).contexts[slot]? = some next := by
  have inside : slot < executor.contexts.length := (List.getElem?_eq_some_iff.mp found).1
  rw [contexts_setContext_of kept, List.getElem?_set_self inside]

theorem IsFor.setContext (isFor : executor.IsFor accounts number) (context : Context) :
    (executor.setContext context).IsFor accounts number where
  unheard other nothing := by
    apply isFor.unheard other
    cases kept : executor.slot with
    | none => simpa [Executor.setContext, kept] using nothing
    | some slot => simpa [Executor.setContext, kept] using nothing
  alone other launching :=
    isFor.alone other (isLaunching_congr (calls_setContext executor context) other ▸ launching)

theorem codes_setContext (kept : executor.slot = some slot)
    (found : executor.contexts[slot]? = some context) (next : Context) (number : Nat) :
    (executor.setContext next).codes number =
      if number = slot then codesOf next else executor.codes number := by
  by_cases same : number = slot
  · rw [if_pos same, Executor.codes, same, getElem?_setContext kept found, Option.elim_some]
  · have different : slot ≠ number := fun equal => same equal.symm
    rw [if_neg same, Executor.codes, contexts_setContext_of kept, List.getElem?_set_ne different,
      Executor.codes]

/-- The link of the context in use has changed, but nothing was submitted. -/
theorem codes_setContext_same (kept : executor.slot = some slot)
    (found : executor.contexts[slot]? = some context) (same : codesOf next = codesOf context)
    (number : Nat) : (executor.setContext next).codes number = executor.codes number := by
  rw [codes_setContext kept found]
  split
  · rename_i isSlot
    rw [same, isSlot, Executor.codes, found, Option.elim_some]
  · rfl

end Links

/-! ## Submitting code -/

section Submit

variable {desk desk' : Desk}

/-- Code is sent to a context that is quiet, unless the context is lost. -/
theorem tends_send {slot : Nat} {context : Context} (ready : Executor)
    (isFor : ready.IsFor accounts number)
    (called : ready.calls[number]? = some ⟨.execute code, phase⟩) (kept : ready.slot = some slot)
    (found : ready.contexts[slot]? = some context.drain)
    (quiet : (strandOf context).Quiet (accounts slot)) (desk : Desk)
    (failures : List TransportError) (owner : Nat) {sends : Desk × Executor}
    (isSends : sends = match context.drain.hostSend?
        (.executeCode (Scan.prepareForSandbox code)) with
      | none => conclude desk ready number {} .contextLost
      | some next => (desk, (ready.setContext next).setPhase number (.running {} []))) :
    ∃ accounts', Posts owner ready.codes accounts sends.2.codes accounts' ∧
      sends.2.Tends failures accounts' number owner (.execute code) := by
  subst isSends
  cases sent : context.drain.hostSend? (.executeCode (Scan.prepareForSandbox code)) with
  | none =>
      have isNotice : IsNotice failures (.stderr, "Sandbox context terminated unexpectedly") :=
        .contextLost
      have yields := (accounts slot).yields_unrun owner (Scan.prepareForSandbox code) isNotice
      obtain ⟨tends, codes⟩ := ready.tends_conclude isFor called desk {} .contextLost yields
      exact ⟨accounts, posts_nothing owner accounts codes, tends⟩
  | some next =>
      obtain ⟨submitted, busy⟩ := busy_submit quiet owner sent
      have sets := codes_setContext kept found next
      have posted : (ready.setContext next).codes slot =
          ready.codes slot ++ [Scan.prepareForSandbox code] := by
        rw [sets, if_pos rfl, submitted, Executor.codes, found]
        rfl
      have posts := posts_one posted (fun other different => by rw [sets, if_neg different]) owner
        accounts
      have isForNext : (ready.setContext next).IsFor (fun other => if other = slot
          then (accounts slot).post owner [Scan.prepareForSandbox code] else accounts other)
          number := by
        refine ⟨fun other nothing => ?_, (isFor.setContext next).alone⟩
        have different : other ≠ slot := by
          rintro rfl
          rw [getElem?_setContext kept found] at nothing
          contradiction
        simp only [if_neg different]
        exact (isFor.setContext next).unheard other nothing
      have isBusy : (ready.setContext next).IsBusy (fun other => if other = slot
          then (accounts slot).post owner [Scan.prepareForSandbox code] else accounts other) owner
          (Scan.prepareForSandbox code) [] := by
        refine ⟨slot, next, getElem?_setContext kept found next, by simpa using busy, ?_⟩
        intro other keptOther
        rw [slot_setContext, kept] at keptOther
        exact (Option.some.inj keptOther).symm
      exact ⟨_, posts, (ready.setContext next).tends_running isForNext
        (by rw [calls_setContext, called]) isBusy failures []⟩

/-- Somebody's call with code has a context: it submits the code, or it is over. -/
theorem tends_submit (executor : Executor) (isFor : executor.IsFor accounts number)
    (unused : executor.IsUnused accounts)
    (called : executor.calls[number]? = some ⟨.execute code, phase⟩) (desk : Desk)
    (failures : List TransportError) (owner : Nat) :
    ∃ accounts', Posts owner executor.codes accounts (submit desk executor number code).2.codes
        accounts' ∧
      (submit desk executor number code).2.Tends failures accounts' number owner
        (.execute code) := by
  simp only [submit]
  cases inUse : executor.context? with
  | none =>
      exact ⟨accounts, posts_nothing owner accounts fun _ => rfl,
        executor.tends_finish isFor called trivial⟩
  | some context =>
      obtain ⟨slot, kept, found⟩ := context?_eq_some.mp inUse
      have drained : ∀ other,
          (executor.setContext context.drain).codes other = executor.codes other :=
        codes_setContext_same kept found rfl
      have settled := settles_congr
        (contexts_transition (executor.setContext context.drain) .executing)
      obtain ⟨accounts', posts, tends⟩ := tends_send
        ((executor.setContext context.drain).transition .executing)
        ((isFor.setContext context.drain).settles settled (calls_transition _ _))
        (by rw [calls_transition, calls_setContext, called])
        (by rw [slot_transition, slot_setContext, kept])
        (by rw [contexts_transition, getElem?_setContext kept found])
        (unused slot context found) (desk.modify executor.broker Broker.reset) failures owner rfl
      refine ⟨accounts', Posts.trans ?_ posts, tends⟩
      exact posts_nothing owner accounts fun other => (settled.codes other).trans (drained other)

/-- A call has the lock and a context. -/
theorem tends_proceed (executor : Executor) (isFor : executor.IsFor accounts number)
    (unused : executor.IsUnused accounts)
    (called : executor.calls[number]? = some ⟨purpose, phase⟩) (desk : Desk)
    (failures : List TransportError) (owner : Nat) :
    ∃ accounts', Posts owner executor.codes accounts (proceed desk executor number purpose).2.codes
        accounts' ∧
      (proceed desk executor number purpose).2.Tends failures accounts' number owner purpose := by
  cases purpose with
  | start =>
      exact ⟨accounts, posts_nothing owner accounts fun _ => rfl,
        executor.tends_finish isFor called unused⟩
  | execute code => exact executor.tends_submit isFor unused called desk failures owner

/-- A call that waits for the lock takes a turn. -/
theorem tends_turnQueued (executor : Executor) (isFor : executor.IsFor accounts number)
    (unused : executor.IsUnused accounts)
    (called : executor.calls[number]? = some ⟨purpose, phase⟩) (failures : List TransportError)
    (owner : Nat) (turned : turnQueued desk executor number purpose = some (desk', after)) :
    ∃ accounts', Posts owner executor.codes accounts after.codes accounts' ∧
      after.Tends failures accounts' number owner purpose := by
  simp only [turnQueued] at turned
  split at turned
  · contradiction
  · split at turned
    · cases turned
      exact ⟨accounts, posts_nothing owner accounts fun _ => rfl,
        executor.tends_finish isFor called trivial⟩
    · split at turned
      · have proceeds := executor.tends_proceed isFor unused called desk failures owner
        rw [Option.some.inj turned] at proceeds
        exact proceeds
      · cases turned
        have same := settles_congr (contexts_transition executor .initializing)
        exact ⟨accounts, posts_nothing owner accounts same.codes,
          (executor.transition .initializing).tends_setPhase
            (isFor.settles same (calls_transition executor .initializing))
            (by rw [calls_transition, called]) (unused.settles isFor same)⟩

/-- A new call is the only one that can get a context. -/
theorem IsFor.withCall (isFor : executor.IsFor accounts executor.calls.length) (purpose : Purpose)
    (phase : Phase) : (executor.withCall purpose phase).IsFor accounts executor.calls.length where
  unheard := isFor.unheard
  alone other launching := by
    by_cases last : other = executor.calls.length
    · exact last
    · apply isFor.alone other
      simpa only [isLaunching, phase?_withCall, if_neg last] using launching

/-- An executor that nobody has submitted code to is called. -/
theorem tends_call (executor : Executor) (isFor : executor.IsFor accounts executor.calls.length)
    (unused : executor.IsUnused accounts) (desk : Desk) (purpose : Purpose)
    (failures : List TransportError) (owner : Nat) :
    ∃ accounts', Posts owner executor.codes accounts (executor.call desk purpose).2.1.codes
        accounts' ∧
      (executor.call desk purpose).2.1.Tends failures accounts' (executor.call desk purpose).2.2
        owner purpose := by
  have called (phase : Phase) :
      (executor.calls ++ [⟨purpose, phase⟩])[executor.calls.length]? = some ⟨purpose, phase⟩ :=
    List.getElem?_concat_length
  rcases executor.call_eq desk purpose with
    ⟨outcome, -, isOutcome, calls⟩ | ⟨turned, isTurned, calls⟩
  · rw [calls]
    refine ⟨accounts, posts_nothing owner accounts fun _ => rfl, isFor.withCall purpose _, _,
      called _, ?_⟩
    rcases isOutcome with rfl | rfl
    · exact unused
    · trivial
  · rw [calls, isTurned]
    have asked := isFor.withCall purpose .queued
    have isForAsked : (executor.ask purpose).IsFor accounts executor.calls.length :=
      ⟨asked.unheard, asked.alone⟩
    cases turn : turnQueued desk (executor.ask purpose) executor.calls.length purpose with
    | none =>
        exact ⟨accounts, posts_nothing owner accounts fun _ => rfl, isForAsked, _, called _, unused⟩
    | some next =>
        exact tends_turnQueued (executor.ask purpose) isForAsked unused (called _) failures owner
          turn

/-- The launch that a call waits for has an outcome. -/
theorem tends_launched (executor : Executor) (isFor : executor.IsFor accounts number)
    (unused : executor.IsUnused accounts)
    (called : executor.calls[number]? = some ⟨purpose, phase⟩) (desk : Desk)
    {outcome : Except TransportError Unit}
    (failed : ∀ cause, outcome = .error cause → cause ∈ failures) (owner : Nat) :
    ∃ accounts', Posts owner executor.codes accounts
        (launched desk executor number purpose outcome).2.codes accounts' ∧
      (launched desk executor number purpose outcome).2.Tends failures accounts' number owner
        purpose := by
  cases outcome with
  | ok =>
      have adopted := executor.settles_adopt.trans
        (settles_congr (contexts_transition executor.adopt .ready))
      obtain ⟨accounts', posts, tends⟩ := tends_proceed (executor.adopt.transition .ready)
        (isFor.settles adopted (by rw [calls_transition, calls_adopt]))
        (unused.settles isFor adopted)
        (by rw [calls_transition, calls_adopt, called]) desk failures owner
      exact ⟨accounts', (posts_nothing owner accounts adopted.codes).trans posts, tends⟩
  | error cause =>
      have released := executor.settles_release.trans
        (settles_congr (contexts_transition executor.release .unstarted))
      exact ⟨accounts, posts_nothing owner accounts released.codes,
        tends_finish (executor.release.transition .unstarted)
          (isFor.settles released (by rw [calls_transition, calls_release]))
          (by rw [calls_transition, calls_release, called]) (failed cause rfl)⟩

end Submit

/-! ## Code that runs -/

section Running

variable {desk desk' : Desk} {receiver : String → Option Nat} {slot : Nat} {context : Context}

/-- A run takes in what its context said first. -/
theorem tends_receive {rest : List SandboxMessage} {message : SandboxMessage}
    (isFor : executor.IsFor accounts number)
    (called : executor.calls[number]? = some ⟨.execute code, phase⟩)
    (kept : executor.slot = some slot) (found : executor.contexts[slot]? = some context)
    (busy : (strandOf context).Busy (accounts slot) owner (Scan.prepareForSandbox code)
      heard) (queue : context.toHost = message :: rest) (receiver : String → Option Nat)
    (desk : Desk) (failures : List TransportError) (pending : List Nat) :
    (∀ other, (receive receiver desk (executor.setContext { context with toHost := rest }) number
        (Aggregator.gather heard) pending message).2.codes other = executor.codes other) ∧
      (receive receiver desk (executor.setContext { context with toHost := rest }) number
        (Aggregator.gather heard) pending message).2.Tends failures accounts number owner
        (.execute code) := by
  have codes : ∀ other, (executor.setContext { context with toHost := rest }).codes other =
      executor.codes other := codes_setContext_same kept found rfl
  have isForHeard := isFor.setContext { context with toHost := rest }
  have calledNow : (executor.setContext { context with toHost := rest }).calls[number]? =
      some ⟨.execute code, phase⟩ := by rw [calls_setContext, called]
  have voice := strandOf_take queue
  have hears (utterance : Utterance) (isUtterance : message.utterance = utterance)
      (goesOn : utterance.isEnding = false) :
      (executor.setContext { context with toHost := rest }).IsBusy accounts owner
        (Scan.prepareForSandbox code) (heard ++ utterance.chunks) := by
    refine ⟨slot, _, getElem?_setContext kept found _, ?_, ?_⟩
    · exact busy.hear (isUtterance ▸ voice) goesOn
    · intro other keptOther
      rw [slot_setContext, kept] at keptOther
      exact (Option.some.inj keptOther).symm
  generalize executor.setContext { context with toHost := rest } = heardOf
    at codes isForHeard calledNow hears ⊢
  cases message with
  | stdout data =>
      have tends := tends_running heardOf isForHeard calledNow
        (hears (.output (.stdout, data)) rfl rfl) failures pending
      rw [Utterance.chunks, Aggregator.gather_concat] at tends
      exact ⟨codes, tends⟩
  | stderr data =>
      have tends := tends_running heardOf isForHeard calledNow
        (hears (.output (.stderr, data)) rfl rfl) failures pending
      rw [Utterance.chunks, Aggregator.gather_concat] at tends
      exact ⟨codes, tends⟩
  | inputRequest prompt =>
      have tends := tends_running heardOf isForHeard calledNow (hears .request rfl rfl) failures
        (pending ++ [(desk.request receiver heardOf.broker prompt).2])
      rw [Utterance.chunks, List.append_nil] at tends
      exact ⟨codes, tends⟩
  | executionComplete =>
      obtain ⟨-, owns⟩ := busy.conclude voice
      rw [Option.toList_none, List.append_nil] at owns
      obtain ⟨tends, same⟩ := tends_conclude heardOf isForHeard calledNow desk
        (Aggregator.gather heard) .completed (owns.yields failures)
      exact ⟨fun other => (same other).trans (codes other), tends⟩

/-- A run that is submitted takes a turn, and submits nothing more. -/
theorem tends_turnRunning (isFor : executor.IsFor accounts number)
    (called : executor.calls[number]? = some ⟨.execute code, phase⟩)
    (busy : executor.IsBusy accounts owner (Scan.prepareForSandbox code) heard)
    {pending : List Nat} (failures : List TransportError)
    (turned : turnRunning receiver desk executor number (Aggregator.gather heard) pending =
      some (desk', after)) :
    (∀ other, after.codes other = executor.codes other) ∧
      after.Tends failures accounts number owner (.execute code) := by
  obtain ⟨slot, context, found, busy, only⟩ := busy
  have isNotice : IsNotice failures (.stderr, "Sandbox context terminated unexpectedly") :=
    .contextLost
  have yields := busy.owns.yields_notice isNotice
  have lost (desk : Desk) :
      (∀ other, (conclude desk executor number (Aggregator.gather heard)
          .contextLost).2.codes other = executor.codes other) ∧
        (conclude desk executor number (Aggregator.gather heard) .contextLost).2.Tends failures
          accounts number owner (.execute code) :=
    And.symm (tends_conclude executor isFor called desk (Aggregator.gather heard) .contextLost
      yields)
  simp only [turnRunning] at turned
  split at turned
  · have destroyed := tends_conclude executor isFor called desk (Aggregator.gather heard)
      .destroyed (busy.owns.yields failures)
    rw [Option.some.inj turned] at destroyed
    exact destroyed.symm
  · split at turned
    · have ends := lost desk
      rw [Option.some.inj turned] at ends
      exact ends
    · rename_i same inUse
      obtain ⟨other, kept, foundSame⟩ := context?_eq_some.mp inUse
      obtain rfl := only other kept
      rw [found] at foundSame
      cases foundSame
      split at turned
      · rename_i message next received
        obtain ⟨rest, queue, rfl⟩ := Link.hostReceive_message received
        have receives := tends_receive isFor called kept found busy queue receiver desk failures
          pending
        rw [Option.some.inj turned] at receives
        exact receives
      · have ends := lost desk
        rw [Option.some.inj turned] at ends
        exact ends
      · cases pending with
        | nil => contradiction
        | cons ticket rest =>
            simp only [answer] at turned
            obtain ⟨value, -, turned⟩ := Option.bind_eq_some_iff.mp turned
            split at turned
            · have ends := lost (desk.modify executor.broker (·.take ticket))
              rw [Option.some.inj turned] at ends
              exact ends
            · rename_i next sent
              cases turned
              obtain ⟨strand, codes⟩ := strandOf_hostSend? rfl sent
              refine ⟨codes_setContext_same kept found codes, ?_⟩
              refine tends_running (executor.setContext next) (isFor.setContext next)
                (by rw [calls_setContext, called]) ?_ failures rest
              refine ⟨other, next, getElem?_setContext kept found next, strand ▸ busy, ?_⟩
              intro another keptOther
              rw [slot_setContext] at keptOther
              exact only another keptOther

end Running

/-- Somebody's call takes a turn, and submits nothing but its own code. -/
theorem Tends.turn (tends : executor.Tends failures accounts number owner purpose)
    {receiver : String → Option Nat} {desk desk' : Desk}
    (turned : executor.turn receiver desk number = some (desk', after)) :
    ∃ accounts', Posts owner executor.codes accounts after.codes accounts' ∧
      after.Tends failures accounts' number owner purpose := by
  obtain ⟨isFor, phase, called, stands⟩ := tends
  simp only [Executor.turn, called, Option.bind_eq_bind, Option.bind_some] at turned
  cases phase with
  | queued => exact tends_turnQueued executor isFor stands called failures owner turned
  | running output pending =>
      obtain ⟨code, heard, rfl, busy, rfl⟩ := stands
      obtain ⟨codes, tends⟩ := tends_turnRunning isFor called busy failures turned
      exact ⟨accounts, posts_nothing owner accounts codes, tends⟩
  | launching => contradiction
  | finished outcome => contradiction
  | abandoned => contradiction

/-- An executor that is destroyed goes on with its call. -/
theorem Tends.destroy (tends : executor.Tends failures accounts number owner purpose)
    (desk : Desk) : (executor.destroy desk).2.Tends failures accounts number owner purpose := by
  simp only [Executor.destroy]
  split
  · exact tends
  · have marked : Tends failures { executor with lifecycle := .destroyed } accounts number owner
        purpose := tends.settles (settles_congr rfl) rfl fun _ => id
    dsimp only
    split
    · refine marked.settles (settles_release _) (calls_release _) fun slot kept => ?_
      rw [slot_release] at kept
      contradiction
    · exact marked

theorem phase?_of_outcome? {outcome : Except SandboxError (Option RunResult)}
    (ended : executor.outcome? number = some outcome) :
    executor.phase? number = some (.finished outcome) := by
  simp only [outcome?] at ended
  split at ended
  · rename_i same finished
    rw [finished, Option.some.inj ended]
  · contradiction

/-- A call that is over has an outcome of its owner's. -/
theorem Tends.ended (tends : executor.Tends failures accounts number owner purpose)
    {outcome : Except SandboxError (Option RunResult)}
    (ended : executor.outcome? number = some outcome) :
    executor.Stands failures accounts owner purpose (.finished outcome) := by
  obtain ⟨isFor, phase, called, stands⟩ := tends
  have isFinished := phase?_of_outcome? ended
  rw [phase?_of_getElem? called] at isFinished
  exact Option.some.inj isFinished ▸ stands

/-- Nothing was submitted by a call that only makes the executor ready, and the next call
is the only one that can get a context. -/
theorem Tends.ready (tends : executor.Tends failures accounts number owner .start)
    {prepared : Option RunResult} (ended : executor.outcome? number = some (.ok prepared)) :
    executor.IsFor accounts executor.calls.length ∧ executor.IsUnused accounts := by
  have isFinished := phase?_of_outcome? ended
  refine ⟨⟨tends.isFor.unheard, fun other launching => ?_⟩, ?_⟩
  · obtain rfl := tends.isFor.alone other launching
    simp only [isLaunching, isFinished] at launching
    contradiction
  · have stands := tends.ended ended
    cases prepared with
    | none => exact stands
    | some result =>
        obtain ⟨code, context, isCode, -⟩ := stands
        contradiction

/-- What the contexts hold drifts when one of them does something. -/
theorem drift_modify {kept : Nat} {context : Context}
    (found : executor.contexts[kept]? = some context) {act : Link.Act SandboxMessage}
    (allowed : (accounts kept).allows SandboxMessage.utterance context act = true) {other : Nat}
    {link : Context} (foundLink : executor.contexts[other]? = some link) :
    ∃ next, (executor.contexts.modify kept (·.act act))[other]? = some next ∧
      (strandOf link).Drift (accounts other) (strandOf next) (if other = kept
        then (accounts kept).act HostMessage.isRun SandboxMessage.utterance context act
        else accounts other) := by
  by_cases same : other = kept
  · subst same
    rw [found] at foundLink
    cases foundLink
    exact ⟨context.act act, by simp [found], by simpa using drift_act allowed⟩
  · have different : ¬kept = other := fun equal => same equal.symm
    exact ⟨link, by simp [different, foundLink], by simpa [same] using .refl _ _⟩

theorem IsUnused.act (unused : executor.IsUnused accounts) {kept : Nat} {context : Context}
    (found : executor.contexts[kept]? = some context) {act : Link.Act SandboxMessage}
    (allowed : (accounts kept).allows SandboxMessage.utterance context act = true) :
    IsUnused { executor with contexts := executor.contexts.modify kept (·.act act) }
      fun other => if other = kept
        then (accounts kept).act HostMessage.isRun SandboxMessage.utterance context act
        else accounts other := by
  intro other next foundNext
  have inside : other < executor.contexts.length := by
    simpa using (List.getElem?_eq_some_iff.mp foundNext).1
  obtain ⟨same, foundSame, drifts⟩ :=
    drift_modify found allowed (List.getElem?_eq_getElem inside)
  rw [foundNext] at foundSame
  cases foundSame
  exact (unused other _ (List.getElem?_eq_getElem inside)).drift drifts

/-- A context of the executor that handles its runs in order does something. -/
theorem Tends.act (tends : executor.Tends failures accounts number owner purpose) {kept : Nat}
    {context : Context} (found : executor.contexts[kept]? = some context)
    {act : Link.Act SandboxMessage}
    (allowed : (accounts kept).allows SandboxMessage.utterance context act = true) :
    Tends failures { executor with contexts := executor.contexts.modify kept (·.act act) }
      (fun other => if other = kept
        then (accounts kept).act HostMessage.isRun SandboxMessage.utterance context act
        else accounts other) number owner purpose := by
  have extends_ (other : Nat) : (accounts other).Extends (if other = kept
      then (accounts kept).act HostMessage.isRun SandboxMessage.utterance context act
      else accounts other) := by
    split
    · rename_i same
      exact same ▸ (drift_act allowed).extends
    · exact .refl _
  obtain ⟨isFor, phase, called, stands⟩ := tends
  refine ⟨⟨fun other nothing => ?_, isFor.alone⟩, phase, called, ?_⟩
  · have nothingBefore : executor.contexts[other]? = none := by simpa using nothing
    have different : other ≠ kept := by
      rintro rfl
      rw [found] at nothingBefore
      contradiction
    simp only [if_neg different]
    exact isFor.unheard other nothingBefore
  · cases phase with
    | finished outcome =>
        cases outcome with
        | ok result =>
            cases result with
            | none => exact IsUnused.act stands found allowed
            | some result =>
                obtain ⟨code, other, isCode, yields⟩ := stands
                exact ⟨code, other, isCode,
                  yields.mono (extends_ other) (List.Subset.refl failures)⟩
        | error cause => exact stands
    | queued => exact IsUnused.act stands found allowed
    | launching => exact IsUnused.act stands found allowed
    | running output pending =>
        obtain ⟨code, heard, isCode, ⟨other, link, foundLink, busy, only⟩, collected⟩ := stands
        obtain ⟨next, foundNext, drifts⟩ := drift_modify found allowed foundLink
        exact ⟨code, heard, isCode, ⟨other, next, foundNext, busy.drift drifts, only⟩, collected⟩
    | abandoned => trivial

/-- A call stays somebody's when more launches have failed. -/
theorem Tends.mono (tends : executor.Tends failures accounts number owner purpose)
    {more : List TransportError} (subset : failures ⊆ more) :
    executor.Tends more accounts number owner purpose := by
  obtain ⟨isFor, phase, called, stands⟩ := tends
  refine ⟨isFor, phase, called, ?_⟩
  cases phase with
  | finished outcome =>
      cases outcome with
      | ok result =>
          cases result with
          | none => exact stands
          | some result =>
              obtain ⟨code, context, isCode, yields⟩ := stands
              exact ⟨code, context, isCode, yields.mono (.refl _) subset⟩
      | error cause => exact SandboxError.IsOwn.mono stands subset
  | queued => exact stands
  | launching => exact stands
  | running output pending => exact stands
  | abandoned => trivial

end Executor

end Polyglot.Sandbox
