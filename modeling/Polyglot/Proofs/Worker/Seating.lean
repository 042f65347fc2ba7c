import Polyglot.Proofs.Worker.Calls

/-!
# Which run is whose

Every call whose code becomes a run on a worker has a seat of its own: the worker and the
number of the run on it.  The result of a call is the result of the run in its seat.
-/

namespace Polyglot.Worker

/-- The seats of the calls of executors: the worker of each, and the run on it. -/
abbrev Seats := Nat → Nat → Option (Nat × Nat)

/-- No two calls have the same seat. -/
def Seats.Apart (seats : Seats) : Prop :=
  ∀ executor number executor' number' seat, seats executor number = some seat →
    seats executor' number' = some seat → executor = executor' ∧ number = number'

/-- Seats stay apart when one call gets a seat that nobody else has. -/
theorem Seats.Apart.seat {seats : Seats} (apart : seats.Apart) {executor number : Nat}
    {seat : Nat × Nat} (alone : ∀ executor' number', seats executor' number' = some seat →
      executor' = executor ∧ number' = number) :
    Seats.Apart fun executor' number' =>
      if executor' = executor ∧ number' = number then some seat else seats executor' number' := by
  intro first firstNumber second secondNumber shared isFirst isSecond
  simp only at isFirst isSecond
  split at isFirst
  · rename_i firstOwn
    split at isSecond
    · rename_i secondOwn
      exact ⟨firstOwn.1.trans secondOwn.1.symm, firstOwn.2.trans secondOwn.2.symm⟩
    · rename_i isOther
      cases isFirst
      exact absurd (alone second secondNumber isSecond) isOther
  · rename_i isOther
    split at isSecond
    · cases isSecond
      exact absurd (alone first firstNumber isFirst) isOther
    · exact apart first firstNumber second secondNumber shared isFirst isSecond

namespace Workshop

/-- Executors that nobody has called yet. -/
def fresh (desk : Desk) (executors : List Executor) : Workshop where
  desk
  registry := {}
  executors := executors.map fun executor => { executor with calls := [] }

/-- A call of an executor. -/
def call? (shop : Workshop) (executor number : Nat) : Option Call :=
  shop.executors[executor]? >>= (·.calls[number]?)

/-- The worker and the run on it that a call waits for. -/
def seat? (shop : Workshop) (executor number : Nat) : Option (Nat × Nat) :=
  match shop.call? executor number with
  | some ⟨_, .running handle run⟩ => some (handle, run)
  | _ => none

/-- No call takes a turn that runs code or has a result afterwards. -/
structure Passes (before after : Workshop) : Prop where
  keeps : before.registry.Keeps after.registry
  calls : ∀ executor number call, after.call? executor number = some call →
    before.call? executor number = some call ∨ call.phase.isIdle = true
  stays : ∀ executor number purpose phase,
    before.call? executor number = some ⟨purpose, phase⟩ →
    ∃ next, after.call? executor number = some ⟨purpose, next⟩

/-- One call has gone somewhere, or was made there, and no other call has gone anywhere. -/
structure Goes (before : Workshop) (executor number : Nat) (call : Call) (after : Workshop) :
    Prop where
  own : after.call? executor number = some call
  others : ∀ executor' number', ¬(executor' = executor ∧ number' = number) →
    after.call? executor' number' = before.call? executor' number'

/-- Every call that runs code has a seat of its own. -/
structure Seating (shop : Workshop) (seats : Seats) : Prop where
  running : ∀ executor number seat, shop.seat? executor number = some seat →
    seats executor number = some seat
  returned : ∀ executor number purpose result,
    shop.call? executor number = some ⟨purpose, .finished (.ok (some result))⟩ →
    ∃ handle run worker, seats executor number = some (handle, run) ∧
      shop.registry.handles[handle]? = some worker ∧ worker.stage run = .returned result
  placed : ∀ executor number handle run, seats executor number = some (handle, run) →
    ∃ code phase worker, shop.call? executor number = some ⟨.execute code, phase⟩ ∧
      shop.registry.handles[handle]? = some worker ∧ worker.code? run = some code
  apart : seats.Apart

/-- The seats after something has happened. -/
def reseat (after : Workshop) (seats : Seats) : Seats := fun executor number =>
  (after.seat? executor number).or (seats executor number)

variable {shop after : Workshop} {seats : Seats} {executor number : Nat} {found : Executor}
  {place : Place}

theorem seat?_eq_some {seat : Nat × Nat} :
    shop.seat? executor number = some seat ↔
      ∃ purpose, shop.call? executor number = some ⟨purpose, .running seat.1 seat.2⟩ := by
  simp only [seat?]
  cases shop.call? executor number with
  | none => simp
  | some call =>
      obtain ⟨purpose, phase⟩ := call
      cases phase <;> simp [Prod.ext_iff]

theorem call?_fresh (desk : Desk) (executors : List Executor) (executor number : Nat) :
    (fresh desk executors).call? executor number = none := by
  simp only [call?, fresh, List.getElem?_map]
  cases executors[executor]? <;> rfl

theorem seating_fresh (desk : Desk) (executors : List Executor) :
    (fresh desk executors).Seating fun _ _ => none where
  running executor number seat seated := by
    obtain ⟨purpose, called⟩ := seat?_eq_some.mp seated
    rw [call?_fresh] at called
    contradiction
  returned executor number purpose result called := by
    rw [call?_fresh] at called
    contradiction
  placed _ _ _ _ seated := by contradiction
  apart _ _ _ _ _ seated := by contradiction

/-- Whoever has a seat now had it before. -/
theorem reseat_of_running (running : ∀ executor number seat,
    after.seat? executor number = some seat → seats executor number = some seat) :
    after.reseat seats = seats := by
  funext executor number
  simp only [reseat]
  cases seated : after.seat? executor number with
  | none => rfl
  | some seat => exact (running executor number seat seated).symm

section Seating

theorem Seating.pass (seating : shop.Seating seats) (passes : shop.Passes after) :
    after.Seating seats where
  running executor number seat seated := by
    obtain ⟨purpose, called⟩ := seat?_eq_some.mp seated
    rcases passes.calls executor number _ called with was | idle
    · exact seating.running executor number seat (seat?_eq_some.mpr ⟨purpose, was⟩)
    · contradiction
  returned executor number purpose result called := by
    rcases passes.calls executor number _ called with was | idle
    · obtain ⟨handle, run, worker, seated, found, isOver⟩ :=
        seating.returned executor number purpose result was
      obtain ⟨next, foundNext, keeps⟩ := passes.keeps handle worker found
      exact ⟨handle, run, next, seated, foundNext, keeps.returned isOver⟩
    · contradiction
  placed executor number handle run seated := by
    obtain ⟨code, phase, worker, called, found, isCode⟩ :=
      seating.placed executor number handle run seated
    obtain ⟨next, calledNext⟩ := passes.stays executor number _ phase called
    obtain ⟨worker', found', keeps⟩ := passes.keeps handle worker found
    exact ⟨code, next, worker', calledNext, found', keeps.code? isCode⟩
  apart := seating.apart

end Seating

/-! ## The turn of a call -/

section Turn

variable {purpose : Purpose} {phase : CallPhase}

theorem call?_of_getElem? (at_ : shop.executors[executor]? = some found) (number : Nat) :
    shop.call? executor number = found.calls[number]? := by
  rw [call?, at_]
  rfl

theorem call?_put (at_ : shop.executors[executor]? = some found) (place : Place)
    (executor' number : Nat) :
    (shop.put executor place).call? executor' number =
      if executor' = executor then place.executor.calls[number]?
      else shop.call? executor' number := by
  have inside := (List.getElem?_eq_some_iff.mp at_).1
  simp only [call?, put]
  by_cases same : executor' = executor
  · subst same
    simp [inside]
  · have different : ¬executor = executor' := fun equal => same equal.symm
    simp [different, same]

theorem goes_put (at_ : shop.executors[executor]? = some found)
    (goes : found.Goes number purpose phase place.executor) :
    shop.Goes executor number ⟨purpose, phase⟩ (shop.put executor place) where
  own := by rw [call?_put at_, if_pos rfl, goes.own]
  others executor' number' isOther := by
    rw [call?_put at_]
    split
    · rename_i same
      subst same
      rw [goes.others number' fun equal => isOther ⟨rfl, equal⟩, call?_of_getElem? at_]
    · rfl

theorem passes_put (at_ : shop.executors[executor]? = some found)
    (eases : Place.Eases ⟨shop.desk, shop.registry, found⟩ place) :
    shop.Passes (shop.put executor place) where
  keeps := eases.lets.keeps
  calls executor' number call called := by
    rw [call?_put at_] at called
    split at called
    · rename_i same
      subst same
      rw [call?_of_getElem? at_]
      exact eases.calls number call called
    · exact .inl called
  stays executor' number purpose phase called := by
    rw [call?_put at_]
    split
    · rename_i same
      subst same
      rw [call?_of_getElem? at_] at called
      exact eases.stays number purpose phase called
    · exact ⟨phase, called⟩

theorem Goes.seat? {call : Call} (goes : shop.Goes executor number call after)
    {executor' number' : Nat} (isOther : ¬(executor' = executor ∧ number' = number)) :
    after.seat? executor' number' = shop.seat? executor' number' := by
  simp only [Workshop.seat?, goes.others executor' number' isOther]

/-- A call that goes to a run has its seat there; all others keep theirs. -/
theorem Seating.reseat_of_goes (seating : shop.Seating seats) {handle run : Nat}
    (goes : shop.Goes executor number ⟨purpose, .running handle run⟩ after) :
    after.reseat seats = fun executor' number' =>
      if executor' = executor ∧ number' = number then some (handle, run)
      else seats executor' number' := by
  funext executor' number'
  simp only [reseat]
  split
  · rename_i isOwn
    have ownSeat : after.seat? executor number = some (handle, run) :=
      seat?_eq_some.mpr ⟨purpose, goes.own⟩
    rw [isOwn.1, isOwn.2, ownSeat, Option.some_or]
  · rename_i isOther
    rw [goes.seat? isOther]
    cases seated : shop.seat? executor' number' with
    | none => rfl
    | some seat => exact (seating.running executor' number' seat seated).symm

/-- Nobody else can have the seat of a call: it was the call's before, or the run is new. -/
theorem Seating.alone (seating : shop.Seating seats) {handle run : Nat} {worker next : Handle}
    {registry : Registry}
    (new : shop.seat? executor number = some (handle, run) ∨ run = worker.runs.length)
    (works : shop.registry.Works handle worker run next registry) (executor' number' : Nat)
    (seated : seats executor' number' = some (handle, run)) :
    executor' = executor ∧ number' = number := by
  rcases new with was | isNew
  · exact seating.apart _ _ _ _ _ seated (seating.running executor number _ was)
  · obtain ⟨other, phase, same, -, isSame, hasCode⟩ :=
      seating.placed executor' number' handle run seated
    rw [works.found] at isSame
    cases isSame
    simp [Handle.code?, isNew] at hasCode

/-- The run of a call takes a turn, and has its seat from then on. -/
theorem Seating.work (seating : shop.Seating seats)
    {code : String} {handle run : Nat} {worker next : Handle}
    (goes : shop.Goes executor number ⟨.execute code, .running handle run⟩ after)
    (new : shop.seat? executor number = some (handle, run) ∨ run = worker.runs.length)
    (works : shop.registry.Works handle worker run next after.registry)
    (isCode : next.code? run = some code) :
    after.Seating (after.reseat seats) where
  running executor' number' seat seated := by rw [reseat, seated, Option.some_or]
  returned executor' number' purpose result called := by
    have isOther : ¬(executor' = executor ∧ number' = number) := by
      rintro ⟨rfl, rfl⟩
      rw [goes.own] at called
      cases called
    rw [goes.others executor' number' isOther] at called
    obtain ⟨handle', run', worker', seated, foundWorker, isOver⟩ :=
      seating.returned executor' number' purpose result called
    obtain ⟨next', foundNext, keepsRuns⟩ := works.keeps handle' worker' foundWorker
    refine ⟨handle', run', next', ?_, foundNext, keepsRuns.returned isOver⟩
    simp only [seating.reseat_of_goes goes, if_neg isOther, seated]
  placed executor' number' handle' run' seated := by
    simp only [seating.reseat_of_goes goes] at seated
    split at seated
    · rename_i isOwn
      obtain ⟨rfl, rfl⟩ := isOwn
      cases seated
      exact ⟨code, _, next, goes.own, works.moved, isCode⟩
    · rename_i isOther
      obtain ⟨code', phase, worker', called, foundWorker, hasCode⟩ :=
        seating.placed executor' number' handle' run' seated
      obtain ⟨next', foundNext, keepsRuns⟩ := works.keeps handle' worker' foundWorker
      exact ⟨code', phase, next', (goes.others executor' number' isOther).trans called, foundNext,
        keepsRuns.code? hasCode⟩
  apart := by
    rw [seating.reseat_of_goes goes]
    exact seating.apart.seat (seating.alone new works)

/-- A call has the result of the run in its seat. -/
theorem Seating.answer (seating : shop.Seating seats) {handle run : Nat} {worker : Handle}
    {result : RunResult} (was : shop.call? executor number = some ⟨purpose, .running handle run⟩)
    (goes : shop.Goes executor number ⟨purpose, .finished (.ok (some result))⟩ after)
    (registry : after.registry = shop.registry)
    (found : shop.registry.handles[handle]? = some worker)
    (isOver : worker.stage run = .returned result) : after.Seating seats where
  running executor' number' seat seated := by
    obtain ⟨other, called⟩ := seat?_eq_some.mp seated
    have isOther : ¬(executor' = executor ∧ number' = number) := by
      rintro ⟨rfl, rfl⟩
      rw [goes.own] at called
      cases called
    rw [goes.others executor' number' isOther] at called
    exact seating.running executor' number' seat (seat?_eq_some.mpr ⟨other, called⟩)
  returned executor' number' purpose' result' called := by
    rw [registry]
    by_cases isOwn : executor' = executor ∧ number' = number
    · obtain ⟨rfl, rfl⟩ := isOwn
      rw [goes.own] at called
      cases called
      have seated := seating.running executor' number' (handle, run)
        (seat?_eq_some.mpr ⟨purpose, was⟩)
      exact ⟨handle, run, worker, seated, found, isOver⟩
    · rw [goes.others executor' number' isOwn] at called
      exact seating.returned executor' number' purpose' result' called
  placed executor' number' handle' run' seated := by
    rw [registry]
    obtain ⟨code, phase, worker', called, foundWorker, isCode⟩ :=
      seating.placed executor' number' handle' run' seated
    by_cases isOwn : executor' = executor ∧ number' = number
    · obtain ⟨rfl, rfl⟩ := isOwn
      rw [was] at called
      cases called
      exact ⟨code, _, worker', goes.own, foundWorker, isCode⟩
    · exact ⟨code, phase, worker', (goes.others executor' number' isOwn).trans called, foundWorker,
        isCode⟩
  apart := seating.apart

end Turn

end Workshop

end Polyglot.Worker
