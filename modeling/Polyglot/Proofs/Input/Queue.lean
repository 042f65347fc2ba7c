import Polyglot.Input.Hook

/-!
# Brokers as queues

The open tickets of a broker stand in its queue in the order of the requests, and whoever
waits for a value has an open ticket.  So the first queued ticket whose holder waits is the
oldest one, and that is where a value goes.
-/

namespace Polyglot

/-- Whether a value has come that was not taken. -/
def Ticket.isAnswered : Ticket → Bool
  | .answered _ => true
  | .waiting | .closed | .abandoned => false

namespace Broker

variable {broker : Broker} {number other : Nat} {value : String}

/-! ## The states of tickets -/

section Tickets

variable (broker : Broker) (number other : Nat) (value : String) (state : Ticket)

/-- Nobody waits for a ticket that was never given out. -/
theorem ticket_of_length_le {broker : Broker} {number : Nat}
    (beyond : broker.tickets.length ≤ number) : broker.ticket number = .closed := by
  simp [ticket, List.getElem?_eq_none beyond]

theorem lt_of_ticket {broker : Broker} {number : Nat} (notClosed : broker.ticket number ≠ .closed) :
    number < broker.tickets.length :=
  Nat.lt_of_not_le fun beyond => notClosed (ticket_of_length_le beyond)

@[simp] theorem length_setTicket :
    (broker.setTicket number state).tickets.length = broker.tickets.length := by simp [setTicket]

@[simp] theorem queue_setTicket : (broker.setTicket number state).queue = broker.queue := rfl

theorem ticket_setTicket :
    (broker.setTicket number state).ticket other =
      if other = number ∧ number < broker.tickets.length then state else broker.ticket other := by
  by_cases same : other = number
  · subst other
    by_cases inside : number < broker.tickets.length
    · simp [ticket, setTicket, inside]
    · simp [ticket, setTicket, inside]
  · have different : ¬number = other := fun equal => same equal.symm
    simp [ticket, setTicket, same, List.getElem?_set_ne different]

@[simp] theorem length_enqueue :
    broker.enqueue.1.tickets.length = broker.tickets.length + 1 := by simp [enqueue]

@[simp] theorem length_answerUnattended :
    broker.answerUnattended.1.tickets.length = broker.tickets.length + 1 := by
  simp [answerUnattended]

/-- A new ticket changes nothing about the others. -/
theorem getElem?_concat (added : Ticket) :
    ((broker.tickets ++ [added])[other]?).getD .closed =
      if other = broker.tickets.length then added else broker.ticket other := by
  by_cases last : other = broker.tickets.length
  · simp [last]
  · rw [if_neg last]
    by_cases below : other < broker.tickets.length
    · rw [List.getElem?_append_left below]
      rfl
    · have beyond : (broker.tickets ++ [added]).length ≤ other := by simp; omega
      rw [List.getElem?_eq_none beyond, ticket_of_length_le (Nat.le_of_not_lt below)]
      rfl

theorem ticket_enqueue :
    broker.enqueue.1.ticket other =
      if other = broker.tickets.length then .waiting else broker.ticket other :=
  broker.getElem?_concat other .waiting

theorem ticket_answerUnattended :
    broker.answerUnattended.1.ticket other =
      if other = broker.tickets.length then .answered "" else broker.ticket other :=
  broker.getElem?_concat other (.answered "")

@[simp] theorem length_reset : broker.reset.tickets.length = broker.tickets.length := by
  simp [reset]

/-- Closing the open tickets changes nothing about the others. -/
theorem ticket_reset :
    broker.reset.ticket other =
      if broker.ticket other = .waiting ∧ other ∈ broker.queue then .closed
      else broker.ticket other := by
  by_cases inside : other < broker.tickets.length
  · have found : broker.ticket other = broker.tickets[other] := by simp [ticket, inside]
    simp only [found]
    simp [ticket, reset, inside]
  · have beyond : broker.tickets.length ≤ other := Nat.le_of_not_lt inside
    rw [ticket_of_length_le (by simpa using beyond), ticket_of_length_le beyond]
    simp

@[simp] theorem length_abandon :
    (broker.abandon number).tickets.length = broker.tickets.length := by simp [abandon]

theorem ticket_abandon :
    (broker.abandon number).ticket other =
      if other = number ∧ number < broker.tickets.length then .abandoned
      else broker.ticket other :=
  broker.ticket_setTicket number other .abandoned

/-- Taking a value touches the ticket that it came to, and no other. -/
theorem take_cases :
    broker.take number = broker ∨
      ∃ value, broker.ticket number = .answered value ∧
        broker.take number = broker.setTicket number .closed := by
  simp only [take]
  split
  · rename_i value answered
    exact .inr ⟨value, answered, rfl⟩
  · exact .inl rfl

@[simp] theorem length_take : (broker.take number).tickets.length = broker.tickets.length := by
  rcases broker.take_cases number with same | ⟨value, -, taken⟩
  · rw [same]
  · rw [taken, length_setTicket]

@[simp] theorem queue_take : (broker.take number).queue = broker.queue := by
  rcases broker.take_cases number with same | ⟨value, -, taken⟩
  · rw [same]
  · rw [taken, queue_setTicket]

/-- A value that was taken is not there any more, and nothing else changes. -/
theorem ticket_take :
    (broker.take number).ticket other =
      if other = number ∧ (broker.ticket number).isAnswered then .closed
      else broker.ticket other := by
  simp only [take]
  split
  · rename_i value answered
    have inside : number < broker.tickets.length := lt_of_ticket (by simp [answered])
    simp [ticket_setTicket, inside, answered, Ticket.isAnswered]
  · rename_i unanswered
    rw [if_neg]
    rintro ⟨-, answered⟩
    cases state : broker.ticket number with
    | answered value => exact unanswered value state
    | _ => simp [state, Ticket.isAnswered] at answered

end Tickets

/-! ## Where a value goes -/

/-- The first of the queued tickets whose holder waits. -/
def oldest? (broker : Broker) : Option Nat :=
  broker.queue.find? fun number => broker.ticket number = .waiting

/-- A ticket is the oldest of those whose holders wait. -/
def IsOldest (broker : Broker) (number : Nat) : Prop :=
  broker.ticket number = .waiting ∧ ∀ other, broker.ticket other = .waiting → number ≤ other

/-- A value goes to the first ticket of a queue whose holder waits, and the tickets before
it are forgotten. -/
theorem provideTo_eq (broker : Broker) (value : String) (queue : List Nat) :
    provideTo value broker queue =
      match queue.find? fun number => broker.ticket number = .waiting with
      | none => ({ broker with queue := [] }, false)
      | some number =>
        ({ broker.setTicket number (.answered value) with
            queue := (queue.dropWhile fun number => broker.ticket number ≠ .waiting).tail },
          true) := by
  induction queue with
  | nil => rfl
  | cons first rest ih =>
      by_cases waits : broker.ticket first = .waiting
      · simp [provideTo, waits]
      · simp [provideTo, waits, ih]

/-- A value that nobody waits for is lost, and the queue is empty then. -/
theorem provide_of_none (nobody : broker.oldest? = none) :
    broker.provide value = ({ broker with queue := [] }, false) := by
  rw [oldest?] at nobody
  rw [provide, provideTo_eq, nobody]

/-! ## Orderly brokers -/

/-- What holds of a broker whatever happened to it. -/
structure Orderly (broker : Broker) : Prop where
  /-- The queue has the order of the requests. -/
  sorted : broker.queue.Pairwise (· < ·)
  inside : ∀ number ∈ broker.queue, number < broker.tickets.length
  /-- Whoever waits has an open ticket. -/
  queued : ∀ number, broker.ticket number = .waiting → number ∈ broker.queue
  /-- The holder of an open ticket waits, or has gone away. -/
  stands : ∀ number ∈ broker.queue,
    broker.ticket number = .waiting ∨ broker.ticket number = .abandoned

namespace Orderly

theorem fresh (language : String) : Orderly { language } where
  sorted := .nil
  inside := nofun
  queued number waits := by simp [ticket] at waits
  stands := nofun

/-- The first queued ticket whose holder waits is the oldest such ticket. -/
theorem oldest?_eq_some (orderly : broker.Orderly) :
    broker.oldest? = some number ↔ broker.IsOldest number := by
  constructor
  · intro found
    obtain ⟨waits, passed, rest, split, before⟩ := List.find?_eq_some_iff_append.mp found
    refine ⟨by simpa using waits, fun other alsoWaits => ?_⟩
    have mem := orderly.queued other alsoWaits
    have sorted := orderly.sorted
    rw [split] at mem sorted
    rcases List.mem_append.mp mem with earlier | later
    · exact absurd alsoWaits (by simpa using before other earlier)
    · rcases List.mem_cons.mp later with same | beyond
      · exact Nat.le_of_eq same.symm
      · exact Nat.le_of_lt
          ((List.pairwise_cons.mp (List.pairwise_append.mp sorted).2.1).1 other beyond)
  · intro oldest
    cases found : broker.oldest? with
    | none =>
        have nobody := List.find?_eq_none.mp found number (orderly.queued number oldest.1)
        simp [oldest.1] at nobody
    | some first =>
        obtain ⟨waits, passed, rest, split, before⟩ := List.find?_eq_some_iff_append.mp found
        have waits : broker.ticket first = .waiting := by simpa using waits
        have mem := orderly.queued number oldest.1
        have sorted := orderly.sorted
        rw [split] at mem sorted
        rcases List.mem_append.mp mem with earlier | later
        · exact absurd oldest.1 (by simpa using before number earlier)
        · rcases List.mem_cons.mp later with same | beyond
          · rw [same]
          · have above :=
              (List.pairwise_cons.mp (List.pairwise_append.mp sorted).2.1).1 number beyond
            exact absurd (oldest.2 first waits) (Nat.not_le_of_lt above)

/-- Somebody waits exactly if there is an oldest ticket. -/
theorem exists_oldest (orderly : broker.Orderly) (waits : broker.ticket number = .waiting) :
    ∃ first, broker.IsOldest first := by
  cases found : broker.oldest? with
  | none =>
      have nobody := List.find?_eq_none.mp found number (orderly.queued number waits)
      simp [waits] at nobody
  | some first => exact ⟨first, orderly.oldest?_eq_some.mp found⟩

theorem oldest?_eq_none (orderly : broker.Orderly) :
    broker.oldest? = none ↔ ∀ number, broker.ticket number ≠ .waiting := by
  constructor
  · intro nobody number waits
    obtain ⟨first, oldest⟩ := orderly.exists_oldest waits
    rw [orderly.oldest?_eq_some.mpr oldest] at nobody
    contradiction
  · intro nobody
    exact List.find?_eq_none.mpr fun number _ => by simpa using nobody number

/-- What is left of a sorted queue after the first ticket whose holder waits are the
tickets with greater numbers. -/
theorem tail_dropWhile (orderly : broker.Orderly) (oldest : broker.IsOldest number) :
    (broker.queue.dropWhile fun number => broker.ticket number ≠ .waiting).tail =
      broker.queue.filter (number < ·) := by
  have found := orderly.oldest?_eq_some.mpr oldest
  obtain ⟨waits, passed, rest, split, before⟩ := List.find?_eq_some_iff_append.mp found
  have sorted := orderly.sorted
  rw [split] at sorted ⊢
  have passes : ∀ other ∈ passed, decide (broker.ticket other ≠ .waiting) = true :=
    fun other mem => by simpa using before other mem
  have stops : ∀ rest : List Nat,
      (number :: rest).dropWhile (fun number => broker.ticket number ≠ .waiting) =
        number :: rest := fun rest => List.dropWhile_cons_of_neg (by simpa using waits)
  have below : passed.filter (number < ·) = [] := List.filter_eq_nil_iff.mpr fun other mem => by
    have less := (List.pairwise_append.mp sorted).2.2 other mem number List.mem_cons_self
    simp [Nat.le_of_lt less]
  have above : rest.filter (number < ·) = rest := List.filter_eq_self.mpr fun other mem => by
    have less := (List.pairwise_cons.mp (List.pairwise_append.mp sorted).2.1).1 other mem
    simpa using less
  rw [List.dropWhile_append_of_pos passes, stops, List.tail_cons,
    List.filter_append, List.filter_cons_of_neg (by simp), below, above, List.nil_append]

/-- A value goes to the oldest ticket whose holder waits, and the open tickets before it
are forgotten. -/
theorem provide_of_oldest (orderly : broker.Orderly) (oldest : broker.IsOldest number) :
    broker.provide value =
      ({ broker.setTicket number (.answered value) with
          queue := broker.queue.filter (number < ·) }, true) := by
  have found := orderly.oldest?_eq_some.mpr oldest
  rw [oldest?] at found
  rw [provide, provideTo_eq, found]
  simp only [orderly.tail_dropWhile oldest]

/-- A value that nobody waits for is lost. -/
theorem provide_of_nobody (orderly : broker.Orderly)
    (nobody : ∀ number, broker.ticket number ≠ .waiting) :
    broker.provide value = ({ broker with queue := [] }, false) :=
  provide_of_none (orderly.oldest?_eq_none.mpr nobody)

/-- Either somebody waits, and the oldest ticket is answered, or the value is lost. -/
theorem provide_cases (orderly : broker.Orderly) (value : String) :
    (∃ number, broker.IsOldest number ∧
      broker.provide value =
        ({ broker.setTicket number (.answered value) with
            queue := broker.queue.filter (number < ·) }, true)) ∨
    (∀ number, broker.ticket number ≠ .waiting) ∧
      broker.provide value = ({ broker with queue := [] }, false) := by
  cases found : broker.oldest? with
  | none =>
      have nobody := orderly.oldest?_eq_none.mp found
      exact .inr ⟨nobody, orderly.provide_of_nobody nobody⟩
  | some number =>
      have oldest := orderly.oldest?_eq_some.mp found
      exact .inl ⟨number, oldest, orderly.provide_of_oldest oldest⟩

/-- A value is accepted exactly if the holder of an open ticket waits. -/
theorem provide_iff (orderly : broker.Orderly) (value : String) :
    (broker.provide value).2 = true ↔
      ∃ number ∈ broker.queue, broker.ticket number = .waiting := by
  rcases orderly.provide_cases value with ⟨number, oldest, provided⟩ | ⟨nobody, provided⟩
  · rw [provided]
    exact ⟨fun _ => ⟨number, orderly.queued number oldest.1, oldest.1⟩, fun _ => rfl⟩
  · rw [provided]
    constructor
    · intro accepted
      contradiction
    · rintro ⟨number, -, waits⟩
      exact absurd waits (nobody number)

/-! ## What the operations keep -/

theorem enqueue (orderly : broker.Orderly) : broker.enqueue.1.Orderly where
  sorted := List.pairwise_append.mpr ⟨orderly.sorted, List.pairwise_singleton .., by
    intro number mem last isLast
    rw [List.mem_singleton.mp isLast]
    exact orderly.inside number mem⟩
  inside number mem := by
    rw [length_enqueue]
    rcases List.mem_append.mp mem with old | new
    · exact Nat.lt_succ_of_lt (orderly.inside number old)
    · rw [List.mem_singleton.mp new]
      exact Nat.lt_succ_self _
  queued number waits := by
    rw [ticket_enqueue] at waits
    split at waits
    · rename_i last
      rw [last]
      exact List.mem_append_right _ List.mem_cons_self
    · exact List.mem_append_left _ (orderly.queued number waits)
  stands number mem := by
    rw [ticket_enqueue]
    split
    · exact .inl rfl
    · rename_i old
      rcases List.mem_append.mp mem with before | new
      · exact orderly.stands number before
      · exact absurd (List.mem_singleton.mp new) old

theorem answerUnattended (orderly : broker.Orderly) : broker.answerUnattended.1.Orderly where
  sorted := orderly.sorted
  inside number mem := by
    rw [length_answerUnattended]
    exact Nat.lt_succ_of_lt (orderly.inside number mem)
  queued number waits := by
    rw [ticket_answerUnattended] at waits
    split at waits
    · contradiction
    · exact orderly.queued number waits
  stands number mem := by
    rw [ticket_answerUnattended, if_neg (Nat.ne_of_lt (orderly.inside number mem))]
    exact orderly.stands number mem

theorem reset (orderly : broker.Orderly) : broker.reset.Orderly where
  sorted := .nil
  inside := nofun
  queued number waits := by
    rw [ticket_reset] at waits
    split at waits
    · contradiction
    · rename_i kept
      exact absurd ⟨waits, orderly.queued number waits⟩ kept
  stands := nofun

theorem abandon (orderly : broker.Orderly) (number : Nat) : (broker.abandon number).Orderly where
  sorted := orderly.sorted
  inside other mem := by
    rw [length_abandon]
    exact orderly.inside other mem
  queued other waits := by
    rw [ticket_abandon] at waits
    split at waits
    · contradiction
    · exact orderly.queued other waits
  stands other mem := by
    rw [ticket_abandon]
    split
    · exact .inr rfl
    · exact orderly.stands other mem

theorem take (orderly : broker.Orderly) (number : Nat) : (broker.take number).Orderly where
  sorted := by simpa using orderly.sorted
  inside other mem := by
    rw [length_take]
    exact orderly.inside other (by simpa using mem)
  queued other waits := by
    rw [ticket_take] at waits
    split at waits
    · contradiction
    · simpa using orderly.queued other waits
  stands other mem := by
    have stands := orderly.stands other (by simpa using mem)
    rw [ticket_take]
    split
    · rename_i answered
      rw [answered.1] at stands
      rcases stands with waits | gone
      · simp [waits, Ticket.isAnswered] at answered
      · simp [gone, Ticket.isAnswered] at answered
    · exact stands

theorem provide (orderly : broker.Orderly) (value : String) :
    (broker.provide value).1.Orderly := by
  rcases orderly.provide_cases value with ⟨number, oldest, provided⟩ | ⟨nobody, provided⟩
  · rw [provided]
    have ticket (other : Nat) :
        Broker.ticket { broker.setTicket number (.answered value) with
          queue := broker.queue.filter (number < ·) } other =
        if other = number ∧ number < broker.tickets.length then .answered value
        else broker.ticket other := broker.ticket_setTicket number other (.answered value)
    refine ⟨orderly.sorted.filter _, ?_, ?_, ?_⟩
    · intro other mem
      simpa using orderly.inside other (List.mem_filter.mp mem |>.1)
    · intro other waits
      rw [ticket] at waits
      split at waits
      · contradiction
      · rename_i kept
        have inside := orderly.inside number (orderly.queued number oldest.1)
        have different : other ≠ number := fun same => kept ⟨same, inside⟩
        have above : number < other :=
          Nat.lt_of_le_of_ne (oldest.2 other waits) different.symm
        exact List.mem_filter.mpr ⟨orderly.queued other waits, by simpa using above⟩
    · intro other mem
      obtain ⟨mem, above⟩ := List.mem_filter.mp mem
      have above : number < other := by simpa using above
      rw [ticket, if_neg fun both => absurd both.1 (Nat.ne_of_gt above)]
      exact orderly.stands other mem
  · rw [provided]
    exact ⟨.nil, nofun, fun number waits => absurd waits (nobody number), nofun⟩

end Orderly

end Broker

end Polyglot
