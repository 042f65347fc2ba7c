import Polyglot.Proofs.Input.Exchange

/-!
# Brokers that serve one caller

As long as a broker serves one caller at a time, a value goes to the oldest of the caller's
requests that no value has come for, and where there is none it is as if the value had not
been given.
-/

namespace Polyglot

namespace Broker

/-- No value has come for a ticket. -/
def IsUnanswered (broker : Broker) (ticket : Nat) : Prop :=
  ∀ value, broker.ticket ticket ≠ .answered value

/-- A broker after a value has come for an open ticket. -/
def answering (broker : Broker) (ticket : Nat) (value : String) : Broker :=
  { broker.setTicket ticket (.answered value) with queue := broker.queue.erase ticket }

/-- A broker serves the caller who holds those tickets and nobody else. -/
structure Serves (broker : Broker) (withdrawn : Bool) (tickets : List Nat) : Prop where
  orderly : broker.Orderly
  sorted : tickets.Pairwise (· < ·)
  /-- Nobody has left an open ticket behind. -/
  waits : ∀ ticket ∈ broker.queue, broker.ticket ticket = .waiting
  held : ∀ ticket ∈ broker.queue, ticket ∈ tickets
  closed : withdrawn = true → broker.queue = []
  /-- Nothing but destruction closes a ticket that the caller holds. -/
  stands : withdrawn = false → ∀ ticket ∈ tickets, broker.IsGood ticket

variable {broker : Broker} {withdrawn : Bool} {tickets rest : List Nat} {ticket : Nat}

theorem serves_fresh (language : String) (withdrawn : Bool) :
    Serves { language } withdrawn [] where
  orderly := .fresh language
  sorted := .nil
  waits := by simp
  held := by simp
  closed := by simp
  stands := by simp

namespace Serves

/-! ## Values -/

/-- The tickets that are waited for are those that the caller holds and no value has come
for, unless they were withdrawn. -/
theorem waiting_iff (serves : broker.Serves withdrawn tickets) :
    broker.ticket ticket = .waiting ↔
      withdrawn = false ∧ ticket ∈ tickets ∧ broker.IsUnanswered ticket := by
  constructor
  · intro waits
    have queued := serves.orderly.queued ticket waits
    refine ⟨?_, serves.held ticket queued, fun value answered => ?_⟩
    · rw [← Bool.not_eq_true]
      intro gone
      rw [serves.closed gone] at queued
      contradiction
    · rw [waits] at answered
      contradiction
  · rintro ⟨stands, held, unanswered⟩
    rcases serves.stands stands ticket held with waits | ⟨value, answered⟩
    · exact waits
    · exact absurd answered (unanswered value)

/-- A value goes to the oldest ticket that is waited for, and nothing else changes. -/
theorem provide_of_oldest (serves : broker.Serves withdrawn tickets)
    (oldest : broker.IsOldest ticket) (value : String) :
    broker.provide value = (broker.answering ticket value, true) := by
  have nodup : broker.queue.Nodup := serves.orderly.sorted.imp Nat.ne_of_lt
  have left : broker.queue.filter (ticket < ·) = broker.queue.erase ticket := by
    rw [nodup.erase_eq_filter]
    apply List.filter_congr
    intro other mem
    have above := oldest.2 other (serves.waits other mem)
    rw [Bool.eq_iff_iff]
    simp only [decide_eq_true_eq, bne_iff_ne, ne_eq]
    omega
  rw [serves.orderly.provide_of_oldest oldest, left]
  rfl

/-- A value that nobody waits for changes nothing. -/
theorem provide_of_nobody (serves : broker.Serves withdrawn tickets)
    (nobody : ∀ ticket, broker.ticket ticket ≠ .waiting) (value : String) :
    broker.provide value = (broker, false) := by
  have empty : broker.queue = [] :=
    List.eq_nil_iff_forall_not_mem.mpr fun ticket mem => nobody ticket (serves.waits ticket mem)
  rw [serves.orderly.provide_of_nobody nobody, ← empty]

/-- A value is accepted exactly if somebody waits. -/
theorem provide_iff (serves : broker.Serves withdrawn tickets) (value : String) :
    (broker.provide value).2 = true ↔ ∃ ticket, broker.ticket ticket = .waiting := by
  rw [serves.orderly.provide_iff]
  constructor
  · rintro ⟨ticket, -, waits⟩
    exact ⟨ticket, waits⟩
  · rintro ⟨ticket, waits⟩
    exact ⟨ticket, serves.orderly.queued ticket waits, waits⟩

/-- A value leaves the caller with the tickets that it held. -/
theorem provide (serves : broker.Serves withdrawn tickets) (value : String) :
    (broker.provide value).1.Serves withdrawn tickets := by
  have orderly := serves.orderly.provide value
  have stands : withdrawn = false → ∀ ticket ∈ tickets, (broker.provide value).1.IsGood ticket :=
    fun isHeld ticket mem => (serves.stands isHeld ticket mem).provide serves.orderly value
  rcases serves.orderly.provide_cases value with ⟨oldest, isOldest, provided⟩ | ⟨nobody, -⟩
  · have state (other : Nat) : (broker.provide value).1.ticket other =
        if other = oldest ∧ oldest < broker.tickets.length then .answered value
        else broker.ticket other := by
      rw [provided]
      exact broker.ticket_setTicket oldest other (.answered value)
    have queue : (broker.provide value).1.queue = broker.queue.filter (oldest < ·) := by
      rw [provided]
    refine ⟨orderly, serves.sorted, ?_, ?_, ?_, stands⟩
    · intro other mem
      rw [queue] at mem
      have above : oldest < other := by simpa using (List.mem_filter.mp mem).2
      rw [state, if_neg fun own => Nat.ne_of_gt above own.1]
      exact serves.waits other (List.mem_filter.mp mem).1
    · intro other mem
      rw [queue] at mem
      exact serves.held other (List.mem_filter.mp mem).1
    · intro gone
      rw [queue, serves.closed gone, List.filter_nil]
  · rw [serves.provide_of_nobody nobody]
    exact serves

/-! ## What the caller does -/

/-- A broker that nobody waits for serves whoever holds good tickets. -/
theorem of_queue_nil (orderly : broker.Orderly) (empty : broker.queue = [])
    (sorted : tickets.Pairwise (· < ·))
    (stands : withdrawn = false → ∀ ticket ∈ tickets, broker.IsGood ticket) :
    broker.Serves withdrawn tickets where
  orderly := orderly
  sorted := sorted
  waits := by simp [empty]
  held := by simp [empty]
  closed := fun _ => empty
  stands := stands

/-- The caller makes a request. -/
theorem request (serves : broker.Serves withdrawn tickets) (stands : withdrawn = false)
    (attended : Bool) :
    (broker.request attended).1.Serves withdrawn (tickets ++ [broker.tickets.length]) := by
  have inside : ∀ ticket ∈ tickets, ticket < broker.tickets.length := fun ticket mem => by
    apply lt_of_ticket
    rcases serves.stands stands ticket mem with waits | ⟨value, answered⟩
    · simp [waits]
    · simp [answered]
  have sorted : (tickets ++ [broker.tickets.length]).Pairwise (· < ·) := by
    refine List.pairwise_append.mpr ⟨serves.sorted, List.pairwise_singleton .., ?_⟩
    intro ticket mem last isLast
    rw [List.mem_singleton.mp isLast]
    exact inside ticket mem
  have good : withdrawn = false → ∀ ticket ∈ tickets ++ [broker.tickets.length],
      (broker.request attended).1.IsGood ticket := by
    intro _ ticket mem
    rcases List.mem_append.mp mem with old | new
    · exact (serves.stands stands ticket old).request attended
    · rw [List.mem_singleton.mp new]
      exact broker.isGood_request attended
  have gone : withdrawn ≠ true := by simp [stands]
  have others (ticket : Nat) (mem : ticket ∈ broker.queue) : ticket ≠ broker.tickets.length :=
    Nat.ne_of_lt (serves.orderly.inside ticket mem)
  cases attended with
  | true =>
      refine ⟨serves.orderly.enqueue, sorted, ?_, ?_, fun isGone => absurd isGone gone, good⟩
      · intro ticket mem
        have state := broker.ticket_enqueue ticket
        rcases List.mem_append.mp mem with old | new
        · exact (state.trans (if_neg (others ticket old))).trans (serves.waits ticket old)
        · exact state.trans (if_pos (List.mem_singleton.mp new))
      · intro ticket mem
        rcases List.mem_append.mp mem with old | new
        · exact List.mem_append_left _ (serves.held ticket old)
        · exact List.mem_append_right _ new
  | false =>
      refine ⟨serves.orderly.answerUnattended, sorted, ?_, ?_, fun isGone => absurd isGone gone,
        good⟩
      · intro ticket mem
        have state := broker.ticket_answerUnattended ticket
        exact (state.trans (if_neg (others ticket mem))).trans (serves.waits ticket mem)
      · exact fun ticket mem => List.mem_append_left _ (serves.held ticket mem)

/-- The caller passes the answer of its oldest request on. -/
theorem take (serves : broker.Serves withdrawn (ticket :: rest))
    (resolved : broker.ticket ticket ≠ .waiting) : (broker.take ticket).Serves withdrawn rest := by
  obtain ⟨below, sorted⟩ := List.pairwise_cons.mp serves.sorted
  have others (other : Nat) (different : other ≠ ticket) :
      (broker.take ticket).ticket other = broker.ticket other := by
    rw [ticket_take, if_neg fun own => different own.1]
  have notOpen (other : Nat) (mem : other ∈ broker.queue) : other ≠ ticket := by
    rintro rfl
    exact resolved (serves.waits other mem)
  refine ⟨serves.orderly.take ticket, sorted, ?_, ?_, ?_, ?_⟩
  · intro other mem
    rw [queue_take] at mem
    rw [others other (notOpen other mem)]
    exact serves.waits other mem
  · intro other mem
    rw [queue_take] at mem
    exact (List.mem_cons.mp (serves.held other mem)).resolve_left (notOpen other mem)
  · intro gone
    rw [queue_take, serves.closed gone]
  · intro stands other mem
    have good := serves.stands stands other (List.mem_cons_of_mem ticket mem)
    exact good.take (Nat.ne_of_gt (below other mem))

end Serves

end Broker

/-! ## Brokers of a desk -/

namespace Desk

/-- A broker of a desk serves the caller who holds those tickets and nobody else. -/
def Serves (desk : Desk) (number : Nat) (withdrawn : Bool) (tickets : List Nat) : Prop :=
  ∃ broker, desk.broker? number = some broker ∧ broker.Serves withdrawn tickets

variable {desk desk' : Desk} {receiver : String → Option Nat} {number asking : Nat}
  {withdrawn : Bool} {tickets : List Nat} {holding next : Holding} {sent : List String}

/-- What is made of a broker depends on nothing but the broker. -/
theorem modify_congr {broker : Broker} (found : desk.broker? number = some broker)
    {first second : Broker → Broker} (same : first broker = second broker) :
    desk.modify number first = desk.modify number second := by
  obtain ⟨⟨hook, kept⟩, at_, rfl⟩ := Option.map_eq_some_iff.mp found
  simp only [modify, Desk.mk.injEq, true_and, and_true]
  apply List.ext_getElem?
  intro other
  simp only [List.getElem?_modify]
  by_cases own : number = other
  · subst own
    simp [at_, same]
  · simp [own]

theorem provide_of_oldest {broker : Broker} (found : desk.broker? number = some broker)
    (serves : broker.Serves withdrawn tickets) {ticket : Nat} (oldest : broker.IsOldest ticket)
    (value : String) :
    desk.provide number value = (desk.modify number (·.answering ticket value), true) := by
  have same : desk.modify number (fun _ => broker.answering ticket value) =
      desk.modify number (·.answering ticket value) := modify_congr found rfl
  simp only [Desk.provide, found, serves.provide_of_oldest oldest, same]

theorem provide_of_nobody {broker : Broker} (found : desk.broker? number = some broker)
    (serves : broker.Serves withdrawn tickets)
    (nobody : ∀ ticket, broker.ticket ticket ≠ .waiting) (value : String) :
    desk.provide number value = (desk, false) := by
  have same : desk.modify number (fun _ => broker) = desk.modify number id :=
    modify_congr found rfl
  have unchanged : desk.modify number id = desk :=
    congrArg (fun brokers => { desk with brokers }) (List.modify_id number desk.brokers)
  simp only [Desk.provide, found, serves.provide_of_nobody nobody, same, unchanged]

namespace Deals

/-- Nobody adds a broker or takes one away. -/
theorem hookOf? (deals : desk.Deals receiver asking withdrawn holding desk' next sent)
    (other : Nat) : desk'.hookOf? other = desk.hookOf? other := by
  cases deals <;> simp

/-- Whoever has not begun has no ticket after a turn. -/
theorem tickets_of_before (deals : desk.Deals receiver asking withdrawn .before desk' next sent) :
    next.tickets = [] := by
  cases deals <;> rfl

end Deals

namespace Serves

theorem congr (serves : desk.Serves number withdrawn tickets)
    (same : desk'.broker? number = desk.broker? number) :
    desk'.Serves number withdrawn tickets := by
  obtain ⟨broker, found, serves⟩ := serves
  exact ⟨broker, same.trans found, serves⟩

/-- Somebody gives a value to a broker of the desk. -/
theorem provide (serves : desk.Serves number withdrawn tickets) (other : Nat) (value : String) :
    (desk.provide other value).1.Serves number withdrawn tickets := by
  obtain ⟨broker, found, serves⟩ := serves
  have now := desk.broker?_provide other number value
  by_cases own : number = other
  · rw [if_pos own, found] at now
    exact ⟨_, now, serves.provide value⟩
  · exact ⟨broker, (now.trans (if_neg own)).trans found, serves⟩

/-- The requests of the caller are withdrawn. -/
theorem withdraw (serves : desk.Serves number withdrawn tickets) :
    (desk.modify number Broker.reset).Serves number true tickets := by
  obtain ⟨broker, found, serves⟩ := serves
  refine ⟨broker.reset, broker?_modify_self found _, ?_⟩
  exact .of_queue_nil serves.orderly.reset rfl serves.sorted (by simp)

/-- Another broker is dealt with, and at most the value of a callback gets to this one. -/
theorem elsewhere (serves : desk.Serves number withdrawn tickets) {gone : Bool}
    (deals : desk.Deals receiver asking gone holding desk' next sent)
    (different : number ≠ asking) : desk'.Serves number withdrawn tickets := by
  rcases deals.elsewhere different with same | ⟨-, value, -, given⟩
  · exact serves.congr same
  · obtain ⟨broker, found, serves⟩ := serves
    rw [found] at given
    exact ⟨_, given, serves.provide value⟩

/-- Whatever the caller does in a turn, its broker goes on serving it. -/
theorem deals (serves : desk.Serves number withdrawn holding.tickets)
    (deals : desk.Deals receiver number withdrawn holding desk' next sent) :
    desk'.Serves number withdrawn next.tickets := by
  obtain ⟨broker, found, serves⟩ := serves
  have nothing {change : Broker → Broker} (orderly : (change broker).Orderly)
      (empty : (change broker).queue = []) :
      (desk.modify number change).Serves number withdrawn [] :=
    ⟨change broker, broker?_modify_self found change, .of_queue_nil orderly empty .nil (by simp)⟩
  cases deals with
  | rest => exact ⟨broker, found, serves⟩
  | refuse => exact ⟨broker, found, serves⟩
  | begin => exact nothing serves.orderly.reset rfl
  | stop kept closing => exact nothing (closing.orderly serves.orderly) (closing.queue broker)
  | ask tickets message stands =>
      have ticket := ticket_request found receiver message
      have asked : (desk.asked number).Serves number withdrawn
          (tickets ++ [(desk.request receiver number message).2]) := by
        rw [ticket]
        exact ⟨_, broker?_modify_self found _, serves.request stands _⟩
      have now := desk.broker?_request number number message receiver
      cases replied : desk.reply? receiver number with
      | none =>
          rw [replied] at now
          exact asked.congr now
      | some reply =>
          rw [replied] at now
          exact (asked.provide reply.1 reply.2).congr now
  | pass ticket rest stands answers =>
      refine ⟨_, broker?_modify_self found _, serves.take fun waits => ?_⟩
      rw [answer?_of_broker? found, waits] at answers
      contradiction

end Serves

end Desk

end Polyglot
