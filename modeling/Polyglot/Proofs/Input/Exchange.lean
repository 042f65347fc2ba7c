import Polyglot.Proofs.Input.Counter

/-!
# Requests and responses of runs

A run of code asks for input and passes answers on.  A ledger keeps, for every run that a
broker serves, the tickets of its requests and the responses that it sent, and for every
ticket the value that resolved it.  As long as one run at a time uses the broker, the
responses of each run are the values of its tickets, in order.
-/

namespace Polyglot

/-- What a caller holds of the broker that its code's requests go to. -/
inductive Holding where
  /-- Its code does not run yet. -/
  | before
  /-- Its code runs, and has not been told the answers to those tickets. -/
  | during (tickets : List Nat)
  | ended
  deriving DecidableEq

/-- The tickets that a caller holds. -/
def Holding.tickets : Holding → List Nat
  | .during tickets => tickets
  | .before | .ended => []

namespace Broker

/-- What becomes of a broker at the end of a run: its open tickets are closed, at times
twice, at times after a last ticket was taken. -/
inductive Closing : (Broker → Broker) → Prop where
  | once : Closing reset
  | twice : Closing fun broker => broker.reset.reset
  | taken (ticket : Nat) : Closing fun broker => (broker.take ticket).reset

theorem Closing.orderly {change : Broker → Broker} {broker : Broker} (closing : Closing change)
    (orderly : broker.Orderly) : (change broker).Orderly := by
  cases closing with
  | once => exact orderly.reset
  | twice => exact orderly.reset.reset
  | taken ticket => exact (orderly.take ticket).reset

theorem Closing.succeeds {change : Broker → Broker} (closing : Closing change)
    (broker : Broker) : broker.Succeeds (change broker) := by
  cases closing with
  | once => exact broker.succeeds_reset
  | twice => exact broker.succeeds_reset.trans (succeeds_reset _)
  | taken ticket => exact (broker.succeeds_take ticket).trans (succeeds_reset _)

theorem Closing.length {change : Broker → Broker} (closing : Closing change)
    (broker : Broker) : (change broker).tickets.length = broker.tickets.length := by
  cases closing with
  | once => simp
  | twice => simp
  | taken ticket => simp

/-- Nobody waits at the end of a run. -/
theorem Closing.queue {change : Broker → Broker} (closing : Closing change) (broker : Broker) :
    (change broker).queue = [] := by
  cases closing <;> rfl

/-- The tickets of a broker that are not lost on their holder: it waits, or has an answer. -/
def IsGood (broker : Broker) (ticket : Nat) : Prop :=
  broker.ticket ticket = .waiting ∨ ∃ value, broker.ticket ticket = .answered value

/-- A value that is given leaves no holder worse off. -/
theorem IsGood.provide {broker : Broker} {ticket : Nat} (good : broker.IsGood ticket)
    (orderly : broker.Orderly) (value : String) : (broker.provide value).1.IsGood ticket := by
  rcases orderly.provide_cases value with ⟨oldest, isOldest, provided⟩ | ⟨-, provided⟩
  · rw [provided]
    have now := broker.ticket_setTicket oldest ticket (.answered value)
    by_cases at_ : ticket = oldest ∧ oldest < broker.tickets.length
    · exact .inr ⟨value, now.trans (if_pos at_)⟩
    · have same := now.trans (if_neg at_)
      exact good.imp same.trans fun ⟨kept, answered⟩ => ⟨kept, same.trans answered⟩
  · rw [provided]
    exact good

theorem IsGood.request {broker : Broker} {ticket : Nat} (good : broker.IsGood ticket)
    (attended : Bool) : (broker.request attended).1.IsGood ticket := by
  have inside : ticket < broker.tickets.length := by
    apply lt_of_ticket
    rcases good with waits | ⟨value, answered⟩
    · simp [waits]
    · simp [answered]
  have same : (broker.request attended).1.ticket ticket = broker.ticket ticket := by
    cases attended with
    | true => exact (broker.ticket_enqueue ticket).trans (if_neg (Nat.ne_of_lt inside))
    | false => exact (broker.ticket_answerUnattended ticket).trans (if_neg (Nat.ne_of_lt inside))
  exact good.imp same.trans fun ⟨kept, answered⟩ => ⟨kept, same.trans answered⟩

/-- A new ticket is not lost on its holder. -/
theorem isGood_request (broker : Broker) (attended : Bool) :
    (broker.request attended).1.IsGood broker.tickets.length := by
  cases attended with
  | true => exact .inl ((broker.ticket_enqueue _).trans (if_pos rfl))
  | false => exact .inr ⟨"", (broker.ticket_answerUnattended _).trans (if_pos rfl)⟩

theorem IsGood.take {broker : Broker} {ticket other : Nat} (good : broker.IsGood other)
    (different : other ≠ ticket) : (broker.take ticket).IsGood other := by
  have same : (broker.take ticket).ticket other = broker.ticket other := by
    rw [ticket_take, if_neg fun both => different both.1]
  exact good.imp same.trans fun ⟨kept, answered⟩ => ⟨kept, same.trans answered⟩

/-- A ticket that gets a value is new, or waited. -/
theorem Succeeds.pending_of_resolution? {before after : Broker}
    (succeeds : before.Succeeds after) {ticket : Nat} {value : String}
    (resolved : before.resolution? after ticket = some value) :
    before.tickets.length ≤ ticket ∨ before.ticket ticket = .waiting := by
  by_cases old : ticket < before.tickets.length
  · right
    by_cases waits : before.ticket ticket = .waiting
    · exact waits
    · rw [succeeds.resolution? old waits] at resolved
      contradiction
  · exact .inl (Nat.le_of_not_lt old)

/-- A ticket that is still to come or waits was so before. -/
theorem Succeeds.pending_of_pending {before after : Broker} (succeeds : before.Succeeds after)
    {ticket : Nat} (pending : after.tickets.length ≤ ticket ∨ after.ticket ticket = .waiting) :
    before.tickets.length ≤ ticket ∨ before.ticket ticket = .waiting := by
  rcases pending with beyond | waits
  · exact .inl (Nat.le_trans succeeds.length_le beyond)
  · by_cases old : ticket < before.tickets.length
    · right
      by_cases waited : before.ticket ticket = .waiting
      · exact waited
      · rcases succeeds.settled ticket old waited with same | closed | gone
        · exact absurd (same.symm.trans waits) waited
        · rw [closed] at waits
          contradiction
        · rw [gone] at waits
          contradiction
    · exact .inl (Nat.le_of_not_lt old)

/-- A ticket that is still to come or waits got no value. -/
theorem resolution?_of_pending {before after : Broker} {ticket : Nat}
    (pending : after.tickets.length ≤ ticket ∨ after.ticket ticket = .waiting) :
    before.resolution? after ticket = none := by
  cases resolved : before.resolution? after ticket with
  | none => rfl
  | some value =>
      have answered := answered_of_resolution? resolved
      rcases pending with beyond | waits
      · rw [ticket_of_length_le beyond] at answered
        contradiction
      · rw [waits] at answered
        contradiction

/-- No ticket gets a value where none comes. -/
theorem resolution?_eq_none {before after : Broker}
    (fades : ∀ ticket value, after.ticket ticket = .answered value →
      before.ticket ticket = .answered value) (ticket : Nat) :
    before.resolution? after ticket = none := by
  cases resolved : before.resolution? after ticket with
  | none => rfl
  | some value =>
      obtain ⟨answered, fresh⟩ := resolution?_eq_some.mp resolved
      exact absurd (fades ticket value answered) fresh

theorem fades_reset (broker : Broker) (ticket : Nat) (value : String)
    (answered : broker.reset.ticket ticket = .answered value) :
    broker.ticket ticket = .answered value := by
  rw [ticket_reset] at answered
  split at answered
  · contradiction
  · exact answered

theorem fades_take (broker : Broker) (taken ticket : Nat) (value : String)
    (answered : (broker.take taken).ticket ticket = .answered value) :
    broker.ticket ticket = .answered value := by
  rw [ticket_take] at answered
  split at answered
  · contradiction
  · exact answered

theorem Closing.fades {change : Broker → Broker} (closing : Closing change) (broker : Broker)
    (ticket : Nat) (value : String) (answered : (change broker).ticket ticket = .answered value) :
    broker.ticket ticket = .answered value := by
  cases closing with
  | once => exact fades_reset broker ticket value answered
  | twice => exact fades_reset broker ticket value (fades_reset _ ticket value answered)
  | taken passed => exact fades_take broker passed ticket value (fades_reset _ ticket value answered)

/-- A value that is given comes to a ticket only if it is accepted. -/
theorem Orderly.resolution?_provide {broker : Broker} (orderly : broker.Orderly)
    {given value : String} {ticket : Nat}
    (resolved : broker.resolution? (broker.provide given).1 ticket = some value) :
    value = given ∧ (broker.provide given).2 = true := by
  have answered := answered_of_resolution? resolved
  rcases orderly.provide_cases given with ⟨oldest, -, provided⟩ | ⟨-, provided⟩
  · rw [provided] at answered
    have now := broker.ticket_setTicket oldest ticket (.answered given)
    by_cases at_ : ticket = oldest ∧ oldest < broker.tickets.length
    · have same := answered.symm.trans (now.trans (if_pos at_))
      exact ⟨Ticket.answered.inj same, by rw [provided]⟩
    · have same := (now.trans (if_neg at_)).symm.trans answered
      exact absurd same (resolution?_eq_some.mp resolved).2
  · rw [provided] at answered
    exact absurd answered (resolution?_eq_some.mp resolved).2

theorem Orderly.length_provide {broker : Broker} (orderly : broker.Orderly) (value : String) :
    (broker.provide value).1.tickets.length = broker.tickets.length := by
  rcases orderly.provide_cases value with ⟨oldest, -, provided⟩ | ⟨-, provided⟩
  · simp [provided]
  · rw [provided]

theorem length_request (broker : Broker) (attended : Bool) :
    (broker.request attended).1.tickets.length = broker.tickets.length + 1 := by
  cases attended <;> simp [request]

/-- A request resolves a ticket by itself only if there is nobody to be told of it. -/
theorem unattended_of_resolution? {broker : Broker} {attended : Bool} {ticket : Nat}
    {value : String}
    (resolved : broker.resolution? (broker.request attended).1 ticket = some value) :
    attended = false ∧ value = "" := by
  obtain ⟨answered, fresh⟩ := resolution?_eq_some.mp resolved
  cases attended with
  | false =>
      have now := (broker.ticket_answerUnattended ticket).symm.trans answered
      split at now
      · exact ⟨rfl, (Ticket.answered.inj now).symm⟩
      · exact absurd now fresh
  | true =>
      have now := (broker.ticket_enqueue ticket).symm.trans answered
      split at now
      · contradiction
      · exact absurd now fresh

/-- What becomes of a broker by a request, while values come in those ways. -/
structure Registers (before after : Broker) (given : List String) : Prop where
  orderly : after.Orderly
  succeeds : before.Succeeds after
  length : after.tickets.length = before.tickets.length + 1
  lawful : ∀ ticket value, before.resolution? after ticket = some value → value ∈ given
  good : ∀ ticket, before.IsGood ticket → after.IsGood ticket
  new : after.IsGood before.tickets.length

theorem Orderly.registers {broker : Broker} (orderly : broker.Orderly) {attended : Bool}
    {given : List String} (unattended : attended = false → "" ∈ given) :
    broker.Registers (broker.request attended).1 given where
  orderly := orderly.request attended
  succeeds := broker.succeeds_request attended
  length := broker.length_request attended
  lawful ticket value resolved := by
    obtain ⟨nobody, rfl⟩ := unattended_of_resolution? resolved
    exact unattended nobody
  good ticket good := good.request attended
  new := broker.isGood_request attended

/-- A value that is given at once to a request that was just made. -/
theorem Registers.provide {before after : Broker} {given : List String} {value : String}
    (registers : before.Registers after given) (may : value ∈ given) :
    before.Registers (after.provide value).1 given where
  orderly := registers.orderly.provide value
  succeeds := registers.succeeds.trans (registers.orderly.succeeds_provide value)
  length := (registers.orderly.length_provide value).trans registers.length
  lawful ticket got resolved := by
    obtain ⟨answered, fresh⟩ := resolution?_eq_some.mp resolved
    by_cases was : after.ticket ticket = .answered got
    · exact registers.lawful ticket got (resolution?_eq_some.mpr ⟨was, fresh⟩)
    · obtain ⟨rfl, -⟩ :=
        registers.orderly.resolution?_provide (resolution?_eq_some.mpr ⟨answered, was⟩)
      exact may
  good ticket good := (registers.good ticket good).provide registers.orderly value
  new := registers.new.provide registers.orderly value

end Broker

/-- The values that tickets of a broker can get while a request is made of one: what the
callback gives to the broker, or nothing if there is no callback to be told of a request of
the broker itself. -/
def Desk.ways (desk : Desk) (receiver : String → Option Nat) (asking number : Nat) :
    List String :=
  match desk.callbackOf? asking with
  | none => if asking = number then [""] else []
  | some callback =>
    if receiver callback.target = some number then callback.answers.head?.toList else []

/-- What a caller does with a broker in a turn, and the responses that it sends.  Once its
executor was destroyed it neither asks nor passes answers on. -/
inductive Desk.Deals (receiver : String → Option Nat) (number : Nat) (desk : Desk)
    (withdrawn : Bool) : Holding → Desk → Holding → List String → Prop where
  | rest (holding : Holding) : Deals receiver number desk withdrawn holding desk holding []
  | refuse : Deals receiver number desk withdrawn .before desk .ended []
  | begin : Deals receiver number desk withdrawn .before (desk.modify number Broker.reset)
      (.during []) []
  | stop (holding : Holding) {change : Broker → Broker} (closing : Broker.Closing change) :
      Deals receiver number desk withdrawn holding (desk.modify number change) .ended []
  | ask (tickets : List Nat) (message : String) (stands : withdrawn = false) :
      Deals receiver number desk withdrawn (.during tickets)
        (desk.request receiver number message).1
        (.during (tickets ++ [(desk.request receiver number message).2])) []
  | pass (ticket : Nat) (rest : List Nat) {value : String} (stands : withdrawn = false)
      (answers : desk.answer? number ticket = some value) :
      Deals receiver number desk withdrawn (.during (ticket :: rest))
        (desk.modify number (·.take ticket)) (.during rest) [value]

/-- A turn with one broker gets to another at most the value of the callback. -/
theorem Desk.Deals.elsewhere {receiver : String → Option Nat} {asking number : Nat}
    {desk desk' : Desk} {withdrawn : Bool} {holding next : Holding} {sent : List String}
    (deals : desk.Deals receiver asking withdrawn holding desk' next sent)
    (different : number ≠ asking) :
    desk'.broker? number = desk.broker? number ∨
      holding ≠ .before ∧ ∃ value ∈ desk.ways receiver asking number,
        desk'.broker? number = (desk.broker? number).map fun broker => (broker.provide value).1 := by
  cases deals with
  | rest => exact .inl rfl
  | refuse => exact .inl rfl
  | begin => exact .inl (desk.broker?_modify_of_ne different _)
  | stop kept closing => exact .inl (desk.broker?_modify_of_ne different _)
  | pass ticket rest stands answers => exact .inl (desk.broker?_modify_of_ne different _)
  | ask tickets message stands =>
      have asked : (desk.asked asking).broker? number = desk.broker? number :=
        desk.broker?_modify_of_ne different _
      rw [broker?_request]
      cases replied : desk.reply? receiver asking with
      | none => exact .inl asked
      | some reply =>
          obtain ⟨target, value⟩ := reply
          rw [Option.elim_some, broker?_provide, asked]
          by_cases own : number = target
          · simp only [reply?, Option.bind_eq_bind, Option.bind_eq_some_iff] at replied
            obtain ⟨callback, told, _, isTarget, _, isFirst, made⟩ := replied
            cases made
            refine .inr ⟨by simp, value, ?_, by rw [if_pos own]⟩
            simp [ways, told, isTarget, isFirst, own]
          · exact .inl (if_neg own)

/-- What one of several sends is all that is sent if the others send nothing. -/
theorem flatMap_range_eq {α : Type} {sends : Nat → List α} {number length : Nat}
    (inside : number < length) (others : ∀ other, other ≠ number → sends other = []) :
    (List.range length).flatMap sends = sends number := by
  induction length with
  | zero => exact absurd inside (Nat.not_lt_zero number)
  | succ length ih =>
      rw [List.range_succ, List.flatMap_append, List.flatMap_singleton]
      by_cases last : number = length
      · have before : (List.range length).flatMap sends = [] := by
          simp only [List.flatMap_eq_nil_iff, List.mem_range]
          intro other below
          exact others other (by omega)
        rw [before, List.nil_append, last]
      · rw [ih (by omega), others length (fun same => last same.symm), List.append_nil]

/-! ## Ledgers -/

/-- What one run asked and passed on. -/
structure Exchange where
  /-- The tickets of its requests, in order. -/
  asked : List Nat := []
  /-- The responses that it sent, in order. -/
  sent : List String := []

/-- What the runs that a broker served asked and passed on. -/
structure Ledger (Caller : Type) where
  /-- The value that resolved each ticket: one that was accepted, or nothing if nobody was
  told of the request. -/
  resolved : Nat → Option String := fun _ => none
  exchanges : Caller → Exchange := fun _ => {}
  /-- The responses that were sent on no run's account. -/
  strays : List String := []

namespace Ledger

variable {Caller : Type}

/-- The ledger after a step in which values could be had in those ways, and in which a
caller, if any, sent those responses. -/
def note [DecidableEq Caller] (ledger : Ledger Caller) (before after : Broker)
    (given : List String) (author : Option Caller) (sent : List String) : Ledger Caller where
  resolved ticket :=
    (ledger.resolved ticket).or ((before.resolution? after ticket).filter (· ∈ given))
  exchanges run :=
    let exchange := ledger.exchanges run
    if author = some run then
      { asked := exchange.asked ++ List.range' before.tickets.length
          (after.tickets.length - before.tickets.length)
        sent := exchange.sent ++ sent }
    else exchange
  strays := if author.isNone then ledger.strays ++ sent else ledger.strays

/-- The responses of every run are the values of its requests, in order, and no two runs
share a request. -/
structure InOrder (ledger : Ledger Caller) : Prop where
  isPrefix : ∀ run, (ledger.exchanges run).sent.map some <+:
    (ledger.exchanges run).asked.map ledger.resolved
  nodup : ∀ run, (ledger.exchanges run).asked.Nodup
  apart : ∀ first second ticket, ticket ∈ (ledger.exchanges first).asked →
    ticket ∈ (ledger.exchanges second).asked → first = second
  strays : ledger.strays = []

/-- How an exchange agrees with what its caller holds. -/
structure Fits (resolved : Nat → Option String) (holding : Holding) (exchange : Exchange) :
    Prop where
  unbegun : holding = .before → exchange = {}
  /-- The responses are the values of the first requests, and the tickets of the others are
  the ones that the caller holds. -/
  split : ∃ passed left, exchange.asked = passed ++ left ∧
    exchange.sent.map some = passed.map resolved ∧
    ∀ tickets, holding = .during tickets → left = tickets

/-- What holds of the ledger of a broker that serves one run at a time. -/
structure Sound (ledger : Ledger Caller) (broker : Broker) (withdrawn : Bool)
    (holding : Caller → Holding) : Prop where
  orderly : broker.Orderly
  answered : ∀ ticket value, broker.ticket ticket = .answered value →
    ledger.resolved ticket = some value
  unresolved : ∀ ticket, broker.tickets.length ≤ ticket ∨ broker.ticket ticket = .waiting →
    ledger.resolved ticket = none
  fits : ∀ run, Fits ledger.resolved (holding run) (ledger.exchanges run)
  inside : ∀ run, ∀ ticket ∈ (ledger.exchanges run).asked, ticket < broker.tickets.length
  sorted : ∀ run, (ledger.exchanges run).asked.Pairwise (· < ·)
  apart : ∀ first second ticket, ticket ∈ (ledger.exchanges first).asked →
    ticket ∈ (ledger.exchanges second).asked → first = second
  strays : ledger.strays = []
  /-- Nothing but destruction closes a ticket that a caller holds. -/
  stands : withdrawn = false → ∀ run tickets, holding run = .during tickets →
    ∀ ticket ∈ tickets, broker.IsGood ticket

variable {ledger : Ledger Caller} {broker after : Broker} {withdrawn : Bool}
  {holding : Caller → Holding}

theorem sound_fresh (language : String) (withdrawn : Bool) :
    Sound {} { language } withdrawn fun _ : Caller => .before where
  orderly := .fresh language
  answered ticket value answered := by simp [Broker.ticket] at answered
  unresolved _ _ := rfl
  fits _ := ⟨fun _ => rfl, [], [], rfl, rfl, nofun⟩
  inside _ := nofun
  sorted _ := .nil
  apart _ _ _ mem := by simp at mem
  strays := rfl
  stands _ _ _ isDuring := by contradiction

theorem Sound.inOrder (sound : ledger.Sound broker withdrawn holding) : ledger.InOrder where
  isPrefix run := by
    obtain ⟨passed, left, asked, sent, -⟩ := (sound.fits run).split
    exact ⟨left.map ledger.resolved, by rw [asked, sent, List.map_append]⟩
  nodup run := (sound.sorted run).imp Nat.ne_of_lt
  apart := sound.apart
  strays := sound.strays

/-- The tickets that a caller holds are ones that it asked. -/
theorem Sound.mem_asked (sound : ledger.Sound broker withdrawn holding) {run : Caller}
    {tickets : List Nat} (isDuring : holding run = .during tickets) {ticket : Nat}
    (mem : ticket ∈ tickets) : ticket ∈ (ledger.exchanges run).asked := by
  obtain ⟨passed, left, asked, -, holds⟩ := (sound.fits run).split
  rw [asked, holds tickets isDuring]
  exact List.mem_append_right _ mem

/-- What a caller can read of the answer to a ticket that it holds is the value of it. -/
theorem Sound.answered_of_answer? (sound : ledger.Sound broker withdrawn holding)
    {desk : Desk} {number : Nat} (found : desk.broker? number = some broker)
    (isUp : withdrawn = false) {run : Caller} {tickets : List Nat} (isDuring : holding run = .during tickets) {ticket : Nat}
    (mem : ticket ∈ tickets) {value : String}
    (answers : desk.answer? number ticket = some value) :
    broker.ticket ticket = .answered value := by
  rw [Desk.answer?_of_broker? found] at answers
  rcases sound.stands isUp run tickets isDuring ticket mem with waits | ⟨came, answered⟩
  · simp [waits] at answers
  · rw [answered] at answers ⊢
    rw [Option.some.inj answers]

/-- What others hold is as good after a change of the broker that does nothing, or while
nobody else's code runs. -/
theorem Sound.others_modify (sound : ledger.Sound broker withdrawn holding)
    {desk : Desk} {number : Nat} {author : Caller} (found : desk.broker? number = some broker)
    {change : Broker → Broker}
    (alone : desk.modify number change = desk ∨
      ∀ run tickets, holding run = .during tickets → run = author)
    (isUp : withdrawn = false) (run : Caller) (tickets : List Nat) (different : run ≠ author)
    (isDuring : holding run = .during tickets) :
    ∀ ticket ∈ tickets, (change broker).IsGood ticket := by
  rcases alone with same | alone
  · have still := (Desk.broker?_modify_self found change).symm.trans
      ((congrArg (Desk.broker? · number) same).trans found)
    rw [Option.some.inj still]
    exact sound.stands isUp run tickets isDuring
  · exact absurd (alone run tickets isDuring) different

/-- Values that are known stay the values of their tickets. -/
theorem map_resolved {resolved resolved' : Nat → Option String} {sent : List String}
    {passed : List Nat} (known : sent.map some = passed.map resolved)
    (more : ∀ ticket value, resolved ticket = some value → resolved' ticket = some value) :
    sent.map some = passed.map resolved' := by
  rw [known]
  apply List.map_congr_left
  intro ticket mem
  have isKnown : resolved ticket ∈ sent.map some := known ▸ List.mem_map_of_mem mem
  obtain ⟨value, -, isValue⟩ := List.mem_map.mp isKnown
  rw [← isValue, more ticket value isValue.symm]

/-- An exchange agrees with a ledger that knows more. -/
theorem Fits.mono {resolved resolved' : Nat → Option String} {kept : Holding}
    {exchange : Exchange} (fits : Fits resolved kept exchange)
    (more : ∀ ticket value, resolved ticket = some value → resolved' ticket = some value) :
    Fits resolved' kept exchange := by
  obtain ⟨unbegun, passed, left, asked, sent, holds⟩ := fits
  exact ⟨unbegun, passed, left, asked, map_resolved sent more, holds⟩

variable [DecidableEq Caller]

/-- What is known of a ticket stays known. -/
theorem resolved_note (given : List String) (author : Option Caller) (sent : List String)
    {ticket : Nat} {value : String} (known : ledger.resolved ticket = some value) :
    (ledger.note broker after given author sent).resolved ticket = some value := by
  simp [note, known]

theorem exchanges_note_of_ne (given : List String) {author : Option Caller} (sent : List String)
    {run : Caller} (different : author ≠ some run) :
    (ledger.note broker after given author sent).exchanges run = ledger.exchanges run := by
  simp [note, different]

/-- A request of a run after a step was one of it before, or is a new one of its author. -/
theorem mem_asked_note {given : List String} {author : Option Caller} {sent : List String}
    {run : Caller} {ticket : Nat} (succeeds : broker.Succeeds after)
    (mem : ticket ∈ ((ledger.note broker after given author sent).exchanges run).asked) :
    ticket ∈ (ledger.exchanges run).asked ∨
      author = some run ∧ broker.tickets.length ≤ ticket ∧ ticket < after.tickets.length := by
  by_cases same : author = some run
  · simp only [note, if_pos same, List.mem_append, List.mem_range'_1] at mem
    have grows := succeeds.length_le
    exact mem.imp id fun ⟨old, new⟩ => ⟨same, old, by omega⟩
  · rw [exchanges_note_of_ne given sent same] at mem
    exact .inl mem

/-- A ticket that gets a value in a way it may has that value. -/
theorem Sound.resolved_note_of_resolution? (sound : ledger.Sound broker withdrawn holding)
    (succeeds : broker.Succeeds after) {given : List String} (author : Option Caller)
    (sent : List String) {ticket : Nat} {value : String}
    (resolved : broker.resolution? after ticket = some value) (lawful : value ∈ given) :
    (ledger.note broker after given author sent).resolved ticket = some value := by
  have unknown := sound.unresolved ticket (succeeds.pending_of_resolution? resolved)
  simp [Ledger.note, unknown, resolved, lawful]

/-- A step in which tickets get values only in the ways they may, and the caller keeps its
exchange right, keeps the ledger sound. -/
theorem Sound.note (sound : ledger.Sound broker withdrawn holding) (orderly : after.Orderly)
    (succeeds : broker.Succeeds after) {given : List String}
    (lawful : ∀ ticket value, broker.resolution? after ticket = some value → value ∈ given)
    {author : Option Caller} {sent : List String} {now : Bool} {holding' : Caller → Holding}
    (others : ∀ run, author ≠ some run → holding' run = holding run)
    (fits : ∀ run, author = some run →
      Fits (ledger.note broker after given author sent).resolved (holding' run)
        ((ledger.note broker after given author sent).exchanges run))
    (silent : author = none → sent = [])
    (stands : now = false → ∀ run tickets, holding' run = .during tickets →
      ∀ ticket ∈ tickets, after.IsGood ticket) :
    (ledger.note broker after given author sent).Sound after now holding' where
  orderly := orderly
  answered ticket value answered := by
    by_cases was : broker.ticket ticket = .answered value
    · exact resolved_note given author sent (sound.answered ticket value was)
    · have resolved := Broker.resolution?_eq_some.mpr ⟨answered, was⟩
      exact sound.resolved_note_of_resolution? succeeds author sent resolved
        (lawful ticket value resolved)
  unresolved ticket pending := by
    have unknown := sound.unresolved ticket (succeeds.pending_of_pending pending)
    have nothing : broker.resolution? after ticket = none := Broker.resolution?_of_pending pending
    simp [Ledger.note, unknown, nothing]
  fits run := by
    by_cases same : author = some run
    · exact fits run same
    · rw [others run same, exchanges_note_of_ne given sent same]
      exact (sound.fits run).mono fun ticket value => resolved_note given author sent
  inside run ticket mem := by
    rcases mem_asked_note succeeds mem with old | ⟨-, -, new⟩
    · exact Nat.lt_of_lt_of_le (sound.inside run ticket old) succeeds.length_le
    · exact new
  sorted run := by
    by_cases same : author = some run
    · simp only [Ledger.note, if_pos same]
      refine List.pairwise_append.mpr ⟨sound.sorted run, List.pairwise_lt_range', ?_⟩
      intro old isOld new isNew
      exact Nat.lt_of_lt_of_le (sound.inside run old isOld) (List.mem_range'_1.mp isNew).1
    · rw [exchanges_note_of_ne given sent same]
      exact sound.sorted run
  -- A new ticket lies beyond all that were asked before, and only the author has new ones.
  apart first second ticket inFirst inSecond := by
    rcases mem_asked_note succeeds inFirst with old | ⟨isFirst, new, -⟩
    · rcases mem_asked_note succeeds inSecond with alsoOld | ⟨-, new, -⟩
      · exact sound.apart first second ticket old alsoOld
      · exact absurd (sound.inside first ticket old) (Nat.not_lt_of_le new)
    · rcases mem_asked_note succeeds inSecond with old | ⟨isSecond, -, -⟩
      · exact absurd (sound.inside second ticket old) (Nat.not_lt_of_le new)
      · exact Option.some.inj (isFirst.symm.trans isSecond)
  strays := by
    cases author with
    | none => simp [Ledger.note, sound.strays, silent rfl]
    | some run => simp [Ledger.note, sound.strays]
  stands := stands

/-! ## What is done with a broker -/

section Steps

variable {desk : Desk} {number : Nat} {receiver : String → Option Nat} {author : Caller}

/-- What becomes of the holdings when one caller's changes. -/
def update (holding : Caller → Holding) (author : Caller) (next : Holding) (run : Caller) :
    Holding :=
  if run = author then next else holding run

theorem update_self (holding : Caller → Holding) (author : Caller) (next : Holding) :
    update holding author next author = next := if_pos rfl

theorem update_same (holding : Caller → Holding) (author : Caller) :
    update holding author (holding author) = holding := by
  funext run
  by_cases same : run = author
  · rw [same, update_self]
  · exact if_neg same

/-- A value is given to the broker by somebody who does not run code on it. -/
theorem Sound.provide (sound : ledger.Sound broker withdrawn holding) {value : String}
    {given : List String} (lawful : (broker.provide value).2 = true → value ∈ given) :
    (ledger.note broker (broker.provide value).1 given none []).Sound (broker.provide value).1
      withdrawn holding := by
  refine sound.note (sound.orderly.provide value) (sound.orderly.succeeds_provide value) ?_
    (fun _ _ => rfl) nofun (fun _ => rfl) ?_
  · intro ticket got resolved
    obtain ⟨rfl, accepted⟩ := sound.orderly.resolution?_provide resolved
    exact lawful accepted
  · intro stands run tickets isDuring ticket mem
    exact (sound.stands stands run tickets isDuring ticket mem).provide sound.orderly value

/-- A step that does nothing to the broker. -/
theorem Sound.aside (sound : ledger.Sound broker withdrawn holding) (given : List String)
    (author : Option Caller) :
    (ledger.note broker broker given author []).Sound broker withdrawn holding := by
  refine sound.note sound.orderly (.refl broker) ?_ (fun _ _ => rfl) ?_ (fun _ => rfl)
    sound.stands
  · intro ticket value resolved
    rw [Broker.resolution?_eq_none (fun _ _ answered => answered)] at resolved
    contradiction
  · intro run same
    have alike : (ledger.note broker broker given author []).exchanges run =
        ledger.exchanges run := by
      simp [Ledger.note]
    rw [alike]
    exact (sound.fits run).mono fun ticket value => resolved_note given author []

/-- The executor of the broker is destroyed. -/
theorem Sound.withdraw (sound : ledger.Sound broker withdrawn holding) (given : List String) :
    (ledger.note broker broker.reset given none []).Sound broker.reset true holding := by
  refine sound.note sound.orderly.reset broker.succeeds_reset ?_ (fun _ _ => rfl) nofun
    (fun _ => rfl) nofun
  intro ticket value resolved
  rw [Broker.resolution?_eq_none broker.fades_reset] at resolved
  contradiction

theorem orderly_foldl_abandon (orderly : broker.Orderly) (tickets : List Nat) :
    (tickets.foldl Broker.abandon broker).Orderly ∧
      broker.Succeeds (tickets.foldl Broker.abandon broker) ∧
      (tickets.foldl Broker.abandon broker).tickets.length = broker.tickets.length ∧
      ∀ ticket, (tickets.foldl Broker.abandon broker).ticket ticket = broker.ticket ticket ∨
        ticket ∈ tickets ∧ (tickets.foldl Broker.abandon broker).ticket ticket = .abandoned := by
  induction tickets generalizing broker with
  | nil => exact ⟨orderly, .refl broker, rfl, fun _ => .inl rfl⟩
  | cons first rest ih =>
      obtain ⟨kept, succeeds, length, stands⟩ := ih (orderly.abandon first)
      refine ⟨kept, (broker.succeeds_abandon first).trans succeeds,
        length.trans (broker.length_abandon first), fun ticket => ?_⟩
      rcases stands ticket with same | ⟨mem, gone⟩
      · rw [Broker.ticket_abandon] at same
        split at same
        · rename_i at_
          exact .inr ⟨by rw [at_.1]; exact List.mem_cons_self, same⟩
        · exact .inl same
      · exact .inr ⟨List.mem_cons_of_mem _ mem, gone⟩

/-- A caller that asks nothing adds to its exchange what it sends. -/
theorem exchanges_note (given : List String) (sent : List String)
    (same : after.tickets.length = broker.tickets.length) :
    (ledger.note broker after given (some author) sent).exchanges author =
      { asked := (ledger.exchanges author).asked
        sent := (ledger.exchanges author).sent ++ sent } := by
  simp [note, same]

/-- A caller's code does not run any more. -/
theorem Fits.ended {resolved : Nat → Option String} {kept : Holding} {exchange : Exchange}
    (fits : Fits resolved kept exchange) : Fits resolved .ended exchange := by
  obtain ⟨passed, left, asked, sent, -⟩ := fits.split
  exact ⟨nofun, passed, left, asked, sent, nofun⟩

/-- What the others hold stays as good as what they held, and so is what the author holds. -/
theorem stands_update {next : Holding}
    (others : ∀ run tickets, run ≠ author → holding run = .during tickets →
      ∀ ticket ∈ tickets, after.IsGood ticket)
    (own : ∀ tickets, next = .during tickets → ∀ ticket ∈ tickets, after.IsGood ticket)
    (run : Caller) (tickets : List Nat)
    (isDuring : update holding author next run = .during tickets) :
    ∀ ticket ∈ tickets, after.IsGood ticket := by
  by_cases same : run = author
  · rw [same, update_self] at isDuring
    exact own tickets isDuring
  · rw [update, if_neg same] at isDuring
    exact others run tickets same isDuring

/-- A caller does something with the broker, but asks nothing. -/
theorem Sound.act (sound : ledger.Sound broker withdrawn holding) (orderly : after.Orderly)
    (succeeds : broker.Succeeds after) (length : after.tickets.length = broker.tickets.length)
    (fades : ∀ ticket value, after.ticket ticket = .answered value →
      broker.ticket ticket = .answered value)
    {given sent : List String} {next : Holding}
    (fits : Fits ledger.resolved next
      { asked := (ledger.exchanges author).asked, sent := (ledger.exchanges author).sent ++ sent })
    (others : withdrawn = false → ∀ run tickets, run ≠ author → holding run = .during tickets →
      ∀ ticket ∈ tickets, after.IsGood ticket)
    (own : withdrawn = false → ∀ tickets, next = .during tickets →
      ∀ ticket ∈ tickets, after.IsGood ticket) :
    (ledger.note broker after given (some author) sent).Sound after withdrawn
      (update holding author next) := by
  refine sound.note orderly succeeds ?_ ?_ ?_ nofun
    fun isUp => stands_update (others isUp) (own isUp)
  · intro ticket value resolved
    rw [Broker.resolution?_eq_none fades] at resolved
    contradiction
  · intro run different
    exact if_neg fun same => different (congrArg some same.symm)
  · intro run same
    cases same
    rw [update_self, exchanges_note given sent length]
    exact fits.mono fun ticket value => resolved_note given (some author) sent

/-- A caller's code is over. -/
theorem Sound.stop (sound : ledger.Sound broker withdrawn holding) (orderly : after.Orderly)
    (succeeds : broker.Succeeds after) (length : after.tickets.length = broker.tickets.length)
    (fades : ∀ ticket value, after.ticket ticket = .answered value →
      broker.ticket ticket = .answered value) {given : List String}
    (others : withdrawn = false → ∀ run tickets, run ≠ author → holding run = .during tickets →
      ∀ ticket ∈ tickets, after.IsGood ticket) :
    (ledger.note broker after given (some author) []).Sound after withdrawn
      (update holding author .ended) :=
  sound.act orderly succeeds length fades (by simpa using (sound.fits author).ended) others nofun

/-- A caller goes away, and its tickets are given up. -/
theorem Sound.quit (sound : ledger.Sound broker withdrawn holding) (author : Caller)
    (given : List String) :
    (ledger.note broker ((holding author).tickets.foldl Broker.abandon broker) given
        (some author) []).Sound
      ((holding author).tickets.foldl Broker.abandon broker) withdrawn
      (update holding author .ended) := by
  obtain ⟨orderly, succeeds, length, stands⟩ :=
    orderly_foldl_abandon sound.orderly (holding author).tickets
  refine sound.stop orderly succeeds length ?_ ?_
  · intro ticket value answered
    rcases stands ticket with same | ⟨-, gone⟩
    · rw [← same, answered]
    · rw [gone] at answered
      contradiction
  · intro isUp run tickets different isDuring ticket mem
    have good := sound.stands isUp run tickets isDuring ticket mem
    rcases stands ticket with same | ⟨given, -⟩
    · exact good.imp same.trans fun ⟨value, answered⟩ => ⟨value, same.trans answered⟩
    · cases holds : holding author with
      | before => simp [holds, Holding.tickets] at given
      | ended => simp [holds, Holding.tickets] at given
      | during held =>
          rw [holds] at given
          exact absurd (sound.apart run author ticket (sound.mem_asked isDuring mem)
            (sound.mem_asked holds given)) different

/-- A request is made, and what comes of it at once is a value of the callback or, if there
is none, nothing. -/
theorem registers_request (orderly : broker.Orderly)
    (found : desk.broker? number = some broker) (receiver : String → Option Nat)
    (message : String) :
    ∃ after, (desk.request receiver number message).1.broker? number = some after ∧
      broker.Registers after (desk.ways receiver number number) := by
  have asked : (desk.asked number).broker? number =
      some (broker.request (desk.callbackOf? number).isSome).1 :=
    Desk.broker?_modify_self found _
  have registers : broker.Registers (broker.request (desk.callbackOf? number).isSome).1
      (desk.ways receiver number number) := by
    apply orderly.registers
    intro nobody
    rw [Option.isSome_eq_false_iff, Option.isNone_iff_eq_none] at nobody
    simp [Desk.ways, nobody]
  have reached := Desk.broker?_request desk number number message receiver
  cases replied : desk.reply? receiver number with
  | none =>
      rw [replied, Option.elim_none, asked] at reached
      exact ⟨_, reached, registers⟩
  | some reply =>
      obtain ⟨target, value⟩ := reply
      rw [replied, Option.elim_some, Desk.broker?_provide, asked, Option.map_some] at reached
      by_cases own : number = target
      · subst own
        rw [if_pos rfl] at reached
        simp only [Desk.reply?, Option.bind_eq_bind, Option.bind_eq_some_iff] at replied
        obtain ⟨callback, told, _, isTarget, _, isFirst, made⟩ := replied
        cases made
        exact ⟨_, reached, registers.provide (by simp [Desk.ways, told, isTarget, isFirst])⟩
      · rw [if_neg own] at reached
        exact ⟨_, reached, registers⟩

/-! ## Turns -/

/-- A caller's code begins. -/
theorem Sound.begin (sound : ledger.Sound broker withdrawn holding)
    (unbegun : holding author = .before)
    (others : withdrawn = false → ∀ run tickets, run ≠ author → holding run = .during tickets →
      ∀ ticket ∈ tickets, broker.reset.IsGood ticket) {given : List String} :
    (ledger.note broker broker.reset given (some author) []).Sound broker.reset withdrawn
      (update holding author (.during [])) := by
  have nothing : ledger.exchanges author = {} := (sound.fits author).unbegun unbegun
  refine sound.act sound.orderly.reset broker.succeeds_reset (by simp) broker.fades_reset
    ⟨nofun, [], [], by simp [nothing], by simp [nothing], ?_⟩ others ?_
  · intro tickets isDuring
    exact Holding.during.inj isDuring
  · intro isUp tickets isDuring ticket mem
    cases isDuring
    contradiction

/-- A caller's code asks for input. -/
theorem Sound.ask (sound : ledger.Sound broker withdrawn holding) {tickets : List Nat}
    (isDuring : holding author = .during tickets) {given : List String}
    (registers : broker.Registers after given) :
    (ledger.note broker after given (some author) []).Sound after withdrawn
      (update holding author (.during (tickets ++ [broker.tickets.length]))) := by
  refine sound.note registers.orderly registers.succeeds registers.lawful ?_ ?_ nofun
    fun isUp => stands_update ?_ ?_
  · intro run different
    exact if_neg fun same => different (congrArg some same.symm)
  · intro run same
    cases same
    obtain ⟨passed, left, asked, sent, holds⟩ := (sound.fits author).split
    cases holds tickets isDuring
    have still : ((ledger.note broker after given (some author) []).exchanges author).sent =
        (ledger.exchanges author).sent := by
      simp [Ledger.note]
    rw [update_self]
    refine ⟨nofun, passed, tickets ++ [broker.tickets.length], ?_, ?_, ?_⟩
    · simp [Ledger.note, asked, registers.length]
    · rw [still]
      exact map_resolved sent fun ticket value => resolved_note given (some author) []
    · intro held isHeld
      exact Holding.during.inj isHeld
  · intro run held _ isHeld ticket mem
    exact registers.good ticket (sound.stands isUp run held isHeld ticket mem)
  · intro held isHeld ticket mem
    cases isHeld
    rcases List.mem_append.mp mem with old | last
    · exact registers.good ticket (sound.stands isUp author tickets isDuring ticket old)
    · rw [List.mem_singleton.mp last]
      exact registers.new

/-- A caller's code passes the answer to the oldest of its requests on. -/
theorem Sound.pass (sound : ledger.Sound broker withdrawn holding) {ticket : Nat}
    {rest : List Nat} (isDuring : holding author = .during (ticket :: rest)) {value : String}
    (answered : broker.ticket ticket = .answered value) {given : List String} :
    (ledger.note broker (broker.take ticket) given (some author) [value]).Sound
      (broker.take ticket) withdrawn (update holding author (.during rest)) := by
  obtain ⟨passed, left, asked, sent, holds⟩ := (sound.fits author).split
  cases holds _ isDuring
  have sorted := asked ▸ sound.sorted author
  have later := (List.pairwise_cons.mp (List.pairwise_append.mp sorted).2.1).1
  refine sound.act (sound.orderly.take ticket) (broker.succeeds_take ticket) (by simp)
    (broker.fades_take ticket) ⟨nofun, passed ++ [ticket], rest, ?_, ?_, ?_⟩ ?_ ?_
  · simp [asked]
  · simp [sent, sound.answered ticket value answered]
  · intro tickets isRest
    exact Holding.during.inj isRest
  -- No two callers share a ticket, and no caller holds one twice.
  · intro isUp run tickets different isHeld other mem
    refine (sound.stands isUp run tickets isHeld other mem).take ?_
    rintro rfl
    exact different (sound.apart run author other (sound.mem_asked isHeld mem)
      (sound.mem_asked isDuring List.mem_cons_self))
  · intro isUp tickets isRest other mem
    cases isRest
    exact (sound.stands isUp author _ isDuring other (List.mem_cons_of_mem _ mem)).take
      (Nat.ne_of_gt (later other mem))

/-- A caller takes a turn with the broker, while nobody else's code runs.  Values come only
to a caller whose code runs. -/
theorem Sound.deals (sound : ledger.Sound broker withdrawn holding)
    (found : desk.broker? number = some broker) {desk' : Desk} {next : Holding}
    {sent : List String}
    (deals : desk.Deals receiver number withdrawn (holding author) desk' next sent)
    (alone : desk' = desk ∨ ∀ run tickets, holding run = .during tickets → run = author)
    {given : List String}
    (lawful : holding author ≠ .before → desk.ways receiver number number ⊆ given) :
    ∃ after, desk'.broker? number = some after ∧
      (ledger.note broker after given (some author) sent).Sound after withdrawn
        (update holding author next) := by
  generalize was : holding author = kept at deals
  cases deals with
  | rest =>
      refine ⟨broker, found, ?_⟩
      rw [← was, update_same]
      exact sound.aside given (some author)
  | refuse =>
      exact ⟨broker, found, sound.stop sound.orderly (.refl broker) rfl (fun _ _ => id)
        fun isUp run tickets _ => sound.stands isUp run tickets⟩
  | begin =>
      exact ⟨_, Desk.broker?_modify_self found _,
        sound.begin was (sound.others_modify found alone)⟩
  | stop kept closing =>
      exact ⟨_, Desk.broker?_modify_self found _,
        sound.stop (closing.orderly sound.orderly) (closing.succeeds broker)
          (closing.length broker) (closing.fades broker) (sound.others_modify found alone)⟩
  | ask tickets message stands =>
      obtain ⟨after, reached, registers⟩ :=
        registers_request sound.orderly found receiver message
      have lawful := lawful (by rw [was]; nofun)
      refine ⟨after, reached, ?_⟩
      rw [Desk.ticket_request found]
      exact sound.ask was { registers with
        lawful ticket value resolved := lawful (registers.lawful ticket value resolved) }
  | @pass ticket rest value stands answers =>
      exact ⟨_, Desk.broker?_modify_self found _, sound.pass was
        (sound.answered_of_answer? found stands was List.mem_cons_self answers)⟩

end Steps

end Ledger

end Polyglot
