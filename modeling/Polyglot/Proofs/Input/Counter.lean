import Polyglot.Proofs.Input.Desk

/-!
# First come, first served

Callbacks are registered and removed, requests are made, values given, tickets taken,
dropped and closed, in any order.  Whatever the order, the callback registered last is told
of a request, a value goes to the oldest request whose holder waits, and no request gets two
values.
-/

namespace Polyglot

namespace Broker

/-- What giving a value to a broker comes to. -/
structure Gives (before : Broker) (value : String) (after : Broker) (accepted : Bool) : Prop where
  accepted_iff : accepted = true ↔ ∃ number ∈ before.queue, before.ticket number = .waiting
  /-- The oldest request whose holder waits gets the value, and the queue goes on after it:
  those before it were given up. -/
  oldest : accepted = true → ∃ number ∈ before.queue, before.IsOldest number ∧
    (∀ other ∈ before.queue, other < number → before.ticket other = .abandoned) ∧
    after = { before with
      tickets := before.tickets.set number (.answered value)
      queue := before.queue.filter (number < ·) }
  /-- Nobody gets the value. -/
  lost : accepted = false → after = { before with queue := [] }

/-- A ticket that nobody waits for any more is never answered, and none is forgotten. -/
structure Succeeds (before after : Broker) : Prop where
  length_le : before.tickets.length ≤ after.tickets.length
  settled : ∀ number, number < before.tickets.length → before.ticket number ≠ .waiting →
    after.ticket number = before.ticket number ∨ after.ticket number = .closed ∨
      after.ticket number = .abandoned

/-- The value that a ticket gets. -/
def resolution? (before after : Broker) (number : Nat) : Option String :=
  match after.ticket number with
  | .answered value => if before.ticket number = .answered value then none else some value
  | .waiting | .closed | .abandoned => none

section Operations

variable {broker middle after : Broker}

theorem Orderly.gives (orderly : broker.Orderly) (value : String) :
    broker.Gives value (broker.provide value).1 (broker.provide value).2 where
  accepted_iff := orderly.provide_iff value
  oldest accepted := by
    rcases orderly.provide_cases value with ⟨number, oldest, provided⟩ | ⟨-, provided⟩
    · refine ⟨number, orderly.queued number oldest.1, oldest, fun other mem below => ?_, ?_⟩
      · rcases orderly.stands other mem with waits | gone
        · exact absurd (oldest.2 other waits) (Nat.not_le_of_lt below)
        · exact gone
      · rw [provided]
        rfl
    · simp [provided] at accepted
  lost refused := by
    rcases orderly.provide_cases value with ⟨number, -, provided⟩ | ⟨-, provided⟩
    · simp [provided] at refused
    · rw [provided]

theorem Succeeds.refl (broker : Broker) : broker.Succeeds broker :=
  ⟨Nat.le_refl _, fun _ _ _ => .inl rfl⟩

theorem Succeeds.trans (left : broker.Succeeds middle) (right : middle.Succeeds after) :
    broker.Succeeds after where
  length_le := Nat.le_trans left.length_le right.length_le
  settled number inside isSettled := by
    have insideMiddle := Nat.lt_of_lt_of_le inside left.length_le
    rcases left.settled number inside isSettled with same | closed | gone
    · have next := right.settled number insideMiddle (by rwa [same])
      rwa [same] at next
    · have next := right.settled number insideMiddle (by simp [closed])
      rw [closed] at next
      exact .inr (next.elim .inl id)
    · have next := right.settled number insideMiddle (by simp [gone])
      rw [gone] at next
      exact .inr (next.elim .inr id)

theorem succeeds_request (broker : Broker) (attended : Bool) :
    broker.Succeeds (broker.request attended).1 := by
  cases attended with
  | true =>
      refine ⟨?_, fun number inside _ => .inl ?_⟩
      · exact Nat.le_of_lt (by simp [request])
      · exact (broker.ticket_enqueue number).trans (if_neg (Nat.ne_of_lt inside))
  | false =>
      refine ⟨?_, fun number inside _ => .inl ?_⟩
      · exact Nat.le_of_lt (by simp [request])
      · exact (broker.ticket_answerUnattended number).trans (if_neg (Nat.ne_of_lt inside))

theorem Orderly.request (orderly : broker.Orderly) (attended : Bool) :
    (broker.request attended).1.Orderly := by
  cases attended with
  | true => exact orderly.enqueue
  | false => exact orderly.answerUnattended

theorem Orderly.succeeds_provide (orderly : broker.Orderly) (value : String) :
    broker.Succeeds (broker.provide value).1 := by
  rcases orderly.provide_cases value with ⟨oldest, isOldest, provided⟩ | ⟨-, provided⟩
  · rw [provided]
    refine ⟨by simp, fun number _ isSettled => .inl ?_⟩
    refine (broker.ticket_setTicket oldest number _).trans (if_neg ?_)
    rintro ⟨rfl, -⟩
    exact isSettled isOldest.1
  · rw [provided]
    exact ⟨Nat.le_refl _, fun _ _ _ => .inl rfl⟩

theorem succeeds_reset (broker : Broker) : broker.Succeeds broker.reset :=
  ⟨by simp, fun number _ isSettled => .inl <|
    (broker.ticket_reset number).trans (if_neg fun both => isSettled both.1)⟩

theorem succeeds_abandon (broker : Broker) (ticket : Nat) :
    broker.Succeeds (broker.abandon ticket) := by
  refine ⟨by simp, fun number _ _ => ?_⟩
  rw [ticket_abandon]
  split
  · exact .inr (.inr rfl)
  · exact .inl rfl

theorem succeeds_take (broker : Broker) (ticket : Nat) : broker.Succeeds (broker.take ticket) := by
  refine ⟨by simp, fun number _ _ => ?_⟩
  rw [ticket_take]
  split
  · exact .inr (.inl rfl)
  · exact .inl rfl

theorem resolution?_eq_some {number : Nat} {value : String} :
    broker.resolution? after number = some value ↔
      after.ticket number = .answered value ∧ broker.ticket number ≠ .answered value := by
  simp only [resolution?]
  cases after.ticket number with
  | answered came =>
      by_cases was : broker.ticket number = .answered came
      · simp only [was, if_true, Ticket.answered.injEq]
        exact ⟨nofun, fun both => absurd (congrArg Ticket.answered both.1) both.2⟩
      · simp only [if_neg was, Option.some.injEq, Ticket.answered.injEq]
        exact ⟨fun same => ⟨same, same ▸ was⟩, fun both => both.1⟩
  | waiting => simp
  | closed => simp
  | abandoned => simp

theorem answered_of_resolution? {number : Nat} {value : String}
    (resolved : broker.resolution? after number = some value) :
    after.ticket number = .answered value :=
  (resolution?_eq_some.mp resolved).1

/-- A ticket that nobody waits for any more gets no value. -/
theorem Succeeds.resolution? (succeeds : broker.Succeeds after) {number : Nat}
    (inside : number < broker.tickets.length) (isSettled : broker.ticket number ≠ .waiting) :
    broker.resolution? after number = none := by
  cases resolved : broker.resolution? after number with
  | none => rfl
  | some value =>
      have answered := answered_of_resolution? resolved
      rcases succeeds.settled number inside isSettled with same | closed | gone
      · simp [Broker.resolution?, ← same, answered] at resolved
      · rw [closed] at answered
        contradiction
      · rw [gone] at answered
        contradiction

end Operations

end Broker

/-! ## Operations -/

/-- A desk, with one broker and its hook in view. -/
structure Counter where
  desk : Desk
  hook : Nat
  number : Nat

namespace Counter

/-- Something that is done to a broker or its hook.  A callback gives one value at most
while it is called; what else it does then follows as operations of its own. -/
inductive Operation where
  | register (callback : Callback)
  | clear
  | request (receiver : String → Option Nat) (message : String)
  | provide (value : String)
  | reset
  /-- The holder of a ticket goes away. -/
  | drop (ticket : Nat)
  /-- The holder of a ticket takes its value. -/
  | take (ticket : Nat)

/-- A new broker with a new hook. -/
def fresh (desk : Desk) (language : String) : Counter where
  desk := (Desk.addBroker { desk with hooks := desk.hooks ++ [{}] } desk.hooks.length language).1
  hook := desk.hooks.length
  number := desk.brokers.length

/-- The broker in view. -/
def broker (counter : Counter) : Broker :=
  (counter.desk.broker? counter.number).getD { language := "" }

/-- The counter after an operation. -/
def step (counter : Counter) (operation : Operation) : Counter :=
  { counter with
    desk :=
      match operation with
      | .register callback => counter.desk.setHook counter.hook (some callback)
      | .clear => counter.desk.setHook counter.hook none
      | .request receiver message =>
        (counter.desk.request receiver counter.number message).1
      | .provide value => (counter.desk.provide counter.number value).1
      | .reset => counter.desk.modify counter.number Broker.reset
      | .drop ticket => counter.desk.modify counter.number (·.abandon ticket)
      | .take ticket => counter.desk.modify counter.number (·.take ticket) }

/-- The counter after several operations. -/
def run (counter : Counter) (operations : List Operation) : Counter :=
  operations.foldl step counter

/-- The callback that was registered last, unless it was removed. -/
def registered (operations : List Operation) : Option Callback :=
  operations.foldl (fun found operation =>
    match operation with
    | .register callback => some callback
    | .clear => none
    | _ => found) none

/-- The value that the callback gives to the broker in view while it is told of a
request. -/
def reply? (counter : Counter) (receiver : String → Option Nat) : Option String := do
  let (target, value) ← counter.desk.reply? receiver counter.number
  if target = counter.number then some value else none

/-- The values that a ticket gets, in order. -/
def resolutions (ticket : Nat) : Counter → List Operation → List String
  | _, [] => []
  | counter, operation :: operations =>
    (counter.broker.resolution? (counter.step operation).broker ticket).toList ++
      resolutions ticket (counter.step operation) operations

/-! ## What every operation keeps -/

/-- What holds at a counter after those operations. -/
structure Sound (counter : Counter) (told : Option Callback) : Prop where
  found : ∃ broker, counter.desk.brokers[counter.number]? = some (counter.hook, broker)
  hooked : counter.hook < counter.desk.hooks.length
  orderly : counter.broker.Orderly
  /-- The callback that is told of requests is the one registered last, but for the answers
  that it has given. -/
  told : counter.desk.callbackOf? counter.number = none ∧ told = none ∨
    ∃ callback answers, answers <:+ callback.answers ∧ told = some callback ∧
      counter.desk.callbackOf? counter.number = some { callback with answers }

section Steps

variable {counter : Counter} {told : Option Callback}

theorem sound_fresh (desk : Desk) (language : String) : (fresh desk language).Sound none where
  found := ⟨{ language }, by simp [fresh, Desk.addBroker]⟩
  hooked := by simp [fresh, Desk.addBroker]
  orderly := by
    have broker : (fresh desk language).broker = { language } := by
      simp [broker, fresh, Desk.addBroker, Desk.broker?]
    rw [broker]
    exact .fresh language
  told := .inl ⟨by simp [fresh, Desk.addBroker, Desk.callbackOf?, Desk.hookOf?], rfl⟩

theorem Sound.broker? (sound : counter.Sound told) :
    counter.desk.broker? counter.number = some counter.broker := by
  obtain ⟨found, at_⟩ := sound.found
  simp [broker, Desk.broker?, at_]

theorem Sound.hookOf? (sound : counter.Sound told) :
    counter.desk.hookOf? counter.number = some counter.hook := by
  obtain ⟨broker, found⟩ := sound.found
  simp [Desk.hookOf?, found]

/-- An operation that does not touch hooks leaves the callback what it is. -/
theorem Sound.of_hooks (sound : counter.Sound told) {desk : Desk} {broker : Broker}
    (hooks : desk.hooks = counter.desk.hooks)
    (hookOf? : desk.hookOf? counter.number = counter.desk.hookOf? counter.number)
    (at_ : desk.broker? counter.number = some broker) (orderly : broker.Orderly) :
    Sound { counter with desk } told := by
  obtain ⟨hook, isHook, found⟩ := Desk.getElem?_of_broker? at_
  rw [hookOf?, sound.hookOf?] at isHook
  cases isHook
  refine ⟨⟨broker, found⟩, by rw [hooks]; exact sound.hooked, ?_, ?_⟩
  · simpa [Counter.broker, at_] using orderly
  · have same : desk.callbackOf? counter.number = counter.desk.callbackOf? counter.number := by
      simp [Desk.callbackOf?, hookOf?, hooks]
    rw [same]
    exact sound.told

theorem Sound.modify (sound : counter.Sound told) (change : Broker → Broker)
    (orderly : (change counter.broker).Orderly) :
    Sound { counter with desk := counter.desk.modify counter.number change } told :=
  sound.of_hooks rfl (by simp) (Desk.broker?_modify_self sound.broker? change) orderly

/-- A callback is registered or removed. -/
theorem Sound.setHook (sound : counter.Sound told) (callback : Option Callback) :
    Sound { counter with desk := counter.desk.setHook counter.hook callback } callback := by
  have now : (counter.desk.setHook counter.hook callback).callbackOf? counter.number = callback := by
    rw [Desk.callbackOf?, Desk.hookOf?_setHook, sound.hookOf?]
    simp [Desk.setHook, sound.hooked]
  refine ⟨sound.found, by simpa [Desk.setHook] using sound.hooked, sound.orderly, ?_⟩
  rw [now]
  cases callback with
  | none => exact .inl ⟨rfl, rfl⟩
  | some callback => exact .inr ⟨callback, callback.answers, List.suffix_rfl, rfl, rfl⟩

/-- The broker after a request, before the callback is called. -/
theorem Sound.asked (sound : counter.Sound told) :
    (counter.desk.asked counter.number).broker? counter.number =
      some (counter.broker.request (counter.desk.callbackOf? counter.number).isSome).1 :=
  Desk.broker?_modify_self sound.broker? _

theorem broker_request (sound : counter.Sound told) (receiver : String → Option Nat)
    (message : String) :
    (counter.desk.request receiver counter.number message).1.broker? counter.number =
      some ((counter.reply? receiver).elim
        (counter.broker.request (counter.desk.callbackOf? counter.number).isSome).1 fun value =>
          ((counter.broker.request (counter.desk.callbackOf? counter.number).isSome).1.provide
            value).1) := by
  rw [Desk.broker?_request]
  cases given : counter.desk.reply? receiver counter.number with
  | none => simp [reply?, given, sound.asked]
  | some reply =>
      obtain ⟨target, value⟩ := reply
      have mine : counter.reply? receiver =
          if target = counter.number then some value else none := by
        simp [reply?, given]
      rw [mine]
      simp only [Option.elim_some, Desk.broker?_provide, sound.asked, Option.map_some]
      by_cases own : target = counter.number
      · rw [if_pos own.symm, if_pos own, Option.elim_some]
      · rw [if_neg (fun same => own same.symm), if_neg own, Option.elim_none]

/-- Whatever is asked of a broker, it stays orderly, and tickets keep the values they got. -/
theorem Sound.request (sound : counter.Sound told) (receiver : String → Option Nat)
    (message : String) :
    (counter.step (.request receiver message)).Sound told ∧
      counter.broker.Succeeds (counter.step (.request receiver message)).broker := by
  have at_ := broker_request sound receiver message
  have registered := sound.orderly.request (counter.desk.callbackOf? counter.number).isSome
  have grown := counter.broker.succeeds_request
    (counter.desk.callbackOf? counter.number).isSome
  obtain ⟨broker, isBroker⟩ := sound.found
  have orderly : ((counter.reply? receiver).elim
      (counter.broker.request (counter.desk.callbackOf? counter.number).isSome).1 fun value =>
        ((counter.broker.request (counter.desk.callbackOf? counter.number).isSome).1.provide
          value).1).Orderly := by
    cases counter.reply? receiver with
    | none => exact registered
    | some value => exact registered.provide value
  have succeeds : counter.broker.Succeeds (counter.step (.request receiver message)).broker := by
    simp only [step, Counter.broker, at_, Option.getD_some]
    cases counter.reply? receiver with
    | none => exact grown
    | some value => exact grown.trans (registered.succeeds_provide value)
  refine ⟨?_, succeeds⟩
  obtain ⟨hook, isHook, found⟩ := Desk.getElem?_of_broker? at_
  rw [Desk.hookOf?_request, sound.hookOf?] at isHook
  cases isHook
  have hooks := Desk.hooks_request isBroker receiver message
  rcases sound.told with ⟨nobody, none⟩ | ⟨callback, answers, suffix, isTold, told⟩
  · rw [nobody] at hooks
    exact sound.of_hooks hooks (by simp) at_ orderly
  · rw [told] at hooks
    cases answers with
    | nil => exact sound.of_hooks hooks (by simp) at_ orderly
    | cons value rest =>
        refine ⟨⟨_, found⟩, ?_, by simpa [step, Counter.broker, at_] using orderly, .inr ?_⟩
        · simpa [step, hooks] using sound.hooked
        · refine ⟨callback, rest, (List.suffix_cons value rest).trans suffix, isTold, ?_⟩
          simp [step, Desk.callbackOf?, Desk.hookOf?, found, hooks, sound.hooked]

/-- Every operation keeps a counter sound, and tickets keep the values they got. -/
theorem Sound.step (sound : counter.Sound told) (operation : Operation) :
    (counter.step operation).Sound
        (match operation with
          | .register callback => some callback
          | .clear => none
          | _ => told) ∧
      counter.broker.Succeeds (counter.step operation).broker := by
  have modified (change : Broker → Broker) :
      Counter.broker { counter with desk := counter.desk.modify counter.number change } =
        change counter.broker := by
    simp [Counter.broker, Desk.broker?_modify_self sound.broker?]
  cases operation with
  | register callback => exact ⟨sound.setHook (some callback), .refl _⟩
  | clear => exact ⟨sound.setHook none, .refl _⟩
  | request receiver message => exact sound.request receiver message
  | provide value =>
      have at_ : (counter.desk.provide counter.number value).1.broker? counter.number =
          some (counter.broker.provide value).1 := by
        simp [Desk.broker?_provide, sound.broker?]
      refine ⟨sound.of_hooks (by simp) (by simp) at_ (sound.orderly.provide value), ?_⟩
      simpa [Counter.step, Counter.broker, at_] using sound.orderly.succeeds_provide value
  | reset =>
      refine ⟨sound.modify _ sound.orderly.reset, ?_⟩
      simp only [Counter.step, modified]
      exact counter.broker.succeeds_reset
  | drop ticket =>
      refine ⟨sound.modify _ (sound.orderly.abandon ticket), ?_⟩
      simp only [Counter.step, modified]
      exact counter.broker.succeeds_abandon ticket
  | take ticket =>
      refine ⟨sound.modify _ (sound.orderly.take ticket), ?_⟩
      simp only [Counter.step, modified]
      exact counter.broker.succeeds_take ticket

/-- After any operations, the callback that is told of requests is the one registered last. -/
theorem Sound.run (sound : counter.Sound told) (operations : List Operation) :
    (counter.run operations).Sound (operations.foldl (fun found operation =>
      match operation with
      | .register callback => some callback
      | .clear => none
      | _ => found) told) := by
  induction operations generalizing counter told with
  | nil => exact sound
  | cons operation operations ih => exact ih (sound.step operation).1

/-- A ticket that nobody waits for any more gets no value, whatever happens. -/
theorem Sound.resolutions_eq_nil (sound : counter.Sound told) {ticket : Nat}
    (inside : ticket < counter.broker.tickets.length)
    (isSettled : counter.broker.ticket ticket ≠ .waiting) (operations : List Operation) :
    counter.resolutions ticket operations = [] := by
  induction operations generalizing counter told with
  | nil => rfl
  | cons operation operations ih =>
      obtain ⟨after, succeeds⟩ := sound.step operation
      have stillSettled : (counter.step operation).broker.ticket ticket ≠ .waiting := by
        rcases succeeds.settled ticket inside isSettled with same | closed | gone
        · rwa [same]
        · simp [closed]
        · simp [gone]
      simp [resolutions, succeeds.resolution? inside isSettled,
        ih after (Nat.lt_of_lt_of_le inside succeeds.length_le) stillSettled]

/-- No ticket gets two values. -/
theorem Sound.length_resolutions_le (sound : counter.Sound told) (ticket : Nat)
    (operations : List Operation) : (counter.resolutions ticket operations).length ≤ 1 := by
  induction operations generalizing counter told with
  | nil => exact Nat.zero_le 1
  | cons operation operations ih =>
      have after := (sound.step operation).1
      cases resolved : counter.broker.resolution? (counter.step operation).broker ticket with
      | none => simpa [resolutions, resolved] using ih after
      | some value =>
          have answered := Broker.answered_of_resolution? resolved
          have inside : ticket < (counter.step operation).broker.tickets.length :=
            Broker.lt_of_ticket (by simp [answered])
          simp [resolutions, resolved,
            after.resolutions_eq_nil inside (by simp [answered]) operations]

end Steps

/-! ## Order -/

/-- What a counter does for those who come to it, when that callback was registered last. -/
structure FirstCome (counter : Counter) (told : Option Callback) : Prop where
  /-- A request enters the queue, and the callback is told of it once.  What the callback
  gives to the broker then is given like any other value. -/
  notifies : ∀ callback receiver message, told = some callback →
    let entered : Broker := { counter.broker with
      tickets := counter.broker.tickets ++ [.waiting]
      queue := counter.broker.queue ++ [counter.broker.tickets.length] }
    let after := counter.step (.request receiver message)
    (counter.desk.request receiver counter.number message).2 = counter.broker.tickets.length ∧
    ∃ provided,
      after.desk.asks = counter.desk.asks ++
        [⟨callback.name, counter.broker.language, message, provided⟩] ∧
      match counter.reply? receiver with
      | none => after.broker = entered
      | some value => provided = some true ∧ entered.Gives value after.broker true
  /-- A request that nobody is told of has nothing as its answer at once, and the queue
  stays as it is. -/
  unattended : told = none → ∀ receiver message,
    let after := counter.step (.request receiver message)
    (counter.desk.request receiver counter.number message).2 = counter.broker.tickets.length ∧
    after.desk.asks = counter.desk.asks ∧
    after.broker = { counter.broker with
      tickets := counter.broker.tickets ++ [.answered ""] }
  /-- A value goes to the oldest request whose holder waits, or is lost. -/
  gives : ∀ value, counter.broker.Gives value (counter.step (.provide value)).broker
    (counter.desk.provide counter.number value).2
  /-- A value goes to no other broker. -/
  spares : ∀ value other, other ≠ counter.number →
    (counter.step (.provide value)).desk.broker? other = counter.desk.broker? other
  /-- A reset closes what is in the queue, and answers nothing. -/
  closes : (counter.step .reset).broker.queue = [] ∧
    ∀ number, (counter.step .reset).broker.ticket number =
      if counter.broker.ticket number = .waiting ∧ number ∈ counter.broker.queue then .closed
      else counter.broker.ticket number

section FirstCome

variable {counter : Counter} {told : Option Callback}

/-- A callback gives a value to the broker in view if that is the one it answers to. -/
theorem reply?_eq_some {receiver : String → Option Nat} {value : String} :
    counter.reply? receiver = some value ↔
      ∃ callback, counter.desk.callbackOf? counter.number = some callback ∧
        receiver callback.target = some counter.number ∧
        callback.answers.head? = some value := by
  simp only [reply?, Desk.reply?, Option.bind_eq_bind, Option.bind_eq_some_iff]
  constructor
  · rintro ⟨reply, ⟨callback, now, target, isTarget, first, isFirst, made⟩, own⟩
    cases made
    split at own
    · rename_i isOwn
      cases own
      exact ⟨callback, now, isTarget.trans (congrArg some isOwn), isFirst⟩
    · contradiction
  · rintro ⟨callback, now, isTarget, isFirst⟩
    exact ⟨_, ⟨callback, now, _, isTarget, _, isFirst, rfl⟩, by simp⟩

/-- A callback that is registered is told of a request once, and answers as anybody does. -/
theorem Sound.notifies (sound : counter.Sound told) {callback : Callback}
    (isTold : told = some callback) (receiver : String → Option Nat) (message : String) :
    let entered := counter.broker.enqueue.1
    let after := counter.step (.request receiver message)
    ∃ provided,
      after.desk.asks = counter.desk.asks ++
        [⟨callback.name, counter.broker.language, message, provided⟩] ∧
      match counter.reply? receiver with
      | none => after.broker = entered
      | some value => provided = some true ∧ entered.Gives value after.broker true := by
  rcases sound.told with ⟨-, none⟩ | ⟨last, answers, -, isLast, now⟩
  · rw [none] at isTold
    contradiction
  · rw [isLast] at isTold
    cases isTold
    obtain ⟨broker, found⟩ := sound.found
    have same : counter.broker = broker := by simp [Counter.broker, Desk.broker?, found]
    have asks := Desk.asks_request found receiver message
    rw [now] at asks
    have reached := broker_request sound receiver message
    rw [now] at reached
    refine ⟨_, by rw [same]; exact asks, ?_⟩
    have asked := sound.asked
    rw [now] at asked
    cases replied : counter.reply? receiver with
    | none => simp [Counter.step, Counter.broker, reached, replied, Broker.request]
    | some value =>
        have waits : counter.broker.enqueue.1.ticket counter.broker.tickets.length = .waiting := by
          rw [Broker.ticket_enqueue, if_pos rfl]
        have orderly := sound.orderly.enqueue
        have accepted : (counter.broker.enqueue.1.provide value).2 = true :=
          (orderly.provide_iff value).mpr ⟨_, orderly.queued _ waits, waits⟩
        have gives := orderly.gives value
        rw [accepted] at gives
        obtain ⟨same, isCallback, isOwn, isFirst⟩ := reply?_eq_some.mp replied
        rw [now] at isCallback
        cases isCallback
        refine ⟨?_, ?_⟩
        · have given : ((counter.desk.asked counter.number).given
              (some counter.number) value).2 = true := by
            rw [Desk.given, Desk.accepted_provide, asked]
            exact accepted
          simp only [isOwn, isFirst, Option.map_some, given]
        · have same : (counter.step (.request receiver message)).broker =
              (counter.broker.enqueue.1.provide value).1 := by
            rw [replied] at reached
            simp only [Counter.step, Counter.broker, reached, Option.getD_some]
            rfl
          rw [same]
          exact gives

theorem Sound.firstCome (sound : counter.Sound told) : counter.FirstCome told where
  notifies callback receiver message isTold :=
    ⟨Desk.ticket_request sound.broker? receiver message, sound.notifies isTold receiver message⟩
  unattended isTold receiver message := by
    rcases sound.told with ⟨now, -⟩ | ⟨callback, answers, -, isLast, -⟩
    · obtain ⟨broker, found⟩ := sound.found
      have asks := Desk.asks_request found receiver message
      rw [now] at asks
      have nothing : counter.reply? receiver = none := by
        simp [reply?, Desk.reply?, now]
      have reached := broker_request sound receiver message
      rw [now, nothing] at reached
      refine ⟨Desk.ticket_request sound.broker? receiver message, asks, ?_⟩
      exact congrArg (fun found => found.getD { language := "" }) reached
    · rw [isLast] at isTold
      contradiction
  gives value := by
    have reached : (counter.desk.provide counter.number value).1.broker? counter.number =
        some (counter.broker.provide value).1 := by
      rw [Desk.broker?_provide, if_pos rfl, sound.broker?, Option.map_some]
    have after : (counter.step (.provide value)).broker = (counter.broker.provide value).1 :=
      congrArg (fun found => found.getD { language := "" }) reached
    have accepted : (counter.desk.provide counter.number value).2 =
        (counter.broker.provide value).2 := by
      rw [Desk.accepted_provide, sound.broker?]
      rfl
    rw [after, accepted]
    exact sound.orderly.gives value
  spares value other different := by
    simp only [Counter.step, Desk.broker?_provide, if_neg different]
  closes := by
    have after : (counter.step .reset).broker = counter.broker.reset := by
      exact congrArg (fun found => found.getD { language := "" })
        (Desk.broker?_modify_self sound.broker? Broker.reset)
    rw [after]
    exact ⟨rfl, fun number => counter.broker.ticket_reset number⟩

end FirstCome

end Counter

end Polyglot
