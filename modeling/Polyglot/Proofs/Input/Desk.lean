import Polyglot.Proofs.Input.Queue

/-!
# Desks

What the operations of a desk do to each of its brokers.  A request reaches the broker that
it is made of, and then at most one value reaches the broker that the callback answers to.
-/

namespace Polyglot.Desk

variable (desk : Desk) (number other : Nat) (value message : String)

/-- The number of the hook that a broker tells of its requests. -/
def hookOf? (desk : Desk) (number : Nat) : Option Nat := desk.brokers[number]?.map (·.1)

/-- The callback that is told of the requests of a broker. -/
def callbackOf? (desk : Desk) (number : Nat) : Option Callback :=
  desk.hookOf? number >>= fun hook => desk.hooks[hook]? >>= (·.callback)

/-- What a callback gives while it is called, and the broker that gets it. -/
def reply? (desk : Desk) (receiver : String → Option Nat) (number : Nat) :
    Option (Nat × String) := do
  let callback ← desk.callbackOf? number
  return (← receiver callback.target, ← callback.answers.head?)

/-! ## Changes of one broker -/

@[simp] theorem hooks_modify (change : Broker → Broker) :
    (desk.modify number change).hooks = desk.hooks := rfl

@[simp] theorem asks_modify (change : Broker → Broker) :
    (desk.modify number change).asks = desk.asks := rfl

theorem broker?_modify (change : Broker → Broker) :
    (desk.modify number change).broker? other =
      if other = number then (desk.broker? other).map change else desk.broker? other := by
  by_cases same : other = number
  · subst other
    simp [broker?, modify, Function.comp_def]
  · have different : ¬number = other := fun equal => same equal.symm
    simp [broker?, modify, same, different]

/-- Two changes of a broker are one. -/
theorem modify_modify (first second : Broker → Broker) :
    (desk.modify number first).modify number second = desk.modify number (second ∘ first) := by
  simp only [modify, List.modify_modify_eq]
  rfl

theorem broker?_modify_self {desk : Desk} {number : Nat} {broker : Broker}
    (found : desk.broker? number = some broker) (change : Broker → Broker) :
    (desk.modify number change).broker? number = some (change broker) := by
  rw [broker?_modify, if_pos rfl, found]
  rfl

theorem broker?_modify_of_ne {number other : Nat} (different : other ≠ number)
    (change : Broker → Broker) : (desk.modify number change).broker? other = desk.broker? other := by
  rw [broker?_modify, if_neg different]

@[simp] theorem hookOf?_modify (change : Broker → Broker) :
    (desk.modify number change).hookOf? other = desk.hookOf? other := by
  by_cases same : number = other
  · simp [hookOf?, modify, same, Function.comp_def]
  · simp [hookOf?, modify, same]

theorem isSome_hookOf? : (desk.hookOf? number).isSome = (desk.broker? number).isSome := by
  simp [hookOf?, broker?]

@[simp] theorem callbackOf?_modify (change : Broker → Broker) :
    (desk.modify number change).callbackOf? other = desk.callbackOf? other := by
  simp [callbackOf?]

/-! ## Values -/

/-- A value reaches the broker that it is given to, and no other. -/
theorem broker?_provide :
    (desk.provide number value).1.broker? other =
      if other = number then (desk.broker? other).map fun broker => (broker.provide value).1
      else desk.broker? other := by
  cases found : desk.broker? number with
  | none =>
      by_cases same : other = number
      · subst other
        simp [provide, found]
      · simp [provide, found, same]
  | some broker =>
      simp only [provide, found]
      rw [broker?_modify]
      by_cases same : other = number
      · subst other
        simp [found]
      · simp [same]

theorem accepted_provide :
    (desk.provide number value).2 =
      (desk.broker? number).elim false fun broker => (broker.provide value).2 := by
  cases found : desk.broker? number with
  | none => simp [provide, found]
  | some broker => simp [provide, found]

@[simp] theorem hooks_provide : (desk.provide number value).1.hooks = desk.hooks := by
  cases found : desk.broker? number with
  | none => simp [provide, found]
  | some broker => simp [provide, found]

@[simp] theorem asks_provide : (desk.provide number value).1.asks = desk.asks := by
  cases found : desk.broker? number with
  | none => simp [provide, found]
  | some broker => simp [provide, found]

@[simp] theorem hookOf?_provide :
    (desk.provide number value).1.hookOf? other = desk.hookOf? other := by
  cases found : desk.broker? number with
  | none => simp [provide, found]
  | some broker => simp [provide, found]

/-! ## Callbacks -/

@[simp] theorem broker?_setHook (hook : Nat) (callback : Option Callback) :
    (desk.setHook hook callback).broker? other = desk.broker? other := rfl

@[simp] theorem hookOf?_setHook (hook : Nat) (callback : Option Callback) :
    (desk.setHook hook callback).hookOf? other = desk.hookOf? other := rfl

/-- The outcome of what a callback gives to the broker that it answers to. -/
def given (desk : Desk) (receiver : Option Nat) (value : String) : Desk × Bool :=
  match receiver with
  | none => (desk, false)
  | some number => desk.provide number value

/-- A callback that is called reaches the broker that it answers to, and no other. -/
theorem broker?_call (receiver : Option Nat) (hook : Nat) (callback : Callback)
    (language : String) :
    (desk.call receiver hook callback language message).broker? other =
      (callback.answers.head?.elim desk fun value => (desk.given receiver value).1).broker?
        other := by
  cases answers : callback.answers with
  | nil => simp [call, answers, broker?]
  | cons value rest =>
      cases receiver with
      | none => simp [call, answers, given, setHook, broker?]
      | some number =>
          simp only [call, answers, given, List.head?_cons, Option.elim_some]
          change ((desk.setHook hook _).provide number value).1.broker? other = _
          simp [broker?_provide]

theorem hookOf?_call (receiver : Option Nat) (hook : Nat) (callback : Callback)
    (language : String) :
    (desk.call receiver hook callback language message).hookOf? other = desk.hookOf? other := by
  cases answers : callback.answers with
  | nil => simp [call, answers, hookOf?]
  | cons value rest =>
      cases receiver with
      | none => simp [call, answers, setHook, hookOf?]
      | some number =>
          simp only [call, answers]
          change ((desk.setHook hook _).provide number value).1.hookOf? other = _
          simp

/-- A callback that is called uses up the first of its answers. -/
theorem hooks_call (receiver : Option Nat) (hook : Nat) (callback : Callback)
    (language : String) :
    (desk.call receiver hook callback language message).hooks =
      match callback.answers with
      | [] => desk.hooks
      | _ :: rest => desk.hooks.set hook ⟨some { callback with answers := rest }⟩ := by
  cases answers : callback.answers with
  | nil => simp [call, answers]
  | cons value rest =>
      cases receiver with
      | none => simp [call, answers, setHook]
      | some number =>
          simp only [call, answers]
          simp [setHook]

/-- A callback that is called writes down what it was told, and whether its answer was
accepted. -/
theorem asks_call (receiver : Option Nat) (hook : Nat) (callback : Callback)
    (language : String) :
    (desk.call receiver hook callback language message).asks =
      desk.asks ++ [⟨callback.name, language, message,
        callback.answers.head?.map fun value => (desk.given receiver value).2⟩] := by
  cases answers : callback.answers with
  | nil => simp [call, answers]
  | cons value rest =>
      cases receiver with
      | none => simp [call, answers, given, setHook]
      | some number =>
          simp only [call, answers, given, List.head?_cons, Option.map_some]
          rw [asks_provide]
          simp only [accepted_provide, broker?_setHook]
          rfl

/-! ## Requests -/

/-- A desk after a request of a broker, before the callback is called. -/
def asked (desk : Desk) (number : Nat) : Desk :=
  desk.modify number fun broker => (broker.request (desk.callbackOf? number).isSome).1

/-- A request is registered; a callback is then called, and it may answer. -/
theorem request_eq {desk : Desk} {number hook : Nat} {broker : Broker}
    (found : desk.brokers[number]? = some (hook, broker)) (receiver : String → Option Nat)
    (message : String) :
    desk.request receiver number message =
      ((desk.callbackOf? number).elim (desk.asked number) fun callback =>
        (desk.asked number).call (receiver callback.target) hook callback broker.language message,
        broker.tickets.length) := by
  have callback : desk.callbackOf? number = desk.hooks[hook]? >>= (·.callback) := by
    simp [callbackOf?, hookOf?, found]
  have same : desk.asked number =
      desk.modify number fun _ => (broker.request (desk.callbackOf? number).isSome).1 := by
    simp only [asked, modify]
    congr 1
    apply List.ext_getElem?
    intro index
    by_cases at_ : number = index
    · subst index
      simp [found]
    · simp [at_]
  have ticket : ∀ attended, (broker.request attended).2 = broker.tickets.length := by
    intro attended
    cases attended <;> rfl
  rw [same]
  simp only [request, found, ← callback]
  cases desk.callbackOf? number with
  | none => simp [ticket]
  | some callback => simp [ticket]

/-- Nobody hears of a request of a broker that does not exist. -/
theorem request_of_none {desk : Desk} {number : Nat} (missing : desk.broker? number = none)
    (receiver : String → Option Nat) (message : String) :
    desk.request receiver number message = (desk, 0) := by
  have missing : desk.brokers[number]? = none := by simpa [broker?] using missing
  simp [request, missing]

theorem getElem?_of_broker? {desk : Desk} {number : Nat} {broker : Broker}
    (found : desk.broker? number = some broker) :
    ∃ hook, desk.hookOf? number = some hook ∧ desk.brokers[number]? = some (hook, broker) := by
  obtain ⟨⟨hook, same⟩, at_, equal⟩ := Option.map_eq_some_iff.mp found
  cases equal
  exact ⟨hook, by simp [hookOf?, at_], at_⟩

/-- The ticket of a request has the number of the requests before it. -/
theorem ticket_request {desk : Desk} {number : Nat} {broker : Broker}
    (found : desk.broker? number = some broker) (receiver : String → Option Nat)
    (message : String) :
    (desk.request receiver number message).2 = broker.tickets.length := by
  obtain ⟨hook, -, at_⟩ := getElem?_of_broker? found
  rw [request_eq at_]

/-- A request reaches the broker that it is made of, and then a value may reach the broker
that the callback answers to. -/
theorem broker?_request (receiver : String → Option Nat) :
    (desk.request receiver number message).1.broker? other =
      ((desk.reply? receiver number).elim (desk.asked number) fun reply =>
        ((desk.asked number).provide reply.1 reply.2).1).broker? other := by
  cases found : desk.broker? number with
  | none =>
      have nobody : desk.hookOf? number = none := by
        simpa [hookOf?, broker?] using found
      have same : desk.asked number = desk := by
        have missing : desk.brokers[number]? = none := by simpa [broker?] using found
        have beyond : desk.brokers.length ≤ number := List.getElem?_eq_none_iff.mp missing
        simp [asked, modify, List.modify_eq_self beyond]
      rw [request_of_none found, same]
      simp [reply?, callbackOf?, nobody]
  | some broker =>
      obtain ⟨hook, -, at_⟩ := getElem?_of_broker? found
      rw [request_eq at_]
      cases told : desk.callbackOf? number with
      | none => simp [reply?, told]
      | some callback =>
          simp only [Option.elim_some, broker?_call, reply?, told]
          cases gives : callback.answers.head? with
          | none =>
              cases target : receiver callback.target <;> simp [gives, target]
          | some value =>
              cases target : receiver callback.target <;> simp [gives, target, given]

@[simp] theorem hookOf?_request (receiver : String → Option Nat) :
    (desk.request receiver number message).1.hookOf? other = desk.hookOf? other := by
  cases found : desk.broker? number with
  | none => rw [request_of_none found]
  | some broker =>
      obtain ⟨hook, -, at_⟩ := getElem?_of_broker? found
      rw [request_eq at_]
      cases desk.callbackOf? number with
      | none => simp [asked]
      | some callback => simp [hookOf?_call, asked]

/-- A request uses up the first answer of the callback that is told of it. -/
theorem hooks_request {desk : Desk} {number hook : Nat} {broker : Broker}
    (found : desk.brokers[number]? = some (hook, broker)) (receiver : String → Option Nat)
    (message : String) :
    (desk.request receiver number message).1.hooks =
      match desk.callbackOf? number with
      | none => desk.hooks
      | some callback =>
        match callback.answers with
        | [] => desk.hooks
        | _ :: rest => desk.hooks.set hook ⟨some { callback with answers := rest }⟩ := by
  rw [request_eq found]
  cases desk.callbackOf? number with
  | none => rfl
  | some callback => exact hooks_call ..

/-- The callback that is told of a request writes that down once. -/
theorem asks_request {desk : Desk} {number hook : Nat} {broker : Broker}
    (found : desk.brokers[number]? = some (hook, broker)) (receiver : String → Option Nat)
    (message : String) :
    (desk.request receiver number message).1.asks =
      match desk.callbackOf? number with
      | none => desk.asks
      | some callback => desk.asks ++ [⟨callback.name, broker.language, message,
          callback.answers.head?.map fun value =>
            ((desk.asked number).given (receiver callback.target) value).2⟩] := by
  rw [request_eq found]
  cases desk.callbackOf? number with
  | none => rfl
  | some callback => exact asks_call ..

/-! ## Answers -/

/-- What the holder of a ticket is to pass on, by the state of the ticket. -/
theorem answer?_of_broker? {desk : Desk} {number : Nat} {broker : Broker}
    (found : desk.broker? number = some broker) (ticket : Nat) :
    desk.answer? number ticket =
      match broker.ticket ticket with
      | .waiting => none
      | .answered value => some value
      | .closed | .abandoned => some "" := by
  cases state : broker.ticket ticket <;> simp [answer?, found, state]

end Polyglot.Desk
