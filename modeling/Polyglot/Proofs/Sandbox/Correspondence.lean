import Polyglot.Proofs.Sandbox.Dealing

/-!
# The correspondence of a sandbox executor with its contexts

Code that a sandbox executor runs asks for input, and the executor answers.  Whoever gives
values, whatever callbacks are registered, and whenever a caller goes away or the executor
is destroyed: what a run sends to its context are the values of its requests, in order, and
no run gets a value of another.

A callback gives at most one value while it is called.  Whatever else it does is the same as
if it were done right after the turn in which it was called.
-/

namespace Polyglot.Sandbox

namespace Place

/-- The broker of the executor. -/
def broker (place : Place) : Broker :=
  (place.desk.broker? place.executor.broker).getD { language := place.executor.language }

end Place

/-- Something that happens to an executor or at the desk of its broker. -/
inductive Occasion where
  /-- Somebody calls a clone of the executor. -/
  | call (purpose : Purpose)
  /-- A call takes a turn. -/
  | poll (receiver : String → Option Nat) (number : Nat)
  /-- The launch that a call waits for has an outcome. -/
  | launched (number : Nat) (outcome : Except TransportError Unit)
  /-- The caller of a call goes away. -/
  | abandon (number : Nat)
  | destroy
  /-- A context does something at its end of the link. -/
  | context (number : Nat) (act : Link.Act SandboxMessage)
  /-- Somebody gives a value to a broker. -/
  | provide (broker : Nat) (value : String)
  /-- A callback is registered at a hook, or the one there is removed. -/
  | register (hook : Nat) (callback : Option Callback)
  /-- Something else happens at the desk, which leaves the broker of the executor alone. -/
  | elsewhere (desk : Desk)

namespace Occasion

/-- What happens to a place on an occasion. -/
def event (place : Place) : Occasion → Event
  | call purpose => .call purpose
  | poll receiver number => .poll receiver number
  | launched number outcome => .launched number outcome
  | abandon number => .abandon number
  | destroy => .destroy
  | context number act => .context number act
  | provide broker value => .desk (place.desk.provide broker value).1
  | register hook callback => .desk (place.desk.setHook hook callback)
  | elsewhere desk =>
    .desk (if desk.broker? place.executor.broker = place.desk.broker? place.executor.broker
      then desk else place.desk)

/-- The call that acts on an occasion. -/
def author? (place : Place) : Occasion → Option Nat
  | call _ => some place.executor.calls.length
  | poll _ number | launched number _ | abandon number => some number
  | destroy | context _ _ | provide _ _ | register _ _ | elsewhere _ => none

/-- The values that a request may get on an occasion: one that the broker accepts, and in the
turn of a call the value of the callback, or nothing if none is registered. -/
def given (place : Place) : Occasion → List String
  | provide broker value =>
    if broker = place.executor.broker ∧ (place.desk.provide broker value).2 = true then [value]
    else []
  | poll receiver _ => place.desk.ways receiver place.executor.broker place.executor.broker
  | call _ | launched _ _ | abandon _ | destroy | context _ _ | register _ _ | elsewhere _ => []

end Occasion

/-- An executor with the desk of its broker, and what its runs asked and passed on. -/
structure Correspondence where
  place : Place
  ledger : Ledger Nat := {}

namespace Correspondence

/-- An executor that nobody has called yet, with a new broker of a desk. -/
def fresh (desk : Desk) (hook : Nat) (language : String) : Correspondence where
  place := .fresh (desk.addBroker hook language).1 language (desk.addBroker hook language).2

/-- What was asked and passed on up to an occasion and on it. -/
def step (correspondence : Correspondence) (occasion : Occasion) : Correspondence :=
  let before := correspondence.place
  let after := before.step (occasion.event before)
  { place := after
    ledger := correspondence.ledger.note before.broker after.broker (occasion.given before)
      (occasion.author? before) (before.executor.responses after.executor) }

def run (correspondence : Correspondence) (occasions : List Occasion) : Correspondence :=
  occasions.foldl step correspondence

/-- What holds on every occasion. -/
structure Upheld (correspondence : Correspondence) : Prop where
  coherent : correspondence.place.executor.Coherent
  sound : ∃ broker,
    correspondence.place.desk.broker? correspondence.place.executor.broker = some broker ∧
      correspondence.ledger.Sound broker correspondence.place.executor.isDestroyed
        correspondence.place.executor.holding

end Correspondence

/-! ## Occasions -/

section Occasions

variable {executor : Executor} {number : Nat}

/-- Only the holder of the lock has code that runs. -/
theorem Executor.Coherent.eq_of_during (coherent : executor.Coherent)
    (held : executor.lock.holder = some number) {run : Nat} {tickets : List Nat}
    (isDuring : executor.holding run = .during tickets) : run = number := by
  simp only [Executor.holding] at isDuring
  cases called : executor.phase? run with
  | none => simp [called] at isDuring
  | some phase =>
      have inside : phase.isInside = true := by
        rw [called] at isDuring
        cases phase <;> simp_all [Phase.holding, Phase.isInside]
      exact Option.some.inj ((coherent.holder_of_inside called inside).symm.trans held)

theorem Place.broker_of_found {place : Place} {broker : Broker}
    (found : place.desk.broker? place.executor.broker = some broker) : place.broker = broker := by
  rw [Place.broker, found, Option.getD_some]

end Occasions

namespace Correspondence

section Steps

variable {correspondence : Correspondence}

/-- A call takes a turn. -/
theorem Upheld.dealt (upheld : correspondence.Upheld) {receiver : String → Option Nat}
    {number : Nat} {desk' : Desk} {after : Executor}
    (dealt : correspondence.place.executor.Dealt receiver correspondence.place.desk number desk'
      after)
    (coherent : after.Coherent)
    (alone : desk' = correspondence.place.desk ∨ ∀ run tickets,
      correspondence.place.executor.holding run = .during tickets → run = number)
    {given : List String}
    (lawful : correspondence.place.executor.holding number ≠ .before →
      correspondence.place.desk.ways receiver correspondence.place.executor.broker
        correspondence.place.executor.broker ⊆ given) :
    Upheld ⟨⟨desk', after⟩, correspondence.ledger.note correspondence.place.broker
      (Place.broker ⟨desk', after⟩) given (some number)
      (correspondence.place.executor.responses after)⟩ := by
  obtain ⟨broker, found, sound⟩ := upheld.sound
  obtain ⟨next, reached, sound'⟩ := sound.deals found dealt.deals alone lawful
  rw [← dealt.broker] at reached
  refine ⟨coherent, next, reached, ?_⟩
  have holding : after.holding = Ledger.update correspondence.place.executor.holding number
      (after.holding number) := by
    funext other
    by_cases own : other = number
    · rw [own, Ledger.update_self]
    · rw [dealt.others other own]
      exact (if_neg own).symm
  rw [Place.broker_of_found found, Place.broker_of_found reached, holding, dealt.destroyed]
  exact sound'

/-- Nothing comes of an occasion as far as the broker and the calls are concerned. -/
theorem Upheld.aside (upheld : correspondence.Upheld) {place : Place}
    (coherent : place.executor.Coherent)
    (broker : place.executor.broker = correspondence.place.executor.broker)
    (same : place.desk.broker? correspondence.place.executor.broker =
      correspondence.place.desk.broker? correspondence.place.executor.broker)
    (calls : place.executor.calls = correspondence.place.executor.calls)
    (destroyed : place.executor.isDestroyed = correspondence.place.executor.isDestroyed)
    (silent : correspondence.place.executor.responses place.executor = []) (given : List String)
    (author : Option Nat) :
    Upheld ⟨place, correspondence.ledger.note correspondence.place.broker place.broker given author
      (correspondence.place.executor.responses place.executor)⟩ := by
  obtain ⟨kept, found, sound⟩ := upheld.sound
  have still : place.desk.broker? place.executor.broker = some kept := by
    rw [broker, same, found]
  refine ⟨coherent, kept, still, ?_⟩
  have holding : place.executor.holding = correspondence.place.executor.holding :=
    funext (Executor.holding_congr calls)
  rw [Place.broker_of_found found, Place.broker_of_found still, silent, destroyed, holding]
  exact sound.aside given author

/-- Nothing happens to the executor, and somebody may give a value to its broker. -/
theorem Upheld.provide (upheld : correspondence.Upheld) (number : Nat) (value : String) :
    (correspondence.step (.provide number value)).Upheld := by
  obtain ⟨broker, found, sound⟩ := upheld.sound
  have silent : correspondence.place.executor.responses correspondence.place.executor = [] :=
    (Executor.mute_congr rfl).responses
  by_cases own : number = correspondence.place.executor.broker
  · have reached : (correspondence.place.desk.provide number value).1.broker?
        correspondence.place.executor.broker = some (broker.provide value).1 := by
      rw [Desk.broker?_provide, if_pos own.symm, found]
      rfl
    refine ⟨upheld.coherent, _, reached, ?_⟩
    simp only [Correspondence.step, Occasion.event, Occasion.author?, Place.step,
      Place.broker_of_found found]
    rw [Place.broker_of_found reached, silent]
    apply sound.provide
    intro accepted
    have taken : (correspondence.place.desk.provide number value).2 = true := by
      rw [Desk.accepted_provide, own, found]
      exact accepted
    simp [Occasion.given, own, own ▸ taken]
  · have coherent := Place.coherent_step upheld.coherent
      (.desk (correspondence.place.desk.provide number value).1)
    refine upheld.aside coherent rfl ?_ rfl rfl silent _ _
    exact (Desk.broker?_provide _ _ _ _).trans (if_neg fun same => own same.symm)

/-- A caller goes away. -/
theorem Upheld.abandon (upheld : correspondence.Upheld) (number : Nat) :
    (correspondence.step (.abandon number)).Upheld := by
  have coherent := upheld.coherent.abandon correspondence.place.desk number
  obtain ⟨broker, destroyed, silent⟩ :=
    correspondence.place.executor.abandon_frame correspondence.place.desk number
  cases called : correspondence.place.executor.phase? number with
  | none =>
      obtain ⟨desk, calls⟩ :=
        Executor.abandon_of_uncalled called correspondence.place.desk
      refine upheld.aside coherent broker ?_ calls destroyed silent _ _
      change (correspondence.place.executor.abandon correspondence.place.desk number).1.broker? _ = _
      rw [desk, Desk.broker?_modify, if_pos rfl, Option.map_id]
      rfl
  | some phase =>
      cases ended : (correspondence.place.executor.outcome? number).isSome with
      | true =>
          have nothing : correspondence.place.step (.abandon number) = correspondence.place := by
            simp [Place.step, Executor.abandon, ended]
          simp only [Correspondence.step, Occasion.event, nothing]
          exact upheld.aside upheld.coherent rfl rfl rfl rfl
            (Executor.mute_congr rfl).responses _ _
      | false =>
          obtain ⟨kept, found, sound⟩ := upheld.sound
          obtain ⟨desk, holding⟩ :=
            Executor.abandon_of_called called ended correspondence.place.desk
          have reached : (correspondence.place.executor.abandon correspondence.place.desk
              number).1.broker? (correspondence.place.executor.abandon correspondence.place.desk
                number).2.broker = some ((correspondence.place.executor.holding
                  number).tickets.foldl Broker.abandon kept) := by
            rw [broker, desk, Desk.abandonAll, Desk.broker?_modify_self found]
          refine ⟨coherent, _, reached, ?_⟩
          have gone : (correspondence.place.executor.abandon correspondence.place.desk
              number).2.holding =
              Ledger.update correspondence.place.executor.holding number .ended := funext holding
          simp only [Correspondence.step, Occasion.event, Occasion.author?, Occasion.given,
            Place.step]
          rw [Place.broker_of_found found, Place.broker_of_found reached, silent, destroyed, gone]
          exact sound.quit number []

/-- The executor is destroyed, which closes what is left open at its broker. -/
theorem Upheld.destroy (upheld : correspondence.Upheld) :
    (correspondence.step .destroy).Upheld := by
  have coherent := upheld.coherent.destroy correspondence.place.desk
  cases ended : correspondence.place.executor.isDestroyed with
  | true =>
      have nothing : correspondence.place.step .destroy = correspondence.place := by
        simp [Place.step, Executor.destroy, ended]
      simp only [Correspondence.step, Occasion.event, nothing]
      exact upheld.aside upheld.coherent rfl rfl rfl rfl (Executor.mute_congr rfl).responses _ _
  | false =>
      obtain ⟨kept, found, sound⟩ := upheld.sound
      obtain ⟨desk, destroyed, broker, calls, silent⟩ :=
        Executor.destroy_of_stands ended correspondence.place.desk
      have reached : (correspondence.place.executor.destroy correspondence.place.desk).1.broker?
          (correspondence.place.executor.destroy correspondence.place.desk).2.broker =
            some kept.reset := by
        rw [broker, desk, Desk.broker?_modify_self found]
      refine ⟨coherent, _, reached, ?_⟩
      have holding := funext (Executor.holding_congr calls)
      simp only [Correspondence.step, Occasion.event, Occasion.author?, Occasion.given,
        Place.step]
      rw [Place.broker_of_found found, Place.broker_of_found reached, silent, destroyed, holding]
      exact sound.withdraw []

/-- A call takes a turn. -/
theorem Upheld.poll (upheld : correspondence.Upheld) (receiver : String → Option Nat)
    (number : Nat) : (correspondence.step (.poll receiver number)).Upheld := by
  have coherent := Place.coherent_step upheld.coherent (.poll receiver number)
  cases turned : correspondence.place.executor.turn receiver correspondence.place.desk number with
  | none =>
      have nothing : correspondence.place.step (.poll receiver number) = correspondence.place := by
        simp [Place.step, turned]
      simp only [Correspondence.step, Occasion.event, nothing]
      exact upheld.aside upheld.coherent rfl rfl rfl rfl (Executor.mute_congr rfl).responses _ _
  | some turn =>
      obtain ⟨desk, after⟩ := turn
      have next : correspondence.place.step (.poll receiver number) = ⟨desk, after⟩ := by
        simp [Place.step, turned]
      simp only [Correspondence.step, Occasion.event, next]
      rw [next] at coherent
      have held := upheld.coherent.holder_of_turn turned
      exact upheld.dealt (Executor.dealt_turn receiver turned) coherent
        (.inr fun run tickets => upheld.coherent.eq_of_during held) fun _ _ => id

/-- The launch that a call waits for has an outcome. -/
theorem Upheld.launched (upheld : correspondence.Upheld) (number : Nat)
    (outcome : Except TransportError Unit) :
    (correspondence.step (.launched number outcome)).Upheld := by
  have coherent := Place.coherent_step upheld.coherent (.launched number outcome)
  cases launching : correspondence.place.executor.isLaunching number with
  | false =>
      have nothing : correspondence.place.step (.launched number outcome) =
          correspondence.place := by
        simp [Place.step, launching]
      simp only [Correspondence.step, Occasion.event, nothing]
      exact upheld.aside upheld.coherent rfl rfl rfl rfl (Executor.mute_congr rfl).responses _ _
  | true =>
      have called := Place.isInside_of_isLaunching launching
      have held := upheld.coherent.holder_of_inside called rfl
      have waits : correspondence.place.executor.holding number = .before :=
        Executor.holding_of_phase? called
      simp only [Place.step, launching, if_true] at coherent
      simp only [Correspondence.step, Occasion.event, Place.step, launching, if_true]
      exact upheld.dealt (Executor.dealt_launched (fun _ => none) called _ _ outcome) coherent
        (.inr fun run tickets => upheld.coherent.eq_of_during held) fun began =>
          absurd waits began

/-- Somebody calls the executor. -/
theorem Upheld.call (upheld : correspondence.Upheld) (purpose : Purpose) :
    (correspondence.step (.call purpose)).Upheld := by
  have coherent := upheld.coherent.call correspondence.place.desk purpose
  refine upheld.dealt (Executor.dealt_call (fun _ => none) _ _ purpose) coherent ?_ ?_
  · rcases correspondence.place.executor.call_eq correspondence.place.desk purpose with
      ⟨outcome, -, -, called⟩ | ⟨turned, first, called⟩
    · exact .inl (by rw [called])
    · rw [called, first]
      cases turn : Executor.turnQueued correspondence.place.desk
          (correspondence.place.executor.ask purpose)
          correspondence.place.executor.calls.length purpose with
      | none => exact .inl rfl
      | some after =>
          have held := Executor.holder_of_turnQueued turn
          refine .inr fun run tickets isDuring => ?_
          rw [← Executor.holding_ask _ purpose] at isDuring
          exact (upheld.coherent.ask purpose).eq_of_during held isDuring
  · intro began
    exact absurd (by simp [Executor.holding, Executor.phase?]) began

/-- Every occasion keeps what holds. -/
theorem Upheld.step (upheld : correspondence.Upheld) (occasion : Occasion) :
    (correspondence.step occasion).Upheld := by
  have coherent := Place.coherent_step upheld.coherent (occasion.event correspondence.place)
  cases occasion with
  | call purpose => exact upheld.call purpose
  | poll receiver number => exact upheld.poll receiver number
  | launched number outcome => exact upheld.launched number outcome
  | abandon number => exact upheld.abandon number
  | destroy => exact upheld.destroy
  | context number act =>
      exact upheld.aside coherent rfl rfl rfl rfl (Executor.responses_act _ number act) _ _
  | provide number value => exact upheld.provide number value
  | register hook callback =>
      exact upheld.aside coherent rfl rfl rfl rfl (Executor.mute_congr rfl).responses _ _
  | elsewhere desk =>
      refine upheld.aside coherent rfl ?_ rfl rfl (Executor.mute_congr rfl).responses _ _
      simp only [Occasion.event, Place.step]
      split
      · assumption
      · rfl

end Steps

theorem upheld_fresh (desk : Desk) (hook : Nat) (language : String) :
    (fresh desk hook language).Upheld where
  coherent := Executor.coherent_fresh language _
  sound := by
    refine ⟨{ language }, by simp [fresh, Place.fresh, Desk.addBroker, Desk.broker?], ?_⟩
    exact Ledger.sound_fresh language false

theorem upheld_run {correspondence : Correspondence} (upheld : correspondence.Upheld)
    (occasions : List Occasion) : (correspondence.run occasions).Upheld := by
  induction occasions generalizing correspondence with
  | nil => exact upheld
  | cons occasion occasions ih => exact ih (upheld.step occasion)

/-- Whatever happens to an executor, what each run sends to its context are the values of its
requests, in order. -/
theorem inOrder_run (desk : Desk) (hook : Nat) (language : String) (occasions : List Occasion) :
    ((fresh desk hook language).run occasions).ledger.InOrder := by
  obtain ⟨broker, -, sound⟩ := (upheld_run (upheld_fresh desk hook language) occasions).sound
  exact sound.inOrder

example : (((fresh { hooks := [⟨some ⟨"ask", [], ""⟩⟩] } 0 "javascript").run
    [.call (.execute ""), .launched 0 (.ok ()), .context 0 (.say (.inputRequest "Name?")),
      .poll (fun _ => none) 0, .provide 0 "Ada",
      .poll (fun _ => none) 0]).ledger.exchanges 0).sent = ["Ada"] := by
  decide

end Correspondence

end Polyglot.Sandbox
