import Polyglot.Proofs.Worker.Bench

/-!
# The correspondence of workers with their interpreters

Runs on workers ask for input, and the workers answer.  Whoever gives values, whatever
callbacks are registered, and whenever a run is cancelled, its caller goes away or the owner
of its broker is destroyed: what a run sends to its relay are the values of its requests, in
order, no run gets a value of another, and relays pass everything on in the order in which
it was sent.
-/

namespace Polyglot.Worker

namespace Occasion

/-- The run that acts on an occasion, with the number of its broker. -/
def caller? (bench : Bench) : Occasion → Option ((Nat × Nat) × Nat)
  | run handle broker _ =>
    if bench.isFree handle broker then
      bench.handles[handle]?.map fun worker => ((handle, worker.runs.length), broker)
    else none
  | poll _ _ handle call | abandon handle call =>
    (bench.broker? handle call).map fun broker => ((handle, call), broker)
  | hire _ _ | destroy _ | stir _ _ | provide _ _ | register _ _ => none

/-- The run with a broker that acts on an occasion. -/
def author? (bench : Bench) (number : Nat) (occasion : Occasion) : Option (Nat × Nat) :=
  ((occasion.caller? bench).filter (·.2 = number)).map (·.1)

/-- The answers that are sent on an occasion and are not those of a run with another broker. -/
def sent (before after : Bench) (number : Nat) (occasion : Occasion) : List String :=
  if (occasion.caller? before).all (·.2 = number) then before.sent after else []

/-- The values that a request to a broker may get on an occasion: one that the broker accepts,
and in the turn of a run the value of the callback, or nothing if none is registered. -/
def given (bench : Bench) (number : Nat) : Occasion → List String
  | provide broker value =>
    if broker = number ∧ (bench.desk.provide broker value).2 = true then [value] else []
  | poll receiver _ handle call =>
    (bench.broker? handle call).elim [] fun broker => bench.desk.ways receiver broker number
  | hire _ _ | run _ _ _ | abandon _ _ | destroy _ | stir _ _ | register _ _ => []

end Occasion

/-- A bench, and what the runs with one of the brokers asked and passed on. -/
structure Correspondence where
  bench : Bench
  /-- The number of the broker. -/
  number : Nat
  /-- Every run with the number of its worker and its number there. -/
  ledger : Ledger (Nat × Nat) := {}
  /-- The answers that each worker put on the line to its relay. -/
  posted : Nat → List String := fun _ => []
  /-- The answers that each relay passed on to its interpreter. -/
  relayed : Nat → List String := fun _ => []

namespace Correspondence

/-- A bench without workers, with a new broker of a desk. -/
def fresh (desk : Desk) (hook : Nat) (language : String) : Correspondence where
  bench := { desk := (desk.addBroker hook language).1 }
  number := (desk.addBroker hook language).2

/-- What was asked and passed on up to an occasion and on it. -/
def step (correspondence : Correspondence) (occasion : Occasion) : Correspondence :=
  let before := correspondence.bench
  let number := correspondence.number
  let after := before.step occasion
  { bench := after
    number
    ledger := correspondence.ledger.note (before.broker number) (after.broker number)
      (occasion.given before number) (occasion.author? before number)
      (occasion.sent before after number)
    posted := fun handle => correspondence.posted handle ++ before.responses after handle
    relayed := fun handle => correspondence.relayed handle ++
      (before.worker handle).forwards (after.worker handle) }

def run (correspondence : Correspondence) (occasions : List Occasion) : Correspondence :=
  occasions.foldl step correspondence

/-- What holds of the runs on every occasion. -/
structure Upheld (correspondence : Correspondence) : Prop where
  listens : ∀ handle, (correspondence.bench.worker handle).Listens
  /-- The broker serves the runs of one worker at a time. -/
  apart : ∀ first second, correspondence.bench.uses first correspondence.number = true →
    correspondence.bench.uses second correspondence.number = true → first = second
  sound : ∃ broker,
    correspondence.bench.desk.broker? correspondence.number = some broker ∧
      correspondence.ledger.Sound broker
        (correspondence.bench.destroyed correspondence.number)
        (correspondence.bench.holding correspondence.number)

/-- What holds of the relays on every occasion. -/
def Delivers (correspondence : Correspondence) : Prop :=
  ∀ handle, (correspondence.bench.worker handle).Relays (correspondence.posted handle)
    (correspondence.relayed handle)

end Correspondence

namespace Occasion

variable {bench after : Bench} {number broker : Nat} {caller : Nat × Nat} {occasion : Occasion}

theorem author?_of_caller? (acts : occasion.caller? bench = some (caller, broker)) :
    occasion.author? bench number = if broker = number then some caller else none := by
  by_cases own : broker = number <;> simp [author?, acts, own]

theorem sent_of_caller? (acts : occasion.caller? bench = some (caller, broker)) :
    occasion.sent bench after number = if broker = number then bench.sent after else [] := by
  by_cases own : broker = number <;> simp [Occasion.sent, acts, own]

end Occasion

namespace Correspondence

theorem Delivers.step {correspondence : Correspondence}
    (delivers : correspondence.Delivers) (occasion : Occasion) :
    (correspondence.step occasion).Delivers := by
  intro handle
  exact correspondence.bench.conveys_step occasion handle _ _ (delivers handle)

theorem delivers_fresh (desk : Desk) (hook : Nat) (language : String) :
    (fresh desk hook language).Delivers :=
  fun _ => .stands rfl rfl

section Steps

variable {correspondence : Correspondence} {posted relayed : Nat → List String}

/-- Nothing comes of an occasion as far as the broker and the runs are concerned. -/
theorem Upheld.aside (upheld : correspondence.Upheld) {bench : Bench}
    (listens : ∀ handle, (bench.worker handle).Listens)
    (uses : ∀ handle, bench.uses handle correspondence.number = true →
      correspondence.bench.uses handle correspondence.number = true)
    (same : bench.desk.broker? correspondence.number =
      correspondence.bench.desk.broker? correspondence.number)
    (destroyed : bench.destroyed correspondence.number =
      correspondence.bench.destroyed correspondence.number)
    (holding : bench.holding correspondence.number =
      correspondence.bench.holding correspondence.number)
    (given : List String) (author : Option (Nat × Nat)) :
    Upheld ⟨bench, correspondence.number, correspondence.ledger.note
      (correspondence.bench.broker correspondence.number) (bench.broker correspondence.number)
      given author [], posted, relayed⟩ := by
  obtain ⟨broker, found, sound⟩ := upheld.sound
  refine ⟨listens, fun first second isFirst isSecond =>
    upheld.apart first second (uses first isFirst) (uses second isSecond), broker, ?_, ?_⟩
  · exact same.trans found
  · simp only [Bench.broker, same, found, Option.getD_some, destroyed, holding]
    exact sound.aside given author

/-- No run gets anywhere, and nothing is sent. -/
theorem Upheld.settled (upheld : correspondence.Upheld) {bench : Bench}
    (settles : correspondence.bench.Settles bench)
    (same : bench.desk.broker? correspondence.number =
      correspondence.bench.desk.broker? correspondence.number)
    (destroyed : bench.destroyed correspondence.number =
      correspondence.bench.destroyed correspondence.number)
    (given : List String) (author : Option (Nat × Nat)) :
    Upheld ⟨bench, correspondence.number, correspondence.ledger.note
      (correspondence.bench.broker correspondence.number) (bench.broker correspondence.number)
      given author [], posted, relayed⟩ :=
  upheld.aside (settles.listens upheld.listens) (fun other => (settles.uses other _).mp) same
    destroyed (settles.holding _) given author

/-- A value comes to the broker from elsewhere. -/
theorem Upheld.provided (upheld : correspondence.Upheld) {bench : Bench}
    (listens : ∀ handle, (bench.worker handle).Listens)
    (uses : ∀ handle, bench.uses handle correspondence.number = true →
      correspondence.bench.uses handle correspondence.number = true)
    {value : String} (same : bench.desk.broker? correspondence.number =
      (correspondence.bench.desk.broker? correspondence.number).map fun broker =>
        (broker.provide value).1)
    (destroyed : bench.destroyed correspondence.number =
      correspondence.bench.destroyed correspondence.number)
    (holding : bench.holding correspondence.number =
      correspondence.bench.holding correspondence.number)
    {given : List String}
    (lawful : ((correspondence.bench.broker correspondence.number).provide value).2 = true →
      value ∈ given) :
    Upheld ⟨bench, correspondence.number, correspondence.ledger.note
      (correspondence.bench.broker correspondence.number) (bench.broker correspondence.number)
      given none [], posted, relayed⟩ := by
  obtain ⟨broker, found, sound⟩ := upheld.sound
  rw [found] at same
  refine ⟨listens, fun first second isFirst isSecond =>
    upheld.apart first second (uses first isFirst) (uses second isSecond), _, same, ?_⟩
  simp only [Bench.broker, found, Option.getD_some] at lawful
  simp only [Bench.broker, same, found, Option.map_some, Option.getD_some, destroyed, holding]
  exact sound.provide lawful

/-- A run takes a turn. -/
theorem Upheld.dealt (upheld : correspondence.Upheld) {handle number : Nat}
    {worker after : Handle} {desk' : Desk} {run : Run} {next : Phase} {values : List String}
    {receiver : String → Option Nat}
    (found : correspondence.bench.handles[handle]? = some worker)
    (advances : worker.Advances number run next after) (listens : after.Listens)
    (sends : worker.responses after = values)
    (deals : correspondence.bench.desk.Deals receiver run.broker
      (correspondence.bench.destroyed run.broker) run.phase.holding desk' next.holding values)
    (sole : run.broker = correspondence.number → ∀ other,
      correspondence.bench.uses other correspondence.number = true → other = handle)
    (alone : desk' = correspondence.bench.desk ∨ ∀ other tickets,
      worker.holdingOf correspondence.number other = .during tickets → other = number)
    {given : List String}
    (lawful : run.phase.holding ≠ .before → correspondence.bench.desk.ways receiver run.broker
      correspondence.number ⊆ given) :
    Upheld ⟨correspondence.bench.put handle desk' after, correspondence.number,
      correspondence.ledger.note (correspondence.bench.broker correspondence.number)
        ((correspondence.bench.put handle desk' after).broker correspondence.number) given
        (if run.broker = correspondence.number then some (handle, number) else none)
        (if run.broker = correspondence.number then
          correspondence.bench.sent (correspondence.bench.put handle desk' after) else []),
      posted, relayed⟩ := by
  have moves := Bench.advances_put found advances desk'
  have listens' := Bench.listens_put found desk' upheld.listens listens
  by_cases own : run.broker = correspondence.number
  · obtain ⟨broker, reached, sound⟩ := upheld.sound
    have before := (moves.was correspondence.number).trans (if_pos own)
    rw [← before, own] at deals
    rw [← before, own] at lawful
    have only : desk' = correspondence.bench.desk ∨ ∀ (caller : Nat × Nat) (tickets : List Nat),
        correspondence.bench.holding correspondence.number caller = .during tickets →
        caller = (handle, number) := by
      refine alone.imp_right fun alone caller tickets isDuring => ?_
      have here := sole own caller.1 (Handle.uses_of_during isDuring)
      refine Prod.ext here (alone caller.2 tickets ?_)
      rw [← isDuring, Bench.holding, here, Bench.worker_of_found found]
    obtain ⟨kept, reached', sound'⟩ := sound.deals reached deals only lawful
    refine ⟨listens', ?_, kept, reached', ?_⟩
    · intro first second isFirst isSecond
      have isHere : ∀ other, (correspondence.bench.put handle desk' after).uses other
          correspondence.number = true → other = handle := fun other isUsed =>
        (moves.uses other _ isUsed).elim (sole own other) (·.1)
      rw [isHere first isFirst, isHere second isSecond]
    · have now : (correspondence.bench.put handle desk' after).broker correspondence.number =
          kept := Bench.broker_of_found reached'
      rw [if_pos own, if_pos own, Bench.sent_put found, sends, Bench.broker_of_found reached, now,
        moves.holding, if_pos own]
      exact sound'
  · have uses := fun other isUsed =>
      (moves.uses other correspondence.number isUsed).resolve_right fun moved => own moved.2
    have holding := (moves.holding correspondence.number).trans (if_neg own)
    rw [if_neg own, if_neg own]
    rcases deals.elsewhere fun same => own same.symm with same | ⟨began, value, way, same⟩
    · exact upheld.aside listens' uses same rfl holding given none
    · exact upheld.provided listens' uses same rfl holding fun _ => lawful began way

/-- Nobody gets anywhere on an occasion. -/
theorem Upheld.stay (upheld : correspondence.Upheld) {occasion : Occasion}
    (settles : correspondence.bench.Settles (correspondence.bench.step occasion))
    (same : (correspondence.bench.step occasion).desk.broker? correspondence.number =
      correspondence.bench.desk.broker? correspondence.number)
    (destroyed : (correspondence.bench.step occasion).destroyed correspondence.number =
      correspondence.bench.destroyed correspondence.number) :
    (correspondence.step occasion).Upheld := by
  have silent : occasion.sent correspondence.bench (correspondence.bench.step occasion)
      correspondence.number = [] := by
    rw [Occasion.sent, Bench.sent_nil settles.silent, ite_self]
  simp only [Correspondence.step, silent]
  exact upheld.settled settles same destroyed _ _

/-- Nothing happens at the bench. -/
theorem Upheld.rest (upheld : correspondence.Upheld) {occasion : Occasion}
    (nothing : correspondence.bench.step occasion = correspondence.bench) :
    (correspondence.step occasion).Upheld := by
  apply upheld.stay
  · rw [nothing]
    exact Bench.settles_of_same fun _ => rfl
  · rw [nothing]
  · rw [nothing]

/-- A run takes a turn. -/
theorem Upheld.poll (upheld : correspondence.Upheld) (receiver : String → Option Nat)
    (cancelled : Bool) (handle number : Nat) :
    (correspondence.step (.poll receiver cancelled handle number)).Upheld := by
  cases found : correspondence.bench.handles[handle]? with
  | none => exact upheld.rest (by simp [Bench.step, found])
  | some worker =>
      have at_ := Bench.worker_of_found found
      cases turned : worker.turn receiver (cancelled ||
          (worker.broker? number).any correspondence.bench.destroyed) correspondence.bench.desk
          number with
      | none => exact upheld.rest (by simp [Bench.step, found, turned])
      | some turn =>
          obtain ⟨desk', after⟩ := turn
          have listens := upheld.listens handle
          rw [at_] at listens
          have heeds : ∀ run, worker.runs[number]? = some run →
              (cancelled || (worker.broker? number).any correspondence.bench.destroyed) = false →
              correspondence.bench.destroyed run.broker = false := by
            intro run called goesOn
            simp only [Handle.broker?, called, Option.map_some, Option.any_some,
              Bool.or_eq_false_iff] at goesOn
            exact goesOn.2
          obtain ⟨run, called, goesOn, next, values, dealt⟩ :=
            Handle.dealt_turn receiver correspondence.bench.destroyed heeds turned
          have isBroker : correspondence.bench.broker? handle number = some run.broker := by
            rw [Bench.broker?, at_, Handle.broker?, called, Option.map_some]
          have advances := Handle.advances_setPhase called goesOn dealt.runs
          have isUsed : correspondence.bench.uses handle run.broker = true := by
            rw [Bench.uses, at_]
            exact Handle.uses_of_getElem? called goesOn
          have after' : correspondence.bench.step (.poll receiver cancelled handle number) =
              correspondence.bench.put handle desk' after := by
            simp [Bench.step, found, turned]
          have acts : (Occasion.poll receiver cancelled handle number).caller?
              correspondence.bench = some ((handle, number), run.broker) := by
            rw [Occasion.caller?, isBroker, Option.map_some]
          simp only [Correspondence.step, after', Occasion.author?_of_caller? acts,
            Occasion.sent_of_caller? acts]
          refine upheld.dealt found advances
            ((Handle.deed_turn listens turned).spares.listens listens) dealt.posts.responses
            dealt.deals ?_ (.inr ?_) ?_
          · intro own other alsoUsed
            exact upheld.apart other handle alsoUsed (own ▸ isUsed)
          · intro other tickets isDuring
            have held := listens.holder_of_turn turned
            exact Option.some.inj ((listens.holder_of_during isDuring).symm.trans held)
          · intro _
            rw [Occasion.given, isBroker]
            exact List.Subset.refl _

/-- Somebody runs code on a worker, while no run on another worker uses the broker. -/
theorem Upheld.run (upheld : correspondence.Upheld) (handle broker : Nat) (code : String) :
    (correspondence.step (.run handle broker code)).Upheld := by
  cases found : correspondence.bench.handles[handle]? with
  | none => exact upheld.rest (by simp [Bench.step, found])
  | some worker =>
      cases free : correspondence.bench.isFree handle broker with
      | false => exact upheld.rest (by simp [Bench.step, found, free])
      | true =>
          have listens := upheld.listens handle
          rw [Bench.worker_of_found found] at listens
          obtain ⟨next, values, dealt⟩ := Handle.dealt_run (fun _ => none)
            (correspondence.bench.destroyed broker) worker correspondence.bench.desk broker code
          have after' : correspondence.bench.step (.run handle broker code) =
              correspondence.bench.put handle
                (worker.run correspondence.bench.desk broker code).1
                (worker.run correspondence.bench.desk broker code).2.1 := by
            simp [Bench.step, found, free]
          have acts : (Occasion.run handle broker code).caller? correspondence.bench =
              some ((handle, worker.runs.length), broker) := by
            simp [Occasion.caller?, free, found]
          have asked : worker.Posts (worker.ask broker code) [] :=
            Handle.posts_nil rfl rfl rfl rfl
          simp only [Correspondence.step, after', Occasion.author?_of_caller? acts,
            Occasion.sent_of_caller? acts]
          refine upheld.dealt found (Handle.advances_ask broker code dealt.runs)
            ((Handle.deed_run listens _ broker code).spares.listens listens)
            (asked.trans dealt.posts).responses dealt.deals ?_ ?_ ?_
          · intro own other isUsed
            have own : broker = correspondence.number := own
            rw [← own] at isUsed
            exact Bench.eq_of_isFree free isUsed
          · exact (Handle.desk_run listens _ broker code).imp_right fun alone => alone _
          · exact fun began => absurd rfl began

/-- The caller of a run goes away. -/
theorem Upheld.abandon (upheld : correspondence.Upheld) (handle number : Nat) :
    (correspondence.step (.abandon handle number)).Upheld := by
  cases found : correspondence.bench.handles[handle]? with
  | none => exact upheld.rest (by simp [Bench.step, found])
  | some worker =>
      have after' : correspondence.bench.step (.abandon handle number) =
          correspondence.bench.put handle (worker.abandon correspondence.bench.desk number).1
            (worker.abandon correspondence.bench.desk number).2 := by
        simp [Bench.step, found]
      rcases worker.abandon_cases correspondence.bench.desk number with
        nothing | ⟨run, called, goesOn, runs, brokers⟩
      · rw [nothing] at after'
        apply upheld.stay
        · rw [after']
          exact Bench.settles_put found _
        · rw [after']
          rfl
        · rw [after']
          rfl
      · have silent : worker.responses (worker.abandon correspondence.bench.desk number).2 = [] :=
          (worker.posts_abandon correspondence.bench.desk number).responses
        have advances := Handle.advances_setPhase called goesOn runs
        have moves := Bench.advances_put found advances
          (worker.abandon correspondence.bench.desk number).1
        have isBroker : correspondence.bench.broker? handle number = some run.broker := by
          rw [Bench.broker?, Bench.worker_of_found found, Handle.broker?, called, Option.map_some]
        have acts : (Occasion.abandon handle number).caller? correspondence.bench =
            some ((handle, number), run.broker) := by
          rw [Occasion.caller?, isBroker, Option.map_some]
        have isUsed : correspondence.bench.uses handle run.broker = true := by
          rw [Bench.uses, Bench.worker_of_found found]
          exact Handle.uses_of_getElem? called goesOn
        have uses : ∀ other broker, (correspondence.bench.put handle _ _).uses other broker = true →
            correspondence.bench.uses other broker = true := fun other broker isUsedAfter =>
          (moves.uses other broker isUsedAfter).elim id fun moved => moved.1 ▸ moved.2 ▸ isUsed
        have listens := upheld.listens handle
        rw [Bench.worker_of_found found] at listens
        have listens' := Bench.listens_put found
          (worker.abandon correspondence.bench.desk number).1 upheld.listens
          ((worker.lingers_abandon correspondence.bench.desk number).listens listens)
        simp only [Correspondence.step, after', Occasion.author?_of_caller? acts,
          Occasion.sent_of_caller? acts, Bench.sent_put found, silent, ite_self]
        by_cases own : run.broker = correspondence.number
        · obtain ⟨broker, reached, sound⟩ := upheld.sound
          have before := (moves.was correspondence.number).trans (if_pos own)
          have reached' : (correspondence.bench.put handle
              (worker.abandon correspondence.bench.desk number).1
              (worker.abandon correspondence.bench.desk number).2).desk.broker?
              correspondence.number =
                some (run.phase.holding.tickets.foldl Broker.abandon broker) := by
            change (worker.abandon correspondence.bench.desk number).1.broker? _ = _
            rw [brokers, if_pos own.symm, reached, Option.map_some]
          refine ⟨listens', fun first second isFirst isSecond => upheld.apart first second
            (uses first _ isFirst) (uses second _ isSecond), _, reached', ?_⟩
          rw [if_pos own, Bench.broker_of_found reached, Bench.broker_of_found reached',
            moves.holding, if_pos own, ← before]
          exact sound.quit (handle, number) _
        · rw [if_neg own]
          refine upheld.aside listens' (fun other => uses other _) ?_ rfl
            ((moves.holding correspondence.number).trans (if_neg own)) _ none
          change (worker.abandon correspondence.bench.desk number).1.broker? _ = _
          rw [brokers, if_neg fun same => own same.symm]

/-- The owner of a broker is destroyed, which closes what is open at the broker. -/
theorem Upheld.destroy (upheld : correspondence.Upheld) (broker : Nat) :
    (correspondence.step (.destroy broker)).Upheld := by
  have settles : correspondence.bench.Settles (correspondence.bench.step (.destroy broker)) :=
    Bench.settles_of_same fun _ => rfl
  by_cases own : correspondence.number = broker
  · obtain ⟨kept, reached, sound⟩ := upheld.sound
    have reached' : (correspondence.bench.step (.destroy broker)).desk.broker?
        correspondence.number = some kept.reset := by
      simp only [Bench.step]
      rw [Desk.broker?_modify, if_pos own, reached, Option.map_some]
    have silent : (Occasion.destroy broker).sent correspondence.bench
        (correspondence.bench.step (.destroy broker)) correspondence.number = [] := by
      rw [Occasion.sent, Bench.sent_nil settles.silent, ite_self]
    refine ⟨settles.listens upheld.listens, fun first second isFirst isSecond =>
      upheld.apart first second ((settles.uses first _).mp isFirst)
        ((settles.uses second _).mp isSecond), _, reached', ?_⟩
    have gone : (correspondence.bench.step (.destroy broker)).destroyed correspondence.number =
        true := by
      simp [Bench.step, own]
    simp only [Correspondence.step]
    rw [Bench.broker_of_found reached, Bench.broker_of_found reached', silent, gone,
      settles.holding]
    exact sound.withdraw _
  · refine upheld.stay settles ?_ ?_
    · simp only [Bench.step]
      rw [Desk.broker?_modify, if_neg own]
    · simp [Bench.step, own]

/-- Somebody gives a value to a broker. -/
theorem Upheld.provide (upheld : correspondence.Upheld) (broker : Nat) (value : String) :
    (correspondence.step (.provide broker value)).Upheld := by
  have settles : correspondence.bench.Settles
      (correspondence.bench.step (.provide broker value)) :=
    Bench.settles_of_same fun _ => rfl
  by_cases own : correspondence.number = broker
  · have silent : (Occasion.provide broker value).sent correspondence.bench
        (correspondence.bench.step (.provide broker value)) correspondence.number = [] := by
      rw [Occasion.sent, Bench.sent_nil settles.silent, ite_self]
    obtain ⟨kept, reached, -⟩ := upheld.sound
    have came : (correspondence.bench.step (.provide broker value)).desk.broker?
        correspondence.number = (correspondence.bench.desk.broker? correspondence.number).map
          fun broker => (broker.provide value).1 := by
      simp only [Bench.step]
      rw [Desk.broker?_provide, if_pos own]
    simp only [Correspondence.step, silent]
    refine upheld.provided (settles.listens upheld.listens)
      (fun other => (settles.uses other _).mp) came rfl (settles.holding _) ?_
    intro accepted
    have taken : (correspondence.bench.desk.provide broker value).2 = true := by
      rw [Desk.accepted_provide, ← own, reached]
      rwa [Bench.broker_of_found reached] at accepted
    simp [Occasion.given, own, taken]
  · refine upheld.stay settles ?_ rfl
    simp only [Bench.step]
    rw [Desk.broker?_provide, if_neg own]

/-- Every occasion keeps what holds of the runs. -/
theorem Upheld.step (upheld : correspondence.Upheld) (occasion : Occasion) :
    (correspondence.step occasion).Upheld := by
  cases occasion with
  | hire language launcher => exact upheld.stay (Bench.settles_hire _ language launcher) rfl rfl
  | run handle broker code => exact upheld.run handle broker code
  | poll receiver cancelled handle number => exact upheld.poll receiver cancelled handle number
  | abandon handle number => exact upheld.abandon handle number
  | destroy broker => exact upheld.destroy broker
  | stir handle stir => exact upheld.stay (Bench.settles_stir _ handle stir) rfl rfl
  | provide broker value => exact upheld.provide broker value
  | register hook callback => exact upheld.stay (Bench.settles_of_same fun _ => rfl) rfl rfl

end Steps

theorem upheld_fresh (desk : Desk) (hook : Nat) (language : String) :
    (fresh desk hook language).Upheld where
  listens _ _ _ hears := by simp [fresh, Bench.worker, Handle.stage, Handle.phase?] at hears
  apart _ _ isUsed := by simp [fresh, Bench.uses, Bench.worker, Handle.uses] at isUsed
  sound := by
    refine ⟨{ language }, by simp [fresh, Desk.addBroker, Desk.broker?], ?_⟩
    exact Ledger.sound_fresh language false

theorem upheld_run {correspondence : Correspondence} (upheld : correspondence.Upheld)
    (occasions : List Occasion) : (correspondence.run occasions).Upheld := by
  induction occasions generalizing correspondence with
  | nil => exact upheld
  | cons occasion occasions ih => exact ih (upheld.step occasion)

theorem delivers_run {correspondence : Correspondence} (delivers : correspondence.Delivers)
    (occasions : List Occasion) : (correspondence.run occasions).Delivers := by
  induction occasions generalizing correspondence with
  | nil => exact delivers
  | cons occasion occasions ih => exact ih (delivers.step occasion)

/-- Whatever happens at a bench, what each run with a broker sends to its relay are the values
of its requests, in order, and every relay passes on in order what is sent to it. -/
theorem inOrder_run (desk : Desk) (hook : Nat) (language : String) (occasions : List Occasion) :
    ((fresh desk hook language).run occasions).ledger.InOrder ∧
      ∀ handle, ((fresh desk hook language).run occasions).relayed handle <+:
        ((fresh desk hook language).run occasions).posted handle := by
  obtain ⟨broker, -, sound⟩ := (upheld_run (upheld_fresh desk hook language) occasions).sound
  refine ⟨sound.inOrder, fun handle => ?_⟩
  exact (delivers_run (delivers_fresh desk hook language) occasions handle).isPrefix

end Correspondence

end Polyglot.Worker
