import Mathlib.Data.List.Induction
import Polyglot.Proofs.Facade.Serving
import Polyglot.Proofs.Host.Sparing

/-!
# Requests that a facade is destroyed under

Whoever destroys a facade withdraws the request in flight, and nothing else does: the
executor of a request in flight is destroyed exactly if the facade was destroyed while the
request was in flight.
-/

namespace Polyglot.Facade

variable {host : Host} {facade : Facade} {executor : Executor}

/-! ## What the facade does with an executor -/

/-- A request is over, or goes on with the same executor, which nobody has destroyed. -/
def Continues (host : Host) (executor : Executor) (after : Host × Facade × Request) : Prop :=
  ∀ same, after.2.2.executor? = some same → same = executor ∧ host.Spares after.1

theorem continues_finish (host : Host) (facade : Facade) (executor : Executor) (outcome : Outcome) :
    Continues host executor (finish host facade executor outcome) := by
  intro same isSame
  contradiction

theorem continues_proceed (host : Host) (facade : Facade) (executor : Executor) (code : String)
    (prepared : Outcome) :
    Continues host executor (proceed host facade executor code prepared) := by
  cases prepared with
  | error cause => exact continues_finish host facade executor _
  | ok ready =>
      simp only [proceed]
      cases (host.call executor (.execute code)).1.outcome?
          (host.call executor (.execute code)).2 with
      | some outcome =>
          intro same isSame
          contradiction
      | none =>
          intro same isSame
          cases isSame
          exact ⟨rfl, (host.effect_call executor _).spares⟩

theorem continues_dispatch (host : Host) (facade : Facade) (executor : Executor) (code : String) :
    Continues host executor (dispatch host facade executor code) := by
  have called := (host.effect_call executor .start).spares
  simp only [dispatch]
  cases (host.call executor .start).1.outcome? (host.call executor .start).2 with
  | some prepared =>
      intro same isSame
      obtain ⟨rfl, spares⟩ := continues_proceed _ _ executor code prepared same isSame
      exact ⟨rfl, called.trans spares⟩
  | none =>
      intro same isSame
      cases isSame
      exact ⟨rfl, called⟩

theorem continues_turn {request : Request} (isExecutor : request.executor? = some executor)
    {receiver : String → Option Nat} {after : Host × Facade × Request}
    (turned : facade.turn receiver host request = some after) : Continues host executor after := by
  cases turned_of_turn turned with
  | @prepared owner code pending prepared ended =>
      cases isExecutor
      exact continues_proceed host facade executor code prepared
  | ended ended =>
      cases isExecutor
      exact continues_finish host facade executor _
  | going isStanding moved =>
      intro same isSame
      cases isExecutor.symm.trans isSame
      exact ⟨rfl, (host.effect_turnCall _ moved).spares⟩

/-- The executor of a new request stands. -/
theorem stands_execute (furnished : host.IsFurnished)
    (known : facade.registry < host.registries.length) (idle : facade.running = false)
    (asked : RunRequest) :
    ∀ executor, (execute host facade asked).2.2.executor? = some executor → ¬executor.IsDeaf →
      ¬(execute host facade asked).1.IsDestroyed executor := by
  have answered (report : Report) (executor : Executor)
      (isExecutor : (Request.finished report).executor? = some executor) (_ : ¬executor.IsDeaf) :
      ¬host.IsDestroyed executor := by
    simp [Request.executor?] at isExecutor
  simp only [execute, idle, Bool.false_eq_true, if_false]
  split
  · exact answered _
  · split
    · exact answered _
    · split
      · exact answered _
      · exact answered _
      · rename_i made executor isMade
        intro same isSame hears destroyed
        obtain ⟨rfl, spares⟩ := continues_dispatch made _ executor asked.code same isSame
        exact (isNew_executorFor furnished known isMade).stands hears
          (spares.isDestroyed hears destroyed)

/-! ## Destruction in a history -/

namespace World

theorem run_append (world : World) (events more : List Event) :
    world.run (events ++ more) = (world.run events).run more :=
  List.foldl_append

/-- The facade was destroyed while a request was in flight. -/
def Withdrawn (start : World) (events : List Event) (number : Nat) : Prop :=
  ∃ before after, events = before ++ .destroy :: after ∧ (start.run before).InFlight number

/-- A request was made and polled, and if it is in flight, its executor was destroyed. -/
def Doomed (world : World) (number : Nat) : Prop :=
  ∃ future, world.futures[number]? = some future ∧ (∀ asked, future ≠ .created asked) ∧
    ∀ asked request executor, future = .polled asked request →
      request.executor? = some executor → world.host.IsDestroyed executor

section Withdrawals

variable {start world : World} {events : List Event} {number : Nat} {asked : RunRequest}
  {request : Request}

theorem Withdrawn.append (withdrawn : start.Withdrawn events number) (more : List Event) :
    start.Withdrawn (events ++ more) number := by
  obtain ⟨before, after, rfl, inFlight⟩ := withdrawn
  exact ⟨before, after ++ more, by simp, inFlight⟩

theorem withdrawn_destroy (inFlight : (start.run events).InFlight number) :
    start.Withdrawn (events ++ [.destroy]) number :=
  ⟨events, [], rfl, inFlight⟩

/-- A request in flight is doomed once the facade is destroyed. -/
theorem Sound.doomed_destroy (sound : world.Sound) (inFlight : world.InFlight number) :
    (world.step .destroy).Doomed number := by
  obtain ⟨future, found, flies⟩ := inFlight
  refine ⟨future, found, ?_, fun asked request executor polled isExecutor => ?_⟩
  · rintro asked rfl
    contradiction
  subst polled
  obtain ⟨-, -, armed⟩ := sound.busy found flies
  rw [isExecutor] at armed
  have stopped := Host.Keeps.modifyRegistry (world.host.destroy executor) world.facade.registry
    Worker.Registry.shutdownAll
  change (world.facade.destroy world.host).IsDestroyed executor
  simp only [Facade.destroy, armed, Option.elim_some]
  exact stopped.isDestroyed (Host.isDestroyed_destroy (sound.has executor armed))

/-- Every event leaves the host with its executors, and those that were destroyed so. -/
theorem Sound.keeps_step (sound : world.Sound) (event : Event) :
    world.host.Keeps (world.step event).host := by
  cases event with
  | make asked => exact .refl world.host
  | poll receiver number =>
      change world.host.Keeps (world.poll receiver number).host
      have polled := world.polled receiver number
      generalize world.poll receiver number = after at polled ⊢
      cases polled with
      | still => exact .refl world.host
      | refused found running => exact .refl world.host
      | begun found idle executed =>
          subst executed
          exact (advances_execute sound.registry idle _).keeps
      | turned found inFlight turned =>
          obtain ⟨-, running, armed⟩ := sound.busy found inFlight
          exact (advances_turn running armed sound.has turned).2.keeps
  | drop number =>
      change world.host.Keeps (world.drop number).host
      have dropped := world.dropped number
      generalize world.drop number = after at dropped ⊢
      cases dropped with
      | still => exact .refl world.host
      | unbegun found => exact .refl world.host
      | @abandoned asked request executor found inFlight isExecutor =>
          obtain ⟨-, -, armed⟩ := sound.busy found inFlight
          have has := sound.has executor (armed.trans isExecutor)
          exact (advances_abandon world.facade isExecutor has).1.keeps
  | provide value => exact world.host.keeps_provide _ value
  | onInput callback => exact (Host.Keeps.refl world.host).of_eq rfl rfl rfl rfl
  | destroy => exact keeps_destroy world.host world.facade
  | launched launcher launching awaiting =>
      exact keeps_move world.host (.launched launcher launching awaiting)
  | context executor context act => exact keeps_move world.host (.context executor context act)
  | interpreter registry handle act =>
      exact keeps_move world.host (.interpreter registry handle act)
  | request registry handle => exact keeps_move world.host (.request registry handle)
  | message registry handle => exact keeps_move world.host (.message registry handle)
  | expire registry start => exact keeps_move world.host (.expire registry start)
  | release registry handle => exact keeps_move world.host (.release registry handle)

/-- An event that is not about a request leaves its future alone. -/
theorem futures_step {event : Event} {future : Future} (aside : event.future? ≠ some number)
    (found : world.futures[number]? = some future) :
    (world.step event).futures[number]? = some future := by
  have set (other : Nat) (next : Future) (different : some other ≠ some number) :
      (world.futures.set other next)[number]? = some future := by
    rw [List.getElem?_set_ne fun same => different (congrArg some same), found]
  cases event with
  | make asked =>
      have inside : number < world.futures.length := (List.getElem?_eq_some_iff.mp found).1
      exact (List.getElem?_append_left inside).trans found
  | poll receiver other =>
      change (world.poll receiver other).futures[number]? = some future
      have polled := world.polled receiver other
      generalize world.poll receiver other = after at polled ⊢
      cases polled with
      | still => exact found
      | refused isFound running => exact set other _ aside
      | begun isFound idle executed => exact set other _ aside
      | turned isFound inFlight turned => exact set other _ aside
  | drop other =>
      change (world.drop other).futures[number]? = some future
      have dropped := world.dropped other
      generalize world.drop other = after at dropped ⊢
      cases dropped with
      | still => exact found
      | unbegun isFound => exact set other _ aside
      | abandoned isFound inFlight isExecutor => exact set other _ aside
  | _ => exact found

/-- A request that is doomed stays so. -/
theorem Sound.doomed_step (sound : world.Sound) (doomed : world.Doomed number) (event : Event) :
    (world.step event).Doomed number := by
  obtain ⟨future, found, begun, gone⟩ := doomed
  have inside : number < world.futures.length := (List.getElem?_eq_some_iff.mp found).1
  have keeps := sound.keeps_step event
  have same {after : World} (keeps : world.host.Keeps after.host)
      (still : after.futures[number]? = some future) : after.Doomed number :=
    ⟨future, still, begun, fun asked request executor polled isExecutor =>
      keeps.isDestroyed (gone asked request executor polled isExecutor)⟩
  by_cases own : event.future? = some number
  · cases event with
    | poll receiver other =>
        cases own
        change (world.poll receiver number).Doomed number
        change world.host.Keeps (world.poll receiver number).host at keeps
        have polled := world.polled receiver number
        generalize world.poll receiver number = after at polled keeps ⊢
        cases polled with
        | still => exact same keeps found
        | refused isFound running =>
            exact absurd (Option.some.inj (found.symm.trans isFound)) (begun _)
        | begun isFound idle executed =>
            exact absurd (Option.some.inj (found.symm.trans isFound)) (begun _)
        | @turned asked request isFound inFlight after turned =>
            obtain rfl := Option.some.inj (found.symm.trans isFound)
            refine ⟨_, List.getElem?_set_self inside, by simp, ?_⟩
            intro same next executor polled isExecutor
            cases polled
            obtain ⟨owner, isOwner⟩ := Request.isInFlight_iff.mp inFlight
            obtain ⟨rfl, -⟩ := continues_turn isOwner turned executor isExecutor
            exact keeps.isDestroyed (gone asked request executor rfl isOwner)
    | drop other =>
        cases own
        change (world.drop number).Doomed number
        change world.host.Keeps (world.drop number).host at keeps
        have dropped := world.dropped number
        generalize world.drop number = after at dropped keeps ⊢
        cases dropped with
        | still => exact same keeps found
        | unbegun isFound => exact absurd (Option.some.inj (found.symm.trans isFound)) (begun _)
        | abandoned isFound inFlight isExecutor =>
            exact ⟨_, List.getElem?_set_self inside, by simp, fun _ _ _ polled => by contradiction⟩
    | _ => contradiction
  · exact same keeps (futures_step own found)

theorem Sound.doomed_run (sound : world.Sound) (doomed : world.Doomed number)
    (events : List Event) : (world.run events).Doomed number := by
  induction events generalizing world with
  | nil => exact doomed
  | cons event events ih => exact ih (sound.step event) (sound.doomed_step doomed event)

/-- A request that was withdrawn is doomed. -/
theorem Sound.doomed_of_withdrawn (sound : start.Sound)
    (withdrawn : start.Withdrawn events number) : (start.run events).Doomed number := by
  obtain ⟨before, after, rfl, inFlight⟩ := withdrawn
  rw [run_append, run_cons]
  have earlier := sound.run before
  exact (earlier.step .destroy).doomed_run (earlier.doomed_destroy inFlight) after

/-- A request was in flight, and its executor was destroyed. -/
def Ruined (world : World) (number : Nat) (asked : RunRequest) (executor : Executor) : Prop :=
  ∃ request, world.futures[number]? = some (.polled asked request) ∧
    request.executor? = some executor ∧ world.host.IsDestroyed executor

section Ruins

variable (tidy : world.Tidy) (isExecutor : request.executor? = some executor)
  (hears : ¬executor.IsDeaf)
include isExecutor hears

/-- Only the host has changed. -/
theorem ruined_of_spares {host : Host} (spares : world.host.Spares host)
    (found : world.futures[number]? = some (.polled asked request))
    (destroyed : host.IsDestroyed executor) : world.Ruined number asked executor :=
  ⟨request, found, isExecutor, spares.isDestroyed hears destroyed⟩

include tidy

/-- Polling a request destroys no executor. -/
theorem Tidy.ruined_of_poll {receiver : String → Option Nat} {index : Nat}
    (found : (world.poll receiver index).futures[number]? = some (.polled asked request))
    (destroyed : (world.poll receiver index).host.IsDestroyed executor) :
    world.Ruined number asked executor := by
  have inFlight := Request.isInFlight_iff.mpr ⟨executor, isExecutor⟩
  have polled := world.polled receiver index
  generalize world.poll receiver index = after at polled found destroyed
  by_cases own : index = number
  · subst own
    cases polled with
    | still => exact ruined_of_spares isExecutor hears (.refl _) found destroyed
    | refused isFound running =>
        rw [List.getElem?_set_self (List.getElem?_eq_some_iff.mp isFound).1] at found
        cases found
        contradiction
    | begun isFound idle executed =>
        subst executed
        rw [List.getElem?_set_self (List.getElem?_eq_some_iff.mp isFound).1] at found
        cases found
        exact absurd destroyed (stands_execute tidy.furnished tidy.sound.registry idle _
          executor isExecutor hears)
    | @turned _ earlier isFound flies after turned =>
        rw [List.getElem?_set_self (List.getElem?_eq_some_iff.mp isFound).1] at found
        cases found
        obtain ⟨owner, isOwner⟩ := Request.isInFlight_iff.mp flies
        obtain ⟨rfl, spares⟩ := continues_turn isOwner turned executor isExecutor
        exact ⟨earlier, isFound, isOwner, spares.isDestroyed hears destroyed⟩
  · cases polled with
    | still => exact ruined_of_spares isExecutor hears (.refl _) found destroyed
    | refused isFound running =>
        rw [List.getElem?_set_ne own] at found
        exact ruined_of_spares isExecutor hears (.refl _) found destroyed
    | begun isFound idle executed =>
        rw [List.getElem?_set_ne own] at found
        exact absurd ⟨_, found, inFlight⟩ (tidy.sound.nobody idle number)
    | turned isFound flies turned =>
        rw [List.getElem?_set_ne own] at found
        obtain ⟨alone, -, -⟩ := tidy.sound.busy isFound flies
        exact absurd (alone number ⟨_, found, inFlight⟩).symm own

/-- Whoever drops a request destroys no executor but its own. -/
theorem Tidy.ruined_of_drop {index : Nat}
    (found : (world.drop index).futures[number]? = some (.polled asked request))
    (destroyed : (world.drop index).host.IsDestroyed executor) :
    world.Ruined number asked executor := by
  have inFlight := Request.isInFlight_iff.mpr ⟨executor, isExecutor⟩
  have dropped := world.dropped index
  generalize world.drop index = after at dropped found destroyed
  cases dropped with
  | still => exact ruined_of_spares isExecutor hears (.refl _) found destroyed
  | unbegun isFound =>
      by_cases own : index = number
      · subst own
        rw [List.getElem?_set_self (List.getElem?_eq_some_iff.mp isFound).1] at found
        cases found
      · rw [List.getElem?_set_ne own] at found
        exact ruined_of_spares isExecutor hears (.refl _) found destroyed
  | abandoned isFound flies isOwner =>
      by_cases own : index = number
      · subst own
        rw [List.getElem?_set_self (List.getElem?_eq_some_iff.mp isFound).1] at found
        cases found
      · rw [List.getElem?_set_ne own] at found
        obtain ⟨alone, -, -⟩ := tidy.sound.busy isFound flies
        exact absurd (alone number ⟨_, found, inFlight⟩).symm own

/-- Nothing but the destruction of the facade destroys the executor of a request in
flight. -/
theorem Tidy.ruined_of_step {event : Event} (undestroyed : event ≠ .destroy)
    (found : (world.step event).futures[number]? = some (.polled asked request))
    (destroyed : (world.step event).host.IsDestroyed executor) :
    world.Ruined number asked executor := by
  have aside {host : Host} (spares : world.host.Spares host)
      (found : world.futures[number]? = some (.polled asked request))
      (destroyed : host.IsDestroyed executor) : world.Ruined number asked executor :=
    ruined_of_spares isExecutor hears spares found destroyed
  cases event with
  | destroy => contradiction
  | make new =>
      refine aside (.refl _) ?_ destroyed
      change (world.futures ++ [.created new])[number]? = _ at found
      rw [List.getElem?_append] at found
      split at found
      · exact found
      · exact absurd (List.mem_singleton.mp (List.mem_of_getElem? found)) (by simp)
  | poll receiver index => exact tidy.ruined_of_poll isExecutor hears found destroyed
  | drop index => exact tidy.ruined_of_drop isExecutor hears found destroyed
  | provide value => exact aside (world.host.spares_provide _ value) found destroyed
  | onInput callback => exact aside (.of_eq rfl rfl) found destroyed
  | launched launcher launching awaiting =>
      exact aside (world.host.spares_move (.launched launcher launching awaiting)) found destroyed
  | context number context act =>
      exact aside (world.host.spares_move (.context number context act)) found destroyed
  | _ => exact aside (.of_eq rfl rfl) found destroyed

end Ruins

/-- A request in flight whose executor was destroyed was withdrawn. -/
theorem Tidy.withdrawn_of_isDestroyed (tidy : start.Tidy)
    (unbegun : ∀ number, ¬start.InFlight number) (events : List Event) :
    ∀ asked request executor,
      (start.run events).futures[number]? = some (.polled asked request) →
        request.executor? = some executor → ¬executor.IsDeaf →
          (start.run events).host.IsDestroyed executor → start.Withdrawn events number := by
  induction events using List.reverseRecOn with
  | nil =>
      intro asked request executor found isExecutor
      have inFlight := Request.isInFlight_iff.mpr ⟨executor, isExecutor⟩
      exact absurd ⟨_, found, inFlight⟩ (unbegun number)
  | append_singleton events event ih =>
      intro asked request executor found isExecutor hears destroyed
      rw [run_append] at found destroyed
      by_cases isDestroy : event = .destroy
      · subst isDestroy
        have inFlight := Request.isInFlight_iff.mpr ⟨executor, isExecutor⟩
        exact withdrawn_destroy ⟨_, found, inFlight⟩
      · obtain ⟨earlier, isEarlier, isOwner, gone⟩ :=
          (tidy.run events).ruined_of_step isExecutor hears isDestroy found destroyed
        exact (ih asked earlier executor isEarlier isOwner hears gone).append [event]

/-- The executor of a request in flight, if anything can be given to it, is destroyed exactly
if the request was withdrawn. -/
theorem Tidy.isDestroyed_iff (tidy : start.Tidy) (unbegun : ∀ number, ¬start.InFlight number)
    (found : (start.run events).futures[number]? = some (.polled asked request))
    (isExecutor : request.executor? = some executor) (hears : ¬executor.IsDeaf) :
    (start.run events).host.IsDestroyed executor ↔ start.Withdrawn events number := by
  constructor
  · exact tidy.withdrawn_of_isDestroyed unbegun events asked request executor found isExecutor hears
  · intro withdrawn
    obtain ⟨future, isFuture, -, gone⟩ := tidy.sound.doomed_of_withdrawn withdrawn
    exact gone asked request executor (Option.some.inj (isFuture.symm.trans found)) isExecutor

end Withdrawals

end World

end Polyglot.Facade
