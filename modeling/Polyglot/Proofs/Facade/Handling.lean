import Polyglot.Proofs.Facade.Interleaving
import Polyglot.Proofs.Facade.Making
import Polyglot.Proofs.Host.Endings

/-!
# What comes of requests

Every request gets an executor of its own, whose contexts have nothing to do.  The facade
makes it ready, runs the code and reports what came of it, and submits nothing but the
code of the request.
-/

namespace Polyglot.Facade

/-- What may be reported of a request: why it was not run, or what came of its own code. -/
inductive Answers (failures : List TransportError) (accounts : Seat → Account) (config : Config)
    (owner : Nat) (asked : RunRequest) : Report → Prop where
  | refused (cause : RunError) : Answers failures accounts config owner asked (.refused cause)
  | broken : Answers failures accounts config owner asked .broken
  | unsupported (unknown : config.resolve asked.language = none) :
      Answers failures accounts config owner asked
        (.result (.failure s!"Language '{asked.language}' is not supported"))
  | blank (isBlank : Text.isBlankText asked.code = true) :
      Answers failures accounts config owner asked (.result (.failure emptySourceMessage))
  | misconfigured {host : Host} {facade : Facade} {id : String} {language : Language}
      {cause : ConfigError}
      (obstacle : executorFor host facade id language = .error (.misconfigured cause)) :
      Answers failures accounts config owner asked
        (.result (.failure s!"Error: {cause.message}"))
  | ended {id : String} {language : Language} {outcome : Outcome}
      (resolved : config.resolve asked.language = some (id, language))
      (owes : Owes failures accounts owner asked.code language.backend outcome) :
      Answers failures accounts config owner asked (report outcome)

theorem Answers.mono {failures more : List TransportError} {accounts accounts' : Seat → Account}
    {config : Config} {owner : Nat} {asked : RunRequest} {report : Report}
    (answers : Answers failures accounts config owner asked report)
    (later : ∀ seat, (accounts seat).Extends (accounts' seat)) (subset : failures ⊆ more) :
    Answers more accounts' config owner asked report := by
  cases answers with
  | refused cause => exact .refused cause
  | broken => exact .broken
  | unsupported unknown => exact .unsupported unknown
  | blank isBlank => exact .blank isBlank
  | misconfigured obstacle => exact .misconfigured obstacle
  | ended resolved owes => exact .ended resolved (owes.mono later subset)

/-- An executor is for the language that was asked for, and its contexts are the
facade's. -/
structure Suits (config : Config) (founded : Nat) (asked : RunRequest) (executor : Executor) :
    Prop where
  resolved : ∃ id language, config.resolve asked.language = some (id, language) ∧
    language.backend = executor.backend
  founded : ∀ number, executor.sandbox? = some number → founded ≤ number

/-- A host does what there is to do for a request that stands there. -/
inductive Attends (failures : List TransportError) (host : Host) (accounts : Seat → Account)
    (config : Config) (registry founded owner : Nat) (asked : RunRequest) : Request → Prop where
  | starting {executor : Executor} {pending : Pending}
      (suits : Suits config founded asked executor)
      (tends : host.Tends failures accounts registry (.call owner executor .start pending)) :
      Attends failures host accounts config registry founded owner asked
        (.starting executor asked.code pending)
  | executing {executor : Executor} {pending : Pending}
      (suits : Suits config founded asked executor)
      (tends : host.Tends failures accounts registry
        (.call owner executor (.execute asked.code) pending)) :
      Attends failures host accounts config registry founded owner asked
        (.executing executor pending)
  | finished {report : Report} (answers : Answers failures accounts config owner asked report)
      (tends : host.Tends failures accounts registry .idle) :
      Attends failures host accounts config registry founded owner asked (.finished report)
  | abandoned (tends : host.Tends failures accounts registry .idle) :
      Attends failures host accounts config registry founded owner asked .abandoned

variable {host after : Host} {facade : Facade} {accounts : Seat → Account} {config : Config}
  {registry founded owner : Nat} {asked : RunRequest} {failures : List TransportError}
  {executor : Executor} {pending : Pending}

/-! ## Executors for requests -/

section Executors

/-- Contexts of executors that were not made have nothing to their account. -/
def Unheard (host : Host) (accounts : Seat → Account) : Prop :=
  ∀ executor context : Nat, host.sandboxes[executor]? = none →
    accounts (.sandbox executor context) = {}

/-- A host has made executors, and their contexts have nothing to do. -/
structure Provides (failures : List TransportError) (accounts : Seat → Account) (registry : Nat)
    (host after : Host) (executor : Executor) : Prop where
  rests : after.Rests failures accounts registry executor
  codes : ∀ seat, after.codes seat = host.codes seat
  founded : ∀ number, executor.sandbox? = some number → host.sandboxes.length ≤ number

theorem provides_addSandbox (lends : host.Lends failures accounts registry .idle)
    (unheard : Unheard host accounts) (hook launcher : Nat) (language : String)
    (isSandbox : executor.sandbox? = some (host.addSandbox hook launcher language).2) :
    Provides failures accounts registry host (host.addSandbox hook launcher language).1
      executor where
  rests := by
    refine ⟨lends.congr rfl fun _ => rfl, fun number same => ?_, fun number isWorker => ?_⟩
    · rw [isSandbox] at same
      obtain rfl : host.sandboxes.length = number := Option.some.inj same
      refine ⟨_, _, List.getElem?_concat_length,
        ⟨fun context _ => ?_, fun other launching => ?_⟩, ?_⟩
      · exact unheard _ context (List.getElem?_eq_none (Nat.le_refl _))
      · simp [Sandbox.Executor.isLaunching, Sandbox.Executor.phase?] at launching
      · intro number context found
        simp at found
    · subst isWorker
      contradiction
  codes seat := by
    cases seat with
    | interpreter registry handle => rfl
    | sandbox number context =>
        simp only [Host.codes, Host.addSandbox]
        by_cases below : number < host.sandboxes.length
        · rw [List.getElem?_append_left below]
        · have beyond := Nat.le_of_not_lt below
          rw [List.getElem?_append_right beyond, List.getElem?_eq_none beyond]
          cases found : ([(launcher,
              { language, broker := (host.desk.addBroker hook language).2 })] :
              List (Nat × Sandbox.Executor))[number - host.sandboxes.length]? with
          | none => rfl
          | some pair =>
              rw [List.mem_singleton.mp (List.mem_of_getElem? found)]
              rfl
  founded number same := by
    rw [isSandbox] at same
    exact Nat.le_of_eq (Option.some.inj same)

theorem provides_aside (rests : after.Rests failures accounts registry executor)
    (sandboxes : after.sandboxes = host.sandboxes) (registries : after.registries = host.registries)
    (unboxed : executor.sandbox? = none) :
    Provides failures accounts registry host after executor where
  rests := rests
  codes seat := by
    cases seat with
    | sandbox executor context => simp only [Host.codes, sandboxes]
    | interpreter registry handle => simp only [Host.codes, registries]
  founded number isSandbox := by
    rw [unboxed] at isSandbox
    contradiction

/-- A new executor has contexts of its own, if any. -/
theorem provides_executorFor {id : String} {language : Language}
    (tends : host.Tends failures accounts facade.registry .idle) (unheard : Unheard host accounts)
    (made : executorFor host facade id language = .ok (after, executor)) :
    Provides failures accounts facade.registry host after executor ∧
      language.backend = executor.backend := by
  have lends := tends.lends
  obtain ⟨made, backend⟩ := made_executorFor made
  refine ⟨?_, backend⟩
  cases made with
  | sandbox launcher id isSandbox => exact provides_addSandbox lends unheard _ _ _ isSandbox
  | worker launcher id timeout =>
      refine provides_aside ⟨lends.congr rfl fun _ => rfl, fun _ isSandbox => ?_, ?_⟩ rfl rfl rfl
      · contradiction
      · intro number same
        cases same
        exact ⟨_, List.getElem?_concat_length, fun lent kept destroyed => by contradiction⟩
  | alone alone =>
      refine provides_aside ⟨lends, fun _ isSandbox => ?_, fun _ isWorker => ?_⟩ rfl rfl alone
      · rw [Executor.sandbox?, alone] at isSandbox
        contradiction
      · contradiction
  | toolchain toolchain id artifacts =>
      refine provides_aside ⟨lends.congr rfl fun _ => rfl, fun _ isSandbox => ?_,
        fun _ isWorker => ?_⟩ rfl rfl rfl
      · contradiction
      · contradiction

end Executors

/-! ## What the facade does with a request -/

section Requests

theorem codes_drop (host : Host) (executor : Executor) (seat : Seat) :
    (host.drop executor).codes seat = host.codes seat := by
  rcases host.drop_cases executor with same | ⟨number, launcher, sandbox, found, dropped⟩
  · rw [same]
  · rw [dropped]
    cases seat with
    | interpreter registry handle => rfl
    | sandbox other context =>
        simp only [Host.codes, Host.setSandbox, List.getElem?_modify]
        by_cases same : number = other
        · subst same
          simp [found, sandbox.settles_release.codes context]
        · simp [same]

/-- What holds when the facade has gone on with a request. -/
def Proceeds (failures : List TransportError) (host : Host) (accounts : Seat → Account)
    (config : Config) (registry founded owner : Nat) (asked : RunRequest)
    (after : Host × Facade × Request) : Prop :=
  ∃ accounts', Posts owner host.codes accounts after.1.codes accounts' ∧
    Attends failures after.1 accounts' config registry founded owner asked after.2.2

/-- A request is over, and nothing was submitted meanwhile. -/
theorem proceeds_finish (facade : Facade) (suits : Suits config founded asked executor)
    (tends : host.Tends failures accounts registry .idle) {outcome : Outcome}
    (owes : Owes failures accounts owner asked.code executor.backend outcome) :
    Proceeds failures host accounts config registry founded owner asked
      (finish host facade executor outcome) := by
  obtain ⟨id, language, resolved, backend⟩ := suits.resolved
  exact ⟨accounts, posts_nothing owner accounts (codes_drop host executor),
    .finished (.ended resolved (backend ▸ owes)) (tends.drop executor)⟩

/-- The executor of a request was made ready, or could not be. -/
theorem proceeds_proceed (facade : Facade) (suits : Suits config founded asked executor)
    (tends : host.Tends failures accounts registry (.call owner executor .start pending))
    {prepared : Outcome} (ended : host.outcome? pending = some prepared) :
    Proceeds failures host accounts config registry founded owner asked
      (proceed host facade executor asked.code prepared) := by
  cases prepared with
  | error cause =>
      exact proceeds_finish facade suits (tends.idle ended) (tends.unprepared ended asked.code)
  | ok ready =>
      obtain ⟨accounts', posts, called⟩ := (tends.rests ended).call (.execute asked.code) owner
      simp only [proceed]
      cases outcome : (host.call executor (.execute asked.code)).1.outcome?
          (host.call executor (.execute asked.code)).2 with
      | none => exact ⟨accounts', posts, .executing suits called⟩
      | some outcome =>
          obtain ⟨accounts'', postsMore, attends⟩ := proceeds_finish facade suits
            (called.idle outcome) (called.owes outcome)
          exact ⟨accounts'', posts.trans postsMore, attends⟩

/-- The executor of a request is made ready. -/
theorem proceeds_dispatch (facade : Facade) (suits : Suits config founded asked executor)
    (rests : host.Rests failures accounts registry executor) (owner : Nat) :
    Proceeds failures host accounts config registry founded owner asked
      (dispatch host facade executor asked.code) := by
  obtain ⟨accounts', posts, called⟩ := rests.call .start owner
  simp only [dispatch]
  cases outcome : (host.call executor .start).1.outcome? (host.call executor .start).2 with
  | none => exact ⟨accounts', posts, .starting suits called⟩
  | some prepared =>
      obtain ⟨accounts'', postsMore, attends⟩ := proceeds_proceed
        { facade with armed := some executor } suits called outcome
      exact ⟨accounts'', posts.trans postsMore, attends⟩

/-- A request that comes while none is in flight. -/
theorem proceeds_execute (idle : facade.running = false)
    (tends : host.Tends failures accounts facade.registry .idle) (unheard : Unheard host accounts)
    (enough : founded ≤ host.sandboxes.length) (owner : Nat) (asked : RunRequest) :
    Proceeds failures host accounts facade.config facade.registry founded owner asked
      (execute host facade asked) := by
  have answered {report : Report}
      (answers : Answers failures accounts facade.config owner asked report) :
      Proceeds failures host accounts facade.config facade.registry founded owner asked
        (host, facade.clear, .finished report) :=
    ⟨accounts, posts_nothing owner accounts fun _ => rfl, .finished answers tends⟩
  simp only [execute, idle, Bool.false_eq_true, if_false]
  split
  · rename_i unknown
    exact answered (.unsupported unknown)
  · rename_i id language resolved
    split
    · rename_i isBlank
      exact answered (.blank isBlank)
    · split
      · rename_i cause obstacle
        exact answered (.misconfigured obstacle)
      · exact answered .broken
      · rename_i next executor made
        obtain ⟨provides, backend⟩ := provides_executorFor tends unheard made
        have suits : Suits facade.config founded asked executor :=
          ⟨⟨id, language, resolved, backend⟩, fun number isSandbox =>
            Nat.le_trans enough (provides.founded number isSandbox)⟩
        obtain ⟨accounts', posts, attends⟩ := proceeds_dispatch { facade with running := true }
          suits provides.rests owner
        exact ⟨accounts', (posts_nothing owner accounts provides.codes).trans posts, attends⟩

/-- A request takes a turn. -/
theorem proceeds_turn {request : Request} {receiver : String → Option Nat}
    {next : Host × Facade × Request}
    (attends : Attends failures host accounts config registry founded owner asked request)
    (turned : facade.turn receiver host request = some next) :
    Proceeds failures host accounts config registry founded owner asked next := by
  cases attends with
  | starting suits tends =>
      simp only [turn] at turned
      split at turned
      · rename_i prepared ended
        cases turned
        exact proceeds_proceed facade suits tends ended
      · obtain ⟨after, moved, turned⟩ := Option.bind_eq_some_iff.mp turned
        cases turned
        obtain ⟨accounts', posts, tends⟩ := tends.turn moved
        exact ⟨accounts', posts, .starting suits tends⟩
  | executing suits tends =>
      simp only [turn] at turned
      split at turned
      · rename_i outcome ended
        cases turned
        exact proceeds_finish facade suits (tends.idle ended) (tends.owes ended)
      · obtain ⟨after, moved, turned⟩ := Option.bind_eq_some_iff.mp turned
        cases turned
        obtain ⟨accounts', posts, tends⟩ := tends.turn moved
        exact ⟨accounts', posts, .executing suits tends⟩
  | finished answers tends => contradiction
  | abandoned tends => contradiction

/-- The caller of a request goes away. -/
theorem Attends.abandon {request : Request}
    (attends : Attends failures host accounts config registry founded owner asked request)
    (facade : Facade) :
    (facade.abandon host request).1.Tends failures accounts registry .idle := by
  cases attends with
  | starting suits tends => exact tends.abandon
  | executing suits tends => exact tends.abandon
  | finished answers tends => exact tends
  | abandoned tends => exact tends

/-- What leaves the calls for a request in flight what they are leaves the request what it
is. -/
theorem Attends.map {request : Request} {more : List TransportError}
    {accounts' : Seat → Account}
    (attends : Attends failures host accounts config registry founded owner asked request)
    (inFlight : request.isInFlight = true)
    (calls : ∀ executor purpose pending, request.executor? = some executor →
      (∀ number, executor.sandbox? = some number → founded ≤ number) →
      host.Tends failures accounts registry (.call owner executor purpose pending) →
      after.Tends more accounts' registry (.call owner executor purpose pending)) :
    Attends more after accounts' config registry founded owner asked request := by
  cases attends with
  | starting suits tends => exact .starting suits (calls _ _ _ rfl suits.founded tends)
  | executing suits tends => exact .executing suits (calls _ _ _ rfl suits.founded tends)
  | finished answers tends => contradiction
  | abandoned tends => contradiction

end Requests

end Polyglot.Facade
