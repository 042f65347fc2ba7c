import Polyglot.Cli.Dialogue
import Polyglot.Proofs.Config.Timeout
import Polyglot.Proofs.Facade.Dispatch

/-!
# What breaks on the time to wait for a worker

The configured time is looked at in two places: when an executor for a worker language is made, and
when a configuration is shown.  Both break off when it is too long, which validation does not ask.
-/

namespace Polyglot

namespace Config

/-- The time to wait for a worker is too long to be one. -/
def WaitsTooLong (config : Config) : Prop := config.workerReadyTimeout.IsTooLong

instance (config : Config) : Decidable config.WaitsTooLong :=
  inferInstanceAs (Decidable config.workerReadyTimeout.IsTooLong)

/-- What depends on the time to wait for a worker, and on nothing else about it than whether it is
too long. -/
structure Waits (config : Config) : Prop where
  timeout : (∃ duration, config.readyTimeout? = some duration) ↔ ¬config.WaitsTooLong
  /-- The configuration cannot be shown. -/
  shown : ∀ site (invocation : Cli.Invocation), Cli.configOf site invocation.config = some config →
    invocation.job = .showConfig →
    (invocation.perform site = .over { exit := 101 } ↔ config.WaitsTooLong)
  /-- A request breaks off at once if it needs a worker. -/
  requested : ∀ host facade request, facade.config = config →
    ((Facade.execute host facade request).2.2 = .finished .broken ↔
      config.WaitsTooLong ∧ facade.running = false ∧ Text.isBlankText request.code = false ∧
        ∃ id language launcher, config.resolve request.language = some (id, language) ∧
          language.backend = .worker ∧ Facade.lookup facade.workers id = some launcher)
  /-- A request that has not broken off does not do so later. -/
  continued : ∀ receiver host facade request after, Facade.turn receiver host facade request =
    some after → after.2.2 ≠ .finished .broken

theorem readyTimeout?_eq_none_iff {config : Config} :
    config.readyTimeout? = none ↔ config.WaitsTooLong :=
  Duration.ofSeconds?_eq_none_iff

theorem exists_readyTimeout?_iff {config : Config} :
    (∃ duration, config.readyTimeout? = some duration) ↔ ¬config.WaitsTooLong := by
  rw [← Option.isSome_iff_exists, ← Option.ne_none_iff_isSome, Ne, readyTimeout?_eq_none_iff]

end Config

namespace Cli

variable {site : Exec.Site} {config : Config}

theorem summary?_eq_none_iff : summary? config = none ↔ config.WaitsTooLong := by
  rw [← Config.readyTimeout?_eq_none_iff, summary?]
  cases config.readyTimeout? <;> simp

theorem perform_showConfig_iff {invocation : Invocation}
    (isConfig : configOf site invocation.config = some config)
    (isJob : invocation.job = .showConfig) :
    invocation.perform site = .over { exit := 101 } ↔ config.WaitsTooLong := by
  rw [← summary?_eq_none_iff, Invocation.perform, isConfig, isJob]
  dsimp only
  cases summary? config <;> simp

end Cli

namespace Facade

variable {host : Host} {facade : Facade} {executor : Executor} {id code : String}
  {language : Language} {request : RunRequest}

/-! ## Executors -/

theorem sandboxFor_ne_unusable : sandboxFor host facade id ≠ .error .unusableTimeout := by
  rw [sandboxFor]
  split <;> simp [missing]

theorem toolchainFor_ne_unusable : toolchainFor host facade id ≠ .error .unusableTimeout := by
  rw [toolchainFor]
  split <;> simp [missing]

theorem compilerFor_ne_unusable :
    compilerFor host facade id language ≠ .error .unusableTimeout := by
  intro unusable
  simp only [compilerFor] at unusable
  split at unusable
  · split at unusable
    · cases unusable
    · split at unusable
      · cases unusable
      · rename_i delegateId _ _
        have usable : sandboxFor host facade delegateId ≠ .error .unusableTimeout :=
          sandboxFor_ne_unusable
        cases sandbox : sandboxFor host facade delegateId with
        | error obstacle =>
            rw [sandbox] at unusable usable
            exact usable (congrArg Except.error (Except.error.inj unusable))
        | ok pair =>
            rw [sandbox] at unusable
            cases unusable
  · cases unusable

theorem workerFor_eq_unusable_iff :
    workerFor host facade id = .error .unusableTimeout ↔
      facade.config.WaitsTooLong ∧ ∃ launcher, lookup facade.workers id = some launcher := by
  rw [workerFor, ← Config.readyTimeout?_eq_none_iff]
  cases lookup facade.workers id with
  | none => simp [missing]
  | some launcher => cases facade.config.readyTimeout? <;> simp

theorem map_eq_error_iff {α β ε : Type} {made : Except ε α} {change : α → β} {cause : ε} :
    made.map change = .error cause ↔ made = .error cause := by
  cases made <;> simp [Except.map]

/-- Only a worker language needs the time. -/
theorem executorFor_eq_unusable_iff :
    executorFor host facade id language = .error .unusableTimeout ↔
      language.backend = .worker ∧ facade.config.WaitsTooLong ∧
        ∃ launcher, lookup facade.workers id = some launcher := by
  rw [executorFor]
  cases language.backend with
  | sandbox => simp [map_eq_error_iff, sandboxFor_ne_unusable]
  | worker => simp [map_eq_error_iff, workerFor_eq_unusable_iff]
  | transpile => simp [map_eq_error_iff, compilerFor_ne_unusable]
  | toolchain => simp [map_eq_error_iff, toolchainFor_ne_unusable]

/-! ## Requests -/

theorem report_ne_broken (outcome : Outcome) : report outcome ≠ .broken := by
  cases outcome <;> nofun

theorem proceed_ne_broken (prepared : Outcome) :
    (proceed host facade executor code prepared).2.2 ≠ .finished .broken := by
  cases prepared with
  | error cause => exact fun same => report_ne_broken _ (Request.finished.inj same)
  | ok result =>
      rw [proceed]
      dsimp only
      split
      · exact fun same => report_ne_broken _ (Request.finished.inj same)
      · nofun

theorem dispatch_ne_broken : (dispatch host facade executor code).2.2 ≠ .finished .broken := by
  rw [dispatch]
  dsimp only
  split
  · exact proceed_ne_broken _
  · nofun

theorem turn_ne_broken {receiver : String → Option Nat} {state : Request}
    {after : Host × Facade × Request} (turned : turn receiver host facade state = some after) :
    after.2.2 ≠ .finished .broken := by
  cases state with
  | starting executor code pending =>
      rw [turn] at turned
      split at turned
      · rw [← Option.some.inj turned]
        exact proceed_ne_broken _
      · obtain ⟨next, -, same⟩ := Option.bind_eq_some_iff.mp turned
        rw [← Option.some.inj same]
        nofun
  | executing executor pending =>
      rw [turn] at turned
      split at turned
      · rw [← Option.some.inj turned]
        exact fun same => report_ne_broken _ (Request.finished.inj same)
      · obtain ⟨next, -, same⟩ := Option.bind_eq_some_iff.mp turned
        rw [← Option.some.inj same]
        nofun
  | finished | abandoned => cases turned

/-- A request breaks off when there is no executor for it because that needs the time. -/
theorem execute_unusable_iff :
    (execute host facade request).2.2 = .finished .broken ↔
      facade.running = false ∧ Text.isBlankText request.code = false ∧
        ∃ id language, facade.config.resolve request.language = some (id, language) ∧
          executorFor host facade id language = .error .unusableTimeout := by
  rw [execute]
  cases facade.running with
  | true => simp
  | false =>
      cases facade.config.resolve request.language with
      | none => simp
      | some entry =>
          obtain ⟨id, language⟩ := entry
          cases Text.isBlankText request.code with
          | true => simp
          | false =>
              cases made : executorFor host facade id language with
              | ok pair => simp_all [dispatch_ne_broken]
              | error obstacle =>
                  cases obstacle with
                  | misconfigured cause => simp_all
                  | unusableTimeout =>
                      refine iff_of_true ?_ ⟨rfl, rfl, id, language, rfl, made⟩
                      simp only [made, Bool.false_eq_true, if_false]

/-- A request breaks off just when it needs a worker and the time is too long. -/
theorem execute_broken_iff :
    (execute host facade request).2.2 = .finished .broken ↔
      facade.config.WaitsTooLong ∧ facade.running = false ∧
        Text.isBlankText request.code = false ∧ ∃ id language launcher,
          facade.config.resolve request.language = some (id, language) ∧
            language.backend = .worker ∧ lookup facade.workers id = some launcher := by
  simp only [execute_unusable_iff, executorFor_eq_unusable_iff]
  constructor
  · rintro ⟨idle, isCode, id, language, meant, isWorker, tooLong, launcher, isLauncher⟩
    exact ⟨tooLong, idle, isCode, id, language, launcher, meant, isWorker, isLauncher⟩
  · rintro ⟨tooLong, idle, isCode, id, language, launcher, meant, isWorker, isLauncher⟩
    exact ⟨idle, isCode, id, language, meant, isWorker, tooLong, launcher, isLauncher⟩

end Facade

/-- Whether a configuration was accepted or not, its time to wait for a worker can be used unless it
is too long; then nothing else breaks than a worker language and showing the configuration. -/
theorem Config.waits (config : Config) : config.Waits where
  timeout := exists_readyTimeout?_iff
  shown := fun _ _ isConfig isJob => Cli.perform_showConfig_iff isConfig isJob
  requested := by
    rintro host facade request rfl
    exact Facade.execute_broken_iff
  continued := fun _ _ _ _ _ turned => Facade.turn_ne_broken turned

/-! ## A time that is too long -/

/-- A language that a worker runs. -/
def Language.served : Language where
  name := "W"
  extension := ⟨"w", by decide⟩
  backend := .worker
  runtime := some { command := ["run"] }

/-- An endless time is accepted, but it is no length of time, and the language cannot be run. -/
theorem Config.breaks_endless :
    let config : Config :=
      { workerReadyTimeout := .infinity false, languages := [("w", .served)] }
    config.validate = .ok () ∧ config.readyTimeout? = none ∧
      (Facade.execute {} (Facade.build {} config 0 0 {}).2 ⟨"x", "w"⟩).2.2 = .finished .broken := by
  intro config
  have valid : config.validate = .ok () := by decide +kernel
  have tooLong : config.WaitsTooLong := by decide +kernel
  have once : (config.languages.map Prod.fst).Nodup := by decide
  have isConfig := Facade.config_build {} config 0 0 {}
  have meant : config.resolve "w" = some ("w", .served) :=
    resolve_language? valid (by decide) (language?_of_mem once (.head _))
  obtain ⟨launcher, isLauncher, -⟩ :=
    (Facade.serves_build {} 0 0 once ("w", .served) (.head _)).worker rfl _ rfl
  refine ⟨valid, readyTimeout?_eq_none_iff.mpr tooLong, Facade.execute_broken_iff.mpr ?_⟩
  rw [isConfig]
  exact ⟨tooLong, by decide +kernel, by decide, "w", .served, launcher, meant, rfl, isLauncher⟩

end Polyglot
