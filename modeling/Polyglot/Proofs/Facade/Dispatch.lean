import Polyglot.Proofs.Config.Resolution
import Polyglot.Proofs.Facade.Building

/-!
# Dispatching valid configurations

Validation looks languages up by their ids, dispatch by tags.  The two agree but for the empty id,
which is no tag; and validation does not ask whether the time to wait for a worker is a length of
time.
-/

namespace Polyglot

open Text

namespace Config

/-- No language goes by the empty id, and there is a length of time to wait for a worker if any
language has one. -/
structure Usable (config : Config) : Prop where
  named : ∀ entry ∈ config.languages, entry.1 ≠ ""
  timely : config.readyTimeout? = none → ∀ entry ∈ config.languages, entry.2.backend ≠ .worker

variable {config : Config} {id tag : String} {language : Language}

theorem mem_of_language? (found : config.language? id = some language) :
    (id, language) ∈ config.languages := by
  obtain ⟨entry, isFound, rfl⟩ := Option.map_eq_some_iff.mp found
  have isId := List.find?_some (p := fun entry : String × Language => decide (entry.1 = id)) isFound
  rw [← of_decide_eq_true isId]
  exact List.mem_of_find?_eq_some isFound

/-- What a tag means is a language under its own id. -/
theorem language?_of_resolve (once : (config.languages.map Prod.fst).Nodup)
    (meant : config.resolve tag = some (id, language)) : config.language? id = some language := by
  rw [resolve] at meant
  split at meant
  · cases meant
  · split at meant
    · rename_i found
      obtain ⟨rfl, rfl⟩ := Prod.mk.inj (Option.some.inj meant)
      exact found
    · exact language?_of_mem once (List.mem_of_find?_eq_some meant)

/-- An id that is not empty means itself. -/
theorem resolve_language? (valid : config.validate = .ok ()) (notEmpty : id ≠ "")
    (found : config.language? id = some language) : config.resolve id = some (id, language) := by
  have normalized := (validate_eq_ok.mp valid _ (mem_of_language? found)).normalized
  rw [resolve, normalized, if_neg (by simpa using notEmpty), found]

/-- The empty id is no tag. -/
theorem resolve_empty (config : Config) : config.resolve "" = none := by
  have empty : (normalizeTag "").isEmpty = true := by decide +kernel
  rw [resolve, if_pos empty]

theorem mem_languageIds : id ∈ config.languageIds ↔ ∃ entry ∈ config.languages, entry.1 = id := by
  rw [languageIds, List.mem_mergeSort, List.mem_map]

end Config

namespace Facade

/-- Every language of a configuration can be run on a facade that was built for it. -/
structure Dispatches (config : Config) (built : Host) (facade : Facade) : Prop where
  /-- An id means itself. -/
  resolves : ∀ id ∈ config.languageIds, ∃ language,
    config.language? id = some language ∧ config.resolve id = some (id, language)
  /-- There is an executor for it. -/
  provides : ∀ id language, config.language? id = some language →
    ∀ host, ∃ after executor, executorFor host facade id language = .ok (after, executor)
  /-- A delegate is a sandbox of the language that was checked, under its id and with its own
  command. -/
  delegates : ∀ id language settings delegate, config.language? id = some language →
    language.backend = .transpile → language.transpile = some settings →
    settings.delegate = some delegate →
    ∃ target runtime launcher, config.language? delegate = some target ∧
      target.backend = .sandbox ∧ target.runtime = some runtime ∧
      built.launchers[launcher]? = some (launcherOf delegate runtime Sandbox.bootstrap) ∧
      ∀ host, ∃ compiled, executorFor host facade id language =
          .ok ((host.addSandbox facade.hook launcher delegate).1, .compiled compiled) ∧
        compiled.delegate = some (host.addSandbox facade.hook launcher delegate).2
  /-- Whatever code is given to a language reaches its executor. -/
  runs : ∀ host request armed id language, config.resolve request.language = some (id, language) →
    isBlankText request.code = false →
    ∃ after executor, executorFor host facade id language = .ok (after, executor) ∧
      execute host { facade with running := false, armed } request =
        dispatch after { facade with running := true, armed } executor request.code

section Executors

variable {built host : Host} {facade : Facade} {config : Config} {id delegate : String}
  {language : Language} {launcher : Nat}

theorem sandboxFor_eq (found : lookup facade.sandboxes id = some launcher) (host : Host) :
    sandboxFor host facade id = .ok (host.addSandbox facade.hook launcher id) := by
  rw [sandboxFor, found]

/-- A language that is compiled to another is run by an executor of that one. -/
theorem executorFor_delegate {settings : TranspileSection} {compiler : Nat}
    {target : Language} (isTranspile : language.backend = .transpile)
    (isSettings : language.transpile = some settings)
    (isDelegate : settings.delegate = some delegate)
    (isCompiler : lookup facade.compilers id = some compiler)
    (meant : facade.config.resolve delegate = some (delegate, target))
    (isLauncher : lookup facade.sandboxes delegate = some launcher) (host : Host) :
    ∃ compiled, executorFor host facade id language =
        .ok ((host.addSandbox facade.hook launcher delegate).1, .compiled compiled) ∧
      compiled.delegate = some (host.addSandbox facade.hook launcher delegate).2 := by
  simp only [executorFor, isTranspile, compilerFor, isCompiler, isSettings, Option.bind_some,
    isDelegate, meant, sandboxFor_eq isLauncher]
  exact ⟨_, rfl, rfl⟩

theorem executorFor_alone {settings : TranspileSection} {compiler : Nat}
    (isTranspile : language.backend = .transpile)
    (isSettings : language.transpile = some settings) (isAlone : settings.delegate = none)
    (isCompiler : lookup facade.compilers id = some compiler) (host : Host) :
    ∃ compiled, executorFor host facade id language = .ok (host, .compiled compiled) := by
  simp only [executorFor, isTranspile, compilerFor, isCompiler, isSettings, Option.bind_some,
    isAlone]
  exact ⟨_, rfl⟩

/-- The empty id can be checked as a delegate, but no tag means it. -/
theorem executorFor_nameless {settings : TranspileSection} {compiler : Nat}
    (isTranspile : language.backend = .transpile)
    (isSettings : language.transpile = some settings) (isDelegate : settings.delegate = some "")
    (isCompiler : lookup facade.compilers id = some compiler) (host : Host) :
    executorFor host facade id language = .error (.misconfigured (.languageNotFound "")) := by
  simp only [executorFor, isTranspile, compilerFor, isCompiler, isSettings, Option.bind_some,
    isDelegate, Config.resolve_empty]
  rfl

/-- The executor that a language gets does not depend on the request in flight. -/
theorem executorFor_armed (host : Host) (facade : Facade) (running : Bool)
    (armed : Option Executor) (id : String) (language : Language) :
    executorFor host { facade with running, armed } id language =
      executorFor host facade id language := by
  simp only [executorFor, sandboxFor, workerFor, compilerFor, toolchainFor]

end Executors

section Built

variable {config : Config} {built : Host} {facade : Facade}
  (valid : config.validate = .ok ()) (isConfig : facade.config = config)
  (serves : ∀ entry ∈ config.languages, Serves built facade entry.1 entry.2)

include valid isConfig serves

/-- The delegate of a language is run in a sandbox that its own section describes. -/
theorem delegates_of_serves (named : ∀ entry ∈ config.languages, entry.1 ≠ "")
    {id delegate : String} {language : Language} {settings : TranspileSection}
    (found : config.language? id = some language) (isTranspile : language.backend = .transpile)
    (isSettings : language.transpile = some settings)
    (isDelegate : settings.delegate = some delegate) :
    ∃ target runtime launcher, config.language? delegate = some target ∧
      target.backend = .sandbox ∧ target.runtime = some runtime ∧
      built.launchers[launcher]? = some (launcherOf delegate runtime Sandbox.bootstrap) ∧
      ∀ host, ∃ compiled, executorFor host facade id language =
          .ok ((host.addSandbox facade.hook launcher delegate).1, .compiled compiled) ∧
        compiled.delegate = some (host.addSandbox facade.hook launcher delegate).2 := by
  have member := Config.mem_of_language? found
  have served := (Config.validate_eq_ok.mp valid _ member).served
  simp only [Config.Served, isTranspile, isSettings] at served
  obtain ⟨_, ⟨⟩, -, checked⟩ := served
  obtain ⟨target, isTarget, isSandbox⟩ := checked delegate isDelegate
  have isMember := Config.mem_of_language? isTarget
  have targetServed := (Config.validate_eq_ok.mp valid _ isMember).served
  simp only [Config.Served, isSandbox] at targetServed
  obtain ⟨runtime, isRuntime, -⟩ := targetServed
  obtain ⟨launcher, isLauncher, isThere⟩ := (serves _ isMember).sandbox isSandbox _ isRuntime
  obtain ⟨compiler, isCompiler, -⟩ := (serves _ member).compiler isTranspile _ isSettings
  have meant : facade.config.resolve delegate = some (delegate, target) := by
    rw [isConfig]
    exact Config.resolve_language? valid (named _ isMember) isTarget
  exact ⟨target, runtime, launcher, isTarget, isSandbox, isRuntime, isThere,
    executorFor_delegate isTranspile isSettings isDelegate isCompiler meant isLauncher⟩

/-- Every language gets an executor, whatever its backend is. -/
theorem executorFor_of_serves (usable : config.Usable) {id : String} {language : Language}
    (found : config.language? id = some language) (host : Host) :
    ∃ after executor, executorFor host facade id language = .ok (after, executor) := by
  have member := Config.mem_of_language? found
  have served := (Config.validate_eq_ok.mp valid _ member).served
  cases backend : language.backend with
  | sandbox =>
      simp only [Config.Served, backend] at served
      obtain ⟨runtime, isRuntime, -⟩ := served
      obtain ⟨launcher, isLauncher, -⟩ := (serves _ member).sandbox backend _ isRuntime
      simp only [executorFor, backend, sandboxFor_eq isLauncher]
      exact ⟨_, _, rfl⟩
  | worker =>
      simp only [Config.Served, backend] at served
      obtain ⟨runtime, isRuntime, -⟩ := served
      obtain ⟨launcher, isLauncher, -⟩ := (serves _ member).worker backend _ isRuntime
      cases timeout : config.readyTimeout? with
      | none => exact absurd backend (usable.timely timeout _ member)
      | some timeout =>
          simp only [executorFor, backend, workerFor, isLauncher, isConfig, timeout]
          exact ⟨_, _, rfl⟩
  | transpile =>
      simp only [Config.Served, backend] at served
      obtain ⟨settings, isSettings, -, -⟩ := served
      cases isDelegate : settings.delegate with
      | none =>
          obtain ⟨compiler, isCompiler, -⟩ := (serves _ member).compiler backend _ isSettings
          obtain ⟨compiled, made⟩ :=
            executorFor_alone backend isSettings isDelegate isCompiler host
          exact ⟨_, _, made⟩
      | some delegate =>
          obtain ⟨_, _, _, -, -, -, -, made⟩ := delegates_of_serves valid isConfig serves
            usable.named found backend isSettings isDelegate
          obtain ⟨compiled, made, -⟩ := made host
          exact ⟨_, _, made⟩
  | toolchain =>
      simp only [Config.Served, backend] at served
      obtain ⟨⟨compile, isCompile, -⟩, run, isRun, -⟩ := served
      obtain ⟨toolchain, isToolchain, -⟩ :=
        (serves _ member).toolchain backend _ _ isCompile isRun
      simp only [executorFor, backend, toolchainFor, isToolchain]
      exact ⟨_, _, rfl⟩

theorem dispatches_of_usable (once : (config.languages.map Prod.fst).Nodup)
    (usable : config.Usable) : Dispatches config built facade where
  resolves := by
    intro id member
    obtain ⟨⟨_, language⟩, isMember, rfl⟩ := Config.mem_languageIds.mp member
    have found := Config.language?_of_mem once isMember
    exact ⟨language, found, Config.resolve_language? valid (usable.named _ isMember) found⟩
  provides := by
    intro id language found host
    exact executorFor_of_serves valid isConfig serves usable found host
  delegates := by
    intro id language settings delegate found isTranspile isSettings isDelegate
    exact delegates_of_serves valid isConfig serves usable.named found isTranspile isSettings
      isDelegate
  runs := by
    intro host request armed id language meant notBlank
    have found := Config.language?_of_resolve once meant
    obtain ⟨after, executor, made⟩ :=
      executorFor_of_serves valid isConfig serves usable found host
    refine ⟨after, executor, made, ?_⟩
    subst isConfig
    simp only [execute, meant, notBlank, executorFor_armed, made, Bool.false_eq_true, if_false]

/-- A language without an executor: it goes by the empty id, or there is no length of time to wait
for its worker. -/
theorem usable_of_dispatches (once : (config.languages.map Prod.fst).Nodup)
    (dispatches : Dispatches config built facade) : config.Usable where
  named := by
    rintro ⟨id, language⟩ member rfl
    obtain ⟨_, -, meant⟩ := dispatches.resolves "" (Config.mem_languageIds.mpr ⟨_, member, rfl⟩)
    rw [Config.resolve_empty] at meant
    contradiction
  timely := by
    intro timeout entry member isWorker
    obtain ⟨id, language⟩ := entry
    replace isWorker : language.backend = .worker := isWorker
    have found := Config.language?_of_mem once member
    obtain ⟨after, executor, made⟩ := dispatches.provides id language found {}
    have served := (Config.validate_eq_ok.mp valid _ member).served
    simp only [Config.Served, isWorker] at served
    obtain ⟨runtime, isRuntime, -⟩ := served
    obtain ⟨launcher, isLauncher, -⟩ := (serves _ member).worker isWorker _ isRuntime
    simp only [executorFor, isWorker, workerFor, isLauncher, isConfig, timeout] at made
    contradiction

end Built

/-- A valid configuration can be dispatched just when no language goes by the empty id and the
workers have a length of time to become ready. -/
theorem dispatches_build_iff (host : Host) (config : Config) (hook registry : Nat)
    (valid : config.validate = .ok ()) (once : (config.languages.map Prod.fst).Nodup) :
    Dispatches config (build host config hook registry {}).1 (build host config hook registry {}).2 ↔
      config.Usable := by
  have isConfig := config_build host config hook registry {}
  have serves := serves_build host hook registry once
  constructor
  · exact usable_of_dispatches valid isConfig serves once
  · exact dispatches_of_usable valid isConfig serves once

section Nameless

/-- A language that runs in a sandbox. -/
def boxed : Language where
  name := "A"
  extension := ⟨"a", by decide⟩
  backend := .sandbox
  runtime := some { command := ["run"] }

/-- A language that is compiled to the one with the empty id. -/
def compiledTo (delegate : String) : Language where
  name := "T"
  extension := ⟨"t", by decide⟩
  backend := .transpile
  transpile := some { command := ["compile"], delegate := some delegate }

theorem dispatches_build_named :
    let config : Config := { languages := [("a", boxed), ("t", compiledTo "a")] }
    config.validate = .ok () ∧ (config.languages.map Prod.fst).Nodup ∧
      Dispatches config (build {} config 0 0 {}).1 (build {} config 0 0 {}).2 := by
  intro config
  have valid : config.validate = .ok () := by decide +kernel
  have once : (config.languages.map Prod.fst).Nodup := by decide
  have usable : config.Usable := ⟨by decide, fun _ => by decide⟩
  exact ⟨valid, once, (dispatches_build_iff {} config 0 0 valid once).mpr usable⟩

/-- A language that goes by the empty id is accepted, and so is one that delegates to it; the one
cannot be asked for, and the other cannot be run. -/
theorem undispatched_nameless :
    let config : Config := { languages := [("", boxed), ("t", compiledTo "")] }
    config.validate = .ok () ∧ "" ∈ config.languageIds ∧ config.resolve "" = none ∧
      executorFor {} (build {} config 0 0 {}).2 "t" (compiledTo "") =
        .error (.misconfigured (.languageNotFound "")) := by
  intro config
  have valid : config.validate = .ok () := by decide +kernel
  have once : (config.languages.map Prod.fst).Nodup := by decide
  obtain ⟨compiler, isCompiler, -⟩ :=
    (serves_build {} 0 0 once ("t", compiledTo "") (by simp [config])).compiler rfl _ rfl
  exact ⟨valid, Config.mem_languageIds.mpr ⟨_, .head _, rfl⟩, Config.resolve_empty config,
    executorFor_nameless rfl rfl rfl isCompiler {}⟩

end Nameless

end Facade

end Polyglot
