import Polyglot.Facade.Build

/-!
# The backends of a built facade

Building goes through the languages one by one and only ever adds to the tables.  So what it adds
for a language is what is found for it in the end.
-/

namespace Polyglot.Facade

/-- The launcher that a runtime section describes. -/
def launcherOf (id : String) (settings : RuntimeSection) (bootstrap : String) : Launcher where
  name := id
  source := .processes {
    label := id
    command := expandCommand [("\x7bbootstrap\x7d", bootstrap)] settings.command
    env := settings.env }

/-- The compiler that a section describes. -/
def compilerOf (settings : TranspileSection) : Compiler :=
  .command { command := settings.command, env := settings.env }

/-- A facade has the backend of a language, which is the one that is configured. -/
structure Serves (host : Host) (facade : Facade) (id : String) (language : Language) : Prop where
  sandbox (isSandbox : language.backend = .sandbox) (settings : RuntimeSection)
    (isRuntime : language.runtime = some settings) : ∃ launcher,
      lookup facade.sandboxes id = some launcher ∧
        host.launchers[launcher]? = some (launcherOf id settings Sandbox.bootstrap)
  worker (isWorker : language.backend = .worker) (settings : RuntimeSection)
    (isRuntime : language.runtime = some settings) : ∃ launcher,
      lookup facade.workers id = some launcher ∧
        host.launchers[launcher]? = some (launcherOf id settings Worker.bootstrap)
  compiler (isTranspile : language.backend = .transpile) (settings : TranspileSection)
    (isCompiler : language.transpile = some settings) : ∃ compiler,
      lookup facade.compilers id = some compiler ∧
        host.compilers[compiler]? = some (compilerOf settings)
  toolchain (isToolchain : language.backend = .toolchain) (compile : CompileSection)
    (run : RunSection) (isCompile : language.compile = some compile)
    (isRun : language.run = some run) :
    let pair : Toolchain.CommandPair := { compile, run, workDir := facade.config.workDir }
    ∃ toolchain, lookup facade.toolchains id = some (toolchain, pair.artifacts) ∧
      host.toolchains[toolchain]? = some (.commands pair)

/-- A facade has no backend for an id yet. -/
structure Lacks (facade : Facade) (id : String) : Prop where
  sandbox : lookup facade.sandboxes id = none
  worker : lookup facade.workers id = none
  compiler : lookup facade.compilers id = none
  toolchain : lookup facade.toolchains id = none

/-- Backends were added to a host and to the tables of a facade, and nothing else was changed. -/
structure Extends (host : Host) (facade : Facade) (after : Host) (built : Facade) : Prop where
  launchers : host.launchers <+: after.launchers
  compilers : host.compilers <+: after.compilers
  toolchains : host.toolchains <+: after.toolchains
  tables : ∃ sandboxes workers compilers toolchains, built = { facade with
    sandboxes := facade.sandboxes ++ sandboxes
    workers := facade.workers ++ workers
    compilers := facade.compilers ++ compilers
    toolchains := facade.toolchains ++ toolchains }

section Tables

variable {α : Type} {table more : List (String × α)} {id other : String} {value : α}

theorem lookup_append_of_some (found : lookup table id = some value) :
    lookup (table ++ more) id = some value := by
  rw [lookup, Option.map_eq_some_iff] at found
  obtain ⟨entry, isFound, rfl⟩ := found
  rw [lookup, List.find?_append, isFound]
  rfl

theorem lookup_append_of_none (missing : lookup table id = none) :
    lookup (table ++ [(id, value)]) id = some value := by
  rw [lookup, Option.map_eq_none_iff] at missing
  rw [lookup, List.find?_append, missing]
  simp

theorem lookup_append_of_ne (distinct : other ≠ id) :
    lookup (table ++ [(other, value)]) id = lookup table id := by
  rw [lookup, lookup, List.find?_append]
  simp [distinct]

theorem getElem?_of_prefix {list longer : List α} (isPrefix : list <+: longer) {number : Nat}
    (isThere : list[number]? = some value) : longer[number]? = some value := by
  obtain ⟨rest, rfl⟩ := isPrefix
  rw [List.getElem?_append_left (List.getElem?_eq_some_iff.mp isThere).1]
  exact isThere

end Tables

variable {host middle after : Host} {facade between built : Facade} {id other : String}
  {language : Language}

theorem Extends.refl (host : Host) (facade : Facade) : Extends host facade host facade where
  launchers := List.prefix_rfl
  compilers := List.prefix_rfl
  toolchains := List.prefix_rfl
  tables := ⟨[], [], [], [], by simp⟩

theorem Extends.trans (first : Extends host facade middle between)
    (second : Extends middle between after built) : Extends host facade after built where
  launchers := first.launchers.trans second.launchers
  compilers := first.compilers.trans second.compilers
  toolchains := first.toolchains.trans second.toolchains
  tables := by
    obtain ⟨sandboxes, workers, compilers, toolchains, rfl⟩ := first.tables
    obtain ⟨moreSandboxes, moreWorkers, moreCompilers, moreToolchains, rfl⟩ := second.tables
    exact ⟨sandboxes ++ moreSandboxes, workers ++ moreWorkers, compilers ++ moreCompilers,
      toolchains ++ moreToolchains, by simp only [List.append_assoc]⟩

/-- What a facade has for a language it keeps. -/
theorem Serves.extends (serves : Serves host facade id language)
    (extension : Extends host facade after built) : Serves after built id language := by
  obtain ⟨launchers, compilers, toolchains, _, _, _, _, rfl⟩ := extension
  constructor
  case sandbox =>
    intro isSandbox settings isRuntime
    obtain ⟨launcher, isFound, isLauncher⟩ := serves.sandbox isSandbox settings isRuntime
    exact ⟨launcher, lookup_append_of_some isFound, getElem?_of_prefix launchers isLauncher⟩
  case worker =>
    intro isWorker settings isRuntime
    obtain ⟨launcher, isFound, isLauncher⟩ := serves.worker isWorker settings isRuntime
    exact ⟨launcher, lookup_append_of_some isFound, getElem?_of_prefix launchers isLauncher⟩
  case compiler =>
    intro isTranspile settings isSettings
    obtain ⟨compiler, isFound, isCompiler⟩ := serves.compiler isTranspile settings isSettings
    exact ⟨compiler, lookup_append_of_some isFound, getElem?_of_prefix compilers isCompiler⟩
  case toolchain =>
    intro isToolchain compile run isCompile isRun
    obtain ⟨toolchain, isFound, isPair⟩ := serves.toolchain isToolchain compile run isCompile isRun
    exact ⟨toolchain, lookup_append_of_some isFound, getElem?_of_prefix toolchains isPair⟩

/-! ## One language -/

/-- What comes of a language: its backend is there, and that of no other. -/
structure Adds (host : Host) (facade : Facade) (id : String) (language : Language)
    (after : Host) (built : Facade) : Prop where
  extension : Extends host facade after built
  serves : Lacks facade id → Serves after built id language
  others (other : String) (distinct : other ≠ id) (lacks : Lacks facade other) : Lacks built other

/-- Nothing comes of a language that has a backend or describes none. -/
theorem adds_nothing (serves : Lacks facade id → Serves host facade id language) :
    Adds host facade id language host facade :=
  ⟨.refl host facade, serves, fun _ _ lacks => lacks⟩

theorem adds_sandbox {settings : RuntimeSection} (isSandbox : language.backend = .sandbox)
    (isRuntime : language.runtime = some settings) :
    Adds host facade id language
      { host with launchers := host.launchers ++ [launcherOf id settings Sandbox.bootstrap] }
      { facade with sandboxes := facade.sandboxes ++ [(id, host.launchers.length)] } where
  extension := ⟨List.prefix_append _ _, List.prefix_rfl, List.prefix_rfl,
    [(id, host.launchers.length)], [], [], [], by simp⟩
  serves lacks := by
    constructor
    case sandbox =>
      intro _ found isFound
      obtain rfl := Option.some.inj (isRuntime.symm.trans isFound)
      exact ⟨_, lookup_append_of_none lacks.sandbox, List.getElem?_concat_length⟩
    all_goals
      intro isOther
      rw [isSandbox] at isOther
      contradiction
  others other distinct lacks :=
    { lacks with sandbox := (lookup_append_of_ne distinct.symm).trans lacks.sandbox }

theorem adds_worker {settings : RuntimeSection} (isWorker : language.backend = .worker)
    (isRuntime : language.runtime = some settings) :
    Adds host facade id language
      { host with launchers := host.launchers ++ [launcherOf id settings Worker.bootstrap] }
      { facade with workers := facade.workers ++ [(id, host.launchers.length)] } where
  extension := ⟨List.prefix_append _ _, List.prefix_rfl, List.prefix_rfl,
    [], [(id, host.launchers.length)], [], [], by simp⟩
  serves lacks := by
    constructor
    case worker =>
      intro _ found isFound
      obtain rfl := Option.some.inj (isRuntime.symm.trans isFound)
      exact ⟨_, lookup_append_of_none lacks.worker, List.getElem?_concat_length⟩
    all_goals
      intro isOther
      rw [isWorker] at isOther
      contradiction
  others other distinct lacks :=
    { lacks with worker := (lookup_append_of_ne distinct.symm).trans lacks.worker }

theorem adds_compiler {settings : TranspileSection} (isTranspile : language.backend = .transpile)
    (isSettings : language.transpile = some settings) :
    Adds host facade id language
      { host with compilers := host.compilers ++ [compilerOf settings] }
      { facade with compilers := facade.compilers ++ [(id, host.compilers.length)] } where
  extension := ⟨List.prefix_rfl, List.prefix_append _ _, List.prefix_rfl,
    [], [], [(id, host.compilers.length)], [], by simp⟩
  serves lacks := by
    constructor
    case compiler =>
      intro _ found isFound
      obtain rfl := Option.some.inj (isSettings.symm.trans isFound)
      exact ⟨_, lookup_append_of_none lacks.compiler, List.getElem?_concat_length⟩
    all_goals
      intro isOther
      rw [isTranspile] at isOther
      contradiction
  others other distinct lacks :=
    { lacks with compiler := (lookup_append_of_ne distinct.symm).trans lacks.compiler }

theorem adds_toolchain {compile : CompileSection} {run : RunSection}
    (isToolchain : language.backend = .toolchain) (isCompile : language.compile = some compile)
    (isRun : language.run = some run) :
    let pair : Toolchain.CommandPair := { compile, run, workDir := facade.config.workDir }
    Adds host facade id language
      { host with toolchains := host.toolchains ++ [.commands pair] }
      { facade with
        toolchains := facade.toolchains ++ [(id, host.toolchains.length, pair.artifacts)] } where
  extension := ⟨List.prefix_rfl, List.prefix_rfl, List.prefix_append _ _,
    [], [], [], [(id, host.toolchains.length, Toolchain.CommandPair.artifacts
      { compile, run, workDir := facade.config.workDir })], by simp⟩
  serves lacks := by
    constructor
    case toolchain =>
      intro _ found other isFound isOther
      obtain rfl := Option.some.inj (isCompile.symm.trans isFound)
      obtain rfl := Option.some.inj (isRun.symm.trans isOther)
      exact ⟨_, lookup_append_of_none lacks.toolchain, List.getElem?_concat_length⟩
    all_goals
      intro isOther
      rw [isToolchain] at isOther
      contradiction
  others other distinct lacks :=
    { lacks with toolchain := (lookup_append_of_ne distinct.symm).trans lacks.toolchain }

/-- An id without a backend is not one that has one. -/
theorem adds_present {α : Type} {table : List (String × α)} (present : (lookup table id).isSome)
    (lacks : Lacks facade id → lookup table id = none) :
    Adds host facade id language host facade := by
  apply adds_nothing
  intro missing
  rw [lacks missing] at present
  contradiction

theorem adds_addBackend (host : Host) (facade : Facade) (id : String) (language : Language) :
    Adds host facade id language (addBackend host facade id language).1
      (addBackend host facade id language).2 := by
  rw [addBackend]
  split
  · rename_i isSandbox isRuntime
    split
    · rename_i present
      exact adds_present present Lacks.sandbox
    · exact adds_sandbox isSandbox isRuntime
  · rename_i isWorker isRuntime
    split
    · rename_i present
      exact adds_present present Lacks.worker
    · exact adds_worker isWorker isRuntime
  · rename_i isTranspile isSettings
    split
    · rename_i present
      exact adds_present present Lacks.compiler
    · exact adds_compiler isTranspile isSettings
  · rename_i isToolchain isCompile isRun
    split
    · rename_i present
      exact adds_present present Lacks.toolchain
    · exact adds_toolchain isToolchain isCompile isRun
  · rename_i notSandbox notWorker notTranspile notToolchain
    apply adds_nothing
    intro _
    constructor
    case sandbox =>
      intro isSandbox settings isRuntime
      exact (notSandbox settings isSandbox isRuntime).elim
    case worker =>
      intro isWorker settings isRuntime
      exact (notWorker settings isWorker isRuntime).elim
    case compiler =>
      intro isTranspile settings isSettings
      exact (notTranspile settings isTranspile isSettings).elim
    case toolchain =>
      intro isToolchain compile run isCompile isRun
      exact (notToolchain compile run isToolchain isCompile isRun).elim

/-! ## All languages -/

/-- A facade after the backends of some languages were added. -/
def addBackends (host : Host) (facade : Facade) (languages : List (String × Language)) :
    Host × Facade :=
  languages.foldl (fun (host, facade) (id, language) => addBackend host facade id language)
    (host, facade)

theorem extends_addBackends (host : Host) (facade : Facade) (languages : List (String × Language)) :
    Extends host facade (addBackends host facade languages).1
      (addBackends host facade languages).2 := by
  induction languages generalizing host facade with
  | nil => exact .refl host facade
  | cons entry rest ih =>
      obtain ⟨id, language⟩ := entry
      exact (adds_addBackend host facade id language).extension.trans (ih _ _)

/-- Every language whose id is listed once and had no backend before has one in the end. -/
theorem serves_addBackends {languages : List (String × Language)}
    (once : (languages.map Prod.fst).Nodup)
    (lacks : ∀ entry ∈ languages, Lacks facade entry.1) :
    ∀ entry ∈ languages, Serves (addBackends host facade languages).1
      (addBackends host facade languages).2 entry.1 entry.2 := by
  induction languages generalizing host facade with
  | nil => exact List.forall_mem_nil _
  | cons entry rest ih =>
      obtain ⟨id, language⟩ := entry
      obtain ⟨notLater, restOnce⟩ := List.nodup_cons.mp once
      obtain ⟨isNew, areNew⟩ := List.forall_mem_cons.mp lacks
      have adds := adds_addBackend host facade id language
      rw [List.forall_mem_cons]
      constructor
      · exact (adds.serves isNew).extends (extends_addBackends _ _ rest)
      · apply ih restOnce
        intro other isLater
        apply adds.others other.1 _ (areNew other isLater)
        intro same
        exact notLater (List.mem_map.mpr ⟨other, isLater, same⟩)

/-- A facade that was built without any backend of its own serves every language. -/
theorem serves_build (host : Host) {config : Config} (hook registry : Nat)
    (once : (config.languages.map Prod.fst).Nodup) :
    ∀ entry ∈ config.languages, Serves (build host config hook registry {}).1
      (build host config hook registry {}).2 entry.1 entry.2 :=
  serves_addBackends once fun _ _ => ⟨rfl, rfl, rfl, rfl⟩

theorem config_build (host : Host) (config : Config) (hook registry : Nat)
    (overrides : Overrides) : (build host config hook registry overrides).2.config = config := by
  obtain ⟨_, _, _, _, isBuilt⟩ := (extends_addBackends host
    { config, hook, registry
      sandboxes := overrides.sandboxes
      workers := overrides.workers
      compilers := overrides.compilers
      toolchains := overrides.toolchains } config.languages).tables
  exact congrArg Facade.config isBuilt

end Polyglot.Facade
