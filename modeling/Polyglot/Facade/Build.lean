import Polyglot.Facade.Basic
import Polyglot.Sandbox.Bootstrap
import Polyglot.Worker.Bootstrap

/-!
# Building facades

A facade has a backend for every configured language: one that it is given, or one
that the configuration describes.
-/

namespace Polyglot

/-- Backends that are used in place of configured ones, by the ids of languages. -/
structure Overrides where
  sandboxes : List (String × Nat) := []
  workers : List (String × Nat) := []
  compilers : List (String × Nat) := []
  toolchains : List (String × Nat × Toolchain.Artifacts) := []
  deriving Repr

namespace Facade

/-- Adds a launcher of child processes. -/
def addLauncher (host : Host) (id : String) (settings : RuntimeSection) (bootstrap : String) :
    Host × Nat :=
  let command := expandCommand [("\x7bbootstrap\x7d", bootstrap)] settings.command
  let source := Source.processes { label := id, command, env := settings.env }
  ({ host with launchers := host.launchers ++ [{ name := id, source }] }, host.launchers.length)

/-- Adds a compiler that is a command. -/
def addCompiler (host : Host) (settings : TranspileSection) : Host × Nat :=
  ({ host with
      compilers :=
        host.compilers ++ [.command { command := settings.command, env := settings.env }] },
    host.compilers.length)

/-- Adds a toolchain of two commands. -/
def addToolchain (host : Host) (pair : Toolchain.CommandPair) : Host × Nat :=
  ({ host with toolchains := host.toolchains ++ [.commands pair] }, host.toolchains.length)

/-- Adds the configured backend of a language, unless there is one for it. -/
def addBackend (host : Host) (facade : Facade) (id : String) (language : Language) :
    Host × Facade :=
  match language.backend, language.runtime, language.transpile, language.compile,
    language.run with
  | .sandbox, some settings, _, _, _ =>
    if (lookup facade.sandboxes id).isSome then (host, facade)
    else
      let (host, launcher) := addLauncher host id settings Sandbox.bootstrap
      (host, { facade with sandboxes := facade.sandboxes ++ [(id, launcher)] })
  | .worker, some settings, _, _, _ =>
    if (lookup facade.workers id).isSome then (host, facade)
    else
      let (host, launcher) := addLauncher host id settings Worker.bootstrap
      (host, { facade with workers := facade.workers ++ [(id, launcher)] })
  | .transpile, _, some settings, _, _ =>
    if (lookup facade.compilers id).isSome then (host, facade)
    else
      let (host, compiler) := addCompiler host settings
      (host, { facade with compilers := facade.compilers ++ [(id, compiler)] })
  | .toolchain, _, _, some compile, some run =>
    if (lookup facade.toolchains id).isSome then (host, facade)
    else
      let pair : Toolchain.CommandPair := { compile, run, workDir := facade.config.workDir }
      let (host, toolchain) := addToolchain host pair
      (host, { facade with toolchains := facade.toolchains ++ [(id, toolchain, pair.artifacts)] })
  | _, _, _, _, _ => (host, facade)

/-- A facade for a configuration. -/
def build (host : Host) (config : Config) (hook registry : Nat) (overrides : Overrides) :
    Host × Facade :=
  let facade : Facade :=
    { config, hook, registry
      sandboxes := overrides.sandboxes
      workers := overrides.workers
      compilers := overrides.compilers
      toolchains := overrides.toolchains }
  config.languages.foldl
    (fun (host, facade) (id, language) => addBackend host facade id language) (host, facade)

end Facade

end Polyglot
