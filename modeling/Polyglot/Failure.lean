import Polyglot.Text.Duration

/-!
# Causes of failure

Why a context, a sandbox, a worker, a toolchain, a configuration or a run could
not do its work.  Each cause has one wording.
-/

namespace Polyglot

/-- Why a context could not be reached. -/
inductive TransportError where
  | emptyCommand
  | commandNotFound (name : String)
  | spawn (program reason : String)
  | io (reason : String)
  | closed
  deriving Repr, DecidableEq

/-- The wording of a cause. -/
def TransportError.message : TransportError → String
  | .emptyCommand => "empty command"
  | .commandNotFound name => s!"command '{name}' not found in PATH"
  | .spawn program reason => s!"failed to spawn '{program}': {reason}"
  | .io reason => s!"I/O error: {reason}"
  | .closed => "context closed"

/-- Why a sandbox did not run. -/
inductive SandboxError where
  | destroyed
  | launch (cause : TransportError)
  deriving Repr, DecidableEq

/-- The wording of a cause. -/
def SandboxError.message : SandboxError → String
  | .destroyed => "sandbox has been destroyed"
  | .launch cause => s!"failed to start sandbox: {cause.message}"

/-- Why no worker was provided. -/
inductive WorkerError where
  | thread (language reason : String)
  | startup (language reason : String)
  | readyTimeout (language : String) (timeout : Duration)
  | shutDown (language : String)
  deriving Repr, DecidableEq

/-- The wording of a cause. -/
def WorkerError.message : WorkerError → String
  | .thread language reason => s!"failed to start {language} worker thread: {reason}"
  | .startup language reason => s!"{language} worker failed to start: {reason}"
  | .readyTimeout language timeout =>
    s!"{language} worker did not become ready within {timeout.toText}"
  | .shutDown language => s!"{language} worker has been shut down"

/-- Why a program was not compiled or not run. -/
inductive ToolchainError where
  | notInitialized
  | missingProgram (name : String)
  | missingLibrary (path : String)
  | compile (details : String)
  | missingEntryPoint (details : String)
  | io (reason : String)
  deriving Repr, DecidableEq

/-- The wording of a cause. -/
def ToolchainError.message : ToolchainError → String
  | .notInitialized => "toolchain has not been initialized"
  | .missingProgram name => s!"toolchain program '{name}' not found"
  | .missingLibrary path => s!"library artifact '{path}' not found"
  | .compile details => s!"Compilation failed:\n{details}"
  | .missingEntryPoint details => s!"Execution failed: missing entry point\n{details}"
  | .io reason => s!"I/O error: {reason}"

/-- What is wrong with a configuration. -/
inductive ConfigError where
  | invalidExtension
  /-- The text is not one of a configuration. -/
  | unreadable
  | languageNotFound (id : String)
  | invalid (reason : String)
  deriving Repr, DecidableEq

/-- The wording of a cause. -/
def ConfigError.message : ConfigError → String
  | .invalidExtension => "Invalid characters in file extension"
  | .unreadable => "failed to parse config"
  | .languageNotFound id => s!"language '{id}' not found in configuration"
  | .invalid reason => s!"invalid config: {reason}"

/-- Why an executor has no result. -/
inductive ExecutorError where
  | sandbox (cause : SandboxError)
  | worker (cause : WorkerError)
  | toolchain (cause : ToolchainError)
  deriving Repr, DecidableEq

/-- The wording of a cause. -/
def ExecutorError.message : ExecutorError → String
  | .sandbox cause => cause.message
  | .worker cause => cause.message
  | .toolchain cause => cause.message

/-- Why a request was not run. -/
inductive RunError where
  | alreadyExecuting
  deriving Repr, DecidableEq

/-- The wording of a cause. -/
def RunError.message : RunError → String
  | .alreadyExecuting => "Code is already executing. Please wait for completion."

end Polyglot
