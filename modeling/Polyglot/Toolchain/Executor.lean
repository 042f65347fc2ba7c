import Polyglot.Failure
import Polyglot.Run.Purpose
import Polyglot.Run.Result
import Polyglot.Text.Quoted

/-!
# Toolchain executors

A toolchain compiles code to an artifact and runs that as a program.  Its
executor turns whatever comes of it into a result: a program that ran always has
something on standard output, and a program that did not run never has.
-/

namespace Polyglot.Toolchain

open Text

/-- What a toolchain needs before it can compile. -/
structure Artifacts where
  /-- Programs that have to be found. -/
  programs : List String := []
  /-- Paths that have to exist. -/
  libraries : List String := []
  deriving Repr, DecidableEq

/-- The printed form of artifacts. -/
def Artifacts.toText (artifacts : Artifacts) : String :=
  let programs := quotedList artifacts.programs
  s!"ToolchainArtifacts \x7b programs: {programs}, libraries: {quotedList artifacts.libraries} \x7d"

/-- What a program that ran left behind. -/
structure Output where
  stdout : String := ""
  stderr : String := ""
  /-- None when a signal ended the program. -/
  exitCode : Option Int := some 0
  deriving Repr, DecidableEq

/-- What a toolchain can do.  `State` is what it remembers from one call to the
next. -/
structure Interface (State : Type) where
  /-- Looks for what it needs. -/
  prepare : State → Artifacts → State × Except ToolchainError Unit
  /-- Compiles code and runs the program; none when that never ends. -/
  run : State → String → State × Option (Except ToolchainError Output)

/-- What stands for the output of a program that wrote nothing. -/
def noOutputMessage : String := "No output from the main method"

/-- What is said of how a program ended, unless it ended well. -/
def Output.statusText? (output : Output) : Option String :=
  match output.exitCode with
  | some 0 => none
  | some code => some s!"Process exited with code {code}"
  | none => some "Process terminated by a signal"

/-- The result of a program that ran. -/
def Output.toResult (output : Output) : RunResult :=
  let stdout := trim output.stdout
  let stderr := trim output.stderr
  let complaint :=
    match output.statusText? with
    | none => stderr
    | some status => if stderr.isEmpty then status else stderr ++ "\n" ++ status
  { stdout := if stdout.isEmpty then noOutputMessage else stdout, stderr := complaint }

/-- The result of compiling code and running it.  Only a failure that lies neither
in the code nor in its entry point is an error. -/
def resultOf : Except ToolchainError Output → Except ToolchainError RunResult
  | .ok output => .ok output.toResult
  | .error (.compile details) =>
    .ok { stderr := trim (ToolchainError.compile details).message
          diagnostics := Diagnostic.ofText details }
  | .error (.missingEntryPoint details) =>
    .ok (.failure (trim (ToolchainError.missingEntryPoint details).message))
  | .error cause => .error cause

/-- The result of a run that was cancelled. -/
def cancelledResult : RunResult := .failure "Execution cancelled"

/-- Where a call of an executor stands. -/
inductive Phase where
  /-- Its program does not come to an end. -/
  | hanging
  /-- It is over; a call that ran code has a result. -/
  | finished (outcome : Except ToolchainError (Option RunResult))
  /-- The caller has gone away. -/
  | abandoned
  deriving Repr

/-- An executor for one language. -/
structure Executor where
  language : String
  /-- The number of its toolchain. -/
  toolchain : Nat
  artifacts : Artifacts
  /-- Whether it was destroyed. -/
  destroyed : Bool := false
  /-- Where each call stands, the oldest first. -/
  calls : List Phase := []
  deriving Repr

namespace Executor

variable {State : Type}

/-- What becomes of a call right away, and what the toolchain remembers. -/
def begin (toolchain : Interface State) (state : State) (executor : Executor) :
    Purpose → State × Phase
  | .start =>
    let (state, prepared) := toolchain.prepare state executor.artifacts
    (state, .finished (prepared.map fun _ => none))
  | .execute code =>
    match toolchain.prepare state executor.artifacts with
    | (state, .error cause) => (state, .finished (.error cause))
    | (state, .ok ()) =>
      if executor.destroyed then (state, .finished (.ok (some cancelledResult)))
      else
        match toolchain.run state code with
        | (state, none) => (state, .hanging)
        | (state, some outcome) => (state, .finished ((resultOf outcome).map some))

/-- A new call, up to the point where it has to wait. -/
def call (toolchain : Interface State) (state : State) (executor : Executor)
    (purpose : Purpose) : State × Executor × Nat :=
  let (state, phase) := begin toolchain state executor purpose
  (state, { executor with calls := executor.calls ++ [phase] }, executor.calls.length)

/-- One turn of a call; none when it has to wait or is over.  A program that does
not end is stopped when the executor is destroyed. -/
def turn (executor : Executor) (number : Nat) : Option Executor := do
  let .hanging ← executor.calls[number]? | none
  if executor.destroyed then
    let phase : Phase := .finished (.ok (some cancelledResult))
    return { executor with calls := executor.calls.set number phase }
  else none

/-- The outcome of a call that is over. -/
def outcome? (executor : Executor) (number : Nat) :
    Option (Except ToolchainError (Option RunResult)) :=
  match executor.calls[number]? with
  | some (.finished outcome) => some outcome
  | _ => none

/-- The caller goes away before the call is over. -/
def abandon (executor : Executor) (number : Nat) : Executor :=
  if (executor.outcome? number).isSome then executor
  else { executor with calls := executor.calls.set number .abandoned }

/-- The executor is destroyed, and what it runs is cancelled. -/
def destroy (executor : Executor) : Executor := { executor with destroyed := true }

/-- The printed form of an executor. -/
def toText (executor : Executor) : String :=
  let language := quoted executor.language
  s!"ToolchainExecutor \x7b language: {language}, artifacts: {executor.artifacts.toText} \x7d"

end Executor

end Polyglot.Toolchain
