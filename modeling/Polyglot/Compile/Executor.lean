import Polyglot.Run.Compilation
import Polyglot.Text.Blank
import Polyglot.Text.Quoted

/-!
# Compile executors

A compile executor gives code to a compiler and the compiled code to a sandbox.
Without a sandbox the compiled code itself is the result.
-/

namespace Polyglot.Compile

open Text

/-- An executor for one language. -/
structure Executor where
  language : String
  /-- The number of its compiler. -/
  compiler : Nat
  options : CompilerOptions := {}
  /-- The number of the sandbox executor that runs compiled code. -/
  delegate : Option Nat := none
  deriving Repr, DecidableEq

/-- What is to be done with code. -/
inductive Verdict where
  /-- Nothing more: this is the result. -/
  | result (result : RunResult)
  /-- This code is to be run. -/
  | run (code : String)
  deriving Repr, DecidableEq

/-- The result when the compiler gave no code. -/
def refusal (compilation : Compilation) : RunResult :=
  { stderr := s!"Compilation failed:\n{compilation.failureText}"
    diagnostics := compilation.errors }

/-- What is to be done after a compilation; `delegated` says whether there is a
sandbox to run code in. -/
def verdict (delegated : Bool) (compilation : Compilation) : Verdict :=
  match compilation.success, compilation.code with
  | true, some code =>
    if delegated then .run code
    else .result (.success s!"Successfully compiled to JavaScript:\n\n{trim code}")
  | _, _ => .result (refusal compilation)

namespace Executor

variable {State : Type}

/-- What is to be done with code, and what the compiler remembers.  Blank code is
not compiled. -/
def judge (compile : State → String → CompilerOptions → State × Compilation) (state : State)
    (executor : Executor) (code : String) : State × Verdict :=
  if isBlankText code then (state, .result (.failure emptySourceMessage))
  else
    let (state, compilation) := compile state code executor.options
    (state, verdict executor.delegate.isSome compilation)

/-- The printed form of an executor. -/
def toText (executor : Executor) : String :=
  let mode := if executor.delegate.isSome then "FullExecution" else "CompilationOnly"
  s!"CompileExecutor \x7b language: {quoted executor.language}, mode: {mode} \x7d"

end Executor

end Polyglot.Compile
