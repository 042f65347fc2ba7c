import Polyglot.Run.Result

/-!
# Collecting output

Chunks of output arrive in order on each of the two streams.  An aggregator
keeps both texts apart, so nothing depends on how the streams interleave.
-/

namespace Polyglot

open Text

/-- The output of a run so far. -/
structure Aggregator where
  stdout : String := ""
  stderr : String := ""
  deriving Repr, DecidableEq

/-- The text of a chunk, ended by a line feed if it is not already. -/
def chunkText (text : String) : String :=
  if text.toList.getLast? = some '\n' then text else text.push '\n'

namespace Aggregator

/-- Adds a chunk to its stream. -/
def push (output : Aggregator) (stream : Stream) (text : String) : Aggregator :=
  match stream with
  | .stdout => { output with stdout := output.stdout ++ chunkText text }
  | .stderr => { output with stderr := output.stderr ++ chunkText text }

/-- Whether nothing has been collected. -/
def isEmpty (output : Aggregator) : Bool :=
  output.stdout.isEmpty && output.stderr.isEmpty

/-- The result of the run; a new run begins with an empty aggregator. -/
def finish (output : Aggregator) : RunResult where
  stdout := trim output.stdout
  stderr := trim output.stderr

/-- What is done with an aggregator. -/
inductive Step where
  | push (stream : Stream) (text : String)
  | finish
  deriving Repr, DecidableEq

/-- Takes a step.  To finish gives the result of the run and leaves nothing of it for the
next one. -/
def step (output : Aggregator) : Step → Aggregator × Option RunResult
  | .push stream text => (output.push stream text, none)
  | .finish => ({}, some output.finish)

/-- The results that steps give, the first one first. -/
def results (output : Aggregator) : List Step → List RunResult
  | [] => []
  | first :: rest =>
    let (output, result?) := output.step first
    result?.toList ++ results output rest

end Aggregator

end Polyglot
