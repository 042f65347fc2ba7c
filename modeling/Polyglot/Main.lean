import Polyglot.Cli.Dialogue

/-!
# The program

Reads the files that the arguments name, asks for lines when code does, and prints.
-/

namespace Polyglot.Cli

open Shell

/-- The directory in which the program works, as the tree of files has it. -/
def home : Path := ["home".toList]

/-- Puts what stands at a path into a tree. -/
def lookUp (tree : Tree) (path : String) : IO Tree := do
  let place := Path.follow home (octets path)
  let tree := (List.range place.length).foldl
    (fun (tree : Tree) length =>
      if (tree.node? (place.take length)).isSome then tree
      else tree.put (place.take length) .directory) tree
  let opened ← (IO.FS.Handle.mk path .read).toBaseIO
  match opened with
  | .error _ => return tree
  | .ok handle =>
    match ← handle.readBinToEnd.toBaseIO with
    | .ok content => return tree.put place (.file (.ofBytes content.toList))
    | .error _ => return tree.put place .directory

/-- The site of an invocation. -/
def siteOf (arguments : List String) : IO Exec.Site := do
  match Invocation.ofArguments arguments with
  | .error _ => return { directory := home }
  | .ok invocation =>
    return { tree := ← invocation.paths.foldlM lookUp systemTree, directory := home }

/-- Answers requests with lines of standard input until the code has run.  The outcome
comes with the number of characters that were printed on standard error. -/
partial def converse (dialogue : Dialogue) : IO (Outcome × Nat) := do
  match dialogue.outcome?, dialogue.prompt? with
  | some outcome, _ => return (outcome, dialogue.err.length)
  | none, none => return ({ exit := 1, err := dialogue.err }, dialogue.err.length)
  | none, some (prompt, dialogue) =>
    IO.eprint prompt
    let line ← (← IO.getStdin).getLine
    converse (dialogue.reply (answerOf line))

/-- Writes the file of an outcome; false when that is not possible. -/
def writeFile : Option (String × String) → IO Bool
  | none => return true
  | some (path, content) => do
    match ← (IO.FS.writeFile path content).toBaseIO with
    | .ok () => return true
    | .error _ => return false

/-- Prints an outcome, of which the first `shown` characters on standard error have
been printed already. -/
def finish (outcome : Outcome) (shown : Nat) : IO UInt32 := do
  if ← writeFile outcome.written then
    IO.print outcome.out
    IO.eprint (String.ofList (outcome.err.toList.drop shown))
    return outcome.exit.toUInt32
  else
    IO.eprintln (Outcome.failure "failed to write configuration file").err
    return 1

end Polyglot.Cli

/-- The program. -/
def main (arguments : List String) : IO UInt32 := do
  match Polyglot.Cli.perform (← Polyglot.Cli.siteOf arguments) arguments with
  | .over outcome => Polyglot.Cli.finish outcome 0
  | .running dialogue =>
    let (outcome, shown) ← Polyglot.Cli.converse dialogue
    Polyglot.Cli.finish outcome shown
