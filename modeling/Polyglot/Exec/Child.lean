import Polyglot.Channel.Link
import Polyglot.Exec.Basic
import Polyglot.Text.Quoted
import Polyglot.Wire.Codec

/-!
# Child processes as contexts

A context can be a child process: every message to it is a line of its standard
input, and every line of its standard output is a message from it.  Lines that are
blank or no message are passed over.
-/

namespace Polyglot.Exec

open Shell Text

/-- How contexts that are child processes are started. -/
structure Launcher where
  /-- What the contexts are called. -/
  label : String
  command : List String
  env : Environment := []
  deriving Repr

namespace Launcher

/-- Starts a process. -/
def launch (site : Site) (launcher : Launcher) : Except TransportError Job :=
  Exec.launch site launcher.command launcher.env

/-- The printed form of a launcher. -/
def toText (launcher : Launcher) : String :=
  let program :=
    match launcher.command.head? with
    | none => "None"
    | some program => s!"Some({quoted program})"
  s!"ProcessLauncher \x7b label: {quoted launcher.label}, program: {program} \x7d"

end Launcher

/-- A child process with what it was told and what it was heard to say. -/
structure Child where
  job : Job
  /-- What was written to its standard input. -/
  input : Octets := []
  /-- How many lines of its standard output were heard. -/
  heard : Nat := 0
  /-- Whether nobody has listened yet. -/
  fresh : Bool := true
  deriving Repr

namespace Child

variable {Out In : Type}

/-- What a process has said: its complete lines, all of them when it has ended. -/
def linesOf (trace : Trace) : List Octets :=
  let lines := Octets.lines trace.out
  if trace.ending = .waiting && trace.out.getLast? ≠ some '\n' then lines.dropLast else lines

/-- The messages of lines.  A line that is no text ends them; the word says whether
there was none. -/
def messages [WireForm In] : List Octets → List In × Bool
  | [] => ([], true)
  | line :: lines =>
    match Octets.toText? line with
    | none => ([], false)
    | some text =>
      let (rest, complete) := messages lines
      match if isBlankText text then none else (Wire.decode? text : Option In) with
      | none => (rest, complete)
      | some message => (message :: rest, complete)

/-- The line that a message is written as. -/
def lineOf [WireForm Out] (message : Out) : Octets := octets (Wire.encode message ++ "\n")

/-- Listens to what a process has said by now.  The context is gone when the process has
ended or can no longer be understood. -/
def listen [WireForm In] (child : Child) (trace : Trace) (link : Link Out In) :
    Child × Link Out In :=
  let lines := linesOf trace
  let (found, complete) : List In × Bool := messages (lines.drop child.heard)
  let link := { link with toHost := link.toHost ++ found }
  let link := if complete && trace.ending = .waiting then link else link.dropContext
  ({ child with heard := lines.length, fresh := false }, link)

/-- Tells a process so many messages and listens to what it says then. -/
def converse [WireForm Out] [WireForm In] (child : Child) (link : Link Out In) :
    Child × Link Out In :=
  let input := child.input ++ link.toContext.flatMap lineOf
  { child with input }.listen (child.job.trace input false) { link with toContext := [] }

/-- One turn of a child process; none when it has to wait or has gone away.  It is
killed when its host goes away. -/
def turn [WireForm Out] [WireForm In] (child : Child) (link : Link Out In) :
    Option (Child × Link Out In) :=
  if !link.contextOpen then none
  else if !link.hostOpen then some (child, link.dropContext)
  else if child.fresh || !link.toContext.isEmpty then some (child.converse link)
  else none

end Child

end Polyglot.Exec
