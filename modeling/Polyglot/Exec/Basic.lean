import Polyglot.Failure
import Polyglot.Language
import Polyglot.Shell.Run

/-!
# Processes

A command is looked up and started somewhere in a tree.  A process is known by what
it has written and by how it has ended, given what has come on its standard input.
It is computed anew from all of its input whenever more has come.
-/

namespace Polyglot.Exec

open Shell

/-- Where commands run: a tree, of which a command changes only its own copy, and a
directory in it. -/
structure Site where
  tree : Tree := systemTree
  directory : Path := []
  deriving Repr

/-- How a process has ended, if it has. -/
inductive Ending where
  /-- It waits for input, or goes on for ever. -/
  | waiting
  | exited (status : Nat)
  | killed (signal : Nat)
  deriving Repr, DecidableEq

/-- The name of a signal. -/
def signalName? : Nat → Option String
  | 1 => some "SIGHUP"
  | 2 => some "SIGINT"
  | 3 => some "SIGQUIT"
  | 4 => some "SIGILL"
  | 5 => some "SIGTRAP"
  | 6 => some "SIGABRT"
  | 7 => some "SIGBUS"
  | 8 => some "SIGFPE"
  | 9 => some "SIGKILL"
  | 10 => some "SIGUSR1"
  | 11 => some "SIGSEGV"
  | 12 => some "SIGUSR2"
  | 13 => some "SIGPIPE"
  | 14 => some "SIGALRM"
  | 15 => some "SIGTERM"
  | _ => none

namespace Ending

/-- Whether a process has ended well. -/
def success (ending : Ending) : Bool := ending = .exited 0

/-- The exit code of a process that was not killed. -/
def code? : Ending → Option Int
  | .exited status => some status
  | .waiting | .killed _ => none

/-- How the ending of a process is spoken of. -/
def toText : Ending → String
  | .waiting => "still running"
  | .exited status => s!"exit status: {status}"
  | .killed signal =>
    match signalName? signal with
    | some name => s!"signal: {signal} ({name})"
    | none => s!"signal: {signal}"

end Ending

/-- What a process has done so far. -/
structure Trace where
  out : Octets
  err : Octets
  ending : Ending
  tree : Tree

/-- A process that was started. -/
structure Job where
  /-- The name by which it was started, and by which it speaks of itself. -/
  name : String
  /-- The program. -/
  program : String
  arguments : List String
  env : Environment
  site : Site
  deriving Repr

/-! ## Commands -/

/-- The place itself that a place may be another name of. -/
def canonical (path : Path) : Path :=
  if path = programDirectory ++ ["sh".toList] then programDirectory ++ [shellFile.toList] else path

/-- A command with its program looked up.  A name with a slash stays as it is. -/
def resolveCommand (command : List String) : Except TransportError (List String) :=
  match command with
  | [] => .error .emptyCommand
  | name :: arguments =>
    if name.toList.contains '/' then .ok command
    else if programNames.contains name || name = shellFile then
      let file := canonical (programDirectory ++ [octets name])
      .ok (Octets.toText file.toOctets :: arguments)
    else .error (.commandNotFound name)

/-- Whether a text ends before its last character for those who end texts at a zero
byte. -/
def hasZero (text : String) : Bool := text.toList.contains '\x00'

/-- Starts a command in a site, or says why that is not possible. -/
def start (site : Site) (name : String) (arguments : List String) (env : Environment) :
    Except String Job :=
  let texts := name :: arguments ++ env.flatMap fun (name, value) => [name, value]
  if texts.any hasZero then .error "nul byte found in provided data"
  else if name.toList.contains '/' then startAt (Path.follow site.directory (octets name))
  else startAt (programDirectory ++ [octets name])
where
  /-- Starts the program at a place. -/
  startAt (path : Path) : Except String Job :=
    match site.tree.node? path with
    | some (.program program) => .ok { name, program, arguments, env, site }
    | some _ => .error "Permission denied (os error 13)"
    | none => .error "No such file or directory (os error 2)"

/-- Looks a command up and starts it. -/
def launch (site : Site) (command : List String) (env : Environment) :
    Except TransportError Job := do
  match ← resolveCommand command with
  | [] => .error .emptyCommand
  | name :: arguments => (start site name arguments env).mapError (.spawn name)

namespace Job

/-- What a process does, as an action. -/
def action (job : Job) : Action Unit :=
  let arguments := job.arguments.map octets
  match Tool.program? job.program with
  | some tool => runTool tool (octets job.name) arguments
  | none => runShell (run depthLimit) arguments

/-- The ending that an action leads to. -/
def endingOf (status : Nat) : Except Stop Unit → Ending
  | .ok () => .exited (status % 256)
  | .error (.exit status) | .error (.back status) => .exited (status % 256)
  | .error (.leave _) | .error (.again _) => .exited (status % 256)
  | .error (.signal number) => .killed number
  | .error .waiting | .error .endless => .waiting

/-- What a process does with an input; `ended` says whether nothing more will come. -/
def trace (job : Job) (input : Octets) (ended : Bool) : Trace :=
  let machine : Machine :=
    { tree := job.site.tree
      directory := job.site.directory
      name := octets job.name
      bindings := job.env.map fun (name, value) => (octets name, octets value)
      exported := job.env.map fun (name, _) => octets name
      input
      ended }
  let (result, machine) := job.action.run machine
  { out := machine.buffers.head?.getD []
    err := (machine.buffers.drop 1).head?.getD []
    ending := endingOf machine.status result
    tree := machine.tree }

end Job

end Polyglot.Exec
