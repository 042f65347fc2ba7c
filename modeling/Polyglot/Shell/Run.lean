import Polyglot.Shell.Builtin
import Polyglot.Tool.Program

/-!
# Running scripts

A command is run with a way to run the commands in it, so that the number of
commands in one another bounds the recursion.
-/

namespace Polyglot.Shell

open Polyglot.Shell.Action

/-! ## Redirections -/

/-- Opens a file for writing, and empties it unless it is to be appended to. -/
def openForWriting (machine : Machine) (target : Octets) (appends : Bool) :
    Option (Machine × Channel) :=
  let path := Path.follow machine.directory target
  let content := if appends then (machine.tree.read? path).getD [] else []
  (machine.tree.write? path content).map fun tree => ({ machine with tree }, .file path)

/-- Directs a channel elsewhere. -/
def setChannel (number : Nat) (channel : Channel) (machine : Machine) : Machine :=
  if number = 1 then { machine with out := channel }
  else if number = 2 then { machine with err := channel }
  else machine

/-- Follows a redirection; false when that is not possible. -/
def redirect (expander : Expander) (redirect : Redirect) : Action Bool := do
  let target := (← expander.field redirect.target).toOctets
  let machine ← get
  match String.ofList redirect.operator with
  | "<" =>
    match machine.tree.read? (Path.follow machine.directory target) with
    | some content =>
      set { machine with input := content, ended := true }
      return true
    | none =>
      complain s!"cannot open {Octets.toText target}: No such file"
      return false
  | "<<" | "<<-" =>
    set { machine with input := target, ended := true }
    return true
  | ">&" | "<&" =>
    let number := redirect.channel.getD 1
    let channel := if target = ['2'] then machine.err else machine.out
    set (setChannel number channel machine)
    return true
  | operator =>
    let number := redirect.channel.getD 1
    if target = "/dev/stderr".toList then
      set (setChannel number machine.err machine)
      return true
    else if target = "/dev/stdout".toList then
      set (setChannel number machine.out machine)
      return true
    else
      match openForWriting machine target (operator = ">>") with
      | some (machine, channel) =>
        set (setChannel number channel machine)
        return true
      | none =>
        complain s!"cannot create {Octets.toText target}: Directory nonexistent"
        return false

/-- Does something with redirections. -/
def redirecting (expander : Expander) (redirects : List Redirect) (body : Action Unit) :
    Action Unit := do
  let before ← get
  let possible ← redirects.allM (redirect expander)
  let result ← attempt (if possible then body else setStatus 2)
  let readsElsewhere := redirects.any fun redirect =>
    [['<'], ['<', '<'], ['<', '<', '-']].contains redirect.operator
  modify fun after =>
    { after with
      out := before.out
      err := before.err
      input := if readsElsewhere then before.input else after.input
      ended := if readsElsewhere then before.ended else after.ended }
  conclude result

/-! ## Programs -/

/-- Runs a program that does not run scripts. -/
def runTool (tool : Tool.Call → Tool.Effect) (name : Octets) (arguments : List Octets) :
    Action Unit := do
  let machine ← get
  let { input, ended, tree, directory, .. } := machine
  let effect := tool { name, arguments, input, ended, tree, directory }
  set { machine with
    tree := effect.tree, input := if effect.readsInput then [] else machine.input }
  write effect.out
  writeTo (← get).err effect.err
  match effect.status with
  | some status => setStatus status
  | none => throw .waiting

/-- What is wrong with a script that is not well formed. -/
def faultOf (script : Octets) : String :=
  match tokens? (script.length + 1) [] script with
  | none => "Syntax error: Unterminated quoted string"
  | some _ => "Syntax error: end of file unexpected"

/-- The command that the first lines of a script are, as many of them as are well
formed. -/
def firstCommands (script : Octets) : Command :=
  let lines := Octets.lines script
  let starts := (List.range lines.length).reverse.map fun count => Octets.unlines (lines.take count)
  (starts.findSome? parseScript?).getD (.sequence [])

/-- Runs a script in the present machine.  One that is not well formed is run as far as
it is. -/
def runScript (run : Command → Action Unit) (script : Octets) : Action Unit :=
  match parseScript? script with
  | some command => run command
  | none => do
    run (firstCommands script)
    reject (faultOf script)

/-- Runs a script as its arguments say: a text, a file, or standard input. -/
def runArguments (run : Command → Action Unit) (arguments : List Octets) : Action Unit := do
  let flags := arguments.takeWhile fun argument =>
    argument.length > 1 && argument.head? = some '-' && argument ≠ ['-', '-']
  modify fun machine => { machine with options := flags.flatMap (·.drop 1) }
  let rest := arguments.drop flags.length
  let rest := if rest.head? = some ['-', '-'] then rest.drop 1 else rest
  if flags.any (·.any (· = 'c')) then
    match rest with
    | [] => reject "-c requires an argument"
    | [script] => runScript run script
    | script :: name :: arguments =>
      modify fun machine => { machine with name, arguments }
      runScript run script
  else
    match rest with
    | file :: arguments =>
      let machine ← get
      match machine.tree.node? (Path.follow machine.directory file) with
      | some (.file script) =>
        set { machine with name := file, arguments }
        runScript run script
      | some _ => setStatus 0
      | none =>
        complain s!"cannot open {Octets.toText file}: No such file"
        throw (.exit 2)
    | [] =>
      let machine ← get
      if machine.ended then
        set { machine with input := [] }
        runScript run machine.input
      else throw .waiting

/-- Runs a script as its arguments say, and in the end what it has said is to be run
then. -/
def runShell (run : Command → Action Unit) (arguments : List Octets) : Action Unit := do
  let result ← attempt (runArguments run arguments)
  match result, (← get).atExit with
  | .ok (), some script =>
    let { status, .. } ← get
    runScript run script
    setStatus status
  | .error (.exit status), some script =>
    setStatus status
    runScript run script
    throw (.exit status)
  | result, _ => conclude result

/-- How it is said that a signal ended a program. -/
def signalNotice : Nat → Octets
  | 9 => "Killed\n".toList
  | 15 => "Terminated\n".toList
  | _ => []

/-- Runs something as a child: in a machine of its own that knows only the exported
variables, and whose end is a status. -/
def asChild (name : Octets) (action : Action Unit) : Action Unit := do
  let before ← get
  set { before with
    name
    depth := before.depth + 1
    bindings := before.bindings.filter fun (name, _) => before.exported.contains name
    functions := []
    arguments := []
    options := []
    tested := false
    atExit := none }
  let result ← attempt action
  modify fun after =>
    { before with
      tree := after.tree
      input := after.input
      ended := after.ended
      buffers := after.buffers
      status := after.status }
  match result with
  | .ok () => pure ()
  | .error (.exit status) | .error (.back status) => setStatus (status % 256)
  | .error (.leave _) | .error (.again _) => pure ()
  | .error (.signal number) =>
    writeTo (← get).err (signalNotice number)
    setStatus (128 + number)
  | .error stop => throw stop

/-- Runs the program of a name; it speaks of itself by the name that it is given. -/
def runProgram (run : Command → Action Unit) (program : String) (name : Octets)
    (arguments : List Octets) : Action Unit :=
  match Tool.program? program with
  | some tool => runTool tool name arguments
  | none => asChild name (runShell run arguments)

/-- Runs a program from a script. -/
def runExternal (run : Command → Action Unit) (name : Octets) (arguments : List Octets) :
    Action Unit := do
  let machine ← get
  let path :=
    if name.any (· = '/') then Path.follow machine.directory name else programDirectory ++ [name]
  match machine.tree.node? path with
  | some (.program program) => runProgram run program name arguments
  | some _ =>
    complain s!"{Octets.toText name}: Permission denied"
    setStatus 126
  | none =>
    complain s!"{Octets.toText name}: not found"
    setStatus 127

/-! ## Commands -/

/-- Runs a function with arguments. -/
def runFunction (run : Command → Action Unit) (body : Command) (arguments : List Octets) :
    Action Unit := do
  let before ← get
  set { before with arguments }
  let result ← attempt (run body)
  modify fun after => { after with arguments := before.arguments }
  match result with
  | .error (.back status) => setStatus status
  | result => conclude result

/-- Runs a command by its name: a function, a command of the shell or a program. -/
def runNamed (run : Command → Action Unit) (name : Octets) (arguments : List Octets) :
    Action Unit := do
  let machine ← get
  match machine.functions.find? (·.1 = name) with
  | some (_, body) => runFunction run body arguments
  | none =>
    match String.ofList name, arguments with
    | "exec", [] => setStatus 0
    | "exec", program :: arguments =>
      match builtin? run (String.ofList program) arguments with
      | some action => action
      | none => runExternal run program arguments
      throw (.exit (← get).status)
    | "command", ['-', 'v'] :: program :: _ =>
      if (builtin? run (String.ofList program) []).isSome then write (program ++ ['\n'])
      else if ((← get).tree.node? (programDirectory ++ [program])).isSome then
        write (Path.toOctets (programDirectory ++ [program]) ++ ['\n'])
      else setStatus 127
    | "command", program :: arguments =>
      match builtin? run (String.ofList program) arguments with
      | some action => action
      | none => runExternal run program arguments
    | text, arguments =>
      match builtin? run text arguments with
      | some action => action
      | none => runExternal run name arguments

/-- Does something while variables have other values, which programs see. -/
def withAssignments (values : List (Octets × Octets)) (action : Action Unit) : Action Unit := do
  if values.isEmpty then action
  else
    let before ← get
    modify fun machine =>
      { values.foldl (fun machine (name, value) => machine.assign name value) machine with
        exported := values.map (·.1) ++ machine.exported }
    let result ← attempt action
    modify fun after =>
      let restored := values.foldl
        (fun machine (name, _) =>
          match before.lookup? name with
          | some value => machine.assign name value
          | none => { machine with bindings := machine.bindings.filter (·.1 ≠ name) }) after
      { restored with exported := before.exported }
    conclude result

/-- Whether the output of a command stands in a word. -/
def usesCommand (word : Word) : Bool := word.any fun
  | .command _ _ => true
  | _ => false

/-- Runs a simple command. -/
def runSimple (run : Command → Action Unit) (assignments : List (Octets × Word))
    (words : List Word) : Action Unit := do
  let expander : Expander := ⟨run⟩
  match ← expander.fields words with
  | name :: arguments =>
    let values ← assignments.mapM fun (name, word) => do
      return (name, (← expander.field word).toOctets)
    withAssignments values (runNamed run name arguments)
  | [] =>
    for (name, word) in assignments do
      let value := (← expander.field word).toOctets
      modify fun machine => machine.assign name value
    if !(words ++ assignments.map (·.2)).any usesCommand then setStatus 0

/-- Runs the parts of a pipeline; `waits` says whether one of those before them waits
for input. -/
def runPipeline (run : Command → Action Unit) : (waits : Bool) → List Command → Action Unit
  | waits, [] => if waits then throw .waiting else pure ()
  | waits, [final] => do
    isolate (run final)
    if waits then throw .waiting
  | waits, part :: parts => do
    let (out, result) ← capture (isolate (run part))
    match result with
    | .ok () => withInput out true (runPipeline run waits parts)
    | .error .waiting => withInput out false (runPipeline run true parts)
    | .error stop => throw stop

/-- What becomes of a loop after a round: whether it goes on. -/
def afterRound : Except Stop Unit → Action Bool
  | .ok () => return true
  | .error (.leave loops) => if loops ≤ 1 then return false else throw (.leave (loops - 1))
  | .error (.again loops) => if loops ≤ 1 then return true else throw (.again (loops - 1))
  | .error stop => throw stop

/-- Runs a loop for at most so many rounds; `status` is that of the last round. -/
def runLoop (run : Command → Action Unit) (untilSuccess : Bool) (condition body : Command) :
    (rounds status : Nat) → Action Unit
  | 0, _ => throw .endless
  | rounds + 1, status => do
    let tested ← attempt (asTest (run condition))
    if ← afterRound tested then
      if ((← get).status = 0) = !untilSuccess then
        let result ← attempt (run body)
        if ← afterRound result then
          runLoop run untilSuccess condition body rounds (← get).status
      else setStatus status

/-- Runs a loop over words. -/
def runEach (run : Command → Action Unit) (name : Octets) (body : Command) :
    List Octets → Action Unit
  | [] => pure ()
  | word :: words => do
    modify fun machine => machine.assign name word
    let result ← attempt (run body)
    if ← afterRound result then runEach run name body words

/-- Whether a word matches one of the patterns of a case. -/
def matchesCase (expander : Expander) (subject : Octets) (patterns : List Word) : Action Bool :=
  patterns.anyM fun pattern => do
    let pattern ← expander.field pattern
    return globMatches (pieces (pattern.length + 1) pattern) subject

/-- Runs the first case that matches. -/
def runCases (run : Command → Action Unit) (subject : Octets) :
    List (List Word × Command) → Action Unit
  | [] => setStatus 0
  | (patterns, body) :: cases => do
    if ← matchesCase ⟨run⟩ subject patterns then run body
    else runCases run subject cases

/-- How many rounds a loop may have before it counts as one that goes on for ever. -/
def roundLimit : Nat := 100000

/-- Runs a command, given how the commands in it are run. -/
def runCommand (run : Command → Action Unit) : Command → Action Unit
  | .simple assignments words => do
    runSimple run assignments words
    checkFailure
  | .redirected (.simple [] [[.plain ['e', 'x', 'e', 'c'] false]]) redirects => do
    let expander : Expander := ⟨run⟩
    let possible ← redirects.allM (redirect expander)
    setStatus (if possible then 0 else 2)
  | .redirected body redirects => do
    let expander : Expander := ⟨run⟩
    redirecting expander redirects (run body)
    checkFailure
  | .pipeline parts => do
    runPipeline run false parts
    checkFailure
  | .negated body => do
    asTest (run body)
    setStatus (if (← get).status = 0 then 1 else 0)
  | .both first second => do
    asTest (run first)
    if (← get).status = 0 then run second
  | .either first second => do
    asTest (run first)
    if (← get).status ≠ 0 then run second
  | .sequence [] => setStatus 0
  | .sequence commands => commands.forM run
  | .subshell body => do
    isolate (run body)
    checkFailure
  | .background body => do
    withInput [] true (isolate (run body))
    setStatus 0
  | .branch condition body otherwise => do
    asTest (run condition)
    if (← get).status = 0 then run body else run otherwise
  | .loop untilSuccess condition body => runLoop run untilSuccess condition body roundLimit 0
  | .each name words body => do
    let expander : Expander := ⟨run⟩
    let words ←
      match words with
      | some words => expander.fields words
      | none => pure (← get).arguments
    setStatus 0
    runEach run name body words
  | .choose word cases => do
    let expander : Expander := ⟨run⟩
    let subject := (← expander.field word).toOctets
    runCases run subject cases
  | .define name body => do
    modify fun machine =>
      { machine with functions := (name, body) :: machine.functions.filter (·.1 ≠ name) }
    setStatus 0

/-- Runs a command with at most so many commands in one another. -/
def run : (depth : Nat) → Command → Action Unit
  | 0, _ => throw .endless
  | depth + 1, command => runCommand (run depth) command

/-- How many commands may stand in one another. -/
def depthLimit : Nat := 1000

end Polyglot.Shell
