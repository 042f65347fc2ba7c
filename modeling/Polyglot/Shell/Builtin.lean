import Polyglot.Shell.Expansion
import Polyglot.Tool.Format

/-!
# Commands of the shell itself

Commands that change the state of a script, and a few that every script uses.
-/

namespace Polyglot.Shell

open Polyglot.Shell.Action

/-! ## Conditions -/

/-- The value of a condition on one text. -/
def unaryTest (machine : Machine) (operator operand : Octets) : Option Bool :=
  let node := machine.tree.node? (Path.follow machine.directory operand)
  match String.ofList operator with
  | "-n" => some (!operand.isEmpty)
  | "-z" => some operand.isEmpty
  | "-e" | "-r" | "-w" => some (node.isSome && !operand.isEmpty)
  | "-f" => some (node.any fun node => node ≠ .directory && node ≠ .sink)
  | "-d" => some (node = some .directory && !operand.isEmpty)
  | "-x" => some (node.any fun
    | .directory | .program _ => true
    | .file _ | .sink => false)
  | "-s" => some (match node with
    | some (.file content) => !content.isEmpty
    | some _ => true
    | none => false)
  | _ => none

/-- What is wrong with a condition. -/
abbrev TestFault := String

/-- The integer that an operand of a condition is. -/
def operandValue (operand : Octets) : Except TestFault Int :=
  match Octets.toInt? operand with
  | some value => .ok value
  | none => .error s!"Illegal number: {Octets.toText operand}"

/-- The value of a condition on two texts; none for an operator that there is not. -/
def binaryTest (left operator right : Octets) : Option (Except TestFault Bool) :=
  let compare (holds : Int → Int → Bool) : Option (Except TestFault Bool) := some do
    return holds (← operandValue left) (← operandValue right)
  match String.ofList operator with
  | "=" | "==" => some (.ok (left = right))
  | "!=" => some (.ok (left ≠ right))
  | "<" => some (.ok (left < right))
  | ">" => some (.ok (right < left))
  | "-eq" => compare (· = ·)
  | "-ne" => compare (· ≠ ·)
  | "-lt" => compare (· < ·)
  | "-le" => compare (· ≤ ·)
  | "-gt" => compare fun left right => right < left
  | "-ge" => compare fun left right => right ≤ left
  | _ => none

/-- The fault of a condition with an operator that there is not. -/
def unexpected {α : Type} (word : Octets) : Except TestFault α :=
  .error s!"{Octets.toText word}: unexpected operator"

/-- The value of a condition. -/
def evaluateTest (machine : Machine) : (most : Nat) → List Octets → Except TestFault Bool
  | 0, _ => .error "too many arguments"
  | most + 1, words =>
    match words.findIdx? (· = ['-', 'o']), words.findIdx? (· = ['-', 'a']) with
    | some index, _ => do
      let left ← evaluateTest machine most (words.take index)
      let right ← evaluateTest machine most (words.drop (index + 1))
      return left || right
    | none, some index => do
      let left ← evaluateTest machine most (words.take index)
      let right ← evaluateTest machine most (words.drop (index + 1))
      return left && right
    | none, none =>
      match words with
      | [] => .ok false
      | [word] => .ok (!word.isEmpty)
      | [left, operator, right] =>
        match binaryTest left operator right with
        | some value => value
        | none =>
          if left = ['!'] then (evaluateTest machine most [operator, right]).map (!·)
          else unexpected operator
      | ['!'] :: rest => (evaluateTest machine most rest).map (!·)
      | [operator, operand] =>
        match unaryTest machine operator operand with
        | some value => .ok value
        | none => unexpected operator
      | _ :: operator :: _ => unexpected operator

/-- Sets the status to whether a condition holds; it is spoken of by a name. -/
def test (name : String) (words : List Octets) : Action Unit := do
  match evaluateTest (← get) (words.length + 1) words with
  | .ok true => setStatus 0
  | .ok false => setStatus 1
  | .error fault =>
    complain s!"{name}: {fault}"
    setStatus 2

/-! ## Input -/

/-- Reads a line from standard input.  The word says whether it was complete. -/
def readLine (raw : Bool) : Action (Field × Bool) := do
  let machine ← get
  let (line, rest) := takeLine [] machine.input
  match rest with
  | some rest =>
    set { machine with input := rest }
    return (line, true)
  | none =>
    if machine.ended then
      set { machine with input := [] }
      return (line, false)
    else throw .waiting
where
  /-- Splits after the first line; a backslash goes on with the next one, unless the
  line is read as it is. -/
  takeLine (done : Field) : Octets → Field × Option Octets
    | [] => (done.reverse, none)
    | '\n' :: rest => (done.reverse, some rest)
    | '\\' :: character :: rest =>
      if raw then takeLine (('\\', false) :: done) (character :: rest)
      else if character = '\n' then takeLine done rest
      else takeLine ((character, true) :: done) rest
    | character :: rest => takeLine ((character, false) :: done) rest

/-- Distributes a line over so many variables; the last one gets what is left. -/
def distribute (separators : Octets) : (count : Nat) → Field → List Octets
  | 0, _ => []
  | count + 1, line =>
    let separates (item : Char × Bool) : Bool :=
      !item.2 && separators.any (· = item.1)
    let isBlank (item : Char × Bool) : Bool :=
      separates item && [' ', '\t', '\n'].contains item.1
    let line := line.dropWhile isBlank
    if count = 0 then [Field.toOctets (line.reverse.dropWhile isBlank).reverse]
    else
      let first := line.takeWhile (!separates ·)
      let rest := (line.drop first.length).dropWhile isBlank
      let rest :=
        match rest with
        | item :: after => if separates item then after else rest
        | [] => []
      Field.toOctets first :: distribute separators count rest

/-- Reads a line into variables. -/
def read (arguments : List Octets) : Action Unit := do
  let (found, names) := Tool.options ['p'] arguments
  let (line, complete) ← readLine (Tool.hasOption found 'r')
  let machine ← get
  let values := distribute machine.separators names.length line
  set ((names.zip values).foldl (fun machine (name, value) => machine.assign name value) machine)
  setStatus (if complete then 0 else 1)

/-! ## The rest -/

/-- Writes its arguments on a line. -/
def echo (arguments : List Octets) : Action Unit := do
  let (quiet, words) :=
    match arguments with
    | ['-', 'n'] :: rest => (true, rest)
    | words => (false, words)
  let text := List.intercalate [' '] words
  let (text, stopped) := Tool.unescape { leadingZero := true } (text.length + 1) text
  write (if quiet || stopped then text else text ++ ['\n'])
  setStatus 0

/-- The number of a signal. -/
def signalNumber? (name : Octets) : Option Nat :=
  let signals : List (String × Nat) :=
    [("HUP", 1), ("INT", 2), ("QUIT", 3), ("ILL", 4), ("TRAP", 5), ("ABRT", 6), ("BUS", 7),
      ("FPE", 8), ("KILL", 9), ("USR1", 10), ("SEGV", 11), ("USR2", 12), ("PIPE", 13),
      ("ALRM", 14), ("TERM", 15)]
  match Octets.toNat? name with
  | some number => some number
  | none =>
    let name := String.ofList (name.map Char.toUpper)
    (signals.find? fun (known, _) => known = name || "SIG" ++ known = name).map (·.2)

/-- Sends a signal; only the script itself can be reached. -/
def kill (arguments : List Octets) : Action Unit := do
  let (signal, targets) :=
    match arguments with
    | ['-', 's'] :: name :: rest => (signalNumber? name, rest)
    | ('-' :: name) :: rest => (signalNumber? name, rest)
    | rest => (some 15, rest)
  match signal with
  | none =>
    complain "kill: Illegal option"
    setStatus 2
  | some signal =>
    let machine ← get
    if targets.all (Octets.toNat? · = some machine.number) then
      if signal = 0 then setStatus 0 else throw (.signal signal)
    else
      complain "kill: No such process\n"
      setStatus 1

/-- Splits a text at its first equality sign. -/
def splitAssignment (text : Octets) : Octets × Option Octets :=
  let name := text.takeWhile (· ≠ '=')
  (name, if name.length < text.length then some (text.drop (name.length + 1)) else none)

/-- Gives variables values, and exports them if that is asked for. -/
def declare (exports : Bool) (arguments : List Octets) : Action Unit := do
  for argument in arguments do
    if argument.head? ≠ some '-' then
      let (name, value) := splitAssignment argument
      modify fun machine =>
        let machine := value.elim machine (machine.assign name)
        if exports then { machine with exported := name :: machine.exported } else machine
  setStatus 0

/-- Changes the directory. -/
def changeDirectory (arguments : List Octets) : Action Unit := do
  let machine ← get
  let target := (arguments.head?).getD ((machine.lookup? "HOME".toList).getD ['/'])
  let path := Path.follow machine.directory target
  if machine.tree.isDirectory path then
    set { machine with directory := path }
    setStatus 0
  else
    complain s!"cd: can't cd to {Octets.toText target}"
    setStatus 2

/-- The number that an argument is, or one to be used in its place. -/
def countOf (fallback : Nat) (arguments : List Octets) : Nat :=
  (arguments.head?.bind Octets.toNat?).getD fallback

/-- Stops with the status that an argument is, or with the last one. -/
def stopWith (stop : Nat → Stop) (name : String) (arguments : List Octets) : Action Unit := do
  match arguments with
  | [] => throw (stop (← get).status)
  | argument :: _ =>
    match Octets.toNat? argument with
    | some status => throw (stop status)
    | none => reject s!"{name}: Illegal number: {Octets.toText argument}"

/-- Sets the arguments of the script. -/
def setArguments (arguments : List Octets) : Action Unit := do
  match arguments with
  | ['-', '-'] :: rest => modify fun machine => { machine with arguments := rest }
  | ('-' :: letters) :: _ =>
    modify fun machine => { machine with options := letters ++ machine.options }
  | ('+' :: letters) :: _ =>
    modify fun machine => { machine with options := machine.options.filter (!letters.contains ·) }
  | rest => modify fun machine => { machine with arguments := rest }
  setStatus 0

/-- Leaves arguments of the script out. -/
def shift (arguments : List Octets) : Action Unit := do
  let count := countOf 1 arguments
  if count ≤ (← get).arguments.length then
    modify fun machine => { machine with arguments := machine.arguments.drop count }
    setStatus 0
  else reject "shift: can't shift that many"

/-- Says what is run when the script ends. -/
def trap (arguments : List Octets) : Action Unit := do
  match arguments with
  | script :: ends =>
    if ends.any fun name => name = "EXIT".toList || name = ['0'] then
      let atExit := if script = ['-'] then none else some script
      modify fun machine => { machine with atExit }
  | [] => pure ()
  setStatus 0

/-- The command of the shell that a name means, given how a script is run. -/
def builtin? (run : Command → Action Unit) (name : String) (arguments : List Octets) :
    Option (Action Unit) :=
  match name with
  | ":" | "true" | "wait" | "umask" | "alias" => some (setStatus 0)
  | "trap" => some (trap arguments)
  | "false" => some (setStatus 1)
  | "echo" => some (echo arguments)
  | "printf" => some do
    let machine ← get
    let effect := Tool.printf {}
      { name := machine.name ++ ": 1: printf".toList, arguments, tree := machine.tree }
    write effect.out
    writeTo (← get).err effect.err
    setStatus (effect.status.getD 0)
  | "read" => some (read arguments)
  | "test" => some (test name arguments)
  | "[" => some (test name arguments.dropLast)
  | "exit" => some (stopWith .exit name arguments)
  | "return" => some (stopWith .back name arguments)
  | "break" => some (throw (.leave (countOf 1 arguments)))
  | "continue" => some (throw (.again (countOf 1 arguments)))
  | "kill" => some (kill arguments)
  | "cd" => some (changeDirectory arguments)
  | "pwd" => some do
    write (Path.toOctets (← get).directory ++ ['\n'])
    setStatus 0
  | "shift" => some (shift arguments)
  | "set" => some (setArguments arguments)
  | "export" => some (declare true arguments)
  | "local" | "readonly" => some (declare false arguments)
  | "unset" => some do
    modify fun machine => arguments.foldl Machine.unset machine
    setStatus 0
  | "eval" => some do
    match parseScript? (List.intercalate [' '] arguments) with
    | some command => run command
    | none => reject "eval: Syntax error"
  | _ => none

end Polyglot.Shell
