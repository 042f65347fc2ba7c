import Polyglot.Exec.Tree
import Polyglot.Shell.Command

/-!
# The state of a running script

A script runs as actions on a machine.  An action ends well, or it stops and says
what is to be given up: a loop, a function, the whole script, or nothing at all
because there is no more input for now.
-/

namespace Polyglot.Shell

/-- Where what is written goes. -/
inductive Channel where
  /-- The buffer of that number; the first is standard output, the second standard
  error, and the others are those of commands whose output is used. -/
  | buffer (number : Nat)
  | file (path : Path)
  deriving Repr, DecidableEq

/-- The state of a running script. -/
structure Machine where
  tree : Tree
  directory : Path := []
  /-- The name under which the script speaks of itself. -/
  name : Octets
  /-- How deep the script is nested in others; scripts know each other by that. -/
  depth : Nat := 1
  arguments : List Octets := []
  bindings : List (Octets × Octets) := []
  /-- The names of the variables that programs see. -/
  exported : List Octets := []
  functions : List (Octets × Command) := []
  /-- The exit status of the last command. -/
  status : Nat := 0
  /-- The letters of the options that are set. -/
  options : List Char := []
  /-- Whether a failure here is part of a condition. -/
  tested : Bool := false
  /-- The script that is run when this one ends. -/
  atExit : Option Octets := none
  /-- What is left of standard input. -/
  input : Octets := []
  /-- Whether nothing more will come. -/
  ended : Bool := true
  /-- What was written, by the numbers of the buffers. -/
  buffers : List Octets := [[], []]
  out : Channel := .buffer 0
  err : Channel := .buffer 1

/-- Why an action did not end well. -/
inductive Stop where
  /-- It waits for more input. -/
  | waiting
  /-- It goes on for so long that it counts as going on for ever. -/
  | endless
  /-- The script ends with a status. -/
  | exit (status : Nat)
  /-- A signal ends the script. -/
  | signal (number : Nat)
  /-- So many loops are left. -/
  | leave (loops : Nat)
  /-- The last of so many loops goes on with its next round. -/
  | again (loops : Nat)
  /-- A function is left with a status. -/
  | back (status : Nat)
  deriving Repr, DecidableEq

/-- What a script does to a machine. -/
abbrev Action := ExceptT Stop (StateM Machine)

namespace Action

/-- Does something and says how it went. -/
def attempt {α : Type} (action : Action α) : Action (Except Stop α) :=
  fun machine =>
    let (result, machine) := action.run machine
    (.ok result, machine)

/-- Ends as an attempt went. -/
def conclude {α : Type} : Except Stop α → Action α
  | .ok value => pure value
  | .error stop => throw stop

/-- Sets the exit status. -/
def setStatus (status : Nat) : Action Unit := modify fun machine => { machine with status }

/-- Appends to a file. -/
def appendTo (tree : Tree) (path : Path) (text : Octets) : Tree :=
  match tree.read? path with
  | some content => (tree.write? path (content ++ text)).getD tree
  | none => (tree.write? path text).getD tree

/-- Writes to a channel. -/
def writeTo (channel : Channel) (text : Octets) : Action Unit :=
  if text.isEmpty then pure ()
  else
    modify fun machine =>
      match channel with
      | .buffer number => { machine with buffers := machine.buffers.modify number (· ++ text) }
      | .file path => { machine with tree := appendTo machine.tree path text }

/-- Writes to standard output. -/
def write (text : Octets) : Action Unit := do writeTo (← get).out text

/-- Writes a complaint to standard error. -/
def complain (text : String) : Action Unit := do
  let machine ← get
  writeTo machine.err (machine.name ++ ": 1: ".toList ++ text.toList ++ ['\n'])

/-- Ends a script that is not well formed. -/
def reject {α : Type} (text : String) : Action α := do
  complain text
  throw (.exit 2)

/-- Does something and collects what it writes to standard output. -/
def capture (action : Action Unit) : Action (Octets × Except Stop Unit) := do
  let before ← get
  let number := before.buffers.length
  set { before with buffers := before.buffers ++ [[]], out := .buffer number }
  let result ← attempt action
  let after ← get
  set { after with buffers := after.buffers.take number, out := before.out }
  return (after.buffers[number]?.getD [], result)

/-- Does something in a machine of its own: variables, functions, arguments and the
directory are afterwards what they were, and its end is not the end of the script. -/
def isolate (action : Action Unit) : Action Unit := do
  let before ← get
  let result ← attempt action
  modify fun after =>
    { after with
      bindings := before.bindings
      exported := before.exported
      functions := before.functions
      arguments := before.arguments
      directory := before.directory
      options := before.options
      atExit := before.atExit }
  match result with
  | .ok () => pure ()
  | .error (.exit status) | .error (.back status) => setStatus (status % 256)
  | .error (.leave _) | .error (.again _) => pure ()
  | .error stop => throw stop

/-- Does something whose failure is part of a condition. -/
def asTest (action : Action Unit) : Action Unit := do
  let before ← get
  set { before with tested := true }
  let result ← attempt action
  modify fun after => { after with tested := before.tested }
  conclude result

/-- Ends the script after a failure, if an option says so. -/
def checkFailure : Action Unit := do
  let machine ← get
  if machine.status ≠ 0 && machine.options.contains 'e' && !machine.tested then
    throw (.exit machine.status)

/-- Does something with a given standard input.  What is left of the present one stays
for later. -/
def withInput {α : Type} (input : Octets) (ended : Bool) (action : Action α) : Action α := do
  let before ← get
  set { before with input, ended }
  let result ← attempt action
  modify fun after => { after with input := before.input, ended := before.ended }
  conclude result

end Action

namespace Machine

/-- The value of a variable. -/
def lookup? (machine : Machine) (name : Octets) : Option Octets :=
  (machine.bindings.find? (·.1 = name)).map (·.2)

/-- Gives a variable a value. -/
def assign (machine : Machine) (name value : Octets) : Machine :=
  { machine with bindings := (name, value) :: machine.bindings.filter (·.1 ≠ name) }

/-- Takes a variable away. -/
def unset (machine : Machine) (name : Octets) : Machine :=
  { machine with
    bindings := machine.bindings.filter (·.1 ≠ name)
    exported := machine.exported.filter (· ≠ name)
    functions := machine.functions.filter (·.1 ≠ name) }

/-- The characters that separate fields. -/
def separators (machine : Machine) : Octets :=
  (machine.lookup? "IFS".toList).getD [' ', '\t', '\n']

/-- The number by which a script knows itself. -/
def number (machine : Machine) : Nat := 1000 + machine.depth

/-- The value of a parameter that is not a list. -/
def parameter? (machine : Machine) (name : Octets) : Option Octets :=
  match name with
  | ['?'] => some (Octets.ofInt machine.status)
  | ['#'] => some (Octets.ofInt machine.arguments.length)
  | ['$'] => some (Octets.ofInt machine.number)
  | ['0'] => some machine.name
  | ['-'] => some []
  | ['!'] => none
  | _ =>
    match Octets.toNat? name with
    | some number => machine.arguments[number - 1]?
    | none =>
      match machine.lookup? name with
      | some value => some value
      | none => if name = "PWD".toList then some machine.directory.toOctets else none

end Machine

end Polyglot.Shell
