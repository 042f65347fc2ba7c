import Polyglot.Exec.Tree

/-!
# Programs

A program is given arguments and what is known so far of its standard input, and
works on a file tree.  One that needs more input than is known waits: run again
with more, it does the same and goes on.
-/

namespace Polyglot.Tool

open Shell

/-- What a program is given. -/
structure Call where
  /-- The name under which it speaks of itself. -/
  name : Octets
  arguments : List Octets
  /-- What has come on standard input. -/
  input : Octets := []
  /-- Whether nothing more will come. -/
  ended : Bool := true
  tree : Tree
  directory : Path := []

/-- What a program does. -/
structure Effect where
  out : Octets := []
  err : Octets := []
  /-- The exit status; none when the program waits for more input. -/
  status : Option Nat := some 0
  /-- Whether it has taken what there was of standard input. -/
  readsInput : Bool := false
  tree : Tree

namespace Call

/-- A program that does nothing. -/
def done (call : Call) : Effect := { tree := call.tree }

/-- A program that only writes. -/
def write (call : Call) (out : Octets) : Effect := { out, tree := call.tree }

/-- A program that waits for more input. -/
def wait (call : Call) : Effect := { status := none, readsInput := true, tree := call.tree }

/-- A program that complains and fails. -/
def fail (call : Call) (status : Nat) (complaint : Octets) : Effect :=
  { err := call.name ++ ": ".toList ++ complaint ++ ['\n'], status := some status
    tree := call.tree }

/-- A program that was called in a wrong way. -/
def misuse (call : Call) (status : Nat) (complaint : Octets) : Effect :=
  call.fail status
    (complaint ++ "\nTry '".toList ++ call.name ++ " --help' for more information.".toList)

/-- The place that an argument names. -/
def path (call : Call) (argument : Octets) : Path := Path.follow call.directory argument

/-- Whether a program that is given these names of files reads standard input. -/
def readsInput (files : List Octets) : Bool := files.isEmpty || files.contains ['-']

/-- What a name of a file stands for, or what is wrong with it; `missing` is how a
file that is not there is spoken of. -/
def read (call : Call) (missing : Octets → Octets) (file : Octets) : Except Octets Octets :=
  if file = ['-'] then .ok call.input
  else
    match call.tree.node? (call.path file) with
    | some (.file content) => .ok content
    | some .sink => .ok []
    | some (.program _) => .ok []
    | some .directory => .error (file ++ ": Is a directory".toList)
    | none => .error (missing file ++ ": No such file or directory".toList)

/-- The contents of files and the complaints about those that cannot be read;
without any name it is standard input, which is there only once. -/
def readAll (call : Call) (missing : Octets → Octets) (files : List Octets) :
    List (Octets × Octets) × Octets :=
  let step (state : List (Octets × Octets) × Octets) (file : Octets) :
      List (Octets × Octets) × Octets :=
    let (contents, complaints) := state
    if file = ['-'] && contents.any (·.1 = file) then (contents ++ [(file, [])], complaints)
    else
      match call.read missing file with
      | .ok content => (contents ++ [(file, content)], complaints)
      | .error complaint =>
        (contents, complaints ++ call.name ++ ": ".toList ++ complaint ++ ['\n'])
  (if files.isEmpty then [['-']] else files).foldl step ([], [])

/-- A program that turns the contents of files into output.  It waits until all
input is there. -/
def filter (call : Call) (missing : Octets → Octets) (files : List Octets)
    (change : List (Octets × Octets) → Octets × Nat) : Effect :=
  if readsInput files && !call.ended then call.wait
  else
    let (contents, complaints) := call.readAll missing files
    let (out, status) := change contents
    { out, err := complaints, status := some (if complaints.isEmpty then status else max status 1)
      readsInput := readsInput files, tree := call.tree }

end Call

/-- Splits arguments into options and the rest.  An option that takes a value has it
attached or as the next argument. -/
def options (valued : List Char) : List Octets → List (Char × Octets) × List Octets
  | [] => ([], [])
  | ['-', '-'] :: rest => ([], rest)
  | ('-' :: flag :: flags) :: rest => letters valued flag flags rest
  | argument :: rest =>
    let (found, others) := options valued rest
    (found, argument :: others)
termination_by arguments => arguments.flatten.length + arguments.length
where
  /-- Reads the letters of one argument. -/
  letters (valued : List Char) (flag : Char) (flags : Octets) (rest : List Octets) :
      List (Char × Octets) × List Octets :=
    if valued.contains flag then
      match flags, rest with
      | [], value :: rest =>
        let (found, others) := options valued rest
        ((flag, value) :: found, others)
      | attached, rest =>
        let (found, others) := options valued rest
        ((flag, attached) :: found, others)
    else
      match flags with
      | [] =>
        let (found, others) := options valued rest
        ((flag, []) :: found, others)
      | next :: flags =>
        let (found, others) := letters valued next flags rest
        ((flag, []) :: found, others)
  termination_by flags.length + 1 + rest.flatten.length + rest.length

/-- Whether an option was given. -/
def hasOption (found : List (Char × Octets)) (flag : Char) : Bool := found.any (·.1 = flag)

/-- The value of an option that was given last. -/
def option? (found : List (Char × Octets)) (flag : Char) : Option Octets :=
  (found.reverse.find? (·.1 = flag)).map (·.2)

end Polyglot.Tool
