/-!
# Arguments of the command line

Arguments are read from left to right.  The first one that is no option names the
task; options of the whole program may stand before and after it.
-/

namespace Polyglot.Cli

/-- What is to be done. -/
inductive Job where
  /-- Writes a new configuration file, over an old one if that is wanted. -/
  | create (output : String) (force : Bool)
  /-- Runs a source file. -/
  | run (source : String) (language : Option String)
  | languages
  | showConfig
  deriving Repr, DecidableEq

/-- What the program is asked for. -/
structure Invocation where
  /-- The path of the configuration file. -/
  config : Option String
  verbose : Bool
  job : Job
  deriving Repr, DecidableEq

/-- Why arguments are no invocation. -/
inductive Detour where
  | help
  | version
  | misuse
  deriving Repr, DecidableEq

/-- What an option takes. -/
inductive Operand where
  | nothing
  /-- A path, which is not empty. -/
  | path
  | text
  deriving Repr, DecidableEq

/-- An option. -/
structure Flag where
  letter : Char
  word : String
  operand : Operand
  deriving Repr, DecidableEq

/-- The options of the whole program. -/
def globalFlags : List Flag := [⟨'c', "config", .path⟩, ⟨'v', "verbose", .nothing⟩]

/-- What has been read of the arguments at one level. -/
structure Gathered where
  /-- Options with their values. -/
  found : List (String × String) := []
  operands : List String := []
  deriving Repr, DecidableEq

namespace Gathered

/-- Whether an option was given. -/
def has (gathered : Gathered) (word : String) : Bool := gathered.found.any (·.1 = word)

/-- The value of an option. -/
def value? (gathered : Gathered) (word : String) : Option String :=
  (gathered.found.find? (·.1 = word)).map (·.2)

/-- Adds an option, which may be given once. -/
def add (gathered : Gathered) (flag : Flag) (value : String) : Except Detour Gathered :=
  if gathered.has flag.word || (flag.operand = .path && value.isEmpty) then .error .misuse
  else .ok { gathered with found := gathered.found ++ [(flag.word, value)] }

end Gathered

/-- Whether an argument looks like an option. -/
def looksLikeFlag (argument : String) : Bool :=
  argument.startsWith "-" && argument.length > 1

/-- Adds an option whose value is the next argument. -/
def addWithNext (gathered : Gathered) (flag : Flag) (rest : List String) :
    Except Detour (Gathered × List String) :=
  match rest with
  | value :: rest =>
    if looksLikeFlag value then .error .misuse
    else (gathered.add flag value).map fun gathered => (gathered, rest)
  | [] => .error .misuse

/-- Reads an option that is written as a word. -/
def readWord (flags : List Flag) (showsVersion : Bool) (gathered : Gathered) (text : List Char)
    (rest : List String) : Except Detour (Gathered × List String) := do
  let name := String.ofList (text.takeWhile (· ≠ '='))
  let attached : Option String :=
    if text.contains '=' then some (String.ofList (text.drop (name.length + 1))) else none
  match flags.find? (·.word = name), attached with
  | some flag, some value =>
    if flag.operand = .nothing then .error .misuse
    else return (← gathered.add flag value, rest)
  | some flag, none =>
    if flag.operand = .nothing then return (← gathered.add flag "", rest)
    else addWithNext gathered flag rest
  | none, none =>
    if name = "help" then .error .help
    else if name = "version" && showsVersion then .error .version
    else .error .misuse
  | none, some _ => .error .misuse

/-- Reads options that are written as letters. -/
def readLetters (flags : List Flag) (showsVersion : Bool) (gathered : Gathered)
    (rest : List String) : List Char → Except Detour (Gathered × List String)
  | [] => .ok (gathered, rest)
  | letter :: letters =>
    match flags.find? (·.letter = letter) with
    | some flag =>
      if flag.operand = .nothing then
        match gathered.add flag "" with
        | .ok gathered => readLetters flags showsVersion gathered rest letters
        | .error detour => .error detour
      else
        match letters with
        | [] => addWithNext gathered flag rest
        | '=' :: value | value =>
          (gathered.add flag (String.ofList value)).map fun gathered => (gathered, rest)
    | none =>
      if letter = 'h' then .error .help
      else if letter = 'V' && showsVersion then .error .version
      else .error .misuse

/-- Reads the arguments of the whole program up to the name of the task; `most` is the
number of arguments. -/
def readGlobal : (most : Nat) → Gathered → List String →
    Except Detour (Gathered × String × List String)
  | 0, _, _ => .error .misuse
  | most + 1, gathered, arguments =>
    match arguments with
    | [] => .error .misuse
    | argument :: rest =>
      if argument = "--" then .error .misuse
      else if argument.startsWith "--" then
        match readWord globalFlags true gathered (argument.toList.drop 2) rest with
        | .ok (gathered, rest) => readGlobal most gathered rest
        | .error detour => .error detour
      else if looksLikeFlag argument then
        match readLetters globalFlags true gathered rest (argument.toList.drop 1) with
        | .ok (gathered, rest) => readGlobal most gathered rest
        | .error detour => .error detour
      else .ok (gathered, argument, rest)

/-- Reads the arguments of a task that takes so many operands. -/
def readTask (flags : List Flag) (operands : Nat) : (most : Nat) → Gathered → List String →
    Except Detour Gathered
  | _, gathered, [] => .ok gathered
  | 0, gathered, _ :: _ => .ok gathered
  | most + 1, gathered, argument :: rest =>
    let addOperand (gathered : Gathered) (operand : String) : Except Detour Gathered :=
      if operands ≤ gathered.operands.length || operand.isEmpty then .error .misuse
      else .ok { gathered with operands := gathered.operands ++ [operand] }
    if argument = "--" then rest.foldlM addOperand gathered
    else if argument.startsWith "--" then
      match readWord (flags ++ globalFlags) false gathered (argument.toList.drop 2) rest with
      | .ok (gathered, rest) => readTask flags operands most gathered rest
      | .error detour => .error detour
    else if looksLikeFlag argument then
      match readLetters (flags ++ globalFlags) false gathered rest (argument.toList.drop 1) with
      | .ok (gathered, rest) => readTask flags operands most gathered rest
      | .error detour => .error detour
    else
      match addOperand gathered argument with
      | .ok gathered => readTask flags operands most gathered rest
      | .error detour => .error detour

/-- The names of tasks, each with its options and the number of its operands. -/
def taskForms : List (String × List Flag × Nat) :=
  [("init", [⟨'o', "output", .path⟩, ⟨'f', "force", .nothing⟩], 0),
    ("run", [⟨'l', "language", .text⟩], 1), ("languages", [], 0), ("show-config", [], 0)]

/-- The task that its name and its arguments say. -/
def jobOf (name : String) (gathered : Gathered) : Except Detour Job :=
  match name, gathered.operands with
  | "init", _ =>
    .ok (.create ((gathered.value? "output").getD "runnr.toml") (gathered.has "force"))
  | "run", [source] => .ok (.run source (gathered.value? "language"))
  | "languages", _ => .ok .languages
  | "show-config", _ => .ok .showConfig
  | _, _ => .error .misuse

/-- What a request for help comes to. -/
def readHelp (names : List String) : Detour :=
  match names with
  | [] => .help
  | [name] => if name = "help" || taskForms.any (·.1 = name) then .help else .misuse
  | _ => .misuse

/-- The invocation that arguments are. -/
def Invocation.ofArguments (arguments : List String) : Except Detour Invocation := do
  let (before, name, rest) ← readGlobal (arguments.length + 1) {} arguments
  if name = "help" then .error (readHelp rest)
  match taskForms.find? (·.1 = name) with
  | none => .error .misuse
  | some (_, flags, operands) =>
    let after ← readTask flags operands (rest.length + 1) {} rest
    return { config := after.value? "config" <|> before.value? "config"
             verbose := after.has "verbose" || before.has "verbose"
             job := ← jobOf name after }

end Polyglot.Cli
