import Polyglot.Cli.Arguments
import Polyglot.Cli.Report
import Polyglot.Config.Standard
import Polyglot.Facade.Build
import Polyglot.Session.Basic

/-!
# Invocations of the command line

An invocation prints something and ends, or it runs code and has a dialogue: the code
asks for lines, one after the other, until it has run.
-/

namespace Polyglot.Cli

open Shell

/-- What an invocation leaves behind. -/
structure Outcome where
  exit : Nat := 0
  out : String := ""
  err : String := ""
  /-- The file that was written, with its content. -/
  written : Option (String × String) := none
  deriving Repr, DecidableEq

/-- The outcome of an invocation that cannot do its work. -/
def Outcome.failure (message : String) : Outcome := { exit := 1, err := s!"Error: {message}" }

/-- Code that runs, and what was asked for. -/
structure Dialogue where
  session : Session
  /-- What was printed on standard error. -/
  err : String := ""
  /-- How many requests were taken up. -/
  asked : Nat := 0
  deriving Repr

/-- What an invocation comes to. -/
inductive Course where
  | over (outcome : Outcome)
  | running (dialogue : Dialogue)
  deriving Repr

/-! ## Running code -/

/-- The name of the task that runs the code. -/
def taskName : String := "run"

/-- For how many turns code may run before it has to ask again. -/
def turnLimit : Nat := 1000000

namespace Dialogue

/-- Begins to run code. -/
def start (site : Exec.Site) (config : Config) (request : RunRequest) : Dialogue :=
  let callback : Callback := ⟨"terminal", [], Session.facadeName⟩
  let host : Host := { desk := { hooks := [⟨some callback⟩] }, registries := [{}], site }
  let (host, facade) := Facade.build host config 0 0 {}
  let session : Session := { host, facade := some facade }
  { session := (session.request taskName request).finish turnLimit taskName }

/-- What is printed in the end. -/
def outcomeOf (dialogue : Dialogue) : Report → Outcome
  | .result result =>
    { exit := if result.hasErrors then 1 else 0
      out := if result.stdout.isEmpty then "" else result.stdout ++ "\n"
      err := dialogue.err ++ if result.hasErrors then result.stderr ++ "\n" else "" }
  | .refused cause => { Outcome.failure "execution failed" with
      err := dialogue.err ++ s!"Error: execution failed: {cause.message}\n" }
  | .broken => { exit := 101, err := dialogue.err }

/-- The outcome of code that has run. -/
def outcome? (dialogue : Dialogue) : Option Outcome :=
  match (dialogue.session.await taskName).2 with
  | .concluded (.report report) => some (dialogue.outcomeOf report)
  | _ => none

/-- The next request for a line, which is printed with a blank after it. -/
def prompt? (dialogue : Dialogue) : Option (String × Dialogue) := do
  let ask ← dialogue.session.host.desk.asks[dialogue.asked]?
  let prompt := ask.message ++ " "
  return (prompt, { dialogue with asked := dialogue.asked + 1, err := dialogue.err ++ prompt })

/-- Answers a request, and goes on. -/
def reply (dialogue : Dialogue) (line : String) : Dialogue :=
  let { session, .. } := dialogue
  let (host, _) := session.host.provide (session.broker? Session.facadeName) line
  { dialogue with session := { session with host }.finish turnLimit taskName }

end Dialogue

/-- A line as an answer: without the characters that end it. -/
def answerOf (line : String) : String :=
  let characters := line.toList.reverse
  let characters :=
    match characters with
    | '\n' :: '\r' :: rest | '\n' :: rest => rest
    | characters => characters
  String.ofList characters.reverse

/-- Answers requests with lines, and with nothing when there are no more of them, at
most so many times. -/
def Dialogue.answerAll : (most : Nat) → Dialogue → List String → Outcome
  | 0, dialogue, _ => { exit := 1, err := dialogue.err }
  | most + 1, dialogue, lines =>
    match dialogue.outcome? with
    | some outcome => outcome
    | none =>
      match dialogue.prompt? with
      | none => { exit := 1, err := dialogue.err }
      | some (_, dialogue) =>
        (dialogue.reply (answerOf (lines.headD ""))).answerAll most lines.tail

/-! ## Invocations -/

/-- The content of a file that holds text. -/
def readText? (site : Exec.Site) (path : String) : Option String :=
  site.tree.read? (Path.follow site.directory (octets path)) >>= Octets.toText?

/-- Whether there is something at a path. -/
def exists? (site : Exec.Site) (path : String) : Bool :=
  (site.tree.node? (Path.follow site.directory (octets path))).isSome

/-- Writes a new configuration file. -/
def create (site : Exec.Site) (output : String) (force : Bool) : Outcome :=
  if exists? site output && !force then
    .failure s!"Configuration file already exists at '{output}'. Use --force to overwrite.\n"
  else
    let path := Path.follow site.directory (octets output)
    match site.tree.write? path (octets Config.exampleText) with
    | none => .failure "failed to write configuration file"
    | some _ =>
      { out := s!"Created configuration file at '{output}'\n"
        written := some (output, Config.exampleText) }

/-- Runs a source file. -/
def runFile (site : Exec.Site) (config : Config) (source : String) (language : Option String) :
    Course :=
  match language <|> (config.languageForPath source).map (·.1) with
  | none =>
    .over (.failure s!"cannot infer the language of '{source}'; pass --language\n")
  | some language =>
    match readText? site source with
    | none => .over (.failure "failed to read source file")
    | some code => .running (.start site config { code, language })

/-- The configuration of an invocation. -/
def configOf (site : Exec.Site) : Option String → Option Config
  | none => some Config.standard
  | some path => (Config.load (readText? site) path).toOption

/-- Does what an invocation asks for. -/
def Invocation.perform (site : Exec.Site) (invocation : Invocation) : Course :=
  match configOf site invocation.config with
  | none => .over (.failure "failed to load configuration")
  | some config =>
    match invocation.job with
    | .create output force => .over (create site output force)
    | .run source language => runFile site config source language
    | .languages => .over { out := languageList config }
    | .showConfig =>
      match summary? config with
      | some text => .over { out := text }
      | none => .over { exit := 101 }

/-- The paths of the files that an invocation may read or looks for. -/
def Invocation.paths (invocation : Invocation) : List String :=
  let config :=
    match invocation.config with
    | none => []
    | some path => [path, path ++ ".toml", path ++ ".json"]
  match invocation.job with
  | .create output _ => config ++ [output]
  | .run source _ => config ++ [source]
  | .languages | .showConfig => config

/-- What the program says about itself. -/
def versionText : String := "runnr 0.1.0\n"

/-- How the program is used. -/
def usageText : String := "Usage: runnr [OPTIONS] <COMMAND>\n"

/-- Does what arguments ask for. -/
def perform (site : Exec.Site) (arguments : List String) : Course :=
  match Invocation.ofArguments arguments with
  | .error .help => .over { out := usageText }
  | .error .version => .over { out := versionText }
  | .error .misuse => .over { exit := 2, err := usageText }
  | .ok invocation => invocation.perform site

/-- The lines of an input, each with what ends it. -/
def inputLines (input : String) : List String :=
  let pieces := Text.splitAt '\n' input
  pieces.dropLast.map (· ++ "\n") ++ pieces.getLast?.toList

/-- How often code may ask when all input is known beforehand. -/
def askLimit : Nat := 100000

/-- Does what arguments ask for, with all of the input given. -/
def run (site : Exec.Site) (arguments : List String) (input : String) : Outcome :=
  match perform site arguments with
  | .over outcome => outcome
  | .running dialogue => dialogue.answerAll askLimit (inputLines input)

/-- The site after an outcome. -/
def Outcome.siteAfter (site : Exec.Site) (outcome : Outcome) : Exec.Site :=
  match outcome.written with
  | none => site
  | some (path, content) =>
    let tree := site.tree.write? (Path.follow site.directory (octets path)) (octets content)
    { site with tree := tree.getD site.tree }

end Polyglot.Cli
