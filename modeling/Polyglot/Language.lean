import Polyglot.Failure
import Polyglot.Text.Blank
import Polyglot.Text.Lines
import Polyglot.Wire.Codec

/-!
# Languages

How a language is configured: by what names it goes, which backend serves it,
and the commands of that backend.
-/

namespace Polyglot

open Text Wire

/-- A language tag as it is compared: without blanks around it and with its ASCII
letters in lower case. -/
def normalizeTag (tag : String) : String := asciiLower (trim tag)

/-- The ways to run a language. -/
inductive Backend where
  /-- A fresh isolated context for every run. -/
  | sandbox
  /-- A warm interpreter that a worker keeps. -/
  | worker
  /-- A compiler whose output runs in a sandbox. -/
  | transpile
  /-- A compiler whose artifact is run as a program. -/
  | toolchain
  deriving Repr, DecidableEq

namespace Backend

/-- The name of a backend. -/
def name : Backend → String
  | .sandbox => "sandbox"
  | .worker => "worker"
  | .transpile => "transpile"
  | .toolchain => "toolchain"

/-- The backend that has a name. -/
def ofName? : String → Option Backend
  | "sandbox" => some .sandbox
  | "worker" => some .worker
  | "transpile" => some .transpile
  | "toolchain" => some .toolchain
  | _ => none

end Backend

instance : WireForm Backend where
  toJson backend := .string backend.name
  ofJson? value := variant? isNull value >>= Backend.ofName?

/-- Whether a text may be a file extension: it has neither slash nor point. -/
def isExtension (text : String) : Bool :=
  text.toList.all fun character => character ≠ '/' && character ≠ '.'

/-- A file extension without its point. -/
structure Extension where
  text : String
  valid : isExtension text = true
  deriving Repr, DecidableEq

namespace Extension

/-- The extension that a text is. -/
def ofText (text : String) : Except ConfigError Extension :=
  if valid : isExtension text = true then .ok ⟨text, valid⟩ else .error .invalidExtension

/-- Whether it is the extension of a path, whatever the case of ASCII letters. -/
def isExtensionOf (extension : Extension) (other : String) : Bool :=
  asciiLower extension.text = asciiLower other

end Extension

/-- An environment: variables with their values. -/
abbrev Environment := List (String × String)

/-- How an isolated runtime is started. -/
structure RuntimeSection where
  command : List String
  env : Environment := []
  deriving Repr, DecidableEq

/-- How a source-to-source compiler is started. -/
structure TranspileSection where
  command : List String
  env : Environment := []
  /-- The sandbox language that runs the output. -/
  delegate : Option String := none
  target : Option String := none
  module : Option String := none
  strict : Option Bool := none
  deriving Repr, DecidableEq

/-- How an artifact is produced. -/
structure CompileSection where
  command : List String
  sourceName : String
  outputName : String
  env : Environment := []
  libraries : List String := []
  deriving Repr, DecidableEq

/-- How an artifact is run. -/
structure RunSection where
  command : List String
  env : Environment := []
  /-- Texts by which a missing entry point is told from other failures. -/
  missingEntryMarkers : List String := []
  deriving Repr, DecidableEq

/-- A configured language. -/
structure Language where
  name : String
  extension : Extension
  aliases : List String := []
  backend : Backend
  runtime : Option RuntimeSection := none
  transpile : Option TranspileSection := none
  compile : Option CompileSection := none
  run : Option RunSection := none
  deriving Repr, DecidableEq

namespace Language

/-- Whether an alias has that normalized form. -/
def hasAlias (language : Language) (normalized : String) : Bool :=
  language.aliases.any fun tag => normalizeTag tag = normalized

/-- The name of the file that source text is written to. -/
def sourceName (language : Language) : String :=
  match language.compile with
  | some settings => settings.sourceName
  | none => s!"main.{language.extension.text}"

/-- What the compiler of a language is told: the settings of its section, and
the usual options where there are none. -/
def compilerOptions (language : Language) : CompilerOptions :=
  let usual : CompilerOptions := {}
  match language.transpile with
  | none => usual
  | some settings =>
    { target := settings.target.getD usual.target
      module := settings.module.getD usual.module
      strict := settings.strict.getD usual.strict }

end Language

/-- A placeholder and the text that takes its place. -/
abbrev Placeholder := String × String

/-- One word of a command with its placeholders replaced, one after the other in
the order of the list. -/
def expandWord (placeholders : List Placeholder) (word : String) : String :=
  placeholders.foldl (fun text (key, value) => replaceAll key value text) word

/-- A command with its placeholders replaced. -/
def expandCommand (placeholders : List Placeholder) (command : List String) : List String :=
  command.map (expandWord placeholders)

end Polyglot
