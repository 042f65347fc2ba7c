import Polyglot.Config.Basic
import Polyglot.Number.Double

/-!
# What the command line prints about a configuration
-/

namespace Polyglot.Cli

/-- A text with blanks after it up to a width. -/
def padded (width : Nat) (text : String) : String :=
  text ++ String.ofList (List.replicate (width - text.length) ' ')

/-- The seconds that a length of time is. -/
def secondsOf (duration : Duration) : Double :=
  (Double.ofNat duration.seconds).add
    ((Double.ofNat duration.nanoseconds).div (Double.ofNat 1000000000))

/-- A number that is not negative, with one digit after the point. -/
def oneDecimal (value : Double) : String :=
  let size := value.size
  let tenths := roundDiv (size.numerator * 10) size.denominator
  s!"{tenths / 10}.{tenths % 10}"

/-- The list of the languages of a configuration. -/
def languageList (config : Config) : String :=
  let line (id : String) : String :=
    match config.language? id with
    | none => ""
    | some language =>
      let names := ", ".intercalate language.aliases
      let aliases := if language.aliases.isEmpty then "" else s!" [{names}]"
      s!"  {padded 12 id} {language.name} ({language.backend.name}){aliases}\n"
  "Available languages:\n\n" ++ String.join (config.languageIds.map line)

/-- The summary of a configuration; none when its time to wait for a worker is no
length of time. -/
def summary? (config : Config) : Option String := do
  let timeout ← config.readyTimeout?
  let seconds := oneDecimal (secondsOf timeout)
  let directory := config.workDir.getD systemScratchDirectory
  let line (id : String) : String :=
    match config.language? id with
    | none => ""
    | some language => s!"  {padded 12 id} {language.backend.name}\n"
  return s!"Worker ready timeout: {seconds}s\nWork directory: {directory}\n\n"
    ++ s!"Languages configured: {config.languages.length}\n"
    ++ String.join (config.languageIds.map line)

end Polyglot.Cli
