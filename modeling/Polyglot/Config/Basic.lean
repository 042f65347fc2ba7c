import Polyglot.Language
import Polyglot.Number.Double
import Polyglot.Text.Duration

/-!
# Configurations

A configuration names the languages that can be run.  A tag finds a language by
its id or, failing that, by one of its aliases; a path finds one by its
extension.
-/

namespace Polyglot

/-- The configuration of a runner. -/
structure Config where
  /-- Seconds to wait for a worker to become ready: 30 unless it is set. -/
  workerReadyTimeout : Double := .ofNat 30
  /-- The directory in which scratch directories are made. -/
  workDir : Option String := none
  /-- The languages with their ids, each id once. -/
  languages : List (String × Language) := []
  deriving Repr

/-- The directory that the system has for scratch files. -/
def systemScratchDirectory : String := "/tmp"

/-- The length of time that a number of seconds is, to the nearest nanosecond;
less than none counts as none, and so does what is no number.  None when no
length of time is that long. -/
def Duration.ofSeconds? (seconds : Double) : Option Duration :=
  if seconds.isNaN || seconds.isNegative then some ⟨0, 0⟩
  else if seconds.isInfinite || !seconds.size.lt ⟨UInt64.size, 1⟩ then none
  else
    let scaled := seconds.size.mul ⟨1000000000, 1⟩
    let nanoseconds := roundDiv scaled.numerator scaled.denominator
    some ⟨nanoseconds / 1000000000, nanoseconds % 1000000000⟩

/-- The last component of a path, if it names something. -/
def pathFileName? (path : String) : Option String :=
  let components := (Text.splitAt '/' path).filter fun part => part ≠ "" && part ≠ "."
  match components.getLast? with
  | none | some ".." => none
  | some name => some name

/-- The extension of a path: what follows the last point of its last component,
unless that point is its first character. -/
def pathExtension? (path : String) : Option String := do
  let name ← pathFileName? path
  let reversed := name.toList.reverse
  match reversed.dropWhile (· ≠ '.') with
  | [] | [_] => none
  | _ => some (String.ofList (reversed.takeWhile (· ≠ '.')).reverse)

namespace Config

/-- The language that has an id. -/
def language? (config : Config) (id : String) : Option Language :=
  (config.languages.find? (·.1 = id)).map (·.2)

/-- The language that has an id, or that there is none. -/
def getLanguage (config : Config) (id : String) : Except ConfigError Language :=
  match config.language? id with
  | some language => .ok language
  | none => .error (.languageNotFound id)

/-- The id and the language that a tag means.  Ids go before aliases. -/
def resolve (config : Config) (tag : String) : Option (String × Language) :=
  let normalized := normalizeTag tag
  if normalized.isEmpty then none
  else
    match config.language? normalized with
    | some language => some (normalized, language)
    | none => config.languages.find? fun (_, language) => language.hasAlias normalized

/-- The ids of all languages in order. -/
def languageIds (config : Config) : List String :=
  (config.languages.map (·.1)).mergeSort (· ≤ ·)

/-- The id and the language that a path's extension means: of several languages
the one whose id comes first. -/
def languageForPath (config : Config) (path : String) : Option (String × Language) := do
  let extension ← pathExtension? path
  let candidates := config.languages.filter fun (_, language) =>
    language.extension.isExtensionOf extension
  (candidates.mergeSort fun left right => left.1 ≤ right.1).head?

/-- How long to wait for a worker to become ready. -/
def readyTimeout? (config : Config) : Option Duration :=
  Duration.ofSeconds? config.workerReadyTimeout

end Config

end Polyglot
