import Polyglot.Config.Path
import Polyglot.Config.Validation

/-!
# Reading configurations

From the text of a file to a valid configuration.  Settings that nobody asks for
are passed over.
-/

namespace Polyglot

namespace Config

/-- A setting that must be there. -/
def needed? {α : Type} (read : Setting → Option α) (setting : Option Setting) : Option α :=
  setting >>= read

/-- A setting that has a value of its own when it is missing. -/
def orElse? {α : Type} (fallback : α) (read : Setting → Option α) :
    Option Setting → Option α
  | none => some fallback
  | some setting => read setting

/-- A setting that may be missing or say nothing. -/
def optional? {α : Type} (read : Setting → Option α) : Option Setting → Option (Option α) :=
  orElse? none (Setting.asOptional? read)

/-- Reads the section of an isolated runtime. -/
def runtime? (setting : Setting) : Option RuntimeSection := do
  let [command, env] ← setting.fields? ["command", "env"] | none
  return { command := ← needed? Setting.asTexts? command
           env := ← orElse? [] Setting.asTextTable? env }

/-- Reads the section of a source-to-source compiler. -/
def transpile? (setting : Setting) : Option TranspileSection := do
  let [command, env, delegate, target, module, strict] ←
    setting.fields? ["command", "env", "delegate", "target", "module", "strict"] | none
  return { command := ← needed? Setting.asTexts? command
           env := ← orElse? [] Setting.asTextTable? env
           delegate := ← optional? Setting.asText? delegate
           target := ← optional? Setting.asText? target
           module := ← optional? Setting.asText? module
           strict := ← optional? Setting.asTruth? strict }

/-- Reads the section of a compilation. -/
def compile? (setting : Setting) : Option CompileSection := do
  let [command, sourceName, outputName, env, libraries] ←
    setting.fields? ["command", "source_name", "output_name", "env", "libraries"] | none
  return { command := ← needed? Setting.asTexts? command
           sourceName := ← needed? Setting.asText? sourceName
           outputName := ← needed? Setting.asText? outputName
           env := ← orElse? [] Setting.asTextTable? env
           libraries := ← orElse? [] Setting.asTexts? libraries }

/-- Reads the section of an execution. -/
def run? (setting : Setting) : Option RunSection := do
  let [command, env, markers] ←
    setting.fields? ["command", "env", "missing_entry_markers"] | none
  return { command := ← needed? Setting.asTexts? command
           env := ← orElse? [] Setting.asTextTable? env
           missingEntryMarkers := ← orElse? [] Setting.asTexts? markers }

/-- Reads a file extension. -/
def extension? (setting : Setting) : Option Extension := do
  (Extension.ofText (← setting.asText?)).toOption

/-- Reads a language. -/
def readLanguage? (setting : Setting) : Option Language := do
  let [name, extension, aliases, backend, runtime, transpile, compile, run] ←
    setting.fields? ["name", "extension", "aliases", "backend", "runtime", "transpile", "compile",
      "run"] | none
  return { name := ← needed? Setting.asText? name
           extension := ← needed? extension? extension
           aliases := ← orElse? [] Setting.asTexts? aliases
           backend := ← Backend.ofName? (← needed? Setting.asCase? backend)
           runtime := ← optional? runtime? runtime
           transpile := ← optional? transpile? transpile
           compile := ← optional? compile? compile
           run := ← optional? run? run }

/-- Reads the table of languages. -/
def readLanguages? : Setting → Option (List (String × Language))
  | .table entries => entries.mapM fun (id, setting) => (readLanguage? setting).map (id, ·)
  | _ => none

/-- Reads a configuration, which is not yet known to be valid. -/
def read? (entries : List (String × Setting)) : Option Config := do
  let usual : Config := {}
  return { workerReadyTimeout :=
             ← orElse? usual.workerReadyTimeout Setting.asDouble?
                 (Setting.find? entries "worker_ready_timeout")
           workDir := ← optional? Setting.asText? (Setting.find? entries "work_dir")
           languages := ← orElse? [] readLanguages? (Setting.find? entries "languages") }

/-- The configuration of settings, if it is valid. -/
def ofEntries (entries : Option (List (String × Setting))) : Except ConfigError Config :=
  match entries >>= fun entries => read? (Setting.ofEntries entries) with
  | none => .error .unreadable
  | some config => config.validate.map fun _ => config

/-- The configuration that a TOML text is. -/
def parseToml (text : String) : Except ConfigError Config :=
  ofEntries ((Toml.parse? text).map Setting.ofTomlEntries)

/-- The configuration that a JSON text is. -/
def parseJson (text : String) : Except ConfigError Config :=
  ofEntries do
    let value ← Json.parse? text
    guard value.isHoldable
    match ← Setting.ofJson? value with
    | .table entries => some entries
    | _ => none

/-- The readers of file formats by the extensions of files, in the order in which
they are tried for a path that names no file. -/
def formats : List (String × (String → Except ConfigError Config)) :=
  [("toml", parseToml), ("json", parseJson)]

/-- The configuration in a file, whose extension tells the format.  Where a path
names no file, the extensions of all formats are added to it in turn. -/
def load (contents : String → Option String) (path : String) : Except ConfigError Config :=
  match contents path with
  | some text =>
    match pathExtension? path >>= fun extension => formats.lookup extension with
    | some parse => parse text
    | none => .error .unreadable
  | none =>
    let found := formats.filterMap fun (extension, parse) =>
      (contents s!"{path}.{extension}").map parse
    found.headD (.error .unreadable)

end Config

end Polyglot
