import Polyglot.Json.Parser
import Polyglot.Json.Printer
import Polyglot.Run.Compilation
import Polyglot.Wire.Message
import Polyglot.Wire.Record

/-!
# The wire form of messages and results

Every message is written as a JSON object whose member `type` comes first; the
fields of a record follow in order, and one that is empty may be left out.
-/

namespace Polyglot

open Wire

/-- Values that have a wire form. -/
class WireForm (α : Type) where
  /-- The JSON value that is written. -/
  toJson : α → Json
  /-- The value that a JSON value stands for. -/
  ofJson? : Json → Option α

namespace Wire

/-- Writes a value as one line of text. -/
def encode {α : Type} [WireForm α] (value : α) : String :=
  (WireForm.toJson value).toText

/-- Reads a value from its text. -/
def decode? {α : Type} [WireForm α] (text : String) : Option α :=
  Json.parse? text >>= WireForm.ofJson?

/-- An object whose first member is the tag. -/
def message (tag : String) (members : List (Option String × Json)) : Json :=
  .object (Json.member "type" (.string tag) :: members)

/-- A member that is left out when it is absent. -/
def optional (name : String) : Option Json → List (Option String × Json)
  | none => []
  | some value => [Json.member name value]

/-- A list that is left out when it is empty. -/
def unlessEmpty (name : String) (elements : List Json) : List (Option String × Json) :=
  if elements.isEmpty then [] else [Json.member name (.array elements)]

/-- A message without fields: an object, or an array that ends with the tag. -/
def bare? {α : Type} (value : α) : Json → Option α
  | .object _ => some value
  | .array [] => some value
  | _ => none

end Wire

instance : WireForm Json where
  toJson value := value.held
  ofJson? value := if value.isHoldable then some value.held else none

instance : WireForm HostMessage where
  toJson
    | .executeCode code => message "EXECUTE_CODE" [Json.member "code" (.string code)]
    | .inputResponse value => message "INPUT_RESPONSE" [Json.member "value" (.string value)]
  ofJson? value := do
    let (tag, rest) ← tagged? value
    match tag with
    | "EXECUTE_CODE" =>
      let [code] ← fields? ["code"] rest | none
      return .executeCode (← requiredText? code)
    | "INPUT_RESPONSE" =>
      let [value] ← fields? ["value"] rest | none
      return .inputResponse (← requiredText? value)
    | _ => none

instance : WireForm SandboxMessage where
  toJson
    | .stdout data => message "stdout" [Json.member "data" (.string data)]
    | .stderr data => message "stderr" [Json.member "data" (.string data)]
    | .inputRequest text => message "INPUT_REQUEST" [Json.member "message" (.string text)]
    | .executionComplete => message "EXECUTION_COMPLETE" []
  ofJson? value := do
    let (tag, rest) ← tagged? value
    match tag with
    | "stdout" =>
      let [data] ← fields? ["data"] rest | none
      return .stdout (← requiredText? data)
    | "stderr" =>
      let [data] ← fields? ["data"] rest | none
      return .stderr (← requiredText? data)
    | "INPUT_REQUEST" =>
      let [text] ← fields? ["message"] rest | none
      return .inputRequest (← textOrEmpty? text)
    | "EXECUTION_COMPLETE" => bare? .executionComplete rest
    | _ => none

namespace RunMode

/-- The wire name of a mode. -/
def name : RunMode → String
  | .sync => "sync"
  | .async => "async"

/-- The mode that has a wire name. -/
def ofName? : String → Option RunMode
  | "sync" => some .sync
  | "async" => some .async
  | _ => none

end RunMode

instance : WireForm RunMode where
  toJson mode := .string mode.name
  ofJson? value := variant? isNull value >>= RunMode.ofName?

instance : WireForm InterpreterRequest where
  toJson
    | .run code mode packages =>
      message "run"
        ([Json.member "code" (.string code), Json.member "mode" (.string mode.name)] ++
          unlessEmpty "packages" (packages.map .string))
    | .inputResponse value => message "input_response" [Json.member "value" (.string value)]
  ofJson? value := do
    let (tag, rest) ← tagged? value
    match tag with
    | "run" =>
      let [code, mode, packages] ← fields? ["code", "mode", "packages"] rest | none
      let mode ← RunMode.ofName? (← variant? isNullOrEmpty (← mode))
      return .run (← requiredText? code) mode (← listOrEmpty? Json.text? packages)
    | "input_response" =>
      let [value] ← fields? ["value"] rest | none
      return .inputResponse (← requiredText? value)
    | _ => none

instance : WireForm WorkerMessage where
  toJson
    | .ready => message "ready" []
    | .stdout data => message "stdout" [Json.member "data" (.string data)]
    | .stderr data => message "stderr" [Json.member "data" (.string data)]
    | .inputRequest prompt => message "input_request" [Json.member "prompt" (.string prompt)]
    | .done => message "done" []
    | .error data => message "error" [Json.member "data" (.string data)]
  ofJson? value := do
    let (tag, rest) ← tagged? value
    match tag with
    | "ready" => bare? .ready rest
    | "stdout" =>
      let [data] ← fields? ["data"] rest | none
      return .stdout (← requiredText? data)
    | "stderr" =>
      let [data] ← fields? ["data"] rest | none
      return .stderr (← requiredText? data)
    | "input_request" =>
      let [prompt] ← fields? ["prompt"] rest | none
      return .inputRequest (← textOrEmpty? prompt)
    | "done" => bare? .done rest
    | "error" =>
      let [data] ← fields? ["data"] rest | none
      return .error (← requiredText? data)
    | _ => none

instance : WireForm RunRequest where
  toJson request :=
    .object [
      Json.member "code" (.string request.code),
      Json.member "language" (.string request.language)]
  ofJson? value := do
    let [code, language] ← fields? ["code", "language"] value | none
    return ⟨← requiredText? code, ← requiredText? language⟩

/-- A count as a JSON value. -/
def Wire.count (value : UInt32) : Json := .number (.ofNat value.toNat)

instance : WireForm Diagnostic where
  toJson diagnostic :=
    .object (Json.member "message" (.string diagnostic.message) ::
      (optional "line" (diagnostic.line.map count) ++
        optional "column" (diagnostic.column.map count)))
  ofJson? value := do
    let [message, line, column] ← fields? ["message", "line", "column"] value | none
    return ⟨← requiredText? message, ← optionalCount? line, ← optionalCount? column⟩

instance : WireForm RunResult where
  toJson result :=
    .object
      ([Json.member "stdout" (.string result.stdout),
        Json.member "stderr" (.string result.stderr)] ++
        unlessEmpty "diagnostics" (result.diagnostics.map WireForm.toJson))
  ofJson? value := do
    let [stdout, stderr, diagnostics] ← fields? ["stdout", "stderr", "diagnostics"] value | none
    return {
      stdout := ← requiredText? stdout
      stderr := ← requiredText? stderr
      diagnostics := ← listOrEmpty? WireForm.ofJson? diagnostics }

instance : WireForm Compilation where
  toJson compilation :=
    .object (Json.member "success" (.boolean compilation.success) ::
      (optional "code" (compilation.code.map .string) ++
        unlessEmpty "errors" (compilation.errors.map WireForm.toJson)))
  ofJson? value := do
    let [success, code, errors] ← fields? ["success", "code", "errors"] value | none
    return {
      success := ← requiredTruth? success
      code := ← optionalText? code
      errors := ← listOrEmpty? WireForm.ofJson? errors }

instance : WireForm CompilerOptions where
  toJson options :=
    .object
      [Json.member "target" (.string options.target), Json.member "module" (.string options.module),
        Json.member "strict" (.boolean options.strict)]
  ofJson? value := do
    let [target, module, strict] ← fields? ["target", "module", "strict"] value | none
    return ⟨← requiredText? target, ← requiredText? module, ← requiredTruth? strict⟩

instance : WireForm Stream where
  toJson
    | .stdout => .string "stdout"
    | .stderr => .string "stderr"
  ofJson? value := do
    match ← variant? isNull value with
    | "stdout" => some .stdout
    | "stderr" => some .stderr
    | _ => none

end Polyglot
