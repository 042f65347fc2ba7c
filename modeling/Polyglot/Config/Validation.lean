import Polyglot.Config.Basic

/-!
# Valid configurations

Every language of a valid configuration has all that its backend needs.
-/

namespace Polyglot

namespace Config

/-- What is wrong with a setting, if the condition holds. -/
def refuseIf (condition : Bool) (reason : String) : Except ConfigError Unit :=
  if condition then .error (.invalid reason) else .ok ()

/-- A section that must be there. -/
def require {α : Type} (settings : Option α) (reason : String) : Except ConfigError α :=
  match settings with
  | some settings => .ok settings
  | none => .error (.invalid reason)

/-- Checks the language that a transpile language names as its delegate. -/
def checkDelegate (config : Config) (id delegate : String) : Except ConfigError Unit :=
  match config.language? delegate with
  | none => .error (.invalid s!"language '{id}' delegates to unknown language '{delegate}'")
  | some target =>
    refuseIf (target.backend ≠ .sandbox)
      s!"language '{id}' delegates to '{delegate}', which is not a sandbox language"

/-- Checks the sections that a backend needs. -/
def checkBackend (config : Config) (id : String) (language : Language) :
    Except ConfigError Unit := do
  match language.backend with
  | .sandbox | .worker =>
    let runtime ← require language.runtime
      s!"{language.backend.name} language '{id}' has no [runtime] section"
    refuseIf runtime.command.isEmpty s!"language '{id}' has empty runtime command"
  | .transpile =>
    let transpile ← require language.transpile
      s!"transpile language '{id}' has no [transpile] section"
    refuseIf transpile.command.isEmpty s!"language '{id}' has empty transpile command"
    match transpile.delegate with
    | some delegate => config.checkDelegate id delegate
    | none => return ()
  | .toolchain =>
    let compile ← require language.compile
      s!"toolchain language '{id}' has no [compile] section"
    refuseIf compile.command.isEmpty s!"language '{id}' has empty compile command"
    let run ← require language.run s!"toolchain language '{id}' has no [run] section"
    refuseIf run.command.isEmpty s!"language '{id}' has empty run command"

/-- Checks one language. -/
def checkLanguage (config : Config) (id : String) (language : Language) :
    Except ConfigError Unit := do
  refuseIf (normalizeTag id ≠ id)
    s!"language id '{id}' must be lowercase without surrounding whitespace"
  refuseIf language.name.isEmpty s!"language '{id}' has empty name"
  refuseIf language.extension.text.isEmpty s!"language '{id}' has empty extension"
  config.checkBackend id language

/-- Checks all languages. -/
def validate (config : Config) : Except ConfigError Unit :=
  config.languages.forM fun (id, language) => config.checkLanguage id language

end Config

end Polyglot
