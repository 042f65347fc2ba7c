import Polyglot.Config.Validation

/-!
# What a valid configuration has

Validation looks at every language, so a configuration that passes has for each of them all that
its backend needs.
-/

namespace Polyglot.Config

theorem forM_eq_ok {α ε : Type} {check : α → Except ε Unit} {elements : List α} :
    elements.forM check = .ok () ↔ ∀ element ∈ elements, check element = .ok () := by
  induction elements with
  | nil => simp [pure, Except.pure]
  | cons element rest ih =>
      rw [List.forM, List.forall_mem_cons, ← ih]
      cases check element <;> simp [bind, Except.bind]

@[simp] theorem refuseIf_eq_ok {condition : Bool} {reason : String} :
    refuseIf condition reason = .ok () ↔ condition = false := by
  cases condition <;> simp [refuseIf]

/-- A condition that must not hold before a further check. -/
theorem refuseIf_bind_eq_ok {condition : Bool} {reason : String}
    {next : Unit → Except ConfigError Unit} :
    (refuseIf condition reason >>= next) = .ok () ↔ condition = false ∧ next () = .ok () := by
  cases condition <;> simp [refuseIf, bind, Except.bind]

/-- A section that must be there before a further check. -/
theorem require_bind_eq_ok {α : Type} {settings : Option α} {reason : String}
    {next : α → Except ConfigError Unit} :
    (require settings reason >>= next) = .ok () ↔
      ∃ found, settings = some found ∧ next found = .ok () := by
  cases settings <;> simp [require, bind, Except.bind]

/-- What the backend of a language needs. -/
def Served (config : Config) (language : Language) : Prop :=
  match language.backend with
  | .sandbox | .worker =>
    ∃ runtime, language.runtime = some runtime ∧ runtime.command ≠ []
  | .transpile =>
    ∃ transpile, language.transpile = some transpile ∧ transpile.command ≠ [] ∧
      ∀ delegate ∈ transpile.delegate,
        ∃ target, config.language? delegate = some target ∧ target.backend = .sandbox
  | .toolchain =>
    (∃ compile, language.compile = some compile ∧ compile.command ≠ []) ∧
      ∃ run, language.run = some run ∧ run.command ≠ []

variable {config : Config} {id : String} {language : Language}

theorem checkDelegate_eq_ok {delegate : String} : config.checkDelegate id delegate = .ok () ↔
    ∃ target, config.language? delegate = some target ∧ target.backend = .sandbox := by
  rw [checkDelegate]
  cases config.language? delegate <;> simp

theorem checkBackend_eq_ok :
    config.checkBackend id language = .ok () ↔ config.Served language := by
  rw [checkBackend, Served]
  cases language.backend with
  | sandbox | worker => simp [require_bind_eq_ok]
  | transpile =>
      simp only [require_bind_eq_ok, refuseIf_bind_eq_ok, List.isEmpty_eq_false_iff]
      apply exists_congr
      intro transpile
      cases transpile.delegate <;> simp [checkDelegate_eq_ok, pure, Except.pure]
  | toolchain =>
      simp only [require_bind_eq_ok, refuseIf_bind_eq_ok, refuseIf_eq_ok,
        List.isEmpty_eq_false_iff]
      constructor
      · rintro ⟨compile, isCompile, isCommand, run⟩
        exact ⟨⟨compile, isCompile, isCommand⟩, run⟩
      · rintro ⟨⟨compile, isCompile, isCommand⟩, run⟩
        exact ⟨compile, isCompile, isCommand, run⟩

/-- What validation finds of a language. -/
structure Accepts (config : Config) (id : String) (language : Language) : Prop where
  normalized : normalizeTag id = id
  name : language.name ≠ ""
  extension : language.extension.text ≠ ""
  served : config.Served language

theorem checkLanguage_eq_ok :
    config.checkLanguage id language = .ok () ↔ config.Accepts id language := by
  simp only [checkLanguage, refuseIf_bind_eq_ok, checkBackend_eq_ok, decide_eq_false_iff_not,
    ne_eq, Decidable.not_not, String.isEmpty_eq_false_iff]
  constructor
  · rintro ⟨normalized, name, extension, served⟩
    exact ⟨normalized, name, extension, served⟩
  · intro accepts
    exact ⟨accepts.normalized, accepts.name, accepts.extension, accepts.served⟩

/-- A configuration is valid when every language of it is. -/
theorem validate_eq_ok :
    config.validate = .ok () ↔ ∀ entry ∈ config.languages, config.Accepts entry.1 entry.2 := by
  rw [validate, forM_eq_ok]
  simp only [checkLanguage_eq_ok]

end Polyglot.Config
