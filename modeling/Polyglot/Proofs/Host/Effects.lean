import Polyglot.Host.Backend
import Polyglot.Host.Executor
import Polyglot.Proofs.Sandbox.Interleaving

/-!
# What the operations of a host come to

An executor of a host is called, its calls take turns and are given up, it is destroyed or
dropped, and a launch that it waits for ends.  Whatever is asked of a host, one executor at
most does something: what an executor of its kind does.  So a property of hosts that no
executor can break is one that no operation can break.
-/

namespace Polyglot

/-- What a host does with a sandbox executor: the desk stays where it is, and the executor is
destroyed only where that may be. -/
def Sandbox.Event.IsHosted (destroys : Prop) : Sandbox.Event → Prop
  | .destroy => destroys
  | .desk _ => False
  | .call _ | .poll _ _ | .launched _ _ | .abandon _ | .context _ _ => True

/-- What a worker executor does. -/
inductive Worker.Place.Does (destroys : Prop) (place : Place) : Place → Prop where
  | call (purpose : Purpose) : Does destroys place (place.call purpose).1
  | turn {receiver : String → Option Nat} {number : Nat} {after : Place}
      (turned : place.turn receiver number = some after) : Does destroys place after
  | abandon (number : Nat) : Does destroys place (place.abandon number)
  | destroy (may : destroys) : Does destroys place place.destroy

/-- An executor after something that happened to it, whatever its toolchain says. -/
inductive Toolchain.Executor.Moves (executor : Executor) : Executor → Prop where
  | stays : executor.Moves executor
  | call (phase : Phase) : executor.Moves { executor with calls := executor.calls ++ [phase] }
  | turn {number : Nat} {after : Executor} (turned : executor.turn number = some after) :
      executor.Moves after
  | abandon (number : Nat) : executor.Moves (executor.abandon number)
  | destroy : executor.Moves executor.destroy

namespace Host

/-- What an operation comes to: one executor at most does something, and is destroyed only
where that may be. -/
inductive Effect (destroys : Prop) (host : Host) : Host → Prop where
  /-- A compiler at most was asked. -/
  | aside (log : Log) (compilers : List Compiler) :
      Effect destroys host { host with log, compilers }
  | sandbox {number launcher : Nat} {sandbox next : Sandbox.Executor} {desk : Desk}
      (found : host.sandboxes[number]? = some (launcher, sandbox)) (event : Sandbox.Event)
      (isHosted : event.IsHosted destroys)
      (acts : Sandbox.Place.step ⟨host.desk, sandbox⟩ event = ⟨desk, next⟩)
      (log : Log) (compilers : List Compiler) (peers : List (Seat × Peer)) :
      Effect destroys host { host.setSandbox number next with desk, log, compilers, peers }
  /-- Nobody has a sandbox executor any more. -/
  | release {number launcher : Nat} {sandbox : Sandbox.Executor}
      (found : host.sandboxes[number]? = some (launcher, sandbox)) :
      Effect destroys host (host.setSandbox number sandbox.release)
  | worker {number registry : Nat} {place next : Worker.Place}
      (at_ : host.workerPlace? number = some (registry, place))
      (does : place.Does destroys next) :
      Effect destroys host (host.setWorkerPlace number registry next)
  | toolchain {number : Nat} {executor next : Toolchain.Executor}
      (found : host.toolchainExecutors[number]? = some executor) (moves : executor.Moves next)
      (log : Log) (toolchains : List ToolchainBackend) :
      Effect destroys host { host with
        log, toolchains, toolchainExecutors := host.toolchainExecutors.set number next }

/-- A call that somebody launches for waits for the launch. -/
theorem isLaunching_of_launcherOf? {host : Host} {number call launcher : Nat}
    {sandbox : Sandbox.Executor} (found : host.sandboxes[number]? = some (launcher, sandbox))
    (waits : (host.launcherOf? (.call number call)).isSome = true) :
    sandbox.isLaunching call = true := by
  simp only [launcherOf?, found] at waits
  by_contra unlaunched
  simp [unlaunched] at waits

section Operations

variable (host : Host) (number : Nat) (executor : Executor) (purpose : Purpose)
  (pending : Pending)

theorem effect_refl {destroys : Prop} : host.Effect destroys host := .aside host.log host.compilers

/-- A sandbox executor is called, perhaps after a compiler was asked. -/
theorem effect_callSandbox (log : Log) (compilers : List Compiler) :
    host.Effect False ({ host with log, compilers }.callSandbox number purpose).1 := by
  simp only [callSandbox]
  split
  · exact .aside log compilers
  · rename_i launcher sandbox found
    exact .sandbox found (.call purpose) trivial rfl log compilers host.peers

theorem effect_destroySandbox : host.Effect True (host.destroySandbox number) := by
  simp only [destroySandbox]
  split
  · exact host.effect_refl
  · rename_i launcher sandbox found
    exact .sandbox found .destroy trivial rfl host.log host.compilers host.peers

/-- A worker executor does something, if it is there. -/
theorem effect_changeWorker {destroys : Prop} {change : Worker.Place → Worker.Place}
    (does : ∀ place : Worker.Place, place.Does destroys (change place)) :
    host.Effect destroys (host.changeWorker number change) := by
  simp only [changeWorker]
  cases at_ : host.workerPlace? number with
  | none => exact host.effect_refl
  | some found => exact .worker at_ (does found.2)

/-- A toolchain executor does something, if it is there. -/
theorem effect_modify {destroys : Prop} {change : Toolchain.Executor → Toolchain.Executor}
    (moves : ∀ executor : Toolchain.Executor, executor.Moves (change executor)) :
    host.Effect destroys
      { host with toolchainExecutors := host.toolchainExecutors.modify number change } := by
  cases found : host.toolchainExecutors[number]? with
  | none =>
      have beyond := List.getElem?_eq_none_iff.mp found
      rw [List.modify_eq_self beyond]
      exact host.effect_refl
  | some executor =>
      obtain ⟨inside, isExecutor⟩ := List.getElem?_eq_some_iff.mp found
      rw [List.modify_eq_set_getElem?, found]
      exact .toolchain found (moves executor) host.log host.toolchains

/-- A compiler is given source text. -/
theorem effect_compile (source : String) (options : CompilerOptions) :
    host.Effect False (compile number host source options).1 := by
  simp only [compile]
  split
  · exact host.effect_refl
  · exact .aside _ _

theorem judge_eq (compiled : Compile.Executor) (code : String) :
    ∃ log compilers, (compiled.judge (compile compiled.compiler) host code).1 =
      { host with log, compilers } := by
  simp only [Compile.Executor.judge]
  split
  · exact ⟨host.log, host.compilers, rfl⟩
  · simp only [compile]
    split
    · exact ⟨host.log, host.compilers, rfl⟩
    · exact ⟨_, _, rfl⟩

theorem effect_callCompiled (compiled : Compile.Executor) :
    host.Effect False (host.callCompiled compiled purpose).1 := by
  cases purpose with
  | start =>
      simp only [callCompiled]
      split
      · exact host.effect_refl
      · exact host.effect_callSandbox _ .start host.log host.compilers
  | execute code =>
      obtain ⟨log, compilers, judged⟩ := host.judge_eq compiled code
      simp only [callCompiled]
      split
      · rename_i after result equal
        rw [equal] at judged
        obtain rfl : after = { host with log, compilers } := judged
        exact .aside log compilers
      · rename_i after code equal
        rw [equal] at judged
        obtain rfl : after = { host with log, compilers } := judged
        exact host.effect_callSandbox _ (.execute code) log compilers

/-- An executor is called. -/
theorem effect_call : host.Effect False (host.call executor purpose).1 := by
  cases executor with
  | sandboxed number => exact host.effect_callSandbox number purpose host.log host.compilers
  | worker number =>
      simp only [call, callWorker]
      split
      · exact host.effect_refl
      · rename_i registry place at_
        exact .worker at_ (.call purpose)
  | compiled compiled => exact host.effect_callCompiled purpose compiled
  | toolchain number =>
      simp only [call, callToolchain]
      split
      · exact host.effect_refl
      · rename_i executor toolchain lookup
        obtain ⟨owner, found, lookup⟩ := Option.bind_eq_some_iff.mp lookup
        obtain ⟨backend, -, lookup⟩ := Option.bind_eq_some_iff.mp lookup
        cases lookup
        exact .toolchain found (.call _) _ _

/-- A call takes a turn. -/
theorem effect_turnCall {receiver : String → Option Nat} {after : Host}
    (turned : turnCall receiver host pending = some after) : host.Effect False after := by
  cases pending with
  | sandbox number call =>
      simp only [turnCall] at turned
      obtain ⟨⟨launcher, sandbox⟩, found, turned⟩ := Option.bind_eq_some_iff.mp turned
      obtain ⟨⟨desk, next⟩, moved, turned⟩ := Option.bind_eq_some_iff.mp turned
      cases turned
      have acts : Sandbox.Place.step ⟨host.desk, sandbox⟩ (.poll receiver call) = ⟨desk, next⟩ := by
        simp only [Sandbox.Place.step, moved]
      exact .sandbox found (.poll receiver call) trivial acts host.log host.compilers host.peers
  | worker number call =>
      simp only [turnCall] at turned
      obtain ⟨⟨registry, place⟩, at_, turned⟩ := Option.bind_eq_some_iff.mp turned
      obtain ⟨next, moved, turned⟩ := Option.bind_eq_some_iff.mp turned
      cases turned
      exact .worker at_ (.turn moved)
  | toolchain number call =>
      simp only [turnCall] at turned
      obtain ⟨owner, found, turned⟩ := Option.bind_eq_some_iff.mp turned
      obtain ⟨next, moved, turned⟩ := Option.bind_eq_some_iff.mp turned
      cases turned
      exact .toolchain found (.turn moved) host.log host.toolchains
  | finished outcome => contradiction

/-- The caller of a call goes away. -/
theorem effect_abandon : host.Effect False (host.abandon pending) := by
  cases pending with
  | sandbox number call =>
      simp only [abandon]
      split
      · exact host.effect_refl
      · rename_i launcher sandbox found
        exact .sandbox found (.abandon call) trivial rfl host.log host.compilers host.peers
  | worker number call => exact host.effect_changeWorker number fun _ => .abandon call
  | toolchain number call => exact host.effect_modify number fun _ => .abandon call
  | finished outcome => exact host.effect_refl

/-- An executor is destroyed. -/
theorem effect_destroy : host.Effect True (host.destroy executor) := by
  cases executor with
  | sandboxed number => exact host.effect_destroySandbox number
  | worker number => exact host.effect_changeWorker number fun _ => .destroy trivial
  | compiled compiled =>
      simp only [destroy]
      cases compiled.delegate with
      | none => exact host.effect_refl
      | some number => exact host.effect_destroySandbox number
  | toolchain number => exact host.effect_modify number fun _ => .destroy

/-- Nobody has an executor any more: at most a context goes. -/
theorem drop_cases : host.drop executor = host ∨ ∃ number launcher sandbox,
    host.sandboxes[number]? = some (launcher, sandbox) ∧
      host.drop executor = host.setSandbox number sandbox.release := by
  have dropped (number : Nat) : host.dropSandbox number = host ∨ ∃ other launcher sandbox,
      host.sandboxes[other]? = some (launcher, sandbox) ∧
        host.dropSandbox number = host.setSandbox other sandbox.release := by
    simp only [dropSandbox]
    split
    · exact .inl rfl
    · rename_i launcher sandbox found
      exact .inr ⟨number, launcher, sandbox, found, rfl⟩
  cases executor with
  | sandboxed number => exact dropped number
  | compiled compiled =>
      simp only [drop]
      cases compiled.delegate with
      | none => exact .inl rfl
      | some number => exact dropped number
  | worker number => exact .inl rfl
  | toolchain number => exact .inl rfl

theorem effect_drop : host.Effect False (host.drop executor) := by
  rcases host.drop_cases executor with same | ⟨number, launcher, sandbox, found, dropped⟩
  · rw [same]
    exact host.effect_refl
  · rw [dropped]
    exact .release found

/-- A sandbox executor learns of the outcome of a launch that a call of it waits for. -/
theorem effect_deliver (launcher : Nat) (launching : Launching) {call : Nat}
    (waits : (host.launcherOf? (.call number call)).isSome = true) :
    host.Effect False (host.deliver launcher launching (.call number call)) := by
  simp only [deliver]
  split
  · exact host.effect_refl
  · rename_i owner sandbox found
    have isLaunching := isLaunching_of_launcherOf? found waits
    have acts : Sandbox.Place.step ⟨host.desk, sandbox⟩ (.launched call launching.outcome) =
        ⟨(sandbox.launched host.desk call ((sandbox.calls[call]?.map (·.purpose)).getD .start)
            launching.outcome).1,
          (sandbox.launched host.desk call ((sandbox.calls[call]?.map (·.purpose)).getD .start)
            launching.outcome).2⟩ := by
      simp only [Sandbox.Place.step, isLaunching, if_true]
      rfl
    exact .sandbox found (.launched call launching.outcome) trivial acts host.log host.compilers _

end Operations

end Host

end Polyglot
