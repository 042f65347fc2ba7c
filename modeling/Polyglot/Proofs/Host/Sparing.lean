import Polyglot.Proofs.Host.Brokers

/-!
# What destroys no executor

Only who destroys an executor, or gives a call of it up, does so: executors that are called,
whose calls go on, and whose launches end stand as long as they did.
-/

namespace Polyglot.Host

/-- No executor that runs code was destroyed between two states of a host. -/
structure Spares (before after : Host) : Prop where
  sandboxes : ∀ number, after.IsSandboxDestroyed number → before.IsSandboxDestroyed number
  workers : ∀ number, after.IsDestroyed (.worker number) → before.IsDestroyed (.worker number)

variable {host middle after : Host} {executor : Executor} {number registry : Nat}

namespace Spares

theorem of_eq (sandboxes : after.sandboxes = host.sandboxes)
    (workers : after.workers = host.workers) : host.Spares after where
  sandboxes number destroyed := by rwa [IsSandboxDestroyed, sandboxes] at destroyed
  workers number destroyed := by rwa [IsDestroyed, workers] at destroyed

theorem refl (host : Host) : host.Spares host := .of_eq rfl rfl

theorem trans (first : host.Spares middle) (second : middle.Spares after) : host.Spares after where
  sandboxes number := first.sandboxes number ∘ second.sandboxes number
  workers number := first.workers number ∘ second.workers number

/-- An executor that something can be given to runs code. -/
theorem isDestroyed (spares : host.Spares after) (hears : ¬executor.IsDeaf)
    (destroyed : after.IsDestroyed executor) : host.IsDestroyed executor := by
  cases executor with
  | sandboxed number => exact spares.sandboxes number destroyed
  | worker number => exact spares.workers number destroyed
  | compiled compiled =>
      exact fun number delegated => spares.sandboxes number (destroyed number delegated)
  | toolchain number => exact absurd ⟨rfl, by simp⟩ hears

/-- One sandbox executor does something. -/
theorem setSandbox {launcher : Nat} {old new : Sandbox.Executor}
    (found : host.sandboxes[number]? = some (launcher, old))
    (stands : new.isDestroyed = old.isDestroyed)
    (sandboxes : after.sandboxes = (host.setSandbox number new).sandboxes)
    (workers : after.workers = host.workers) : host.Spares after where
  sandboxes other := by
    rintro ⟨owner, same, isSame, destroyed⟩
    simp only [sandboxes, Host.setSandbox, List.getElem?_modify] at isSame
    by_cases own : number = other
    · subst own
      simp only [found, if_pos, Option.map_eq_map, Option.map_some, Option.some.injEq,
        Prod.mk.injEq] at isSame
      exact ⟨launcher, old, found, by rw [← stands, isSame.2, destroyed]⟩
    · simp only [if_neg own, Option.map_eq_map, Option.map_id_fun', id] at isSame
      exact ⟨owner, same, isSame, destroyed⟩
  workers other destroyed := by rwa [IsDestroyed, workers] at destroyed

/-- One worker executor does something. -/
theorem setWorkerPlace {place next : Worker.Place}
    (at_ : host.workerPlace? number = some (registry, place))
    (stands : next.executor.destroyed = place.executor.destroyed) :
    host.Spares (host.setWorkerPlace number registry next) where
  sandboxes other := id
  workers other := by
    have now : (host.setWorkerPlace number registry next).workers[number]? =
        some (registry, next.executor) := (workers_setWorkerPlace at_).1
    obtain ⟨⟨owner, worker⟩, found, at_⟩ := Option.bind_eq_some_iff.mp at_
    obtain ⟨lent, kept, at_⟩ := Option.bind_eq_some_iff.mp at_
    cases at_
    rintro ⟨held, same, isSame, destroyed⟩
    by_cases own : number = other
    · subst own
      rw [now] at isSame
      cases isSame
      exact ⟨_, worker, found, stands ▸ destroyed⟩
    · rw [Host.setWorkerPlace, List.getElem?_set_ne own] at isSame
      exact ⟨held, same, isSame, destroyed⟩

end Spares

/-! ## Operations of a host -/

/-- Whatever one executor does that it is not to be destroyed by, it stands as long as it did. -/
theorem Effect.spares (effect : host.Effect False after) : host.Spares after := by
  cases effect with
  | aside log compilers => exact .of_eq rfl rfl
  | @sandbox number launcher sandbox next desk found event isHosted acts =>
      have stands := Sandbox.Place.isDestroyed_step_eq ⟨host.desk, sandbox⟩ isHosted
      rw [acts] at stands
      exact .setSandbox found stands rfl rfl
  | @release number launcher sandbox found =>
      have stands := Sandbox.Executor.isDestroyed_congr (Sandbox.Executor.lifecycle_release sandbox)
      exact .setSandbox found stands rfl rfl
  | worker at_ does => exact .setWorkerPlace at_ does.destroyed_eq
  | toolchain found moves log toolchains => exact .of_eq rfl rfl

section Operations

variable (host : Host)

theorem spares_provide (broker : Option Nat) (value : String) :
    host.Spares (host.provide broker value).1 := by
  cases broker <;> exact .of_eq rfl rfl

/-- Whatever stands behind the executors moves. -/
theorem spares_move (event : Facade.Event) : host.Spares (Facade.World.move host event) := by
  cases event with
  | launched launcher launching awaiting =>
      simp only [Facade.World.move]
      split
      · rename_i waits
        cases awaiting with
        | call number call => exact (host.effect_deliver number launcher launching waits).spares
        | relay registry handle => exact .of_eq rfl rfl
      · exact .refl host
  | context other context act =>
      refine ⟨fun number => ?_, fun number => id⟩
      rintro ⟨launcher, same, isSame, destroyed⟩
      simp only [Facade.World.move, List.getElem?_modify] at isSame
      obtain ⟨⟨owner, sandbox⟩, found, isSame⟩ := Option.map_eq_some_iff.mp isSame
      refine ⟨owner, sandbox, found, ?_⟩
      split at isSame
      · cases isSame
        exact destroyed
      · cases isSame
        exact destroyed
  | _ => exact .of_eq rfl rfl

end Operations

end Polyglot.Host
