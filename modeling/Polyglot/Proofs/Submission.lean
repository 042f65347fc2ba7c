import Polyglot.Proofs.Sandbox.Release
import Polyglot.Proofs.Worker.Destruction

/-!
# Code submitted after destruction

Destroying an executor is looked at before a context or a worker is waited for, and
code is submitted after that.  So a call that was waiting when the executor was
destroyed submits its code all the same if what it waits for comes.
-/

namespace Polyglot

namespace Sandbox.Place

/-- A call with code waits for a launch, which succeeds in what follows. -/
def LaunchesIn (place : Place) (events : List Event) : Prop :=
  ∃ number code, place.executor.calls[number]? = some ⟨.execute code, .launching⟩ ∧
    launchOf number events = some (.ok ())

/-- A destroyed sandbox executor submits no code unless a launch that code waited for
succeeds. -/
theorem submits_nothing_iff {place : Place} (coherent : place.executor.Coherent)
    (events : List Event) :
    (∀ code, .executeCode code ∉ (place.step .destroy).sentDuring events) ↔
      ¬place.LaunchesIn events := by
  have destroyed := isDestroyed_destroy place
  rcases coherent.atRest_or_onlyInside with rest | ⟨number, ⟨purpose, phase⟩, only⟩
  · obtain ⟨-, sent⟩ := atRest_run destroyed (atRest_destroy rest) events
    have unlaunched : ¬place.LaunchesIn events := by
      rintro ⟨number, code, launching, -⟩
      have outside := rest number _ launching
      contradiction
    exact iff_of_true (by simp [sent]) unlaunched
  · cases phase with
    | launching =>
        obtain ⟨sent, -⟩ := launching_run destroyed (onlyInside_destroy only) events
        rw [sent]
        constructor
        · rintro never ⟨other, code, launching, launched⟩
          obtain rfl := only.unique other _ launching rfl
          have found := only.found
          rw [launching] at found
          cases found
          apply never (Scan.prepareForSandbox code)
          simp [launched, opening]
        · intro unlaunched code member
          split at member
          · rename_i launched
            cases purpose with
            | start => simp [opening] at member
            | execute code => exact unlaunched ⟨number, code, only.found, launched⟩
          · simp at member
    | running output pending =>
        obtain ⟨sent, -⟩ := running_run destroyed (onlyInside_destroy only) events
        have unlaunched : ¬place.LaunchesIn events := by
          rintro ⟨other, code, launching, -⟩
          obtain rfl := only.unique other _ launching rfl
          have found := only.found
          rw [launching] at found
          cases found
        exact iff_of_true (by simp [sent]) unlaunched
    | queued => exact absurd only.inside (by simp [Phase.isInside])
    | finished outcome => exact absurd only.inside (by simp [Phase.isInside])
    | abandoned => exact absurd only.inside (by simp [Phase.isInside])

end Sandbox.Place

namespace Worker.Workshop

/-- A call that is in flight when an executor is destroyed gets, in what follows, the
lock of a worker that is alive. -/
def AdmitsIn (shop : Workshop) (executor : Nat) (occurrences : List Occurrence) : Prop :=
  ∃ call, shop.InFlight executor call ∧
    ∃ first receiver rest code, occurrences = first ++ .poll receiver executor call :: rest ∧
      ((shop.step (.destroy executor)).run first).submits? executor call = some code

/-- A destroyed worker executor submits no code unless a call that was in flight gets
the lock of a worker that is alive. -/
theorem submits_nothing_iff (shop : Workshop) (executor : Nat) (occurrences : List Occurrence) :
    (shop.step (.destroy executor)).submittedBy executor occurrences = [] ↔
      ¬shop.AdmitsIn executor occurrences := by
  have destroyed := isDestroyed_destroy shop executor
  rw [destroyed.submittedBy_eq_nil_iff]
  constructor
  · rintro never ⟨call, -, first, receiver, rest, code, split, submits⟩
    rw [never first receiver call rest split] at submits
    contradiction
  · intro unadmitted first receiver call rest split
    cases submits : ((shop.step (.destroy executor)).run first).submits? executor call with
    | none => rfl
    | some code =>
        have later := destroyed.inFlight_run first (inFlight_of_submits? submits)
        exact absurd ⟨call, inFlight_destroy shop later, first, receiver, rest, code, split,
          submits⟩ unadmitted

end Worker.Workshop

end Polyglot
