import Polyglot.Proofs.Channel.Hearing

/-!
# What runs see

A run takes in one message of its context after the other until it sees its end: the last message,
that the context is lost, or that it was called off.  What it returns is made of what it saw.
-/

namespace Polyglot

/-- What is gone from the queue for the host. -/
def Link.gone {Out In : Type} (before after : Link Out In) : List In :=
  before.toHost.take (before.toHost.length - after.toHost.length)

theorem Link.gone_eq {Out In : Type} {before after : Link Out In} {front : List In}
    (queue : before.toHost = front ++ after.toHost) : before.gone after = front := by
  rw [gone, queue, List.length_append, Nat.add_sub_cancel]
  exact List.take_left' rfl

/-- The result of code that is so far. -/
def Stage.result? : Stage → Option RunResult
  | .returned result => some result
  | .unsubmitted | .hearing _ | .silent => none

/-- What a run sees. -/
inductive Sight where
  /-- Its context says something. -/
  | heard (utterance : Utterance)
  /-- Its context is lost, of which the host says so much. -/
  | lost (notice : String)
  /-- It was called off. -/
  | calledOff
  deriving Repr, DecidableEq

namespace Sight

/-- What a sight adds to the output. -/
def chunks : Sight → List Chunk
  | heard utterance => utterance.chunks
  | lost notice => [(.stderr, notice)]
  | calledOff => []

/-- Whether a run is over with a sight. -/
def isLast : Sight → Bool
  | heard utterance => utterance.isEnding
  | lost _ | calledOff => true

/-- Output with what a sight adds to it. -/
def addTo (output : Aggregator) (sight : Sight) : Aggregator :=
  sight.chunks.foldl (fun output chunk => output.push chunk.1 chunk.2) output

/-- A run that saw so much is over and returns such a result: that of the output up to the last
sight, and of what the last one adds. -/
def Yields (sights : List Sight) (result : RunResult) : Prop :=
  ∃ before last, sights = before ++ [last] ∧ (∀ sight ∈ before, sight.isLast = false) ∧
    last.isLast = true ∧
      result = (Aggregator.gather (before.flatMap chunks ++ last.chunks)).finish

/-- Nothing was seen any more by a run that was over. -/
def EndsOnce (sights : List Sight) : Prop := ∀ sight ∈ sights.dropLast, sight.isLast = false

/-- What a run returned is made of what it saw. -/
structure IsMadeOf (returned : Option RunResult) (sights : List Sight) : Prop where
  endsOnce : EndsOnce sights
  yields : ∀ result, returned = some result ↔ Yields sights result

/-- Whether a sight is not just that input was asked for, or that the context is ready. -/
def matters (sight : Sight) : Bool := sight.isLast || !sight.chunks.isEmpty

/-- What a step shows to a run, and how far the run is then. -/
inductive Shows : Stage → List Sight → Stage → Prop where
  | nothing (stage : Stage) : Shows stage [] stage
  /-- Nothing comes of the run. -/
  | silence {stage : Stage} (unended : stage.result? = none) : Shows stage [] .silent
  | submit : Shows .unsubmitted [] (.hearing {})
  | refuse {sight : Sight} (last : sight.isLast = true) :
      Shows .unsubmitted [sight] (.returned (addTo {} sight).finish)
  | goOn {output : Aggregator} {sight : Sight} (unended : sight.isLast = false) :
      Shows (.hearing output) [sight] (.hearing (addTo output sight))
  | finish {output : Aggregator} {sight : Sight} (last : sight.isLast = true) :
      Shows (.hearing output) [sight] (.returned (addTo output sight).finish)

/-- A run that is so far has seen so much. -/
def Fits (sights : List Sight) : Stage → Prop
  | .unsubmitted => sights = []
  | .hearing output =>
    (∀ sight ∈ sights, sight.isLast = false) ∧ output = Aggregator.gather (sights.flatMap chunks)
  | .returned result => Yields sights result
  | .silent => ∀ sight ∈ sights, sight.isLast = false

variable {sights before seen : List Sight} {sight last : Sight} {stage next : Stage}
  {result : RunResult}

/-! ## What is made of sights -/

theorem yields_concat :
    Yields (before ++ [last]) result ↔
      (∀ sight ∈ before, sight.isLast = false) ∧ last.isLast = true ∧
        result = (Aggregator.gather (before.flatMap chunks ++ last.chunks)).finish := by
  refine ⟨?_, fun yields => ⟨before, last, rfl, yields⟩⟩
  rintro ⟨other, otherLast, same, yields⟩
  obtain ⟨rfl, isLast⟩ := List.append_inj' same rfl
  obtain rfl := List.singleton_inj.mp isLast
  exact yields

/-- A run that sees no end has no result. -/
theorem not_yields (unended : ∀ sight ∈ sights, sight.isLast = false) : ¬Yields sights result := by
  rintro ⟨before, last, rfl, -, isLast, -⟩
  rw [unended last List.mem_concat_self] at isLast
  contradiction

/-- What was seen yields one result at most. -/
theorem Yields.unique {other : RunResult} (yields : Yields sights result)
    (yieldsOther : Yields sights other) : result = other := by
  obtain ⟨before, last, rfl, unended, isLast, isResult⟩ := yields
  exact isResult.trans (yields_concat.mp yieldsOther).2.2.symm

theorem flatMap_filter_matters (sights : List Sight) :
    (sights.filter matters).flatMap chunks = sights.flatMap chunks := by
  induction sights with
  | nil => rfl
  | cons sight sights ih =>
      rw [List.filter_cons, List.flatMap_cons]
      split
      · rw [List.flatMap_cons, ih]
      · rename_i silent
        simp only [matters, Bool.or_eq_true, Bool.not_eq_true', not_or, Bool.not_eq_false,
          List.isEmpty_iff] at silent
        rw [ih, silent.2, List.nil_append]

/-- The result stays the same without what does not matter. -/
theorem yields_filter (ends : EndsOnce sights) :
    Yields (sights.filter matters) result ↔ Yields sights result := by
  rcases sights.eq_nil_or_concat with rfl | ⟨before, last, rfl⟩
  · rfl
  · rw [List.concat_eq_append] at ends ⊢
    rw [EndsOnce, List.dropLast_concat] at ends
    have unended : ∀ sight ∈ before.filter matters, sight.isLast = false :=
      fun sight member => ends sight (List.mem_filter.mp member).1
    cases isLast : last.isLast with
    | true =>
        have kept : [last].filter matters = [last] := by simp [matters, isLast]
        rw [List.filter_append, kept, yields_concat, yields_concat, flatMap_filter_matters]
        exact and_congr_left' (iff_of_true unended ends)
    | false =>
        have goesOn : ∀ sight ∈ before ++ [last], sight.isLast = false := by
          intro sight member
          rcases List.mem_append.mp member with earlier | now
          · exact ends sight earlier
          · rwa [List.mem_singleton.mp now]
        refine iff_of_false (not_yields fun sight member => ?_) (not_yields goesOn)
        exact goesOn sight (List.mem_filter.mp member).1

/-- Runs that saw the same return the same, whatever else was between. -/
theorem IsMadeOf.same {returned returnedOther : Option RunResult} {other : List Sight}
    (made : IsMadeOf returned sights) (madeOther : IsMadeOf returnedOther other)
    (same : sights.filter matters = other.filter matters) : returned = returnedOther := by
  apply Option.ext
  intro result
  rw [made.yields, madeOther.yields, ← yields_filter made.endsOnce, same,
    yields_filter madeOther.endsOnce]

/-! ## How far a run is that saw so much -/

theorem gather_concat (sights : List Sight) (sight : Sight) :
    Aggregator.gather (sights.flatMap chunks ++ sight.chunks) =
      addTo (Aggregator.gather (sights.flatMap chunks)) sight := by
  rw [Aggregator.gather_append, addTo]

theorem Fits.unended (fits : Fits sights stage) (unended : stage.result? = none) :
    ∀ sight ∈ sights, sight.isLast = false := by
  cases stage with
  | unsubmitted =>
      rw [Fits] at fits
      simp [fits]
  | hearing output => exact fits.1
  | returned result => contradiction
  | silent => exact fits

/-- Every step leaves a run with what it saw. -/
theorem Fits.shows (fits : Fits sights stage) (showing : Shows stage seen next) :
    Fits (sights ++ seen) next := by
  cases showing with
  | nothing => rwa [List.append_nil]
  | silence unended =>
      rw [List.append_nil]
      exact fits.unended unended
  | submit =>
      obtain rfl : sights = [] := fits
      exact ⟨by simp, rfl⟩
  | refuse last =>
      obtain rfl : sights = [] := fits
      exact ⟨[], _, rfl, by simp, last, by rw [gather_concat]; rfl⟩
  | @goOn output sight unended =>
      obtain ⟨before, rfl⟩ := fits
      refine ⟨fun seen member => ?_, ?_⟩
      · rcases List.mem_append.mp member with earlier | now
        · exact before seen earlier
        · rwa [List.mem_singleton.mp now]
      · rw [List.flatMap_append, List.flatMap_singleton, gather_concat]
  | finish last =>
      obtain ⟨before, rfl⟩ := fits
      exact ⟨sights, _, rfl, before, last, by rw [gather_concat]⟩

/-- A run returns what is made of what it saw. -/
theorem Fits.isMadeOf (fits : Fits sights stage) : IsMadeOf stage.result? sights := by
  have goesOn (unended : ∀ sight ∈ sights, sight.isLast = false) : IsMadeOf none sights :=
    ⟨fun sight member => unended sight ((List.dropLast_prefix sights).subset member),
      fun result => iff_of_false nofun (not_yields unended)⟩
  cases stage with
  | unsubmitted => exact goesOn (fits.unended rfl)
  | hearing output => exact goesOn (fits.unended rfl)
  | silent => exact goesOn (fits.unended rfl)
  | returned returned =>
      have yields : Yields sights returned := fits
      refine ⟨?_, fun result => ⟨?_, fun yieldsResult => ?_⟩⟩
      · obtain ⟨before, last, rfl, unended, -⟩ := yields
        rwa [EndsOnce, List.dropLast_concat]
      · rintro ⟨⟩
        exact yields
      · rw [yields.unique yieldsResult]
        rfl

end Sight

end Polyglot
