import Polyglot.Proofs.Channel.Strand

/-!
# What the owners of runs hear

A run can be given up before it has come to its end, and then the context goes on saying
things for it while the next run is submitted.  So a journal keeps, beside what lies between
the host and a context, for which run each message on its way was said, and what everybody
who submitted code has taken in.

Whoever submits code takes in what is said for one run: the first one whose last message
had not reached the host by then.
-/

namespace Polyglot

/-- How many of some messages are the last of their run. -/
def endings (utterances : List Utterance) : Nat := utterances.countP Utterance.isEnding

/-- The runs that messages were said for, when the first was said for a given run. -/
def numbering (first : Nat) : List Utterance → List Nat
  | [] => []
  | utterance :: rest => first :: numbering (if utterance.isEnding then first + 1 else first) rest

section Numbering

variable {first : Nat} {utterances more : List Utterance}

@[simp] theorem endings_nil : endings [] = 0 := rfl

theorem endings_append (utterances more : List Utterance) :
    endings (utterances ++ more) = endings utterances + endings more :=
  List.countP_append

theorem endings_singleton (utterance : Utterance) :
    endings [utterance] = if utterance.isEnding then 1 else 0 :=
  List.countP_singleton

@[simp] theorem length_numbering (first : Nat) (utterances : List Utterance) :
    (numbering first utterances).length = utterances.length := by
  induction utterances generalizing first with
  | nil => rfl
  | cons utterance rest ih => rw [numbering, List.length_cons, ih, List.length_cons]

theorem numbering_append (first : Nat) (utterances more : List Utterance) :
    numbering first (utterances ++ more) =
      numbering first utterances ++ numbering (first + endings utterances) more := by
  induction utterances generalizing first with
  | nil => rfl
  | cons utterance rest ih =>
      have counted : (if utterance.isEnding then first + 1 else first) + endings rest =
          first + endings (utterance :: rest) := by
        simp only [endings, List.countP_cons]
        split <;> omega
      rw [List.cons_append, numbering, ih, counted, numbering, List.cons_append]

/-- What gets lost at the end of some messages takes nothing from the others. -/
theorem take_numbering (shorter : utterances <+: more) (rest : List Nat) :
    (numbering first more ++ rest).take utterances.length = numbering first utterances := by
  obtain ⟨lost, rfl⟩ := shorter
  rw [numbering_append, List.append_assoc]
  exact List.take_left' (length_numbering first utterances)

theorem endings_le (shorter : utterances <+: more) : endings utterances ≤ endings more := by
  obtain ⟨lost, rfl⟩ := shorter
  rw [endings_append]
  exact Nat.le_add_right _ _

end Numbering

/-! ## Hearings -/

/-- What came of code that was submitted to a context. -/
structure Hearing where
  /-- The number of its run. -/
  run : Nat
  /-- How many runs had told the host their last message when it was submitted. -/
  reached : Nat
  /-- What was taken in for it, each with the number of the run that it was said for. -/
  heard : List (Nat × Utterance) := []
  deriving Repr, DecidableEq

/-- What a host says itself when a context goes away. -/
inductive IsApology : Chunk → Prop where
  | contextLost : IsApology (.stderr, "Sandbox context terminated unexpectedly")
  | crashed (reason : String) : IsApology (.stderr, s!"Worker crashed: {reason}")

/-- A result of code that was not submitted. -/
def IsRefusal (result : RunResult) : Prop :=
  ∃ notice, IsApology notice ∧ result = (Aggregator.gather [notice]).finish

namespace Hearing

/-- The output that was taken in. -/
def chunks (hearing : Hearing) : List Chunk := hearing.heard.flatMap (·.2.chunks)

/-- More is taken in. -/
def take (hearing : Hearing) (entries : List (Nat × Utterance)) : Hearing :=
  { hearing with heard := hearing.heard ++ entries }

/-- All that was taken in for the code was said for it. -/
def IsApart (hearing : Hearing) : Prop := ∀ entry ∈ hearing.heard, entry.1 = hearing.run

/-- Every earlier run had told the host its last message when the code was submitted. -/
def IsTimely (hearing : Hearing) : Prop := hearing.reached = hearing.run

/-- A result that is made of what was taken in. -/
inductive Yields (hearing : Hearing) : RunResult → Prop where
  /-- The last message of a run was taken in, and nothing after it. -/
  | completed {before : List (Nat × Utterance)} {run : Nat} {last : Option Chunk}
      (heard : hearing.heard = before ++ [(run, .ending last)]) :
      Yields hearing (Aggregator.gather hearing.chunks).finish
  /-- The context went away, or the run was cancelled. -/
  | brokenOff {notices : List Chunk} (own : ∀ notice ∈ notices, IsApology notice)
      (unended : ∀ entry ∈ hearing.heard, entry.2.isEnding = false) :
      Yields hearing (Aggregator.gather (hearing.chunks ++ notices)).finish

/-- What holds of a hearing whatever else happens: the run is its owner's with that code,
and all that was taken in was said for the first run whose end the host did not know of. -/
structure Holds (hearing : Hearing) (account : Account) (owner : Nat) (code : String) : Prop where
  posted : account.posted[hearing.run]? = some (owner, code)
  early : hearing.reached ≤ hearing.run
  alike : ∀ entry ∈ hearing.heard, entry.1 = hearing.reached

variable {hearing : Hearing} {account account' : Account} {owner : Nat} {code : String}

theorem Holds.mono (holds : hearing.Holds account owner code)
    (later : account.Extends account') : hearing.Holds account' owner code where
  posted := by
    obtain ⟨more, appended⟩ := later.posted
    have inside : hearing.run < account.posted.length :=
      (List.getElem?_eq_some_iff.mp holds.posted).1
    rw [← appended, List.getElem?_append_left inside, holds.posted]
  early := holds.early
  alike := holds.alike

/-- Nothing but what was said for the code was taken in exactly if nothing was taken in, or
every earlier run had come to its end in time. -/
theorem Holds.isApart_iff (holds : hearing.Holds account owner code) :
    hearing.IsApart ↔ hearing.heard = [] ∨ hearing.IsTimely := by
  constructor
  · intro apart
    cases heard : hearing.heard with
    | nil => exact .inl rfl
    | cons entry rest =>
        have member : entry ∈ hearing.heard := heard ▸ List.mem_cons_self
        exact .inr ((holds.alike entry member).symm.trans (apart entry member))
  · rintro (nothing | timely) entry member
    · rw [nothing] at member
      contradiction
    · exact (holds.alike entry member).trans timely

theorem chunks_take (hearing : Hearing) (entries : List (Nat × Utterance)) :
    (hearing.take entries).chunks = hearing.chunks ++ entries.flatMap (·.2.chunks) :=
  List.flatMap_append

end Hearing

/-! ## Stages -/

/-- How far code is that somebody wants to run. -/
inductive Stage where
  | unsubmitted
  /-- It was submitted, and so much output was collected. -/
  | hearing (output : Aggregator)
  | returned (result : RunResult)
  /-- Nothing comes of it any more. -/
  | silent

namespace Stage

/-- What can become of a stage while nothing is submitted or taken in. -/
inductive Turns : Stage → Stage → Prop where
  | stay (stage : Stage) : Turns stage stage
  | silence (stage : Stage) : Turns stage .silent
  /-- The code cannot be submitted. -/
  | refuse {notice : Chunk} (own : IsApology notice) :
      Turns .unsubmitted (.returned (Aggregator.gather [notice]).finish)
  /-- The run comes to its end without its last message. -/
  | cut (output : Aggregator) {notices : List Chunk} (own : ∀ notice ∈ notices, IsApology notice) :
      Turns (.hearing output)
        (.returned (notices.foldl (fun output chunk => output.push chunk.1 chunk.2) output).finish)

/-- The stage of a run that takes something in. -/
def hear (output : Aggregator) (utterance : Utterance) : Stage :=
  let output := utterance.chunks.foldl (fun output chunk => output.push chunk.1 chunk.2) output
  if utterance.isEnding then .returned output.finish else .hearing output

/-- Whether code runs and is listened to. -/
def isHearing : Stage → Bool
  | .hearing _ => true
  | .unsubmitted | .returned _ | .silent => false

end Stage

/-- What the host has taken out of a strand that it attended to. -/
def Strand.gone (before after : Strand) : List Utterance :=
  before.voice.take (before.voice.length - after.voice.length)

theorem Strand.gone_eq {before after : Strand} {front : List Utterance}
    (voice : before.voice = front ++ after.voice) : before.gone after = front := by
  rw [Strand.gone, voice, List.length_append, Nat.add_sub_cancel]
  exact List.take_left' rfl

/-! ## Journals -/

/-- What is known of a context whose runs can be given up. -/
structure Journal where
  account : Account := {}
  /-- For which run each message was said that is on its way to the host, oldest first. -/
  marks : List Nat := []
  /-- How many runs have told the host their last message. -/
  reached : Nat := 0
  /-- What came of the code that somebody submitted. -/
  hearings : Nat → Option Hearing := fun _ => none

namespace Journal

/-- Something happens behind the host, after which so many messages are on their way to
it.  What was said meanwhile was said for the run that the context handled. -/
def drift (journal : Journal) (account : Account) (left : Nat) : Journal :=
  { journal with account, marks := (journal.marks ++ [journal.account.ended]).take left }

/-- The host attends to the context for somebody: messages are gone that were on their way,
which the owner of a run takes in and everybody else drops, and code is submitted. -/
def attend (journal : Journal) (owner : Nat) (listens : Bool) (gone : List Utterance)
    (codes : List String) : Journal where
  account := journal.account.post owner codes
  marks := journal.marks.drop gone.length
  reached := journal.reached + endings gone
  hearings other :=
    if other ≠ owner then journal.hearings other
    else if codes ≠ [] then
      some { run := journal.account.posted.length, reached := journal.reached + endings gone }
    else if listens then (journal.hearings owner).map (·.take (journal.marks.zip gone))
    else journal.hearings owner

/-- What somebody's turn did at the host's end, read off the strand and the code queued for
the context before and after it. -/
def observe (journal : Journal) (owner : Nat) (stage : Stage) (before after : Strand)
    (queued queued' : List String) : Journal :=
  journal.attend owner stage.isHearing (before.gone after) (queued'.drop queued.length)

/-- A journal that agrees with what lies between the host and the context. -/
structure Follows (journal : Journal) (strand : Strand) : Prop where
  balances : journal.account.Balances strand.queued
  marks : journal.marks = numbering journal.reached strand.voice
  behind : journal.reached + endings strand.voice ≤ journal.account.ended
  /-- Nothing gets lost while the context can reach the host. -/
  whole : strand.attached = true → journal.reached + endings strand.voice = journal.account.ended
  silent : journal.account.posted = [] → strand.voice = []

/-- What holds of every hearing in a journal, when everybody has so much code to submit. -/
def Fair (journal : Journal) (codeOf : Nat → Option String) : Prop :=
  ∀ owner hearing, journal.hearings owner = some hearing →
    ∃ code, codeOf owner = some code ∧ hearing.Holds journal.account owner code

/-- Somebody's code runs, who has heard no last message and collected so much output. -/
structure Hears (journal : Journal) (owner : Nat) (output : Aggregator) (hearing : Hearing) :
    Prop where
  found : journal.hearings owner = some hearing
  reached : hearing.reached = journal.reached
  unended : ∀ entry ∈ hearing.heard, entry.2.isEnding = false
  collected : output = Aggregator.gather hearing.chunks

/-- What a journal has to say of somebody whose code is so far. -/
def Fits (journal : Journal) (owner : Nat) : Stage → Prop
  | .unsubmitted => journal.hearings owner = none
  | .hearing output => ∃ hearing, journal.Hears owner output hearing
  | .returned result =>
    (journal.hearings owner = none ∧ IsRefusal result) ∨
      ∃ hearing, journal.hearings owner = some hearing ∧ hearing.Yields result
  | .silent => True

variable {journal : Journal} {before after strand : Strand} {owner other : Nat} {listens : Bool}
  {output : Aggregator} {hearing : Hearing} {account : Account}
  {codeOf codeOf' : Nat → Option String}

theorem follows_empty {strand : Strand} (queued : strand.queued = 0) (silent : strand.voice = []) :
    Follows {} strand where
  balances := queued ▸ Account.balances_empty
  marks := by rw [silent]; rfl
  behind := by rw [silent]; exact Nat.le_refl _
  whole _ := by rw [silent]; rfl
  silent _ := silent

theorem fair_empty (codeOf : Nat → Option String) : Fair {} codeOf :=
  fun _ _ found => by contradiction

theorem Fair.mono (fair : journal.Fair codeOf)
    (same : ∀ owner code, codeOf owner = some code → codeOf' owner = some code) :
    journal.Fair codeOf' := by
  intro owner hearing found
  obtain ⟨code, isCode, holds⟩ := fair owner hearing found
  exact ⟨code, same owner code isCode, holds⟩

/-! ### Behind the host -/

section Drift

theorem Follows.say (follows : journal.Follows before) {utterance : Utterance}
    (handles : journal.account.ended < journal.account.taken)
    (queued : after.queued = before.queued)
    (voice : after.voice = before.voice ++ if before.attached then [utterance] else [])
    (attached : after.attached = before.attached) :
    (journal.drift (journal.account.say utterance) after.voice.length).Follows after := by
  have ended : (journal.account.say utterance).ended =
      journal.account.ended + endings [utterance] := by
    rw [endings_singleton]
    simp only [Account.say]
    split <;> rfl
  have bound := follows.balances.taken
  refine ⟨queued ▸ follows.balances.say handles utterance, ?_, ?_, ?_, ?_⟩
  · simp only [drift]
    cases reaches : before.attached with
    | false =>
        have same : after.voice = before.voice := by simpa [reaches] using voice
        rw [follows.marks, same]
        exact take_numbering List.prefix_rfl _
    | true =>
        have longer : after.voice = before.voice ++ [utterance] := by simpa [reaches] using voice
        have appended : journal.marks ++ [journal.account.ended] =
            numbering journal.reached after.voice := by
          rw [longer, numbering_append, follows.whole reaches, follows.marks]
          rfl
        rw [appended, List.take_of_length_le (Nat.le_of_eq (length_numbering _ _))]
  · have behind := follows.behind
    simp only [drift, ended, voice, endings_append]
    split
    · omega
    · simp only [endings_nil]
      omega
  · intro reaches
    rw [attached] at reaches
    simp only [drift, ended, voice, reaches, if_true, endings_append]
    rw [← follows.whole reaches, Nat.add_assoc]
  · intro nothing
    have unposted : journal.account.posted.length = 0 := congrArg List.length nothing
    omega

/-- A journal goes on agreeing with what happens behind the host. -/
theorem Follows.drift (follows : journal.Follows before)
    (drift : before.Drift journal.account after account) :
    (journal.drift account after.voice.length).Follows after := by
  cases drift with
  | fade fades =>
      refine ⟨follows.balances.mono fades.queued, ?_, ?_, ?_, ?_⟩
      · simp only [Journal.drift, follows.marks]
        exact take_numbering fades.voice _
      · exact Nat.le_trans (Nat.add_le_add_left (endings_le fades.voice) _) follows.behind
      · intro reaches
        obtain ⟨reached, same⟩ := fades.attached reaches
        rw [same]
        exact follows.whole reached
      · intro nothing
        have voice := fades.voice
        rw [follows.silent nothing] at voice
        exact List.prefix_nil.mp voice
  | take queued voice attached =>
      refine ⟨follows.balances.take queued, ?_, ?_, ?_, ?_⟩
      · simp only [Journal.drift, follows.marks, voice]
        exact take_numbering List.prefix_rfl _
      · rw [voice]
        exact follows.behind
      · rw [voice, attached]
        exact follows.whole
      · rw [voice]
        exact follows.silent
  | @say utterance permitted queued voice attached =>
      cases aside : utterance.isAside with
      | true =>
          have same : after = before := by
            obtain ⟨queuedBefore, voiceBefore, attachedBefore⟩ := before
            obtain ⟨queuedAfter, voiceAfter, attachedAfter⟩ := after
            simp_all
          rw [Account.say_of_isAside aside, same]
          refine ⟨follows.balances, ?_, follows.behind, follows.whole, follows.silent⟩
          simp only [Journal.drift, follows.marks]
          exact take_numbering List.prefix_rfl _
      | false =>
          have handles : journal.account.ended < journal.account.taken := by
            simpa [Account.permits, aside] using permitted
          exact follows.say handles queued (by simpa [aside] using voice) attached

theorem Fair.drift (fair : journal.Fair codeOf) (later : journal.account.Extends account)
    (left : Nat) : (journal.drift account left).Fair codeOf := by
  intro owner hearing found
  obtain ⟨code, isCode, holds⟩ := fair owner hearing found
  exact ⟨code, isCode, holds.mono later⟩

theorem Hears.drift (hears : journal.Hears owner output hearing) (account : Account)
    (left : Nat) : (journal.drift account left).Hears owner output hearing :=
  ⟨hears.found, hears.reached, hears.unended, hears.collected⟩

end Drift

/-! ### At the host -/

section Attend

variable {gone : List Utterance} {codes : List String} {code : String} {utterance : Utterance}

theorem hearings_attend_of_ne (journal : Journal) (different : other ≠ owner) (listens : Bool)
    (gone : List Utterance) (codes : List String) :
    (journal.attend owner listens gone codes).hearings other = journal.hearings other :=
  if_pos different

/-- What somebody drops who does not hear it is no loss to anybody. -/
theorem hearings_attend_deaf (journal : Journal) (owner : Nat) (gone : List Utterance) :
    (journal.attend owner false gone []).hearings = journal.hearings := by
  funext other
  by_cases same : other = owner
  · simp [attend, same]
  · exact journal.hearings_attend_of_ne same false gone []

theorem attend_nothing (journal : Journal) (owner : Nat) (listens : Bool) :
    journal.attend owner listens [] [] = journal := by
  have hearings : (journal.attend owner listens [] []).hearings = journal.hearings := by
    cases listens with
    | false => exact journal.hearings_attend_deaf owner []
    | true =>
        have unchanged : (fun hearing : Hearing => hearing.take []) = id := by
          funext hearing
          simp [Hearing.take]
        funext other
        by_cases same : other = owner
        · simp [attend, same, unchanged]
        · exact journal.hearings_attend_of_ne same true [] []
  have account : (journal.attend owner listens [] []).account = journal.account :=
    Account.post_nil _ _
  obtain ⟨isAccount, marks, reached, isHearings⟩ := journal
  simp only [attend, mk.injEq] at hearings account ⊢
  exact ⟨account, rfl, rfl, hearings⟩

/-- A journal goes on agreeing with a strand that the host attends to. -/
theorem Follows.attend (follows : journal.Follows before) (owner : Nat) (listens : Bool)
    (voice : before.voice = gone ++ after.voice)
    (queued : after.queued = before.queued + codes.length)
    (attached : after.attached = before.attached) :
    (journal.attend owner listens gone codes).Follows after where
  balances := by
    have balances := follows.balances
    refine ⟨?_, balances.ended, balances.tags⟩
    have bound := balances.taken
    simp only [Journal.attend, Account.post, List.length_append, List.length_map]
    omega
  marks := by
    simp only [Journal.attend, follows.marks, voice, numbering_append]
    exact List.drop_left' (length_numbering _ _)
  behind := by
    have behind := follows.behind
    simp only [Journal.attend, Account.post]
    rw [voice, endings_append] at behind
    omega
  whole reaches := by
    have whole := follows.whole (attached ▸ reaches)
    simp only [Journal.attend, Account.post]
    rw [voice, endings_append] at whole
    omega
  silent nothing := by
    have unposted : journal.account.posted = [] := (List.append_eq_nil_iff.mp nothing).1
    have silent := follows.silent unposted
    rw [voice] at silent
    exact (List.append_eq_nil_iff.mp silent).2

/-- Somebody submits code, and hears from the first run on that had not come to its end. -/
theorem Follows.hears_submit (follows : journal.Follows strand) (fair : journal.Fair codeOf)
    (isCode : codeOf owner = some code) (listens : Bool) {rest : List Utterance}
    (voice : strand.voice = gone ++ rest) :
    (journal.attend owner listens gone [code]).Fair codeOf ∧
      (journal.attend owner listens gone [code]).Hears owner {}
        { run := journal.account.posted.length, reached := journal.reached + endings gone } := by
  have later : journal.account.Extends (journal.attend owner listens gone [code]).account :=
    Account.extends_post _ _ _
  have new : (journal.attend owner listens gone [code]).hearings owner =
      some { run := journal.account.posted.length, reached := journal.reached + endings gone } := by
    simp [Journal.attend]
  refine ⟨?_, new, rfl, fun entry member => absurd member List.not_mem_nil, rfl⟩
  intro other hearing found
  by_cases same : other = owner
  · subst same
    rw [new] at found
    cases found
    refine ⟨code, isCode, by simp [Journal.attend, Account.post], ?_,
      fun entry member => absurd member List.not_mem_nil⟩
    have behind := follows.behind
    have ended := follows.balances.ended
    have taken := follows.balances.taken
    rw [voice, endings_append] at behind
    dsimp only
    omega
  · rw [hearings_attend_of_ne journal same] at found
    obtain ⟨code, isCode, holds⟩ := fair other hearing found
    exact ⟨code, isCode, holds.mono later⟩

/-- The owner of a run takes in what was said first. -/
theorem Follows.hears_take (follows : journal.Follows strand) (fair : journal.Fair codeOf)
    (hears : journal.Hears owner output hearing) {rest : List Utterance}
    (voice : strand.voice = utterance :: rest) :
    (journal.attend owner true [utterance] []).Fair codeOf ∧
      (journal.attend owner true [utterance] []).hearings owner =
        some (hearing.take [(journal.reached, utterance)]) ∧
      (utterance.isEnding = false → (journal.attend owner true [utterance] []).Hears owner
        (utterance.chunks.foldl (fun output chunk => output.push chunk.1 chunk.2) output)
        (hearing.take [(journal.reached, utterance)])) ∧
      (utterance.isEnding = true → (hearing.take [(journal.reached, utterance)]).Yields
        (utterance.chunks.foldl (fun output chunk => output.push chunk.1 chunk.2)
          output).finish) := by
  have account : (journal.attend owner true [utterance] []).account = journal.account :=
    Account.post_nil _ _
  have marks : journal.marks.zip [utterance] = [(journal.reached, utterance)] := by
    rw [follows.marks, voice, numbering, List.zip_cons_cons, List.zip_nil_right]
  have taken : (journal.attend owner true [utterance] []).hearings owner =
      some (hearing.take [(journal.reached, utterance)]) := by
    simp only [Journal.attend, ne_eq, not_true_eq_false, if_false, if_true, hears.found,
      Option.map_some, marks]
  have collected : utterance.chunks.foldl (fun output chunk => output.push chunk.1 chunk.2) output =
      Aggregator.gather (hearing.take [(journal.reached, utterance)]).chunks := by
    rw [Hearing.chunks_take, List.flatMap_singleton, Aggregator.gather_append, hears.collected]
  refine ⟨?_, taken, ?_, ?_⟩
  · intro other found isFound
    rw [account]
    by_cases same : other = owner
    · subst same
      rw [taken] at isFound
      cases isFound
      obtain ⟨code, isCode, holds⟩ := fair other hearing hears.found
      refine ⟨code, isCode, holds.posted, holds.early, ?_⟩
      intro entry member
      rcases List.mem_append.mp member with old | new
      · exact holds.alike entry old
      · rw [List.mem_singleton.mp new]
        exact hears.reached.symm
    · rw [hearings_attend_of_ne journal same] at isFound
      exact fair other found isFound
  · intro goesOn
    refine ⟨taken, ?_, ?_, collected⟩
    · simp only [Journal.attend, endings_singleton, goesOn, Bool.false_eq_true, if_false,
        Nat.add_zero]
      exact hears.reached
    · intro entry member
      rcases List.mem_append.mp member with old | new
      · exact hears.unended entry old
      · rw [List.mem_singleton.mp new]
        exact goesOn
  · intro ended
    rw [collected]
    cases utterance with
    | ending last => exact .completed rfl
    | aside => contradiction
    | output chunk => contradiction
    | request => contradiction

/-- A run that is broken off has a result of what was heard until then. -/
theorem Hears.yields_cut (hears : journal.Hears owner output hearing) {notices : List Chunk}
    (own : ∀ notice ∈ notices, IsApology notice) :
    hearing.Yields
      (notices.foldl (fun output chunk => output.push chunk.1 chunk.2) output).finish := by
  rw [hears.collected, ← Aggregator.gather_append]
  exact .brokenOff own hears.unended

end Attend

/-! ### What becomes of those who submitted code -/

section Fits

variable {stage next : Stage}

theorem Fits.turns (fits : journal.Fits owner stage) (turns : stage.Turns next) :
    journal.Fits owner next := by
  cases turns with
  | stay => exact fits
  | silence => trivial
  | refuse own => exact .inl ⟨fits, _, own, rfl⟩
  | cut output own =>
      obtain ⟨hearing, hears⟩ := fits
      exact .inr ⟨hearing, hears.found, hears.yields_cut own⟩

theorem Fits.drift (fits : journal.Fits owner stage) (account : Account) (left : Nat) :
    (journal.drift account left).Fits owner stage := by
  cases stage with
  | hearing output =>
      obtain ⟨hearing, hears⟩ := fits
      exact ⟨hearing, hears.drift account left⟩
  | unsubmitted => exact fits
  | returned result => exact fits
  | silent => trivial

/-- Somebody who hears nothing goes on as before when the host attends to others. -/
theorem Fits.of_hearings {later : Journal} (fits : journal.Fits owner stage)
    (deaf : ∀ output, stage ≠ .hearing output)
    (same : later.hearings owner = journal.hearings owner) : later.Fits owner stage := by
  cases stage with
  | hearing output => exact absurd rfl (deaf output)
  | unsubmitted => exact same.trans fits
  | returned result =>
      rcases fits with ⟨unheard, refused⟩ | ⟨hearing, found, yields⟩
      · exact .inl ⟨same.trans unheard, refused⟩
      · exact .inr ⟨hearing, same.trans found, yields⟩
  | silent => trivial

end Fits

end Journal

/-! ## Testimonies -/

/-- What came of a call that has a result. -/
structure Testimony where
  /-- Who submitted the code. -/
  owner : Nat
  code : String
  result : RunResult
  /-- What is known of the context that the code was submitted to. -/
  account : Account := {}
  /-- What was taken in; none if the code was not submitted. -/
  hearing : Option Hearing := none

namespace Testimony

/-- The result is made of what was taken in for the code, or tells that the code was not
submitted. -/
def IsExplained (testimony : Testimony) : Prop :=
  match testimony.hearing with
  | none => IsRefusal testimony.result
  | some hearing =>
    hearing.Yields testimony.result ∧ hearing.Holds testimony.account testimony.owner testimony.code

/-- All that was taken in for the code, the last message included, was said for it. -/
def IsApart (testimony : Testimony) : Prop :=
  ∀ hearing, testimony.hearing = some hearing → hearing.IsApart

/-- Every earlier run had told the host its last message when the code was submitted, or
nothing was taken in. -/
def IsTimely (testimony : Testimony) : Prop :=
  ∀ hearing, testimony.hearing = some hearing → hearing.heard = [] ∨ hearing.IsTimely

variable {testimony : Testimony}

theorem IsExplained.isApart_iff (explained : testimony.IsExplained) :
    testimony.IsApart ↔ testimony.IsTimely := by
  obtain ⟨owner, code, result, account, hearing⟩ := testimony
  cases hearing with
  | none =>
      constructor
      · intro _ hearing found
        contradiction
      · intro _ hearing found
        contradiction
  | some hearing =>
      have holds := explained.2
      constructor
      · intro apart other found
        cases found
        exact holds.isApart_iff.mp (apart hearing rfl)
      · intro timely other found
        cases found
        exact holds.isApart_iff.mpr (timely hearing rfl)

end Testimony

end Polyglot
