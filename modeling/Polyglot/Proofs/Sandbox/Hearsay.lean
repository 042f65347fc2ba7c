import Polyglot.Proofs.Sandbox.Deeds

/-!
# What calls of a sandbox executor hear

A chronicle is kept beside an executor: a journal for each of its contexts.  The contexts are
taken to handle their runs in order, and to emit output and requests for input and then one
last message for each; an event in which one would do anything else does not happen.

A call that returns a result made it of what it heard, and it heard what was said for one
run: the first one whose last message had not arrived when the code of the call was
submitted.  That is the run of the call unless an earlier one was given up and had not come
to its end.
-/

namespace Polyglot.Sandbox

/-- The call whose turn an event is. -/
def Place.author? (place : Place) : Event → Option Nat
  | .call _ => some place.executor.calls.length
  | .poll _ number | .launched number _ => some number
  | .abandon _ | .destroy | .context _ _ | .desk _ => none

/-- A place with a journal of each context. -/
structure Chronicle where
  place : Place
  journals : Nat → Journal := fun _ => {}

namespace Chronicle

/-- An executor that nobody has called yet. -/
def fresh (desk : Desk) (language : String) (broker : Nat) : Chronicle where
  place := .fresh desk language broker

/-- Whether the contexts keep to their order in an event. -/
def permits (chronicle : Chronicle) : Event → Bool
  | .context number act =>
    (chronicle.place.executor.contexts[number]?).all fun context =>
      (chronicle.journals number).account.allows SandboxMessage.utterance context act
  | _ => true

/-- The journal of a context after a turn of a call. -/
def observed (chronicle : Chronicle) (author : Nat) (after : Executor) (number : Nat) : Journal :=
  let before := chronicle.place.executor
  if after.slot = some number then
    (chronicle.journals number).observe author (before.stage author)
      (strandOf (before.link number)) (strandOf (after.link number))
      (codesOf (before.link number)) (codesOf (after.link number))
  else chronicle.journals number

/-- The journal of a context after an event. -/
def journalAfter (chronicle : Chronicle) (event : Event) (number : Nat) : Journal :=
  let journal := chronicle.journals number
  match event with
  | .context acting act =>
    if number = acting then
      (chronicle.place.executor.contexts[number]?).elim journal fun context =>
        journal.drift
          (journal.account.act HostMessage.isRun SandboxMessage.utterance context act)
          (strandOf (context.act act)).voice.length
    else journal
  | event =>
    (chronicle.place.author? event).elim journal fun author =>
      chronicle.observed author (chronicle.place.step event).executor number

/-- The chronicle after an event. -/
def step (chronicle : Chronicle) (event : Event) : Chronicle :=
  if chronicle.permits event then
    { place := chronicle.place.step event, journals := chronicle.journalAfter event }
  else chronicle

/-- The chronicle after several events. -/
def run (chronicle : Chronicle) (events : List Event) : Chronicle := events.foldl step chronicle

@[simp] theorem run_nil (chronicle : Chronicle) : chronicle.run [] = chronicle := rfl

@[simp] theorem run_cons (chronicle : Chronicle) (event : Event) (events : List Event) :
    chronicle.run (event :: events) = (chronicle.step event).run events := rfl

/-- A call has submitted nothing to any other context. -/
def OnlyIn (chronicle : Chronicle) (number context : Nat) : Prop :=
  ∀ other, other ≠ context → (chronicle.journals other).hearings number = none

/-- What the journals have to say of a call that is so far. -/
def Fits (chronicle : Chronicle) (number : Nat) : Stage → Prop
  | .unsubmitted => ∀ context, (chronicle.journals context).hearings number = none
  | .hearing output => ∃ context hearing, chronicle.OnlyIn number context ∧
    (chronicle.journals context).Hears number output hearing ∧
      ∀ slot, chronicle.place.executor.slot = some slot → slot = context
  | .returned result =>
    ((∀ context, (chronicle.journals context).hearings number = none) ∧ IsRefusal result) ∨
      ∃ context hearing, chronicle.OnlyIn number context ∧
        (chronicle.journals context).hearings number = some hearing ∧ hearing.Yields result
  | .silent => True

/-- What holds of a chronicle whatever happened in it. -/
structure Sound (chronicle : Chronicle) : Prop where
  coherent : chronicle.place.executor.Coherent
  follows : ∀ number, chronicle.place.executor.CanUse number →
    (chronicle.journals number).Follows (strandOf (chronicle.place.executor.link number))
  fair : ∀ number, (chronicle.journals number).Fair chronicle.place.executor.code?
  fits : ∀ number, chronicle.Fits number (chronicle.place.executor.stage number)

theorem sound_fresh (desk : Desk) (language : String) (broker : Nat) :
    (fresh desk language broker).Sound where
  coherent := Executor.coherent_fresh language broker
  follows _ _ := Journal.follows_empty rfl rfl
  fair _ := Journal.fair_empty _
  fits _ _ := rfl

section Deeds

variable {chronicle : Chronicle} {after : Executor} {number : Nat}

/-- A call that is over or does nothing stays so while nothing is heard. -/
theorem Fits.turns {stage next : Stage} (fits : chronicle.Fits number stage)
    (turns : stage.Turns next) (stays : chronicle.place.executor.Stays after)
    (isStage : chronicle.place.executor.stage number = stage) (desk : Desk) :
    Fits ⟨⟨desk, after⟩, chronicle.journals⟩ number next := by
  cases turns with
  | stay =>
      cases stage with
      | hearing output =>
          obtain ⟨context, hearing, onlyIn, hears, only⟩ := fits
          refine ⟨context, hearing, onlyIn, hears, fun slot kept => ?_⟩
          rcases stays slot kept with was | deaf
          · exact only slot was
          · exact absurd isStage (deaf number output)
      | unsubmitted => exact fits
      | returned result => exact fits
      | silent => trivial
  | silence => trivial
  | refuse own => exact .inl ⟨fits, _, own, rfl⟩
  | cut output own =>
      obtain ⟨context, hearing, onlyIn, hears, -⟩ := fits
      exact .inr ⟨context, hearing, onlyIn, hears.found, hears.yields_cut own⟩

/-- What came of a call stays what it was, unless it hears something. -/
theorem Fits.of_hearings {later : Chronicle} {stage : Stage} (fits : chronicle.Fits number stage)
    (same : ∀ context, (later.journals context).hearings number =
      (chronicle.journals context).hearings number)
    (hears : ∀ output context hearing, stage = .hearing output →
      later.OnlyIn number context → (chronicle.journals context).Hears number output hearing →
      (∀ slot, chronicle.place.executor.slot = some slot → slot = context) →
      later.Fits number (.hearing output)) : later.Fits number stage := by
  have onlyIn {context : Nat} (only : chronicle.OnlyIn number context) :
      later.OnlyIn number context :=
    fun other different => (same other).trans (only other different)
  cases stage with
  | unsubmitted =>
      intro context
      rw [same context]
      exact fits context
  | hearing output =>
      obtain ⟨context, hearing, onlyThere, isHeard, only⟩ := fits
      exact hears output context hearing rfl (onlyIn onlyThere) isHeard only
  | returned result =>
      rcases fits with ⟨unheard, refused⟩ | ⟨context, hearing, onlyThere, found, yields⟩
      · refine .inl ⟨fun context => ?_, refused⟩
        rw [same context]
        exact unheard context
      · refine .inr ⟨context, hearing, onlyIn onlyThere, ?_, yields⟩
        rw [same context]
        exact found
  | silent => trivial

/-- Nothing was submitted or taken in. -/
theorem observed_of_leads (leads : chronicle.place.executor.Leads after) (author : Nat) :
    chronicle.observed author after = chronicle.journals := by
  funext context
  simp only [observed]
  split
  · rename_i kept
    obtain ⟨-, strand, codes⟩ := leads context (.inl kept)
    have gone : (strandOf (chronicle.place.executor.link context)).gone
        (strandOf (after.link context)) = [] := Strand.gone_eq (by rw [strand, List.nil_append])
    rw [Journal.observe, gone, codes, List.drop_length, Journal.attend_nothing]
  · rfl

/-- A call does something that nobody can tell. -/
theorem Sound.pause (sound : chronicle.Sound) (coherent : after.Coherent)
    (pauses : chronicle.place.executor.Pauses number after) (desk : Desk) :
    Sound ⟨⟨desk, after⟩, chronicle.journals⟩ where
  coherent := coherent
  follows context canUse := by
    obtain ⟨couldUse, strand, -⟩ := pauses.leads context canUse
    rw [strand]
    exact sound.follows context couldUse
  fair context := (sound.fair context).mono pauses.spares.code?
  fits other := by
    by_cases same : other = number
    · rw [same]
      exact (sound.fits number).turns pauses.turns pauses.stays rfl desk
    · simp only [pauses.spares.stage other same]
      exact (sound.fits other).turns (.stay _) pauses.stays rfl desk

variable {slot : Nat} {gone : List Utterance} {codes : List String}

theorem observed_of_ne (kept : after.slot = some slot) (author : Nat) {other : Nat}
    (different : other ≠ slot) :
    chronicle.observed author after other = chronicle.journals other := by
  simp only [observed, kept, Option.some.injEq]
  exact if_neg different.symm

theorem observed_self (kept : after.slot = some slot) (author : Nat)
    (voice : (strandOf (chronicle.place.executor.link slot)).voice =
      gone ++ (strandOf (after.link slot)).voice)
    (queued : codesOf (after.link slot) = codesOf (chronicle.place.executor.link slot) ++ codes) :
    chronicle.observed author after slot = (chronicle.journals slot).attend author
      (chronicle.place.executor.stage author).isHearing gone codes := by
  simp only [observed, kept, if_true, Journal.observe]
  rw [Strand.gone_eq voice, queued, List.drop_left]

/-- A turn of a call changes what came of no other. -/
theorem hearings_observed (author : Nat) (context : Nat) {other : Nat}
    (different : other ≠ author) :
    (chronicle.observed author after context).hearings other =
      (chronicle.journals context).hearings other := by
  simp only [observed]
  split
  · exact Journal.hearings_attend_of_ne _ different _ _ _
  · rfl

/-- A call submits code to the context in use or takes something in, and nobody else hears
anything. -/
theorem Sound.attend (sound : chronicle.Sound) (coherent : after.Coherent)
    (spares : chronicle.place.executor.Spares after number)
    (only : chronicle.place.executor.HearsOnly number)
    (canUse : chronicle.place.executor.CanUse slot) (kept : after.slot = some slot)
    (length : chronicle.place.executor.contexts.length ≤ after.contexts.length)
    (voice : (strandOf (chronicle.place.executor.link slot)).voice =
      gone ++ (strandOf (after.link slot)).voice)
    (attached : (strandOf (after.link slot)).attached =
      (strandOf (chronicle.place.executor.link slot)).attached)
    (queued : codesOf (after.link slot) = codesOf (chronicle.place.executor.link slot) ++ codes)
    (fair : (chronicle.observed number after slot).Fair after.code?) (desk : Desk)
    (fits : Fits ⟨⟨desk, after⟩, chronicle.observed number after⟩ number (after.stage number)) :
    Sound ⟨⟨desk, after⟩, chronicle.observed number after⟩ where
  coherent := coherent
  follows context inUse := by
    by_cases same : context = slot
    · subst same
      dsimp only
      rw [observed_self kept number voice queued]
      refine (sound.follows context canUse).attend number _ voice ?_ attached
      simp only [strandOf, queued, List.length_append]
    · have beyond : after.contexts.length ≤ context := by
        rcases inUse with isSlot | beyond
        · rw [kept] at isSlot
          exact absurd (Option.some.inj isSlot).symm same
        · exact beyond
      have before := Nat.le_trans length beyond
      have follows := sound.follows context (.inr before)
      rw [Executor.link_of_length_le before] at follows
      simp only [observed_of_ne kept number same, Executor.link_of_length_le beyond]
      exact follows
  fair context := by
    by_cases same : context = slot
    · rw [same]
      exact fair
    · simp only [observed_of_ne kept number same]
      exact (sound.fair context).mono spares.code?
  fits other := by
    by_cases same : other = number
    · rw [same]
      exact fits
    · simp only [spares.stage other same]
      refine (sound.fits other).of_hearings
        (fun context => hearings_observed number context same) ?_
      intro output context hearing isStage
      exact absurd (only other output isStage) same

/-- A turn of a call leaves a chronicle sound. -/
theorem Sound.deed (sound : chronicle.Sound) (coherent : after.Coherent)
    (deed : chronicle.place.executor.Deed number after) (desk : Desk) :
    Sound ⟨⟨desk, after⟩, chronicle.observed number after⟩ := by
  cases deed with
  | pause pauses =>
      rw [observed_of_leads pauses.leads]
      exact sound.pause coherent pauses desk
  | @submit slot code spares only was stage isCode canUse kept length voice attached queued =>
      have drops : (strandOf (chronicle.place.executor.link slot)).voice =
          (strandOf (chronicle.place.executor.link slot)).voice ++
            (strandOf (after.link slot)).voice := by rw [voice, List.append_nil]
      have journal := observed_self kept number drops queued
      obtain ⟨fair, hears⟩ := (sound.follows slot canUse).hears_submit
        ((sound.fair slot).mono spares.code?) isCode
        (chronicle.place.executor.stage number).isHearing drops
      rw [← journal] at fair hears
      refine sound.attend coherent spares only canUse kept length drops attached queued fair desk ?_
      have before := sound.fits number
      rw [was] at before
      rw [stage]
      refine ⟨slot, _, fun other different => ?_, hears, fun other keptOther => ?_⟩
      · exact (congrArg (·.hearings number) (observed_of_ne kept number different)).trans
          (before other)
      · rw [kept] at keptOther
        exact (Option.some.inj keptOther).symm
  | @hear slot output utterance spares only was stage canUse kept length voice attached queued =>
      have inUse : chronicle.place.executor.slot = some slot := by
        rcases canUse with kept | beyond
        · exact kept
        · rw [Executor.link_of_length_le beyond] at voice
          contradiction
      have takes : (strandOf (chronicle.place.executor.link slot)).voice =
          [utterance] ++ (strandOf (after.link slot)).voice := voice
      have nothing : codesOf (after.link slot) =
          codesOf (chronicle.place.executor.link slot) ++ [] := by rw [queued, List.append_nil]
      have journal := observed_self kept number takes nothing
      rw [was, Stage.isHearing] at journal
      have before := sound.fits number
      rw [was] at before
      obtain ⟨context, hearing, onlyIn, hears, isUsed⟩ := before
      obtain rfl := isUsed slot inUse
      obtain ⟨fair, found, goesOn, ends⟩ := (sound.follows slot canUse).hears_take
        ((sound.fair slot).mono spares.code?) hears voice
      rw [← journal] at fair found goesOn
      refine sound.attend coherent spares only canUse kept length takes attached nothing fair desk ?_
      have onlyStill :
          OnlyIn ⟨⟨desk, after⟩, chronicle.observed number after⟩ number slot := by
        intro other different
        exact (congrArg (·.hearings number) (observed_of_ne kept number different)).trans
          (onlyIn other different)
      rw [stage, Stage.hear]
      cases ending : utterance.isEnding with
      | true => exact .inr ⟨slot, _, onlyStill, found, ends ending⟩
      | false =>
          refine ⟨slot, _, onlyStill, goesOn ending, fun other keptOther => ?_⟩
          rw [kept] at keptOther
          exact (Option.some.inj keptOther).symm

end Deeds

/-! ## Events -/

section Events

variable {chronicle : Chronicle}

/-- The author of an event attends to the context in use. -/
theorem journalAfter_of_author {event : Event} {author : Nat}
    (isAuthor : chronicle.place.author? event = some author) :
    chronicle.journalAfter event =
      chronicle.observed author (chronicle.place.step event).executor := by
  funext number
  cases event with
  | call purpose => cases isAuthor; rfl
  | poll receiver acting => cases isAuthor; rfl
  | launched acting outcome => cases isAuthor; rfl
  | abandon acting => contradiction
  | destroy => contradiction
  | context acting act => contradiction
  | desk desk => contradiction

/-- A turn in which nothing happens leaves a chronicle as it is. -/
theorem journalAfter_of_same {event : Event} {author : Nat}
    (isAuthor : chronicle.place.author? event = some author)
    (same : chronicle.place.step event = chronicle.place) :
    chronicle.journalAfter event = chronicle.journals := by
  rw [journalAfter_of_author isAuthor, same]
  exact observed_of_leads (Executor.leads_congr rfl rfl) author

section Act

variable {acting number : Nat} {deed : Link.Act SandboxMessage} {context : Context}

/-- A context that does something has its journal and its link changed. -/
theorem acts_self (deed : Link.Act SandboxMessage)
    (at_ : chronicle.place.executor.contexts[acting]? = some context) :
    chronicle.journalAfter (.context acting deed) acting =
        (chronicle.journals acting).drift
          ((chronicle.journals acting).account.act HostMessage.isRun SandboxMessage.utterance
            context deed) (strandOf (context.act deed)).voice.length ∧
      (chronicle.place.step (.context acting deed)).executor.link acting = context.act deed := by
  constructor
  · simp only [journalAfter, if_true, at_, Option.elim_some]
  · simp [Place.step, Executor.link, at_]

/-- What a context does is nothing to the others, and one that was not launched does
nothing. -/
theorem acts_other (deed : Link.Act SandboxMessage) (other : number ≠ acting ∨
      chronicle.place.executor.contexts[number]? = none) :
    chronicle.journalAfter (.context acting deed) number = chronicle.journals number ∧
      (chronicle.place.step (.context acting deed)).executor.link number =
        chronicle.place.executor.link number := by
  by_cases same : number = acting
  · subst same
    have nothing := other.resolve_left (fun different => different rfl)
    constructor
    · simp only [journalAfter, if_true, nothing, Option.elim_none]
    · simp [Place.step, Executor.link, nothing]
  · have different : ¬acting = number := fun equal => same equal.symm
    constructor
    · simp only [journalAfter, if_neg same]
    · simp [Place.step, Executor.link, different]

/-- Whatever a journal keeps when something happens behind the host, it keeps. -/
theorem journalAfter_act (keeps : Journal → Prop) (before : keeps (chronicle.journals number))
    (drifts : ∀ context, chronicle.place.executor.contexts[number]? = some context →
      keeps ((chronicle.journals number).drift
        ((chronicle.journals number).account.act HostMessage.isRun SandboxMessage.utterance
          context deed) (strandOf (context.act deed)).voice.length)) :
    keeps (chronicle.journalAfter (.context acting deed) number) := by
  by_cases same : number = acting
  · subst same
    cases at_ : chronicle.place.executor.contexts[number]? with
    | none => rwa [(acts_other deed (.inr at_)).1]
    | some context =>
        rw [(acts_self deed at_).1]
        exact drifts context at_
  · rwa [(acts_other deed (.inl same)).1]

/-- A context does something at its end of the link. -/
theorem Sound.act (sound : chronicle.Sound)
    (permitted : chronicle.permits (.context acting deed) = true) :
    Sound ⟨chronicle.place.step (.context acting deed),
      chronicle.journalAfter (.context acting deed)⟩ where
  coherent := sound.coherent.act deed
  follows number canUse := by
    have couldUse : chronicle.place.executor.CanUse number := by
      simpa [Executor.CanUse, Place.step] using canUse
    have follows := sound.follows number couldUse
    dsimp only
    by_cases same : number = acting
    · subst same
      cases at_ : chronicle.place.executor.contexts[number]? with
      | none =>
          obtain ⟨journal, link⟩ := acts_other deed (.inr at_)
          rw [journal, link]
          exact follows
      | some context =>
          obtain ⟨journal, link⟩ := acts_self deed at_
          have allowed : (chronicle.journals number).account.allows SandboxMessage.utterance
              context deed = true := by simpa [permits, at_] using permitted
          rw [Executor.link_of_getElem? at_] at follows
          rw [journal, link]
          exact follows.drift (drift_act allowed)
    · obtain ⟨journal, link⟩ := acts_other deed (.inl same)
      rw [journal, link]
      exact follows
  fair number := by
    refine journalAfter_act (fun journal => journal.Fair chronicle.place.executor.code?)
      (sound.fair number) fun context at_ => ?_
    exact (sound.fair number).drift (Account.extends_act _ _ _ _ _) _
  fits number := by
    have hearings (context : Nat) :
        (chronicle.journalAfter (.context acting deed) context).hearings =
          (chronicle.journals context).hearings :=
      journalAfter_act (fun journal => journal.hearings = (chronicle.journals context).hearings)
        rfl fun _ _ => rfl
    refine (sound.fits number).of_hearings (fun context => by rw [hearings context]) ?_
    intro output context hearing _ onlyIn hears only
    refine ⟨context, hearing, onlyIn, ?_, only⟩
    exact journalAfter_act (fun journal => journal.Hears number output hearing) hears
      fun _ _ => hears.drift _ _

end Act

/-- An event leaves a chronicle sound. -/
theorem Sound.step (sound : chronicle.Sound) (event : Event) : (chronicle.step event).Sound := by
  have coherent := Place.coherent_step sound.coherent event
  simp only [Chronicle.step]
  split
  · rename_i permitted
    cases event with
    | call purpose =>
        exact sound.deed coherent (Executor.deed_call sound.coherent chronicle.place.desk purpose) _
    | poll receiver number =>
        have isAuthor : chronicle.place.author? (.poll receiver number) = some number := rfl
        cases turned : chronicle.place.executor.turn receiver chronicle.place.desk number with
        | none =>
            have same : chronicle.place.step (.poll receiver number) = chronicle.place := by
              simp only [Place.step, turned]
            rw [journalAfter_of_same isAuthor same, same]
            exact sound
        | some next =>
            have polled : chronicle.place.step (.poll receiver number) = ⟨next.1, next.2⟩ := by
              simp only [Place.step, turned]
            rw [journalAfter_of_author isAuthor, polled]
            rw [polled] at coherent
            exact sound.deed coherent (Executor.deed_turn sound.coherent turned) _
    | launched number outcome =>
        have isAuthor : chronicle.place.author? (.launched number outcome) = some number := rfl
        cases launching : chronicle.place.executor.isLaunching number with
        | false =>
            have same : chronicle.place.step (.launched number outcome) = chronicle.place := by
              simp [Place.step, launching]
            rw [journalAfter_of_same isAuthor same, same]
            exact sound
        | true =>
            obtain ⟨⟨purpose, phase⟩, called, rfl⟩ :=
              Option.map_eq_some_iff.mp (Place.isInside_of_isLaunching launching)
            have isPurpose : (chronicle.place.executor.purpose? number).getD .start = purpose := by
              rw [Executor.purpose?, called, Option.map_some, Option.getD_some]
            have launched : chronicle.place.step (.launched number outcome) =
                ⟨(chronicle.place.executor.launched chronicle.place.desk number purpose outcome).1,
                  (chronicle.place.executor.launched chronicle.place.desk number purpose
                    outcome).2⟩ := by
              simp only [Place.step, launching, if_true, isPurpose]
            rw [journalAfter_of_author isAuthor, launched]
            rw [launched] at coherent
            exact sound.deed coherent (Executor.deed_launched sound.coherent called _ outcome) _
    | abandon number =>
        exact sound.pause coherent (Executor.pauses_abandon _ chronicle.place.desk number) _
    | destroy => exact sound.pause coherent (Executor.pauses_destroy _ chronicle.place.desk 0) _
    | context number act => exact sound.act permitted
    | desk desk => exact ⟨sound.coherent, sound.follows, sound.fair, sound.fits⟩
  · exact sound

/-- A chronicle is sound whatever happens. -/
theorem Sound.run (sound : chronicle.Sound) (events : List Event) :
    (chronicle.run events).Sound := by
  induction events generalizing chronicle with
  | nil => exact sound
  | cons event events ih => exact ih (sound.step event)

end Events

/-! ## Results -/

section Tells

variable {chronicle : Chronicle}

/-- What came of the calls that have results. -/
inductive Tells (chronicle : Chronicle) : Testimony → Prop where
  /-- The code of a call was not submitted to any context. -/
  | unheard {number : Nat} {code : String} {result : RunResult}
      (called : chronicle.place.executor.calls[number]? =
        some ⟨.execute code, .finished (.ok (some result))⟩)
      (unheard : ∀ context, (chronicle.journals context).hearings number = none) :
      Tells chronicle { owner := number, code := Scan.prepareForSandbox code, result }
  /-- The code of a call was submitted to a context. -/
  | heard {number context : Nat} {code : String} {result : RunResult} {hearing : Hearing}
      (called : chronicle.place.executor.calls[number]? =
        some ⟨.execute code, .finished (.ok (some result))⟩)
      (found : (chronicle.journals context).hearings number = some hearing) :
      Tells chronicle
        { owner := number
          code := Scan.prepareForSandbox code
          result
          account := (chronicle.journals context).account
          hearing := some hearing }

theorem Sound.isExplained (sound : chronicle.Sound) {testimony : Testimony}
    (tells : chronicle.Tells testimony) : testimony.IsExplained := by
  have stage {number : Nat} {code : String} {result : RunResult}
      (called : chronicle.place.executor.calls[number]? =
        some ⟨.execute code, .finished (.ok (some result))⟩) :
      chronicle.Fits number (.returned result) := by
    have fits := sound.fits number
    rw [Executor.stage_of_getElem? called] at fits
    exact fits
  cases tells with
  | unheard called unheard =>
      rcases stage called with ⟨-, refused⟩ | ⟨context, hearing, -, found, -⟩
      · exact refused
      · rw [unheard context] at found
        contradiction
  | @heard number context code result hearing called found =>
      rcases stage called with ⟨unheard, -⟩ | ⟨other, heard, onlyIn, isHeard, yields⟩
      · rw [unheard context] at found
        contradiction
      · have same : context = other := by
          apply Decidable.byContradiction
          intro different
          rw [onlyIn context different] at found
          contradiction
        subst same
        rw [found] at isHeard
        cases isHeard
        obtain ⟨submitted, isCode, holds⟩ := sound.fair context number hearing found
        have own : chronicle.place.executor.code? number =
            some (Scan.prepareForSandbox code) := by
          rw [Executor.code?, Executor.purpose?, called]
          rfl
        rw [own] at isCode
        cases isCode
        exact ⟨yields, holds⟩

end Tells

end Chronicle

end Polyglot.Sandbox
