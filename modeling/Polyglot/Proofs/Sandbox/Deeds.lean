import Polyglot.Proofs.Channel.Hearing
import Polyglot.Proofs.Sandbox.Coherence
import Polyglot.Proofs.Sandbox.Run

/-!
# What a turn of a sandbox call comes to

Whatever a call does in a turn, it submits its code to the context in use, takes in the
first message of that context, or does nothing that the context or another call could tell.
-/

namespace Polyglot.Sandbox

/-- How far a call is that stands there. -/
def Phase.stage : Phase → Stage
  | .queued | .launching => .unsubmitted
  | .running output _ => .hearing output
  | .finished (.ok (some result)) => .returned result
  | .finished (.ok none) | .finished (.error _) | .abandoned => .silent

namespace Executor

/-- How far a call is; one that was not made has submitted nothing. -/
def stage (executor : Executor) (number : Nat) : Stage :=
  (executor.phase? number).elim .unsubmitted Phase.stage

/-- What a call submits if it gets that far. -/
def code? (executor : Executor) (number : Nat) : Option String :=
  match executor.purpose? number with
  | some (.execute code) => some (Scan.prepareForSandbox code)
  | some .start | none => none

/-- The link to a context; one that was not launched has nothing on its link. -/
def link (executor : Executor) (number : Nat) : Context := (executor.contexts[number]?).getD {}

/-- Whether a context can be in use now or later. -/
def CanUse (executor : Executor) (number : Nat) : Prop :=
  executor.slot = some number ∨ executor.contexts.length ≤ number

/-- Nothing has happened that a context could tell, which is in use then or later. -/
def Leads (before after : Executor) : Prop :=
  ∀ number, after.CanUse number → before.CanUse number ∧
    strandOf (after.link number) = strandOf (before.link number) ∧
    codesOf (after.link number) = codesOf (before.link number)

/-- What one call does is nothing to the others. -/
structure Spares (before after : Executor) (number : Nat) : Prop where
  stage : ∀ other, other ≠ number → after.stage other = before.stage other
  code? : ∀ other code, before.code? other = some code → after.code? other = some code

/-- Nobody but a call hears anything. -/
def HearsOnly (executor : Executor) (number : Nat) : Prop :=
  ∀ other output, executor.stage other = .hearing output → other = number

/-- The context in use is the one that was in use, unless nobody heard it. -/
def Stays (before after : Executor) : Prop :=
  ∀ slot, after.slot = some slot →
    before.slot = some slot ∨ ∀ other output, before.stage other ≠ .hearing output

/-- What a call does that no context and no other call can tell. -/
structure Pauses (before : Executor) (number : Nat) (after : Executor) : Prop where
  spares : before.Spares after number
  turns : (before.stage number).Turns (after.stage number)
  leads : before.Leads after
  stays : before.Stays after

/-- What a call does in a turn. -/
inductive Deed (before : Executor) (number : Nat) (after : Executor) : Prop where
  | pause (pauses : before.Pauses number after)
  /-- What is on its way from the context is dropped, and code is submitted to it. -/
  | submit {slot : Nat} {code : String} (spares : before.Spares after number)
      (alone : before.HearsOnly number) (was : before.stage number = .unsubmitted)
      (stage : after.stage number = .hearing {}) (isCode : after.code? number = some code)
      (canUse : before.CanUse slot) (kept : after.slot = some slot)
      (length : before.contexts.length ≤ after.contexts.length)
      (voice : (strandOf (after.link slot)).voice = [])
      (attached : (strandOf (after.link slot)).attached = (strandOf (before.link slot)).attached)
      (codes : codesOf (after.link slot) = codesOf (before.link slot) ++ [code])
  /-- The first message of the context is taken in. -/
  | hear {slot : Nat} {output : Aggregator} {utterance : Utterance}
      (spares : before.Spares after number) (alone : before.HearsOnly number)
      (was : before.stage number = .hearing output)
      (stage : after.stage number = .hear output utterance)
      (canUse : before.CanUse slot) (kept : after.slot = some slot)
      (length : before.contexts.length ≤ after.contexts.length)
      (voice : (strandOf (before.link slot)).voice =
        utterance :: (strandOf (after.link slot)).voice)
      (attached : (strandOf (after.link slot)).attached = (strandOf (before.link slot)).attached)
      (codes : codesOf (after.link slot) = codesOf (before.link slot))

variable {executor middle after : Executor} {number other : Nat} {phase : Phase}
  {purpose : Purpose}

/-! ## Steps that nobody else can tell -/

section Leads

theorem leads_congr (slot : after.slot = executor.slot)
    (contexts : after.contexts = executor.contexts) : executor.Leads after := by
  intro number canUse
  simp only [CanUse, slot, contexts] at canUse
  simp only [link, contexts, and_self, and_true]
  exact canUse

theorem stays_congr (slot : after.slot = executor.slot) : executor.Stays after :=
  fun _ kept => .inl (slot ▸ kept)

theorem stays_of_unused (slot : after.slot = none) : executor.Stays after := by
  intro number kept
  rw [slot] at kept
  contradiction

theorem Leads.trans (left : executor.Leads middle) (right : middle.Leads after) :
    executor.Leads after := by
  intro number canUse
  obtain ⟨couldUse, strand, codes⟩ := right number canUse
  obtain ⟨began, strandBefore, codesBefore⟩ := left number couldUse
  exact ⟨began, strand.trans strandBefore, codes.trans codesBefore⟩

theorem link_of_getElem? {slot : Nat} {context : Context}
    (found : executor.contexts[slot]? = some context) : executor.link slot = context := by
  rw [link, found, Option.getD_some]

@[simp] theorem length_setContext (executor : Executor) (context : Context) :
    (executor.setContext context).contexts.length = executor.contexts.length := by
  simp only [setContext]
  split
  · rfl
  · exact List.length_set

theorem link_of_length_le {number : Nat} (beyond : executor.contexts.length ≤ number) :
    executor.link number = {} := by
  rw [link, List.getElem?_eq_none beyond, Option.getD_none]

/-- Contexts that can only be used later have nothing on their links. -/
theorem leads_of_unused (slot : after.slot = none)
    (length : executor.contexts.length ≤ after.contexts.length) : executor.Leads after := by
  intro number canUse
  have beyond : after.contexts.length ≤ number := by
    rcases canUse with kept | beyond
    · rw [slot] at kept
      contradiction
    · exact beyond
  have before := Nat.le_trans length beyond
  rw [link_of_length_le beyond, link_of_length_le before]
  exact ⟨.inr before, rfl, rfl⟩

theorem leads_release (executor : Executor) : executor.Leads executor.release :=
  leads_of_unused executor.slot_release (Nat.le_of_eq executor.length_contexts_release.symm)

/-- The link to a context has changed in a way that the host cannot tell. -/
theorem leads_setContext {slot : Nat} {context next : Context} (kept : executor.slot = some slot)
    (found : executor.contexts[slot]? = some context) (strand : strandOf next = strandOf context)
    (codes : codesOf next = codesOf context) : executor.Leads (executor.setContext next) := by
  intro number canUse
  simp only [CanUse, slot_setContext, length_setContext] at canUse
  refine ⟨canUse, ?_⟩
  by_cases same : number = slot
  · rw [same, link_of_getElem? (getElem?_setContext kept found next), link_of_getElem? found]
    exact ⟨strand, codes⟩
  · have different : slot ≠ number := fun equal => same equal.symm
    have linked : (executor.setContext next).link number = executor.link number := by
      rw [link, contexts_setContext_of kept, List.getElem?_set_ne different, link]
    rw [linked]
    exact ⟨rfl, rfl⟩

theorem leads_adopt (executor : Executor) : executor.Leads executor.adopt := by
  intro number canUse
  have length : executor.adopt.contexts.length = executor.contexts.length + 1 := by
    simp [adopt]
  have before : executor.contexts.length ≤ number := by
    simp only [CanUse, slot_adopt, Option.some.injEq, length] at canUse
    omega
  have fresh : executor.adopt.link number = {} := by
    by_cases beyond : executor.adopt.contexts.length ≤ number
    · exact link_of_length_le beyond
    · have isLast : number = executor.contexts.length := by omega
      simp [link, adopt, isLast]
  rw [fresh, link_of_length_le before]
  exact ⟨.inr before, rfl, rfl⟩

end Leads

section Stages

theorem stage_congr (calls : after.calls = executor.calls) : after.stage = executor.stage := by
  funext number
  simp only [stage, phase?_congr calls]

theorem code?_congr (calls : after.calls = executor.calls) : after.code? = executor.code? := by
  funext number
  simp only [code?, purpose?, calls]

theorem stage_of_getElem? {call : Call} (called : executor.calls[number]? = some call) :
    executor.stage number = call.phase.stage := by
  rw [stage, phase?_of_getElem? called, Option.elim_some]

theorem stage_setPhase_self (called : executor.calls[number]? = some ⟨purpose, phase⟩)
    (next : Phase) : (executor.setPhase number next).stage number = next.stage := by
  simp only [stage, phase?_setPhase, if_true, phase?_of_getElem? called, Option.map_some,
    Option.elim_some]

theorem spares_setPhase (executor : Executor) (number : Nat) (next : Phase) :
    executor.Spares (executor.setPhase number next) number where
  stage other different := by simp only [stage, phase?_setPhase, if_neg different]
  code? other code isCode := by
    have same : (executor.setPhase number next).purpose? other = executor.purpose? other := by
      simp only [purpose?, setPhase, List.getElem?_modify]
      split <;> cases executor.calls[other]? <;> rfl
    simpa only [Executor.code?, same] using isCode

theorem Spares.trans (left : executor.Spares middle number) (right : middle.Spares after number) :
    executor.Spares after number where
  stage other different := (right.stage other different).trans (left.stage other different)
  code? other code isCode := right.code? other code (left.code? other code isCode)

theorem spares_congr (calls : after.calls = executor.calls) (number : Nat) :
    executor.Spares after number where
  stage other _ := congrFun (stage_congr calls) other
  code? other code isCode := by rwa [code?_congr calls]

theorem hearsOnly_congr (only : executor.HearsOnly number) (calls : after.calls = executor.calls) :
    after.HearsOnly number := by
  intro other output hears
  rw [stage_congr calls] at hears
  exact only other output hears

/-- Whoever holds the lock is the only one who can hear anything. -/
theorem Coherent.hearsOnly (coherent : executor.Coherent)
    (held : executor.lock.holder = some number) : executor.HearsOnly number := by
  intro other output hears
  simp only [stage] at hears
  cases found : executor.phase? other with
  | none =>
      rw [found] at hears
      contradiction
  | some phase =>
      rw [found, Option.elim_some] at hears
      have inside : phase.isInside = true := by
        cases phase with
        | running collected pending => rfl
        | queued => contradiction
        | launching => contradiction
        | abandoned => contradiction
        | finished outcome => rcases outcome with cause | (_ | result) <;> contradiction
      have holds := coherent.holder_of_inside found inside
      rw [held] at holds
      exact (Option.some.inj holds).symm

end Stages

/-- What was done after nothing that could be told was done in one go. -/
theorem Deed.of_leads (deed : middle.Deed number after) (spares : executor.Spares middle number)
    (same : middle.stage number = executor.stage number) (leads : executor.Leads middle)
    (stays : executor.Stays middle) (length : executor.contexts.length ≤ middle.contexts.length) :
    executor.Deed number after := by
  have stage (other : Nat) : middle.stage other = executor.stage other := by
    by_cases isNumber : other = number
    · rw [isNumber, same]
    · exact spares.stage other isNumber
  have alone (only : middle.HearsOnly number) : executor.HearsOnly number := by
    intro other output hears
    exact only other output ((stage other).trans hears)
  cases deed with
  | pause pauses =>
      refine .pause ⟨spares.trans pauses.spares, same ▸ pauses.turns, leads.trans pauses.leads, ?_⟩
      intro slot kept
      rcases pauses.stays slot kept with was | deaf
      · exact stays slot was
      · exact .inr fun other output hears => deaf other output ((stage other).trans hears)
  | @submit slot code sparesOn only was stage isCode canUse kept longer voice attached codes =>
      obtain ⟨couldUse, strand, queued⟩ := leads slot canUse
      exact .submit (spares.trans sparesOn) (alone only) (same ▸ was) stage isCode couldUse kept
        (Nat.le_trans length longer) voice (attached.trans (congrArg Strand.attached strand))
        (queued ▸ codes)
  | @hear slot output utterance sparesOn only was stage canUse kept longer voice attached codes =>
      obtain ⟨couldUse, strand, queued⟩ := leads slot canUse
      exact .hear (spares.trans sparesOn) (alone only) (same ▸ was) stage couldUse kept
        (Nat.le_trans length longer) (strand ▸ voice)
        (attached.trans (congrArg Strand.attached strand)) (codes.trans queued)

/-! ## The ends of a call -/

section Ends

variable {desk desk' : Desk} {output : Aggregator}

/-- A call goes to a phase, and nothing else happens. -/
theorem deed_setPhase (executor : Executor)
    (called : executor.calls[number]? = some ⟨purpose, phase⟩) (next : Phase)
    (turns : phase.stage.Turns next.stage) :
    executor.Deed number (executor.setPhase number next) := by
  refine .pause ⟨executor.spares_setPhase number next, ?_, leads_congr rfl rfl, stays_congr rfl⟩
  rw [stage_setPhase_self called, stage_of_getElem? called]
  exact turns

/-- A call is over, and nothing else happens. -/
theorem deed_finish (executor : Executor)
    (called : executor.calls[number]? = some ⟨purpose, phase⟩)
    {outcome : Except SandboxError (Option RunResult)}
    (turns : phase.stage.Turns (Phase.finished outcome).stage) :
    executor.Deed number (executor.finish number outcome) := by
  have finished := executor.calls_finish number outcome
  refine .pause ⟨(executor.spares_setPhase number _).trans (spares_congr finished number), ?_,
    leads_congr rfl rfl, stays_congr rfl⟩
  rw [stage_congr finished, stage_setPhase_self called, stage_of_getElem? called]
  exact turns

/-- A host that has lost a context adds that it is lost. -/
theorem output_contextLost (output : Aggregator) :
    Ending.contextLost.output output =
      [(Stream.stderr, "Sandbox context terminated unexpectedly")].foldl
        (fun output chunk => output.push chunk.1 chunk.2) output :=
  rfl

theorem isApology_contextLost :
    ∀ notice ∈ [(Stream.stderr, "Sandbox context terminated unexpectedly")], IsApology notice := by
  intro notice member
  rw [List.mem_singleton.mp member]
  exact .contextLost

/-- A run comes to its end without its last message, and the context is let go. -/
theorem deed_cut (ready : Executor) (same : ready.calls = executor.calls)
    (length : executor.contexts.length ≤ ready.contexts.length)
    (called : executor.calls[number]? = some ⟨purpose, phase⟩) (desk : Desk) {ending : Ending}
    (uncompleted : ending ≠ .completed)
    (turns : phase.stage.Turns (.returned (ending.output output).finish)) :
    executor.Deed number (conclude desk ready number output ending).2 := by
  have released {after : Executor} (calls : after.calls =
        (executor.setPhase number (.finished (.ok (some (ending.output output).finish)))).calls)
      (slot : after.slot = none) (longer : executor.contexts.length ≤ after.contexts.length) :
      executor.Deed number after := by
    refine .pause ⟨(executor.spares_setPhase number _).trans (spares_congr calls number), ?_,
      leads_of_unused slot longer, stays_of_unused slot⟩
    rw [stage_congr calls, stage_setPhase_self called, stage_of_getElem? called]
    exact turns
  cases ending with
  | completed => contradiction
  | contextLost =>
      refine released ?_ (by simp [conclude]) (by simpa [conclude] using length)
      simp [conclude, finish, setPhase, Ending.output, same]
  | destroyed =>
      refine released ?_ (by simp [conclude]) (by simpa [conclude] using length)
      simp [conclude, finish, setPhase, Ending.output, same]

end Ends

/-! ## Giving up -/

/-- The caller of a call goes away. -/
theorem pauses_abandon (executor : Executor) (desk : Desk) (number : Nat) :
    executor.Pauses number (executor.abandon desk number).2 := by
  simp only [abandon]
  split
  · exact ⟨spares_congr rfl number, .stay _, leads_congr rfl rfl, stays_congr rfl⟩
  · have left (lock : Lock) : Spares (executor.setPhase number .abandoned)
        { executor.setPhase number .abandoned with lock } number :=
      ⟨fun _ _ => rfl, fun _ _ isCode => isCode⟩
    refine ⟨(executor.spares_setPhase number .abandoned).trans (left _), ?_, leads_congr rfl rfl,
      stays_congr rfl⟩
    have leaves (lock : Lock) : stage { executor.setPhase number .abandoned with lock } number =
        (executor.setPhase number .abandoned).stage number := rfl
    rw [leaves]
    cases called : executor.calls[number]? with
    | none =>
        have unmade :
            (executor.setPhase number .abandoned).stage number = executor.stage number := by
          simp [stage, phase?, setPhase, called]
        rw [unmade]
        exact .stay _
    | some call =>
        rw [stage_setPhase_self called]
        exact .silence _

/-- The executor is destroyed, and a context that nobody attends to is let go. -/
theorem pauses_destroy (executor : Executor) (desk : Desk) (number : Nat) :
    executor.Pauses number (executor.destroy desk).2 := by
  have pauses {after : Executor} (calls : after.calls = executor.calls)
      (leads : executor.Leads after) (stays : executor.Stays after) :
      executor.Pauses number after := by
    refine ⟨spares_congr calls number, ?_, leads, stays⟩
    rw [stage_congr calls]
    exact .stay _
  simp only [destroy]
  split
  · exact pauses rfl (leads_congr rfl rfl) (stays_congr rfl)
  · dsimp only
    split
    · exact pauses (by simp) (leads_of_unused (by simp) (by simp)) (stays_of_unused (by simp))
    · exact pauses rfl (leads_congr rfl rfl) (stays_congr rfl)

/-! ## Submitting code -/

section Submit

variable {desk desk' : Desk} {code : String} {slot : Nat} {context next : Context}

/-- Code is sent after what was on its way to the host is dropped. -/
theorem strandOf_submit (sent : context.drain.hostSend? (.executeCode code) = some next) :
    (strandOf next).voice = [] ∧ (strandOf next).attached = (strandOf context).attached ∧
      codesOf next = codesOf context ++ [code] := by
  simp only [Link.hostSend?] at sent
  split at sent
  · cases sent
    exact ⟨rfl, rfl, by simp [codesOf, Link.drain, HostMessage.code?]⟩
  · contradiction

theorem code?_of_getElem? (called : executor.calls[number]? = some ⟨.execute code, phase⟩) :
    executor.code? number = some (Scan.prepareForSandbox code) := by
  simp only [code?, purpose?, called, Option.map_some]

/-- A call with code has a context. -/
theorem deed_submit (executor : Executor)
    (called : executor.calls[number]? = some ⟨.execute code, phase⟩)
    (unsubmitted : phase.stage = .unsubmitted) (only : executor.HearsOnly number) (desk : Desk) :
    executor.Deed number (submit desk executor number code).2 := by
  simp only [submit]
  split
  · exact executor.deed_finish called (.silence _)
  · rename_i context inUse
    obtain ⟨slot, kept, found⟩ := context?_eq_some.mp inUse
    split
    · refine deed_cut _ ?_ ?_ called _ (by decide) ?_
      · rw [calls_transition, calls_setContext]
      · simp
      · rw [unsubmitted, output_contextLost]
        exact .refuse .contextLost
    · rename_i next sent
      obtain ⟨voice, attached, codes⟩ := strandOf_submit sent
      generalize isReady : (executor.setContext context.drain).transition .executing = ready
      have calls : (ready.setContext next).calls = executor.calls := by
        rw [calls_setContext, ← isReady, calls_transition, calls_setContext]
      have keptReady : ready.slot = some slot := by
        rw [← isReady, slot_transition, slot_setContext, kept]
      have foundReady : ready.contexts[slot]? = some context.drain := by
        rw [← isReady, contexts_transition, getElem?_setContext kept found]
      have length : executor.contexts.length ≤ (ready.setContext next).contexts.length := by
        simp [← isReady]
      have linked : ((ready.setContext next).setPhase number (.running {} [])).link slot = next :=
        link_of_getElem? (getElem?_setContext keptReady foundReady next)
      have calledNow : (ready.setContext next).calls[number]? = some ⟨.execute code, phase⟩ := by
        rw [calls, called]
      have spares := spares_setPhase (ready.setContext next) number (.running {} [])
      have isCode := spares.code? number _ (code?_of_getElem? calledNow)
      refine .submit ((spares_congr calls number).trans spares) only ?_ ?_ isCode (.inl kept) ?_
        length ?_ ?_ ?_
      · rw [stage_of_getElem? called]
        exact unsubmitted
      · rw [stage_setPhase_self calledNow]
        rfl
      · rw [slot_setPhase, slot_setContext, keptReady]
      · rw [linked, voice]
      · rw [linked, attached, link_of_getElem? found]
      · rw [linked, codes, link_of_getElem? found]

theorem deed_proceed (executor : Executor)
    (called : executor.calls[number]? = some ⟨purpose, phase⟩)
    (unsubmitted : phase.stage = .unsubmitted) (only : executor.HearsOnly number) (desk : Desk) :
    executor.Deed number (proceed desk executor number purpose).2 := by
  cases purpose with
  | start => exact executor.deed_finish called (.silence _)
  | execute code => exact executor.deed_submit called unsubmitted only desk

theorem deed_turnQueued (coherent : executor.Coherent)
    (called : executor.calls[number]? = some ⟨purpose, .queued⟩)
    (turned : turnQueued desk executor number purpose = some (desk', after)) :
    executor.Deed number after := by
  simp only [turnQueued] at turned
  split at turned
  · contradiction
  · rename_i held
    have holds : executor.lock.holder = some number := by simpa using held
    split at turned
    · cases turned
      exact executor.deed_finish called (.silence _)
    · split at turned
      · have deed := executor.deed_proceed called rfl (coherent.hearsOnly holds) desk
        rw [Option.some.inj turned] at deed
        exact deed
      · cases turned
        have calls := calls_transition executor .initializing
        have calledNow : (executor.transition .initializing).calls[number]? =
            some ⟨purpose, .queued⟩ := by rw [calls, called]
        refine (deed_setPhase _ calledNow .launching (.stay .unsubmitted)).of_leads
          (spares_congr calls number) (congrFun (stage_congr calls) number) ?_
          (stays_congr (slot_transition _ _)) (by simp)
        exact leads_congr (slot_transition _ _) (contexts_transition _ _)

/-- A call that was not made yet has submitted nothing. -/
theorem stage_length (executor : Executor) :
    executor.stage executor.calls.length = .unsubmitted := by
  simp [stage, phase?]

theorem spares_withCall (executor : Executor) (purpose : Purpose) (phase : Phase) :
    executor.Spares (executor.withCall purpose phase) executor.calls.length where
  stage other different := by simp only [stage, phase?_withCall, if_neg different]
  code? other code isCode := by
    have inside : other < executor.calls.length := by
      apply Nat.lt_of_not_le
      intro beyond
      simp [Executor.code?, purpose?, List.getElem?_eq_none beyond] at isCode
    have same : (executor.withCall purpose phase).purpose? other = executor.purpose? other := by
      simp only [purpose?, withCall, List.getElem?_append_left inside]
    simpa only [Executor.code?, same] using isCode

theorem deed_call (coherent : executor.Coherent) (desk : Desk) (purpose : Purpose) :
    executor.Deed executor.calls.length (executor.call desk purpose).2.1 := by
  have called (phase : Phase) :
      (executor.withCall purpose phase).calls[executor.calls.length]? = some ⟨purpose, phase⟩ :=
    List.getElem?_concat_length
  rcases executor.call_eq desk purpose with ⟨outcome, -, isOutcome, made⟩ | ⟨turned, first, made⟩
  · rw [made]
    refine .pause ⟨executor.spares_withCall purpose _, ?_, leads_congr rfl rfl, stays_congr rfl⟩
    rw [stage_of_getElem? (called _), stage_length]
    rcases isOutcome with rfl | rfl <;> exact .silence _
  · rw [made, first]
    have asks : (executor.ask purpose).calls = (executor.withCall purpose .queued).calls := rfl
    have spares : executor.Spares (executor.ask purpose) executor.calls.length :=
      (executor.spares_withCall purpose .queued).trans (spares_congr asks _)
    have stage : (executor.ask purpose).stage executor.calls.length = .unsubmitted :=
      stage_of_getElem? (called .queued)
    have asked : executor.Deed executor.calls.length (executor.ask purpose) := by
      refine .pause ⟨spares, ?_, leads_congr rfl rfl, stays_congr rfl⟩
      rw [stage, stage_length]
      exact .stay _
    cases turn : turnQueued desk (executor.ask purpose) executor.calls.length purpose with
    | none => exact asked
    | some next =>
        exact (deed_turnQueued (coherent.ask purpose) (called .queued) turn).of_leads spares
          (stage.trans executor.stage_length.symm) (leads_congr rfl rfl) (stays_congr rfl)
          (Nat.le_refl _)

/-- The launch that a call waits for has an outcome. -/
theorem deed_launched (coherent : executor.Coherent)
    (called : executor.calls[number]? = some ⟨purpose, .launching⟩) (desk : Desk)
    (outcome : Except TransportError Unit) :
    executor.Deed number (launched desk executor number purpose outcome).2 := by
  have held := coherent.holder_of_inside (phase?_of_getElem? called) rfl
  cases outcome with
  | ok =>
      have calls : (executor.adopt.transition .ready).calls = executor.calls := by
        rw [calls_transition, calls_adopt]
      have only := coherent.hearsOnly held
      have deaf : ∀ other output, executor.stage other ≠ .hearing output := by
        intro other output hears
        rw [only other output hears, stage_of_getElem? called] at hears
        contradiction
      refine (deed_proceed (executor.adopt.transition .ready) (by rw [calls, called]) rfl
        (hearsOnly_congr only calls) desk).of_leads (spares_congr calls number)
        (congrFun (stage_congr calls) number) ?_ (fun _ _ => .inr deaf) (by simp [adopt])
      exact executor.leads_adopt.trans (leads_congr (slot_transition _ _) (contexts_transition _ _))
  | error cause =>
      have calls : (executor.release.transition .unstarted).calls = executor.calls := by
        rw [calls_transition, calls_release]
      refine (deed_finish (executor.release.transition .unstarted) (by rw [calls, called])
        (.silence _)).of_leads (spares_congr calls number) (congrFun (stage_congr calls) number) ?_
        (stays_of_unused (by simp)) (by simp)
      exact executor.leads_release.trans
        (leads_congr (slot_transition _ _) (contexts_transition _ _))

end Submit

/-! ## Code that runs -/

section Running

variable {desk desk' : Desk} {receiver : String → Option Nat} {output : Aggregator}
  {pending : List Nat} {slot : Nat} {context : Context}

/-- A run takes in what its context said first. -/
theorem deed_receive {message : SandboxMessage} {rest : List SandboxMessage}
    (called : executor.calls[number]? = some ⟨purpose, .running output pending⟩)
    (only : executor.HearsOnly number) (kept : executor.slot = some slot)
    (found : executor.contexts[slot]? = some context) (queue : context.toHost = message :: rest)
    (receiver : String → Option Nat) (desk : Desk) :
    executor.Deed number
      (receive receiver desk (executor.setContext { context with toHost := rest })
        number output pending message).2 := by
  generalize isHeard : executor.setContext { context with toHost := rest } = heard
  have calls : heard.calls = executor.calls := by rw [← isHeard, calls_setContext]
  have calledNow : heard.calls[number]? = some ⟨purpose, .running output pending⟩ := by
    rw [calls, called]
  have hears {after : Executor} (phase : Phase) (same : after.calls =
        (heard.setPhase number phase).calls) (keptAfter : after.slot = heard.slot)
      (contexts : after.contexts = heard.contexts)
      (stage : phase.stage = .hear output message.utterance) : executor.Deed number after := by
    have linked : after.link slot = { context with toHost := rest } := by
      refine link_of_getElem? ?_
      rw [contexts, ← isHeard, getElem?_setContext kept found]
    have goes : after.stage number = .hear output message.utterance := by
      rw [stage_congr same, stage_setPhase_self calledNow, stage]
    refine .hear ?_ only (stage_of_getElem? called) goes (.inl kept) ?_ ?_ ?_ ?_ ?_
    · exact ((spares_congr calls number).trans (spares_setPhase heard number phase)).trans
        (spares_congr same number)
    · rw [keptAfter, ← isHeard, slot_setContext, kept]
    · simp [contexts, ← isHeard]
    · rw [linked, link_of_getElem? found]
      exact strandOf_take queue
    · rw [linked, link_of_getElem? found]
      rfl
    · rw [linked, link_of_getElem? found]
      rfl
  cases message with
  | stdout data => exact hears (.running (output.push .stdout data) pending) rfl rfl rfl rfl
  | stderr data => exact hears (.running (output.push .stderr data) pending) rfl rfl rfl rfl
  | inputRequest prompt => exact hears (.running output (pending ++ [_])) rfl rfl rfl rfl
  | executionComplete =>
      exact hears (.finished (.ok (some output.finish)))
        (by simp [receive, conclude, finish, setPhase]) (slot_transition heard .ready)
        (contexts_transition heard .ready) rfl

theorem deed_turnRunning (coherent : executor.Coherent)
    (called : executor.calls[number]? = some ⟨purpose, .running output pending⟩)
    (turned : turnRunning receiver desk executor number output pending = some (desk', after)) :
    executor.Deed number after := by
  have held := coherent.holder_of_inside (phase?_of_getElem? called) rfl
  have lost (desk : Desk) : executor.Deed number
      (conclude desk executor number output .contextLost).2 := by
    refine deed_cut executor rfl (Nat.le_refl _) called desk (by decide) ?_
    rw [output_contextLost]
    exact .cut output isApology_contextLost
  simp only [turnRunning] at turned
  split at turned
  · have deed : executor.Deed number (conclude desk executor number output .destroyed).2 := by
      have nothing : ∀ notice ∈ ([] : List Chunk), IsApology notice :=
        fun notice member => absurd member List.not_mem_nil
      have turns := Stage.Turns.cut output nothing
      rw [List.foldl_nil] at turns
      exact deed_cut executor rfl (Nat.le_refl _) called desk (by decide) turns
    rw [Option.some.inj turned] at deed
    exact deed
  · split at turned
    · have deed := lost desk
      rw [Option.some.inj turned] at deed
      exact deed
    · rename_i context inUse
      obtain ⟨slot, kept, found⟩ := context?_eq_some.mp inUse
      split at turned
      · rename_i message next received
        obtain ⟨rest, queue, rfl⟩ := Link.hostReceive_message received
        have deed := deed_receive called (coherent.hearsOnly held) kept found queue receiver desk
        rw [Option.some.inj turned] at deed
        exact deed
      · have deed := lost desk
        rw [Option.some.inj turned] at deed
        exact deed
      · cases pending with
        | nil => contradiction
        | cons ticket rest =>
            simp only [answer] at turned
            obtain ⟨value, -, turned⟩ := Option.bind_eq_some_iff.mp turned
            split at turned
            · have deed := lost (desk.modify executor.broker (·.take ticket))
              rw [Option.some.inj turned] at deed
              exact deed
            · rename_i next sent
              cases turned
              obtain ⟨strand, codes⟩ := strandOf_hostSend? rfl sent
              have calls := calls_setContext executor next
              have calledNow : (executor.setContext next).calls[number]? =
                  some ⟨purpose, .running output (ticket :: rest)⟩ := by rw [calls, called]
              refine (deed_setPhase _ calledNow (.running output rest) (.stay _)).of_leads
                (spares_congr calls number) (congrFun (stage_congr calls) number) ?_
                (stays_congr (slot_setContext _ _)) (by simp)
              exact leads_setContext kept found strand codes

/-- Whatever a call does in a turn is one of its deeds. -/
theorem deed_turn (coherent : executor.Coherent)
    (turned : executor.turn receiver desk number = some (desk', after)) :
    executor.Deed number after := by
  simp only [turn] at turned
  obtain ⟨⟨purpose, phase⟩, called, turned⟩ := Option.bind_eq_some_iff.mp turned
  cases phase with
  | queued => exact deed_turnQueued coherent called turned
  | running output pending => exact deed_turnRunning coherent called turned
  | launching => contradiction
  | finished outcome => contradiction
  | abandoned => contradiction

end Running

end Executor

end Polyglot.Sandbox
