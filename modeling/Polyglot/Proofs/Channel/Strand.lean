import Polyglot.Proofs.Channel.Account
import Polyglot.Proofs.Channel.Context

/-!
# Strands

A strand is what lies between the host and a context: runs on their way to the context,
and what the context has said and the host has not taken in.

Before a run is submitted the strand has to be quiet: every earlier run has come to its
end, and everything that was said for it was taken in.  Then what the host takes in
until the last message of the run was emitted for that run.
-/

namespace Polyglot

namespace Account

variable {Out In : Type}

/-- The account when the context does something at its end of a link: it receives a run,
or it says something while it is there. -/
def act (account : Account) (isRun : Out → Bool) (utterance : In → Utterance)
    (link : Link Out In) : Link.Act In → Account
  | .say message => if link.contextOpen then account.say (utterance message) else account
  | .listen => if link.toContext.head?.any isRun then account.take else account
  | .leave => account

/-- Whether a context that handles its runs in order can do something at its end of a
link. -/
def allows (account : Account) (utterance : In → Utterance) (link : Link Out In) :
    Link.Act In → Bool
  | .say message => !link.contextOpen || account.permits (utterance message)
  | .listen | .leave => true

theorem extends_act (account : Account) (isRun : Out → Bool) (utterance : In → Utterance)
    (link : Link Out In) (act : Link.Act In) :
    account.Extends (account.act isRun utterance link act) := by
  cases act with
  | say message =>
      simp only [Account.act]
      split
      · exact account.extends_say _
      · exact .refl account
  | listen =>
      simp only [Account.act]
      split
      · exact account.extends_take
      · exact .refl account
  | leave => exact .refl account

end Account

/-- What lies between the host and a context. -/
structure Strand where
  /-- How many runs are on their way to the context. -/
  queued : Nat
  /-- What the context has said and the host has not taken in, asides apart. -/
  voice : List Utterance
  /-- Whether what the context says can still reach the host. -/
  attached : Bool

namespace Strand

/-- Every run has come to its end, and nothing that was said is on its way. -/
structure Quiet (strand : Strand) (account : Account) : Prop where
  balances : account.Balances strand.queued
  rested : account.ended = account.posted.length
  silent : strand.voice = []

/-- The last run that was submitted is somebody's, the earlier ones have come to their
end, and everything on its way to the host was said for the last run.  The host has
heard so much of it. -/
structure Busy (strand : Strand) (account : Account) (owner : Nat) (code : String)
    (heard : List Chunk) : Prop where
  balances : account.Balances strand.queued
  posted : account.posted[account.posted.length - 1]? = some (owner, code)
  alone : account.posted.length ≤ account.ended + 1
  /-- The last message is said last. -/
  speech : ∃ body, (∀ utterance ∈ body, utterance.isEnding = false) ∧
    (strand.voice = body ∨
      ∃ last, strand.voice = body ++ [.ending last] ∧ account.ended = account.posted.length)
  inOrder : heard ++ strand.voice.flatMap Utterance.chunks <+:
    account.emittedFor (account.posted.length - 1)
  /-- Nothing gets lost while the context can reach the host. -/
  whole : strand.attached = true → heard ++ strand.voice.flatMap Utterance.chunks =
    account.emittedFor (account.posted.length - 1)

/-- Messages move on, or the last of them get lost, and then nothing more reaches the
host. -/
structure Fades (before after : Strand) : Prop where
  queued : after.queued ≤ before.queued
  voice : after.voice <+: before.voice
  attached : after.attached = true → before.attached = true ∧ after.voice = before.voice

theorem Fades.refl (strand : Strand) : strand.Fades strand :=
  ⟨Nat.le_refl _, List.prefix_rfl, fun attached => ⟨attached, rfl⟩⟩

theorem Fades.trans {first second third : Strand} (left : first.Fades second)
    (right : second.Fades third) : first.Fades third where
  queued := Nat.le_trans right.queued left.queued
  voice := right.voice.trans left.voice
  attached reaches := by
    obtain ⟨reached, same⟩ := right.attached reaches
    obtain ⟨began, alike⟩ := left.attached reached
    exact ⟨began, same.trans alike⟩

/-- What can happen to a strand and an account without the host taking anything in. -/
inductive Drift (before : Strand) (account : Account) (after : Strand) : Account → Prop where
  | fade (fades : before.Fades after) : Drift before account after account
  /-- The context receives a run. -/
  | take (queued : after.queued + 1 ≤ before.queued) (voice : after.voice = before.voice)
      (attached : after.attached = before.attached) : Drift before account after account.take
  /-- The context says something. -/
  | say {utterance : Utterance} (permitted : account.permits utterance = true)
      (queued : after.queued = before.queued)
      (voice : after.voice = before.voice ++
        if before.attached && !utterance.isAside then [utterance] else [])
      (attached : after.attached = before.attached) :
      Drift before account after (account.say utterance)

theorem Drift.refl (strand : Strand) (account : Account) : Drift strand account strand account :=
  .fade (.refl strand)

/-- The context takes a message in, which can be a run. -/
theorem Drift.listen {before after : Strand} {isRun : Bool}
    (queued : after.queued + (if isRun then 1 else 0) = before.queued)
    (voice : after.voice = before.voice) (attached : after.attached = before.attached)
    (account : Account) :
    Drift before account after (if isRun then account.take else account) := by
  cases isRun with
  | true => exact .take (Nat.le_of_eq queued) voice attached
  | false => exact .fade ⟨Nat.le_of_eq queued, voice ▸ List.prefix_rfl,
      fun reaches => ⟨attached ▸ reaches, voice⟩⟩

theorem Drift.extends {before after : Strand} {account account' : Account}
    (drift : Drift before account after account') : account.Extends account' := by
  cases drift with
  | fade fades => exact .refl account
  | take queued voice attached => exact account.extends_take
  | say permitted queued voice attached => exact account.extends_say _

section Quiet

variable {before after strand : Strand} {account account' : Account}

/-- A context that was never given a run is quiet. -/
theorem quiet_empty {strand : Strand} (queued : strand.queued = 0) (silent : strand.voice = []) :
    strand.Quiet {} where
  balances := queued ▸ Account.balances_empty
  rested := rfl
  silent := silent

theorem Quiet.drift (quiet : before.Quiet account) (drift : Drift before account after account') :
    after.Quiet account' := by
  have bound := quiet.balances.taken
  have ended := quiet.balances.ended
  have rested := quiet.rested
  cases drift with
  | fade fades =>
      refine ⟨quiet.balances.mono fades.queued, quiet.rested, ?_⟩
      have voice := fades.voice
      rw [quiet.silent] at voice
      exact List.prefix_nil.mp voice
  | take queued voice attached => omega
  | @say utterance permitted queued voice attached =>
      have aside : utterance.isAside = true := by
        have idle : ¬account.ended < account.taken := by omega
        simpa [Account.permits, idle] using permitted
      rw [Account.say_of_isAside aside]
      refine ⟨queued ▸ quiet.balances, quiet.rested, ?_⟩
      simp [voice, quiet.silent, aside]

/-- Code is submitted to a context that is quiet. -/
theorem Quiet.post (quiet : before.Quiet account) (owner : Nat) (code : String)
    (queued : after.queued = before.queued + 1) (voice : after.voice = []) :
    after.Busy (account.post owner [code]) owner code [] := by
  have length : (account.post owner [code]).posted.length = account.posted.length + 1 := by
    simp [Account.post]
  have nothing : (account.post owner [code]).emittedFor account.posted.length = [] := by
    have unemitted : ∀ entry ∈ account.emitted, ¬decide (entry.1 = account.posted.length) := by
      intro entry member
      have early := quiet.balances.tags entry member
      have bound := quiet.balances.taken
      simp only [decide_eq_true_eq]
      omega
    simp only [Account.emittedFor, Account.post, List.map_eq_nil_iff]
    exact List.filter_eq_nil_iff.mpr unemitted
  refine ⟨queued ▸ quiet.balances.post owner code, ?_, ?_, ⟨[], by simp, .inl voice⟩, ?_, ?_⟩
  · rw [length, Nat.add_sub_cancel]
    simp [Account.post]
  · rw [length, ← quiet.rested]
    exact Nat.le_refl _
  · rw [length, Nat.add_sub_cancel, nothing, voice]
    exact List.prefix_rfl
  · intro _
    rw [length, Nat.add_sub_cancel, nothing, voice]
    rfl

end Quiet

section Busy

variable {before after strand : Strand} {account account' : Account} {owner : Nat}
  {code : String} {heard : List Chunk}

theorem Busy.length_pos (busy : strand.Busy account owner code heard) :
    0 < account.posted.length :=
  Nat.lt_of_le_of_lt (Nat.zero_le _) (List.getElem?_eq_some_iff.mp busy.posted).1

/-- What the host has heard was emitted for the run. -/
theorem Busy.owns (busy : strand.Busy account owner code heard) :
    account.Owns (account.posted.length - 1) owner code heard where
  posted := busy.posted
  inOrder := (List.prefix_append _ _).trans busy.inOrder

/-- The context says something for the last run. -/
theorem Busy.say (busy : before.Busy account owner code heard) {utterance : Utterance}
    (handles : account.ended < account.taken) (spoken : utterance.isAside = false)
    (queued : after.queued = before.queued)
    (voice : after.voice = before.voice ++ if before.attached then [utterance] else [])
    (attached : after.attached = before.attached) :
    after.Busy (account.say utterance) owner code heard := by
  have positive := busy.length_pos
  have bound := busy.balances.taken
  have alone := busy.alone
  have latest : account.ended = account.posted.length - 1 := by omega
  have emitted : (account.say utterance).emittedFor (account.posted.length - 1) =
      account.emittedFor (account.posted.length - 1) ++ utterance.chunks := by
    rw [Account.emittedFor_say, if_pos latest]
  refine ⟨queued ▸ busy.balances.say handles utterance, busy.posted, ?_, ?_, ?_, ?_⟩
  · simp only [Account.say]
    split
    · exact Nat.le_succ_of_le alone
    · exact alone
  · obtain ⟨body, unended, isBody | ⟨last, -, ended⟩⟩ := busy.speech
    · cases reaches : before.attached with
      | false =>
          refine ⟨body, unended, .inl ?_⟩
          simp [voice, isBody, reaches]
      | true =>
          cases ending : utterance.isEnding with
          | false =>
              refine ⟨body ++ [utterance], ?_, .inl (by simp [voice, isBody, reaches])⟩
              intro other member
              rcases List.mem_append.mp member with old | new
              · exact unended other old
              · rw [List.mem_singleton.mp new, ending]
          | true =>
              cases utterance with
              | ending last =>
                  refine ⟨body, unended, .inr ⟨last, by simp [voice, isBody, reaches], ?_⟩⟩
                  simp only [Account.say, Utterance.isEnding, if_true]
                  omega
              | aside => contradiction
              | output chunk => contradiction
              | request => contradiction
    · omega
  · rw [voice, List.flatMap_append, ← List.append_assoc]
    change _ <+: (account.say utterance).emittedFor (account.posted.length - 1)
    rw [emitted]
    cases reaches : before.attached with
    | false =>
        simp only [Bool.false_eq_true, if_false, List.flatMap_nil, List.append_nil]
        exact busy.inOrder.trans (List.prefix_append _ _)
    | true =>
        rw [busy.whole reaches]
        simp
  · intro reaches
    rw [attached] at reaches
    rw [voice, List.flatMap_append, ← List.append_assoc, busy.whole reaches]
    change _ = (account.say utterance).emittedFor (account.posted.length - 1)
    rw [emitted]
    simp [reaches]

theorem Busy.drift (busy : before.Busy account owner code heard)
    (drift : Drift before account after account') : after.Busy account' owner code heard := by
  cases drift with
  | fade fades =>
      have voice := fades.voice
      refine ⟨busy.balances.mono fades.queued, busy.posted, busy.alone, ?_, ?_, ?_⟩
      · obtain ⟨body, unended, isBody | ⟨last, isWhole, ended⟩⟩ := busy.speech
        · rw [isBody] at voice
          exact ⟨after.voice, fun other member => unended other (voice.subset member), .inl rfl⟩
        · rw [isWhole] at voice
          rcases List.prefix_concat_iff.mp voice with whole | shorter
          · exact ⟨body, unended, .inr ⟨last, whole, ended⟩⟩
          · exact ⟨after.voice, fun other member => unended other (shorter.subset member), .inl rfl⟩
      · refine List.IsPrefix.trans ?_ busy.inOrder
        obtain ⟨rest, whole⟩ := voice
        rw [← whole, List.flatMap_append, ← List.append_assoc]
        exact List.prefix_append _ _
      · intro reaches
        obtain ⟨reached, same⟩ := fades.attached reaches
        rw [same]
        exact busy.whole reached
  | take queued voice attached =>
      refine ⟨busy.balances.take queued, busy.posted, busy.alone, ?_, ?_, ?_⟩
      · rw [voice]
        exact busy.speech
      · rw [voice]
        exact busy.inOrder
      · rw [voice, attached]
        exact busy.whole
  | @say utterance permitted queued voice attached =>
      cases aside : utterance.isAside with
      | true =>
          have same : after = before := by
            obtain ⟨queuedBefore, voiceBefore, attachedBefore⟩ := before
            obtain ⟨queuedAfter, voiceAfter, attachedAfter⟩ := after
            simp_all
          rw [Account.say_of_isAside aside, same]
          exact busy
      | false =>
          have handles : account.ended < account.taken := by
            simpa [Account.permits, aside] using permitted
          refine busy.say handles aside queued ?_ attached
          simpa [aside] using voice

/-- The host takes in something that is not the last message of the run. -/
theorem Busy.hear (busy : before.Busy account owner code heard) {utterance : Utterance}
    {rest : List Utterance} (voice : before.voice = utterance :: rest)
    (goesOn : utterance.isEnding = false) :
    { before with voice := rest }.Busy account owner code (heard ++ utterance.chunks) where
  balances := busy.balances
  posted := busy.posted
  alone := busy.alone
  speech := by
    obtain ⟨body, unended, isBody | ⟨last, isWhole, ended⟩⟩ := busy.speech
    · rw [voice] at isBody
      rw [← isBody] at unended
      exact ⟨rest, fun other member => unended other (List.mem_cons_of_mem utterance member),
        .inl rfl⟩
    · rw [voice] at isWhole
      cases body with
      | nil =>
          obtain ⟨rfl, -⟩ := List.cons.inj isWhole
          contradiction
      | cons first body =>
          obtain ⟨rfl, isRest⟩ := List.cons.inj isWhole
          exact ⟨body, fun other member => unended other (List.mem_cons_of_mem utterance member),
            .inr ⟨last, isRest, ended⟩⟩
  inOrder := by
    have inOrder := busy.inOrder
    rwa [voice, List.flatMap_cons, ← List.append_assoc] at inOrder
  whole reaches := by
    have whole := busy.whole reaches
    rwa [voice, List.flatMap_cons, ← List.append_assoc] at whole

/-- The host takes in the last message of the run. -/
theorem Busy.conclude (busy : before.Busy account owner code heard) {last : Option Chunk}
    {rest : List Utterance} (voice : before.voice = .ending last :: rest) :
    { before with voice := rest }.Quiet account ∧
      account.Owns (account.posted.length - 1) owner code (heard ++ last.toList) := by
  obtain ⟨body, unended, isBody | ⟨final, isWhole, ended⟩⟩ := busy.speech
  · have goesOn := unended (.ending last) (by rw [← isBody, voice]; exact List.mem_cons_self)
    contradiction
  · rw [voice] at isWhole
    cases body with
    | cons first body =>
        obtain ⟨rfl, -⟩ := List.cons.inj isWhole
        have goesOn := unended _ List.mem_cons_self
        contradiction
    | nil =>
        obtain ⟨-, isRest⟩ := List.cons.inj isWhole
        refine ⟨⟨busy.balances, ended, isRest⟩, busy.posted, ?_⟩
        have inOrder := busy.inOrder
        rwa [voice, isRest, List.flatMap_singleton] at inOrder

end Busy

end Strand

end Polyglot
