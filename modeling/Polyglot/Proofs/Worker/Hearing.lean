import Polyglot.Proofs.Worker.Deeds

/-!
# What the runs of a worker hear

A journal is kept beside a worker, in which its runs are the owners of what is submitted.
Whatever happens to the worker, the journal tells all that the runs have heard.
-/

namespace Polyglot.Worker.Handle

/-- A journal tells all that the runs of a worker have heard. -/
structure Sound (handle : Handle) (journal : Journal) : Prop where
  listens : handle.Listens
  bare : handle.relay = .launching → handle.interpreter = none
  follows : journal.Follows handle.strand
  fair : journal.Fair handle.code?
  fits : ∀ number, journal.Fits number (handle.stage number)
  idle : handle.runs = [] → journal.account.posted = []

/-- Whether an interpreter that handles its runs in order can do something. -/
def allows (handle : Handle) (account : Account) (act : Link.Act WorkerMessage) : Bool :=
  handle.interpreter.all fun interpreter =>
    account.allows WorkerMessage.utterance interpreter act

/-- The account of an interpreter after it has done something. -/
def account (handle : Handle) (account : Account) (act : Link.Act WorkerMessage) : Account :=
  handle.interpreter.elim account fun interpreter =>
    account.act InterpreterRequest.isRun WorkerMessage.utterance interpreter act

variable {handle after : Handle} {journal : Journal} {number : Nat}

theorem sound_fresh (language : String) (launcher : Nat) :
    Sound { language, launcher } {} where
  listens _ _ hears := by contradiction
  bare _ := rfl
  follows := Journal.follows_empty rfl rfl
  fair := Journal.fair_empty _
  fits _ := rfl
  idle _ := rfl

/-! ## While no run takes a turn -/

section Drift

theorem Sound.drift (sound : handle.Sound journal) (lingers : handle.Lingers after)
    (bare : after.relay = .launching → after.interpreter = none) {account : Account}
    (drift : handle.strand.Drift journal.account after.strand account) :
    after.Sound (journal.drift account after.strand.voice.length) where
  listens := lingers.listens sound.listens
  bare := bare
  follows := sound.follows.drift drift
  fair := (sound.fair.mono fun _ _ => lingers.keeps.code?).drift drift.extends _
  fits other := by
    rcases lingers.stage other with same | silent
    · rw [same]
      exact (sound.fits other).drift _ _
    · rw [silent]
      trivial
  idle unused := by
    have unposted := sound.idle (lingers.nil.mp unused)
    have posted : account.posted = journal.account.posted := by cases drift <;> rfl
    exact posted.trans unposted

theorem Sound.lets (sound : handle.Sound journal) (lets : handle.Lets after) :
    after.Sound (journal.drift journal.account after.strand.voice.length) := by
  apply sound.drift lets.lingers (lets.bare sound.bare)
  apply Strand.Drift.fade
  apply lets.fades
  intro unused
  exact sound.follows.silent (sound.idle unused)

/-- The interpreter does something at its end of the link. -/
theorem Sound.act (sound : handle.Sound journal) {act : Link.Act WorkerMessage}
    (allowed : handle.allows journal.account act = true)
    (acted : after = { handle with interpreter := handle.interpreter.map (·.act act) }) :
    after.Sound (journal.drift (handle.account journal.account act)
      after.strand.voice.length) := by
  subst acted
  cases at_ : handle.interpreter with
  | none =>
      have same : { handle with interpreter := none } = handle := by rw [← at_]
      simp only [Option.map_none, same, account, at_, Option.elim_none]
      exact sound.lets (.refl handle)
  | some interpreter =>
      have permitted : journal.account.allows WorkerMessage.utterance interpreter act = true := by
        simpa [allows, at_] using allowed
      simp only [Option.map_some, account, at_, Option.elim_some]
      change (handle.withInterpreter (interpreter.act act)).Sound _
      apply sound.drift
      · exact lingers_congr rfl rfl
      · intro launching
        rw [sound.bare launching] at at_
        contradiction
      · exact drift_act sound.bare at_ permitted

end Drift

/-! ## The turn of a run -/

section Turn

/-- The journal of a worker after a turn of a run. -/
def observed (handle after : Handle) (journal : Journal) (number : Nat) : Journal :=
  journal.observe number (handle.stage number) handle.strand after.strand handle.codes after.codes

variable {gone : List Utterance} {codes : List String}

theorem observed_eq (journal : Journal) (number : Nat)
    (voice : handle.strand.voice = gone ++ after.strand.voice)
    (submitted : after.codes = handle.codes ++ codes) :
    handle.observed after journal number =
      journal.attend number (handle.stage number).isHearing gone codes := by
  rw [observed, Journal.observe, Strand.gone_eq voice, submitted, List.drop_left]

/-- A run submits code or takes something in, and nobody else hears anything. -/
theorem Sound.attend (sound : handle.Sound journal) (spares : handle.Spares after number)
    (only : handle.HearsOnly number)
    (voice : handle.strand.voice = gone ++ after.strand.voice)
    (submitted : after.codes = handle.codes ++ codes)
    (fair : (handle.observed after journal number).Fair after.code?)
    (fits : (handle.observed after journal number).Fits number (after.stage number))
    (idle : after.runs = [] → codes = []) :
    after.Sound (handle.observed after journal number) where
  listens := spares.listens sound.listens
  bare := by
    rw [spares.relay, spares.interpreter]
    exact sound.bare
  follows := by
    obtain ⟨attached, queued⟩ := spares.strand submitted
    rw [observed_eq journal number voice submitted]
    exact sound.follows.attend number _ voice queued attached
  fair := fair
  fits other := by
    by_cases same : other = number
    · rw [same]
      exact fits
    · rw [spares.stage other same]
      apply (sound.fits other).of_hearings
      · intro output hears
        exact same (only other output hears)
      · rw [observed_eq journal number voice submitted]
        exact journal.hearings_attend_of_ne same _ _ _
  idle unused := by
    rw [observed_eq journal number voice submitted, idle unused]
    exact (List.append_nil _).trans (sound.idle (spares.keeps.nil unused))

/-- A run does something that nobody can tell. -/
theorem Sound.pause (sound : handle.Sound journal) (pauses : handle.Pauses number after) :
    after.Sound journal where
  listens := pauses.spares.listens sound.listens
  bare := by
    rw [pauses.spares.relay, pauses.spares.interpreter]
    exact sound.bare
  follows := pauses.strand ▸ sound.follows
  fair := sound.fair.mono fun _ _ => pauses.spares.keeps.code?
  fits other := by
    by_cases same : other = number
    · rw [same]
      exact (sound.fits number).turns pauses.turns
    · rw [pauses.spares.stage other same]
      exact sound.fits other
  idle unused := sound.idle (pauses.spares.keeps.nil unused)

/-- The turn of a run leaves the journal of its worker sound. -/
theorem Sound.deed (sound : handle.Sound journal) (deed : handle.Deed number after) :
    after.Sound (handle.observed after journal number) := by
  cases deed with
  | pause pauses =>
      have voice : handle.strand.voice = [] ++ after.strand.voice := by
        rw [pauses.strand, List.nil_append]
      have submitted : after.codes = handle.codes ++ [] := by
        rw [pauses.codes, List.append_nil]
      rw [observed_eq journal number voice submitted, Journal.attend_nothing]
      exact sound.pause pauses
  | @drop gone spares only was turns voice queued =>
      have submitted : after.codes = handle.codes ++ [] := by rw [queued, List.append_nil]
      have attended := observed_eq journal number voice submitted
      rw [was, Stage.isHearing] at attended
      have account : (journal.attend number false gone []).account = journal.account :=
        Account.post_nil _ _
      have hearings := journal.hearings_attend_deaf number gone
      have before := sound.fits number
      rw [was] at before
      apply sound.attend spares only voice submitted
      · intro owner hearing found
        rw [attended, hearings] at found
        rw [attended, account]
        exact sound.fair.mono (fun _ _ => spares.keeps.code?) owner hearing found
      · rw [attended]
        apply Journal.Fits.turns _ turns
        exact (congrFun hearings number).trans before
      · exact fun _ => rfl
  | submit spares only stage isCode voice submitted =>
      have attended := observed_eq journal number voice submitted
      obtain ⟨fair, hears⟩ := sound.follows.hears_submit
        (sound.fair.mono fun _ _ => spares.keeps.code?) isCode (handle.stage number).isHearing voice
      rw [← attended] at fair hears
      apply sound.attend spares only voice submitted fair
      · rw [stage]
        exact ⟨_, hears⟩
      · intro unused
        simp [Handle.stage, phase?, unused] at stage
  | @hear output utterance spares only was stage voice queued =>
      have submitted : after.codes = handle.codes ++ [] := by rw [queued, List.append_nil]
      have taken : handle.strand.voice = [utterance] ++ after.strand.voice := voice
      have attended := observed_eq journal number taken submitted
      rw [was, Stage.isHearing] at attended
      have before := sound.fits number
      rw [was] at before
      obtain ⟨hearing, hears⟩ := before
      obtain ⟨fair, found, goesOn, ends⟩ := sound.follows.hears_take
        (sound.fair.mono fun _ _ => spares.keeps.code?) hears voice
      rw [← attended] at fair found goesOn
      apply sound.attend spares only taken submitted fair
      · rw [stage, Stage.hear]
        cases ending : utterance.isEnding with
        | true => exact .inr ⟨_, found, ends ending⟩
        | false => exact ⟨_, goesOn ending⟩
      · exact fun _ => rfl

end Turn

end Polyglot.Worker.Handle
