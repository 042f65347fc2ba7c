import Polyglot.Proofs.Worker.Dismissal

/-!
# Workers in order

Whatever happens to a worker, at most one of its runs takes a turn, a run that is over stays so,
and a relay tells of a fault once, as the last thing it does, and of none while its interpreter is
there.
-/

namespace Polyglot.Worker.Handle

/-- The run that takes a turn in a move. -/
def turner? (handle : Handle) : Move → Option Nat
  | .run _ _ _ => some handle.runs.length
  | .turn _ _ _ run => some run
  | _ => none

/-- Nobody was told of a fault. -/
def IsUntold (handle : Handle) : Prop := ∀ reason, .fault reason ∉ handle.line.toHost

/-- The interpreter has gone away, if there was one. -/
def HasLeft (handle : Handle) : Prop :=
  ∀ interpreter, handle.interpreter = some interpreter → interpreter.contextOpen = false

/-- A run is over, or its caller has gone away. -/
def IsOver (handle : Handle) (number : Nat) : Prop :=
  (∃ result, handle.stage number = .returned result) ∨ handle.stage number = .silent

/-- What holds of a worker whatever happened to it. -/
structure Orderly (handle : Handle) : Prop where
  listens : handle.Listens
  tended : handle.Tended
  bare : handle.relay = .launching → handle.interpreter = none
  /-- A relay that is over has let its interpreter go, with what it had not read. -/
  spent : handle.relay = .returned → ∀ interpreter, handle.interpreter = some interpreter →
    interpreter.toHost = []
  held : ∀ interpreter, handle.interpreter = some interpreter → interpreter.hostOpen = false →
    handle.relay = .returned
  /-- Nothing follows a fault. -/
  last : ∀ front reason rest, handle.line.toHost = front ++ .fault reason :: rest → rest = []
  /-- A relay tells of no fault while its interpreter is there. -/
  left : ∀ reason, .fault reason ∈ handle.line.toHost → handle.HasLeft

variable {handle after : Handle} {number : Nat} {output : Aggregator}

/-! ## The turns of the runs -/

section Runs

/-- A run takes a turn, or has to wait. -/
theorem deed_refl (handle : Handle) (number : Nat) : handle.Deed number handle :=
  .pause ⟨Alike.spares ⟨rfl, rfl, rfl, rfl, rfl⟩ number, .stay _, rfl, rfl⟩

theorem Listens.deed_move (listens : handle.Listens) {move : Move}
    (turns : handle.turner? move = some number) : handle.Deed number (handle.move move) := by
  cases move with
  | run desk broker code =>
      cases turns
      exact handle.deed_run listens desk broker code
  | turn receiver cancelled desk run =>
      cases turns
      cases turned : handle.turn receiver cancelled desk number with
      | none => simpa [Handle.move, turned] using handle.deed_refl number
      | some next => simpa [Handle.move, turned] using deed_turn listens turned
  | _ => contradiction

/-- A run that was submitted is not submitted again. -/
theorem codes_own (hears : handle.stage number = .hearing output) {move : Move}
    (turns : handle.turner? move = some number) : (handle.move move).codes = handle.codes := by
  cases move with
  | run desk broker code =>
      cases turns
      rw [stage_length] at hears
      contradiction
  | turn receiver cancelled desk run =>
      cases turns
      cases turned : handle.turn receiver cancelled desk number with
      | none => simp [Handle.move, turned]
      | some next =>
          have idle : handle.next? number = none := by
            cases found : handle.runs[number]? with
            | none => simp [next?, found]
            | some run =>
                obtain ⟨code, broker, phase⟩ := run
                rw [stage_of_getElem? found] at hears
                cases phase <;> first | contradiction | simp [next?, found]
          have codes := codes_turn turned
          rw [idle, Option.toList_none, List.append_nil] at codes
          simpa [Handle.move, turned] using codes
  | _ => contradiction

/-- A run that is over takes no turn. -/
theorem IsOver.turn_eq_none (isOver : handle.IsOver number) (receiver : String → Option Nat)
    (cancelled : Bool) (desk : Desk) : handle.turn receiver cancelled desk number = none := by
  cases found : handle.runs[number]? with
  | none => simp [Handle.turn, found]
  | some run =>
      rw [IsOver, stage_of_getElem? found] at isOver
      cases phase : run.phase with
      | queued => simp [phase, Phase.stage] at isOver
      | running output pending => simp [phase, Phase.stage] at isOver
      | finished result => simp [Handle.turn, found, phase]
      | abandoned => simp [Handle.turn, found, phase]

/-- No run takes a turn, so at most a caller goes away. -/
theorem Orderly.lingers_move (orderly : handle.Orderly) {move : Move}
    (nobody : handle.turner? move = none) : handle.Lingers (handle.move move) := by
  cases move with
  | launched outcome =>
      simp only [Handle.move]
      split
      · rename_i launching
        exact (handle.lets_launched orderly.bare launching outcome).lingers
      · exact lingers_congr rfl rfl
  | request =>
      cases turned : handle.turnRequest with
      | none => simpa [Handle.move, turned] using handle.lingers_congr rfl rfl
      | some next => simpa [Handle.move, turned] using (lets_turnRequest turned).lingers
  | message =>
      cases turned : handle.turnMessage with
      | none => simpa [Handle.move, turned] using handle.lingers_congr rfl rfl
      | some next => simpa [Handle.move, turned] using (lets_turnMessage turned).lingers
  | interpreter act => exact lingers_congr rfl rfl
  | abandon desk run => exact handle.lingers_abandon desk run
  | terminate => exact handle.lets_terminate.lingers
  | drop => exact handle.lets_drop.lingers
  | run desk broker code => contradiction
  | turn receiver cancelled desk run => contradiction

theorem Orderly.listens_move (orderly : handle.Orderly) (move : Move) :
    (handle.move move).Listens := by
  cases turns : handle.turner? move with
  | none => exact (orderly.lingers_move turns).listens orderly.listens
  | some run => exact (orderly.listens.deed_move turns).spares.listens orderly.listens

/-- A run that is over stays so. -/
theorem Orderly.isOver_move (orderly : handle.Orderly) (isOver : handle.IsOver number)
    (move : Move) : (handle.move move).IsOver number := by
  cases turns : handle.turner? move with
  | none =>
      rcases (orderly.lingers_move turns).stage number with same | silent
      · rwa [IsOver, same]
      · exact .inr silent
  | some run =>
      by_cases own : run = number
      · subst own
        cases move with
        | run desk broker code =>
            cases turns
            simp [IsOver, stage_length] at isOver
        | turn receiver cancelled desk run =>
            cases turns
            rwa [Handle.move, isOver.turn_eq_none, Option.getD_none]
        | _ => contradiction
      · have spares := (orderly.listens.deed_move turns).spares
        rwa [IsOver, spares.stage number fun same => own same.symm]

end Runs

/-! ## What lasts -/

section Lasts

theorem Tended.untold (tended : handle.Tended) (goesOn : handle.relay ≠ .returned) :
    handle.IsUntold :=
  fun reason member => goesOn (tended.faulted reason member)

theorem Respects.untold (respects : handle.Respects after) (untold : handle.IsUntold) :
    after.IsUntold :=
  fun reason member => untold reason (respects.toHost.subset member)

theorem Listens.onLine (listens : handle.Listens) (line : Link Request Event) :
    Listens { handle with line } :=
  (lingers_congr rfl rfl).listens listens

theorem HasLeft.act (hasLeft : handle.HasLeft) (act : Link.Act WorkerMessage) :
    HasLeft { handle with interpreter := handle.interpreter.map (·.act act) } := by
  intro interpreter isInterpreter
  obtain ⟨before, isBefore, rfl⟩ := Option.map_eq_some_iff.mp isInterpreter
  have gone := hasLeft before isBefore
  cases act with
  | say message => simp [Link.act, gone]
  | listen => exact (contextOpen_contextReceive before).trans gone
  | leave => rfl

theorem orderly_fresh (language : String) (launcher : Nat) : Orderly { language, launcher } where
  listens _ _ hears := by contradiction
  tended := tended_fresh language launcher
  bare _ := rfl
  spent := by simp
  held := by simp
  last := by simp
  left := by simp

/-- Hosts do something to a worker. -/
theorem Orderly.respects (orderly : handle.Orderly) (respects : handle.Respects after)
    (listens : after.Listens) : after.Orderly where
  listens := listens
  tended := orderly.tended.respects respects
  bare := by
    rw [respects.relay, respects.interpreter]
    exact orderly.bare
  spent := by
    rw [respects.relay, respects.interpreter]
    exact orderly.spent
  held := by
    rw [respects.relay, respects.interpreter]
    exact orderly.held
  last front reason rest queue := by
    obtain ⟨taken, before⟩ := respects.toHost
    rw [queue, ← List.append_assoc] at before
    exact orderly.last (taken ++ front) reason rest before.symm
  left reason told := by
    rw [HasLeft, respects.interpreter]
    exact orderly.left reason (respects.toHost.subset told)

/-- A relay that goes on has told of no fault. -/
theorem orderly_relaying (listens : handle.Listens) (tended : handle.Tended)
    (relaying : handle.relay = .relaying)
    (held : ∀ interpreter, handle.interpreter = some interpreter → interpreter.hostOpen = true) :
    handle.Orderly where
  listens := listens
  tended := tended
  bare launching := by simp [relaying] at launching
  spent returned := by simp [relaying] at returned
  held interpreter at_ dropped := by simp [held interpreter at_] at dropped
  last front reason _ queue := by
    have untold := tended.untold (by simp [relaying])
    exact absurd (queue ▸ List.mem_append_right front List.mem_cons_self) (untold reason)
  left reason told := absurd told (tended.untold (by simp [relaying]) reason)

/-- A relay that is over has told of a fault last, if at all. -/
theorem orderly_returnRelay (listens : handle.Listens)
    (last : ∀ front reason rest, handle.line.toHost = front ++ .fault reason :: rest → rest = [])
    (left : ∀ reason, .fault reason ∈ handle.line.toHost → handle.HasLeft) :
    handle.returnRelay.Orderly where
  listens := (lingers_congr rfl rfl).listens listens
  tended := tended_returnRelay handle
  bare launching := by contradiction
  spent _ interpreter at_ := by
    obtain ⟨before, -, rfl⟩ := Option.map_eq_some_iff.mp at_
    rfl
  held _ _ _ := rfl
  last := last
  left reason told interpreter at_ := by
    obtain ⟨before, isBefore, rfl⟩ := Option.map_eq_some_iff.mp at_
    exact left reason told before isBefore

theorem orderly_stop (listens : handle.Listens) (untold : handle.IsUntold) :
    handle.returnRelay.Orderly :=
  orderly_returnRelay listens
    (fun front reason _ queue =>
      absurd (queue ▸ List.mem_append_right front List.mem_cons_self) (untold reason))
    fun reason told => absurd told (untold reason)

theorem orderly_fault (listens : handle.Listens) (untold : handle.IsUntold)
    (hasLeft : handle.HasLeft) (reason : String) : (handle.fault reason).Orderly := by
  refine orderly_returnRelay (listens.onLine _) ?_ fun _ _ => hasLeft
  intro front other rest queue
  rcases List.eq_nil_or_concat rest with nothing | ⟨more, event, rfl⟩
  · exact nothing
  · simp only [Link.contextSend?] at queue
    split at queue
    · rw [Option.getD_some, List.concat_eq_append, ← List.cons_append,
        ← List.append_assoc] at queue
      obtain ⟨toHost, -⟩ := List.append_inj' queue rfl
      exact absurd (toHost ▸ List.mem_append_right front List.mem_cons_self) (untold other)
    · rw [Option.getD_none] at queue
      exact absurd (queue ▸ List.mem_append_right front List.mem_cons_self) (untold other)

/-- The interpreter of a relay that goes on was not let go. -/
theorem Orderly.hostOpen (orderly : handle.Orderly) (relaying : handle.relay = .relaying)
    {interpreter : Link InterpreterRequest WorkerMessage}
    (at_ : handle.interpreter = some interpreter) : interpreter.hostOpen = true := by
  apply Bool.of_not_eq_false
  intro dropped
  simp [orderly.held interpreter at_ dropped] at relaying

theorem hasLeft_of_gone {interpreter : Link InterpreterRequest WorkerMessage}
    (at_ : handle.interpreter = some interpreter) (gone : interpreter.contextOpen = false) :
    handle.HasLeft := by
  intro other isAt
  rw [at_] at isAt
  cases isAt
  exact gone

theorem Orderly.requested (orderly : handle.Orderly) (relaying : handle.relay = .relaying)
    (requested : handle.Requested after) : after.Orderly := by
  have tended := orderly.tended.requested relaying requested
  have untold := orderly.tended.untold (by simp [relaying])
  cases requested with
  | stops same =>
      refine orderly_stop (orderly.listens.onLine _) ?_
      simpa only [IsUntold, same] using untold
  | forwards queue isOther at_ here =>
      have reached := orderly.hostOpen relaying at_
      refine orderly_relaying ((lingers_congr rfl rfl).listens orderly.listens) tended relaying
        fun other isAfter => ?_
      cases isAfter
      exact reached
  | @refused _ rest _ queue isOther at_ gone =>
      have stillUntold : IsUntold { handle with
          line := { handle.line with toContext := rest } } := untold
      exact orderly_fault (orderly.listens.onLine _) stillUntold (hasLeft_of_gone at_ gone) _

theorem Orderly.messaged (orderly : handle.Orderly) (relaying : handle.relay = .relaying)
    (messaged : handle.Messaged after) : after.Orderly := by
  have tended := orderly.tended.messaged relaying messaged
  have untold := orderly.tended.untold (by simp [relaying])
  cases messaged with
  | exits at_ silent gone =>
      exact orderly_fault orderly.listens untold (hasLeft_of_gone at_ gone) _
  | passes at_ queue isOpen =>
      have reached := orderly.hostOpen relaying at_
      refine orderly_relaying ((lingers_congr rfl rfl).listens orderly.listens) tended relaying
        fun other isAfter => ?_
      cases isAfter
      exact reached
  | stops at_ closed =>
      exact orderly_stop ((lingers_congr rfl rfl).listens orderly.listens) untold

/-- The interpreter does something at its end of the link. -/
theorem Orderly.act (orderly : handle.Orderly) (act : Link.Act WorkerMessage) :
    Orderly { handle with interpreter := handle.interpreter.map (·.act act) } where
  listens := (lingers_congr rfl rfl).listens orderly.listens
  tended := orderly.tended.act act
  bare launching := Option.map_eq_none_iff.mpr (orderly.bare launching)
  spent returned interpreter at_ := by
    obtain ⟨before, isBefore, rfl⟩ := Option.map_eq_some_iff.mp at_
    have silent := orderly.spent returned before isBefore
    have dropped := orderly.tended.freed returned before isBefore
    cases act with
    | say message => simp [Link.act, Link.contextSend?, dropped, silent]
    | listen => exact (Link.toHost_listen before).trans silent
    | leave => exact silent
  held interpreter at_ dropped := by
    obtain ⟨before, isBefore, rfl⟩ := Option.map_eq_some_iff.mp at_
    rw [Link.hostOpen_act] at dropped
    exact orderly.held before isBefore dropped
  last := orderly.last
  left reason told := (orderly.left reason told).act act

theorem Orderly.move (orderly : handle.Orderly) (move : Move) : (handle.move move).Orderly := by
  have listens := orderly.listens_move move
  have tended := orderly.tended.move move
  cases move with
  | launched outcome =>
      by_cases launching : handle.relay = .launching
      · simp only [Handle.move, if_pos launching] at listens tended ⊢
        cases outcome with
        | ok launched =>
            refine orderly_relaying listens tended rfl fun interpreter at_ => ?_
            cases at_
            rfl
        | error cause =>
            have untold := orderly.tended.untold (by simp [launching])
            exact orderly_fault orderly.listens untold (by simp [HasLeft, orderly.bare launching])
              cause.message
      · simpa only [Handle.move, if_neg launching] using orderly
  | request => exact holds_request orderly fun _ => orderly.requested
  | message => exact holds_message orderly fun _ => orderly.messaged
  | interpreter act => exact orderly.act act
  | _ => exact orderly.respects (orderly.tended.respects_move trivial) listens

/-- Waiting for a worker to be ready lets its runs be. -/
theorem lingers_turnReadiness {readiness : Readiness}
    (turned : handle.turnReadiness = some (after, readiness)) : handle.Lingers after := by
  simp only [turnReadiness] at turned
  split at turned
  · contradiction
  all_goals
    cases turned
    exact lingers_congr rfl rfl

theorem isLasting_orderly : IsLasting Orderly where
  fresh := orderly_fresh
  move _ move orderly := orderly.move move
  readiness _ _ _ orderly turned := orderly.respects (respects_turnReadiness turned)
    ((lingers_turnReadiness turned).listens orderly.listens)

end Lasts

end Polyglot.Worker.Handle
