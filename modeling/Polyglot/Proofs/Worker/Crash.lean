import Polyglot.Proofs.Worker.Order

/-!
# What a crashed run has heard

A relay tells of a fault after everything that it has passed on.  It looks for requests and for
messages in any order, though.  If it finds that the interpreter is gone because it could not pass
a request on, then what the interpreter had said and the relay had not read yet is lost.  Nothing
else is lost before a fault, so a crashed run has heard everything unless that happens.
-/

namespace Polyglot.Worker

namespace Handle

/-- The output on its way to the host. -/
def unheard (handle : Handle) : List Chunk :=
  (handle.messages ++ handle.unrelayed).flatMap (·.utterance.chunks)

/-- The output that an interpreter sends in a move. -/
def speaks (handle : Handle) : Move → List Chunk
  | .interpreter (.say message) =>
    if handle.interpreter.any (·.contextOpen) then message.utterance.chunks else []
  | _ => []

/-- The output that an interpreter sends in several moves. -/
def said (handle : Handle) : List Move → List Chunk
  | [] => []
  | move :: moves => handle.speaks move ++ (handle.move move).said moves

/-- The relay is about to pass on a request to an interpreter that is gone, and has not read
all of its output. -/
def Breaks (handle : Handle) : Prop :=
  handle.relay = .relaying ∧ handle.line.toContext.head?.any (· ≠ .terminate) = true ∧
    ∃ interpreter, handle.interpreter = some interpreter ∧ interpreter.contextOpen = false ∧
      interpreter.toHost.flatMap (·.utterance.chunks) ≠ []

/-- In none of the moves does the relay find out that the interpreter is gone before it has read
all of its output. -/
def ReadsAll (handle : Handle) (moves : List Move) : Prop :=
  ∀ before rest, moves = before ++ .request :: rest → ¬(handle.moved before).Breaks

/-- Nobody will be told of a fault: the relay is over, or nobody has the handle any more. -/
structure IsMute (handle : Handle) : Prop where
  untold : handle.IsUntold
  ended : handle.relay = .returned ∨ handle.line.hostOpen = false

/-- The relay is over, and the interpreter has gone away. -/
structure IsGone (handle : Handle) : Prop where
  returned : handle.relay = .returned
  left : handle.HasLeft

variable {handle after : Handle} {number : Nat} {output : Aggregator}

/-! ## What is on its way -/

section Unheard

/-- Asides carry no output. -/
theorem chunks_voiceOf (messages : List WorkerMessage) :
    (voiceOf messages).flatMap Utterance.chunks = messages.flatMap (·.utterance.chunks) := by
  induction messages with
  | nil => rfl
  | cons message messages ih =>
      cases message <;> simpa [voiceOf, WorkerMessage.utterance, Utterance.isAside,
        Utterance.chunks] using ih

theorem chunks_voice (handle : Handle) :
    handle.strand.voice.flatMap Utterance.chunks = handle.unheard :=
  chunks_voiceOf _

theorem unheard_of_voice (voice : after.strand.voice = handle.strand.voice) :
    after.unheard = handle.unheard := by
  rw [← chunks_voice, voice, chunks_voice]

theorem unheard_of_interpreter {interpreter : Link InterpreterRequest WorkerMessage}
    (at_ : handle.interpreter = some interpreter) (isOpen : handle.line.hostOpen = true) :
    handle.unheard = handle.messages.flatMap (·.utterance.chunks) ++
      interpreter.toHost.flatMap (·.utterance.chunks) := by
  rw [unheard, unrelayed, if_pos isOpen, at_, Option.elim_some, List.flatMap_append]

/-- What a relay that is over has not passed on is lost. -/
theorem unheard_fault (handle : Handle) (reason : String) :
    (handle.fault reason).unheard = handle.messages.flatMap (·.utterance.chunks) := by
  have messages : (handle.fault reason).messages = handle.messages := by
    simp only [Handle.messages, fault, returnRelay, Link.dropContext, Link.contextSend?]
    split <;> simp [Event.message?]
  have unrelayed : (handle.fault reason).unrelayed = [] := by
    cases at_ : handle.interpreter <;>
      simp [Handle.unrelayed, fault, returnRelay, at_, Link.dropHost]
  rw [unheard, messages, unrelayed, List.append_nil]

end Unheard

/-! ## Workers that nobody hears of any more -/

section Silence

theorem isMute_returnRelay (untold : handle.IsUntold) : handle.returnRelay.IsMute :=
  ⟨untold, .inl rfl⟩

/-- Nobody is told of a fault who has gone away. -/
theorem isMute_fault (untold : handle.IsUntold) (closed : handle.line.hostOpen = false)
    (reason : String) : (handle.fault reason).IsMute := by
  refine ⟨?_, .inl rfl⟩
  simpa [IsUntold, fault, returnRelay, Link.dropContext, Link.contextSend?, closed] using untold

theorem IsMute.respects (isMute : handle.IsMute) (respects : handle.Respects after) :
    after.IsMute := by
  refine ⟨respects.untold isMute.untold, isMute.ended.imp respects.relay.trans fun closed => ?_⟩
  apply Bool.of_not_eq_true
  intro isOpen
  simp [respects.hostOpen isOpen] at closed

theorem IsGone.respects (isGone : handle.IsGone) (respects : handle.Respects after) :
    after.IsGone := by
  refine ⟨respects.relay.trans isGone.returned, ?_⟩
  rw [HasLeft, respects.interpreter]
  exact isGone.left

theorem Orderly.isMute_move (orderly : handle.Orderly) (isMute : handle.IsMute) (move : Move) :
    (handle.move move).IsMute := by
  cases move with
  | launched outcome =>
      by_cases launching : handle.relay = .launching
      · have closed : handle.line.hostOpen = false := by simpa [launching] using isMute.ended
        simp only [Handle.move, if_pos launching]
        cases outcome with
        | ok launched => exact ⟨isMute.untold, .inr closed⟩
        | error cause => exact isMute_fault isMute.untold closed cause.message
      · simpa only [Handle.move, if_neg launching] using isMute
  | request =>
      refine holds_request isMute fun after relaying requested => ?_
      have closed : handle.line.hostOpen = false := by simpa [relaying] using isMute.ended
      cases requested with
      | stops same =>
          apply isMute_returnRelay
          simpa only [IsUntold, same] using isMute.untold
      | forwards queue isOther at_ here => exact ⟨isMute.untold, .inr closed⟩
      | @refused _ rest _ queue isOther at_ gone =>
          have untold : IsUntold { handle with
              line := { handle.line with toContext := rest } } := isMute.untold
          exact isMute_fault untold closed _
  | message =>
      refine holds_message isMute fun after relaying messaged => ?_
      have closed : handle.line.hostOpen = false := by simpa [relaying] using isMute.ended
      cases messaged with
      | exits at_ silent gone => exact isMute_fault isMute.untold closed _
      | passes at_ queue isOpen => simp [closed] at isOpen
      | @stops _ next at_ closed =>
          have untold : IsUntold { handle with interpreter := some next } := isMute.untold
          exact isMute_returnRelay untold
  | interpreter act => exact ⟨isMute.untold, isMute.ended⟩
  | _ => exact isMute.respects (orderly.tended.respects_move trivial)

theorem Orderly.isGone_move (orderly : handle.Orderly) (isGone : handle.IsGone) (move : Move) :
    (handle.move move).IsGone := by
  cases move with
  | launched outcome => simpa [Handle.move, isGone.returned] using isGone
  | request => simpa [Handle.move, turnRequest, isGone.returned] using isGone
  | message => simpa [Handle.move, turnMessage, isGone.returned] using isGone
  | interpreter act => exact ⟨isGone.returned, isGone.left.act act⟩
  | _ => exact isGone.respects (orderly.tended.respects_move trivial)

/-- An interpreter that is gone says nothing. -/
theorem HasLeft.speaks (hasLeft : handle.HasLeft) (move : Move) : handle.speaks move = [] := by
  simp only [Handle.speaks]
  split
  · rename_i message
    cases at_ : handle.interpreter with
    | none => simp
    | some interpreter => simp [hasLeft interpreter at_]
  · rfl

theorem Orderly.said_of_isGone (orderly : handle.Orderly) (isGone : handle.IsGone)
    (moves : List Move) : handle.said moves = [] := by
  induction moves generalizing handle with
  | nil => rfl
  | cons move moves ih =>
      rw [said, isGone.left.speaks, List.nil_append]
      exact ih (orderly.move move) (orderly.isGone_move isGone move)

end Silence

/-! ## A run that listens -/

section Attends

/-- A run that listens goes on listening: it hears some of the output, and the last of it may be
lost. -/
structure Attends (before : Handle) (number : Nat) (output : Aggregator) (move : Move)
    (heard lost : List Chunk) : Prop where
  stage : (before.move move).stage number =
    .hearing (heard.foldl (fun output chunk => output.push chunk.1 chunk.2) output)
  parts : heard ++ (before.move move).unheard ++ lost = before.unheard ++ before.speaks move
  whole : lost = [] ↔ ¬(move = .request ∧ before.Breaks)
  gone : lost ≠ [] → (before.move move).IsGone

/-- Everything stays on its way. -/
theorem attends_nothing {move : Move} (stage : (handle.move move).stage number = .hearing output)
    (unheard : (handle.move move).unheard = handle.unheard ++ handle.speaks move)
    (whole : ¬(move = .request ∧ handle.Breaks)) :
    handle.Attends number output move [] [] where
  stage := stage
  parts := by rw [List.nil_append, List.append_nil, unheard]
  whole := ⟨fun _ => whole, fun _ => rfl⟩
  gone lossy := absurd rfl lossy

/-- Nothing is lost while the queues stay as they are. -/
theorem attends_same {move : Move} (stage : (handle.move move).stage number = .hearing output)
    (unheard : (handle.move move).unheard = handle.unheard) (quiet : handle.speaks move = [])
    (whole : ¬(move = .request ∧ handle.Breaks)) : handle.Attends number output move [] [] :=
  attends_nothing stage (by rw [unheard, quiet, List.append_nil]) whole

/-- A run that listens stays where it is, or takes the first thing in, while runs take turns. -/
theorem Orderly.attends_turn (orderly : handle.Orderly)
    (hears : handle.stage number = .hearing output) {move : Move} {run : Nat}
    (turns : handle.turner? move = some run) :
    (handle.move move).IsOver number ∨ ∃ heard, handle.Attends number output move heard [] := by
  have quiet : handle.speaks move = [] := by cases move <;> first | rfl | contradiction
  have whole : ¬(move = .request ∧ handle.Breaks) := by
    rintro ⟨rfl, -⟩
    contradiction
  have own (alone : handle.HearsOnly run) : run = number := (alone number output hears).symm
  cases orderly.listens.deed_move turns with
  | pause pauses =>
      have unheard := unheard_of_voice (congrArg Strand.voice pauses.strand)
      have same (stage : (handle.move move).stage number = .hearing output) :
          handle.Attends number output move [] [] :=
        attends_same stage unheard quiet whole
      by_cases isOwn : run = number
      · have turns := pauses.turns
        rw [isOwn, hears] at turns
        generalize becomes : (handle.move move).stage number = stage at turns
        cases turns with
        | stay => exact .inr ⟨[], same becomes⟩
        | silence => exact .inl (.inr becomes)
        | cut notices => exact .inl (.inl ⟨_, becomes⟩)
      · have stage := pauses.spares.stage number fun equal => isOwn equal.symm
        exact .inr ⟨[], same (stage.trans hears)⟩
  | drop spares alone was turned voice codes =>
      rw [own alone, hears] at was
      contradiction
  | submit spares alone stage isCode voice codes =>
      have isOwn := own alone
      subst isOwn
      rw [codes_own hears turns] at codes
      simp at codes
  | @hear collected utterance spares alone was stage voice codes =>
      have isOwn := own alone
      subst isOwn
      rw [hears] at was
      cases was
      rw [Stage.hear] at stage
      split at stage
      · exact .inl (.inl ⟨_, stage⟩)
      · refine .inr ⟨utterance.chunks, stage, ?_, ⟨fun _ => whole, fun _ => rfl⟩,
          fun lossy => absurd rfl lossy⟩
        rw [quiet, ← chunks_voice handle, voice, List.flatMap_cons, chunks_voice]

/-- The relay takes a request: what it has not read is lost if it finds the interpreter gone. -/
theorem Orderly.attends_request (orderly : handle.Orderly)
    (stage : (handle.move .request).stage number = .hearing output) :
    (handle.move .request).IsMute ∨ ∃ lost, handle.Attends number output .request [] lost := by
  cases turned : handle.turnRequest with
  | none =>
      have stays : handle.move .request = handle := by simp [Handle.move, turned]
      refine .inr ⟨[], attends_same stage (by rw [stays]) rfl ?_⟩
      rintro ⟨-, relaying, queue, interpreter, at_, gone, -⟩
      cases queued : handle.line.toContext with
      | nil => simp [queued] at queue
      | cons request rest =>
          cases request <;> simp [turnRequest, relaying, at_, Link.contextReceive, queued] at turned
  | some next =>
      have isNext : handle.move .request = next := by simp [Handle.move, turned]
      obtain ⟨relaying, requested⟩ := requested_of_turnRequest turned
      have untold := orderly.tended.untold (by simp [relaying])
      cases requested with
      | stops same =>
          rw [isNext]
          refine .inl (isMute_returnRelay ?_)
          simpa only [IsUntold, same] using untold
      | forwards queue isOther at_ here =>
          refine .inr ⟨[], attends_same stage ?_ rfl ?_⟩
          · simp [isNext, unheard, messages, unrelayed, at_]
          · rintro ⟨-, -, -, interpreter, isAt, gone, -⟩
            rw [at_] at isAt
            cases isAt
            simp [here] at gone
      | @refused request rest interpreter queue isOther at_ gone =>
          have stillUntold : IsUntold { handle with
              line := { handle.line with toContext := rest } } := untold
          cases isOpen : handle.line.hostOpen with
          | false => exact .inl (isNext ▸ isMute_fault stillUntold isOpen _)
          | true =>
              refine .inr ⟨interpreter.toHost.flatMap (·.utterance.chunks), stage, ?_, ?_, ?_⟩
              · rw [isNext, unheard_fault, unheard_of_interpreter at_ isOpen]
                exact (List.append_nil _).symm
              · simp [Breaks, relaying, queue, isOther, at_, gone]
              · intro lossy
                rw [isNext]
                refine ⟨rfl, fun other isAt => ?_⟩
                obtain ⟨before, isBefore, rfl⟩ := Option.map_eq_some_iff.mp isAt
                rw [show handle.interpreter = some before from isBefore] at at_
                cases at_
                exact gone

/-- The relay takes a message: it passes it on, or tells that there is none any more. -/
theorem Orderly.attends_message (orderly : handle.Orderly)
    (stage : (handle.move .message).stage number = .hearing output) :
    (handle.move .message).IsMute ∨ handle.Attends number output .message [] [] := by
  have whole : ¬(Move.message = .request ∧ handle.Breaks) := by simp
  cases turned : handle.turnMessage with
  | none =>
      have stays : handle.move .message = handle := by simp [Handle.move, turned]
      exact .inr (attends_same stage (by rw [stays]) rfl whole)
  | some next =>
      have isNext : handle.move .message = next := by simp [Handle.move, turned]
      obtain ⟨relaying, messaged⟩ := messaged_of_turnMessage turned
      have untold := orderly.tended.untold (by simp [relaying])
      cases messaged with
      | exits at_ silent gone =>
          refine .inr (attends_same stage ?_ rfl whole)
          rw [isNext, unheard_fault, unheard, List.flatMap_append]
          simp [unrelayed, at_, silent]
      | passes at_ queue isOpen =>
          refine .inr (attends_same stage ?_ rfl whole)
          simp [isNext, unheard, messages, unrelayed, at_, queue, isOpen, Event.message?]
      | @stops _ next at_ closed =>
          have stillUntold : IsUntold { handle with interpreter := some next } := untold
          exact .inl (isNext ▸ isMute_returnRelay stillUntold)

/-- What an interpreter says is on its way, unless nobody will be told of anything. -/
theorem Orderly.attends_interpreter (orderly : handle.Orderly) (act : Link.Act WorkerMessage)
    (stage : (handle.move (.interpreter act)).stage number = .hearing output) :
    (handle.move (.interpreter act)).IsMute ∨
      handle.Attends number output (.interpreter act) [] [] := by
  have whole : ¬(Move.interpreter act = .request ∧ handle.Breaks) := by simp
  cases at_ : handle.interpreter with
  | none =>
      refine .inr (attends_same stage ?_ ?_ whole)
      · simp [Handle.move, unheard, messages, unrelayed, at_]
      · cases act <;> simp [speaks, at_]
  | some interpreter =>
      cases act with
      | listen =>
          refine .inr (attends_same stage ?_ rfl whole)
          simp [Handle.move, unheard, messages, unrelayed, at_]
      | leave =>
          refine .inr (attends_same stage ?_ rfl whole)
          simp [Handle.move, unheard, messages, unrelayed, at_, Link.act, Link.dropContext]
      | say message =>
          cases here : interpreter.contextOpen with
          | false =>
              refine .inr (attends_same stage ?_ ?_ whole)
              · simp [Handle.move, unheard, messages, unrelayed, at_, Link.act, here]
              · simp [speaks, at_, here]
          | true =>
              have untold : handle.IsUntold := fun reason told => by
                simp [orderly.left reason told interpreter at_] at here
              cases reached : interpreter.hostOpen with
              | false => exact .inl ⟨untold, .inl (orderly.held interpreter at_ reached)⟩
              | true =>
                  cases isOpen : handle.line.hostOpen with
                  | false => exact .inl ⟨untold, .inr isOpen⟩
                  | true =>
                      refine .inr (attends_nothing stage ?_ whole)
                      simp [Handle.move, speaks, unheard, messages, unrelayed, at_, Link.act,
                        Link.contextSend?, here, reached, isOpen]

/-- What happens to the output that is on its way to a run while no run takes a turn. -/
theorem Orderly.attends_still (orderly : handle.Orderly) {move : Move}
    (nobody : handle.turner? move = none)
    (stage : (handle.move move).stage number = .hearing output) :
    (handle.move move).IsMute ∨ ∃ lost, handle.Attends number output move [] lost := by
  cases move with
  | launched outcome =>
      refine .inr ⟨[], attends_same stage ?_ rfl (by simp)⟩
      by_cases launching : handle.relay = .launching
      · have bare := orderly.bare launching
        simp only [Handle.move, if_pos launching]
        cases outcome with
        | ok launched =>
            have silent : unrelayed { handle with relay := .relaying, interpreter := some {} } =
                handle.unrelayed := by simp [unrelayed, bare]
            rw [Handle.launched, unheard, silent]
            rfl
        | error cause =>
            rw [Handle.launched, unheard_fault, unheard, List.flatMap_append]
            simp [unrelayed, bare]
      · simp only [Handle.move, if_neg launching]
  | request => exact orderly.attends_request stage
  | message => exact (orderly.attends_message stage).imp_right fun attends => ⟨[], attends⟩
  | interpreter act =>
      exact (orderly.attends_interpreter act stage).imp_right fun attends => ⟨[], attends⟩
  | abandon desk run =>
      refine .inr ⟨[], attends_same stage ?_ rfl (by simp)⟩
      simp only [Handle.move, abandon]
      split
      · rfl
      · split <;> rfl
  | terminate =>
      refine .inr ⟨[], attends_same stage ?_ rfl (by simp)⟩
      exact unheard_of_voice (congrArg Strand.voice handle.strand_terminate)
  | drop => exact .inl ⟨by simp [IsUntold, Handle.move, Handle.drop, Link.dropHost], .inr rfl⟩
  | run desk broker code => contradiction
  | turn receiver cancelled desk run => contradiction

/-- A run that listens goes on listening, unless it is over or nobody will be told of a fault. -/
theorem Orderly.attends (orderly : handle.Orderly) (hears : handle.stage number = .hearing output)
    (move : Move) : (handle.move move).IsOver number ∨ (handle.move move).IsMute ∨
      ∃ heard lost, handle.Attends number output move heard lost := by
  cases turns : handle.turner? move with
  | some run =>
      exact (orderly.attends_turn hears turns).imp_right fun ⟨heard, attends⟩ =>
        .inr ⟨heard, [], attends⟩
  | none =>
      rcases (orderly.lingers_move turns).stage number with same | silent
      · exact .inr ((orderly.attends_still turns (same.trans hears)).imp_right
          fun ⟨lost, attends⟩ => ⟨[], lost, attends⟩)
      · exact .inl (.inr silent)

end Attends

/-! ## A run that is told of a fault -/

section Crash

variable {moves : List Move} {collected : Aggregator} {reason : String} {rest : List Event}

theorem readsAll_nil (handle : Handle) : handle.ReadsAll [] := by simp [ReadsAll]

theorem readsAll_cons {move : Move} : handle.ReadsAll (move :: moves) ↔
    ¬(move = .request ∧ handle.Breaks) ∧ (handle.move move).ReadsAll moves := by
  constructor
  · intro reads
    refine ⟨fun ⟨isRequest, breaks⟩ => reads [] moves (by rw [isRequest]; rfl) breaks, ?_⟩
    rintro before rest rfl
    exact reads (move :: before) rest rfl
  · rintro ⟨first, reads⟩ before rest split
    cases before with
    | nil =>
        cases split
        exact fun breaks => first ⟨rfl, breaks⟩
    | cons head before =>
        cases split
        exact reads before rest rfl

theorem Orderly.isOver_moved (orderly : handle.Orderly) (isOver : handle.IsOver number)
    (moves : List Move) : (handle.moved moves).IsOver number := by
  induction moves generalizing handle with
  | nil => exact isOver
  | cons move moves ih => exact ih (orderly.move move) (orderly.isOver_move isOver move)

theorem Orderly.isMute_moved (orderly : handle.Orderly) (isMute : handle.IsMute)
    (moves : List Move) : (handle.moved moves).IsMute := by
  induction moves generalizing handle with
  | nil => exact isMute
  | cons move moves ih => exact ih (orderly.move move) (orderly.isMute_move isMute move)

/-- Nothing is on its way any more when a run is about to be told of a fault. -/
theorem Orderly.unheard_of_told (orderly : handle.Orderly)
    (told : handle.line.toHost = .fault reason :: rest) : handle.unheard = [] := by
  have returned := orderly.tended.faulted reason (told ▸ List.mem_cons_self)
  have nothing := orderly.last [] reason rest told
  have silent : handle.unrelayed = [] := by
    cases at_ : handle.interpreter with
    | none => simp [unrelayed, at_]
    | some interpreter => simp [unrelayed, at_, orderly.spent returned interpreter at_]
  rw [unheard, silent, messages, told, nothing]
  rfl

/-- A run that is about to be told of a fault has heard all that was on its way and all that the
interpreter said, but for what the relay did not read. -/
theorem Orderly.heard_of_told (orderly : handle.Orderly)
    (hears : handle.stage number = .hearing output)
    (goesOn : (handle.moved moves).stage number = .hearing collected)
    (told : (handle.moved moves).line.toHost = .fault reason :: rest) :
    ∃ heard lost, heard ++ lost = handle.unheard ++ handle.said moves ∧
      collected = heard.foldl (fun output chunk => output.push chunk.1 chunk.2) output ∧
      (lost = [] ↔ handle.ReadsAll moves) := by
  induction moves generalizing handle output with
  | nil =>
      rw [moved_nil, hears] at goesOn
      cases goesOn
      exact ⟨[], [], by simp [orderly.unheard_of_told told, said], rfl,
        fun _ => handle.readsAll_nil, fun _ => rfl⟩
  | cons move moves ih =>
      have next := orderly.move move
      rcases orderly.attends hears move with isOver | isMute | ⟨first, lost, attends⟩
      · rcases next.isOver_moved isOver moves with ⟨result, isOver⟩ | silent
        · rw [moved_cons, isOver] at goesOn
          contradiction
        · rw [moved_cons, silent] at goesOn
          contradiction
      · have untold := (next.isMute_moved isMute moves).untold reason
        rw [moved_cons] at told
        exact absurd (told ▸ List.mem_cons_self) untold
      · obtain ⟨heard, later, parts, isCollected, whole⟩ := ih next attends.stage goesOn told
        refine ⟨first ++ heard, later ++ lost, ?_, ?_, ?_⟩
        · have moved := attends.parts
          rw [said, ← List.append_assoc handle.unheard, ← moved]
          by_cases lossless : lost = []
          · subst lossless
            simp only [List.append_nil, List.append_assoc, parts]
          · -- what was lost was the last that the interpreter had said
            rw [next.said_of_isGone (attends.gone lossless), List.append_nil] at parts ⊢
            simp only [← parts, List.append_assoc]
        · rw [isCollected, List.foldl_append]
        · rw [List.append_eq_nil_iff, whole, attends.whole, readsAll_cons, and_comm]

/-- A run that takes a fault in ends with what it has heard and with the reason. -/
theorem turn_of_told (goesOn : handle.stage number = .hearing collected)
    (told : handle.line.toHost = .fault reason :: rest) (receiver : String → Option Nat)
    (desk : Desk) : ∃ desk' after, handle.turn receiver false desk number = some (desk', after) ∧
      after.stage number =
        .returned (collected.push .stderr s!"Worker crashed: {reason}").finish := by
  cases found : handle.runs[number]? with
  | none => simp [stage, phase?, found] at goesOn
  | some run =>
      rw [stage_of_getElem? found] at goesOn
      cases phase : run.phase with
      | running output pending =>
          simp only [phase, Phase.stage, Stage.hearing.injEq] at goesOn
          subst goesOn
          have turned : handle.turn receiver false desk number =
              some (crash desk { handle with line := { handle.line with toHost := rest } } number
                run.broker output reason) := by
            simp [Handle.turn, found, phase, turnRunning, Link.hostReceive, told, receive]
          exact ⟨_, _, turned, stage_finish found _⟩
      | queued => simp [phase, Phase.stage] at goesOn
      | finished result => simp [phase, Phase.stage] at goesOn
      | abandoned => simp [phase, Phase.stage] at goesOn

end Crash

end Handle

namespace Lobby

/-- A worker is started, and the relay passes its first run on. -/
def submitting : List Act :=
  [.acquire "python" 0 ⟨30, 0⟩, .poll 0, .move 0 (.launched (.ok ())),
    .move 0 (.interpreter (.say .ready)), .move 0 .message, .poll 0, .move 0 (.run {} 0 "x"),
    .move 0 .request]

/-- The worker then. -/
def listening : Handle where
  language := "python"
  launcher := 0
  relay := .relaying
  interpreter := some { toContext := [Scan.prepareRun "x"] }
  lock := { holder := some 0 }
  runs := [{ code := "x", broker := 0, phase := .running {} [] }]

/-- The interpreter says something and goes away, and the relay reads it all. -/
def telling : List Handle.Move :=
  [.interpreter (.say (.stdout "A")), .interpreter .leave, .message,
    .turn (fun _ => none) false {} 0, .message]

/-- The interpreter asks for input, says something and goes away, and the relay takes the answer
first. -/
def losing : List Handle.Move :=
  [.interpreter (.say (.inputRequest "q")), .message,
    .turn (fun _ => none) false { brokers := [(0, { language := "python" })] } 0,
    .turn (fun _ => none) false
      { brokers := [(0, { language := "python", tickets := [.answered ""] })] } 0,
    .interpreter (.say (.stdout "A")), .interpreter .leave, .request]

end Lobby

end Polyglot.Worker
