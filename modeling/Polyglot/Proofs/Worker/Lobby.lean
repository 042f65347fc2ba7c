import Polyglot.Worker.Registry
import Polyglot.Proofs.Worker.Lending
import Polyglot.Proofs.Worker.Moves

/-!
# Callers of a registry

Any number of callers ask one registry for workers.  Each looks on its own time at what it waits
for and may go away at any point; in between starts take too long, languages are shut down and
workers move.
-/

namespace Polyglot.Worker

/-- Where a caller stands. -/
inductive Standing where
  /-- It waits for the start that it joined. -/
  | waiting
  | returned (outcome : Except WorkerError Nat)
  /-- It has gone away. -/
  | gone
  deriving Repr

/-- Somebody who asked for the worker of a language. -/
structure Caller where
  language : String
  /-- What came of asking, at once. -/
  acquisition : Acquisition
  standing : Standing
  deriving Repr

/-- A registry with everybody who ever asked it for a worker, first come first. -/
structure Lobby where
  registry : Registry := {}
  callers : List Caller := []
  deriving Repr

namespace Lobby

/-- What happens in a lobby. -/
inductive Act where
  /-- Somebody asks for the worker of a language. -/
  | acquire (language : String) (launcher : Nat) (timeout : Duration)
  /-- A caller looks. -/
  | poll (caller : Nat)
  /-- A caller goes away. -/
  | leave (caller : Nat)
  /-- A start has taken all the time it may take. -/
  | expire (start : Nat)
  | shutdown (language : String)
  | shutdownAll
  /-- A worker moves. -/
  | move (handle : Nat) (move : Handle.Move)

/-- Sets where a caller stands. -/
def setStanding (lobby : Lobby) (number : Nat) (standing : Standing) : Lobby :=
  { lobby with callers := lobby.callers.modify number fun caller => { caller with standing } }

/-- A new caller, up to the point where it has to wait. -/
def acquire (lobby : Lobby) (language : String) (launcher : Nat) (timeout : Duration) : Lobby :=
  let (registry, acquisition) := lobby.registry.acquire language launcher timeout
  let standing : Standing :=
    match acquisition with
    | .held handle => .returned (.ok handle)
    | .joined _ => .waiting
  ⟨registry, lobby.callers ++ [⟨language, acquisition, standing⟩]⟩

/-- A caller looks at the start that it joined: the start goes on, or the caller has its
outcome. -/
def poll (lobby : Lobby) (number : Nat) : Lobby :=
  match lobby.callers[number]? with
  | some ⟨language, .joined start, .waiting⟩ =>
    match lobby.registry.outcome? start with
    | none => { lobby with registry := (lobby.registry.turnStart start).getD lobby.registry }
    | some outcome =>
      { lobby with registry := lobby.registry.collect language start outcome }.setStanding number
        (.returned outcome)
  | _ => lobby

/-- A caller that waits goes away. -/
def leave (lobby : Lobby) (number : Nat) : Lobby :=
  match lobby.callers[number]? with
  | some ⟨_, _, .waiting⟩ => lobby.setStanding number .gone
  | _ => lobby

/-- Changes the registry. -/
def changeRegistry (lobby : Lobby) (change : Registry → Registry) : Lobby :=
  { lobby with registry := change lobby.registry }

/-- The lobby after an act. -/
def step (lobby : Lobby) : Act → Lobby
  | .acquire language launcher timeout => lobby.acquire language launcher timeout
  | .poll caller => lobby.poll caller
  | .leave caller => lobby.leave caller
  | .expire start => lobby.changeRegistry (·.expire start)
  | .shutdown language => lobby.changeRegistry fun registry => (registry.shutdown language).1
  | .shutdownAll => lobby.changeRegistry Registry.shutdownAll
  | .move handle move => lobby.changeRegistry (·.modifyHandle handle (·.move move))

/-- The lobby after several acts. -/
def run (lobby : Lobby) (acts : List Act) : Lobby :=
  acts.foldl step lobby

@[simp] theorem run_nil (lobby : Lobby) : lobby.run [] = lobby := rfl

@[simp] theorem run_cons (lobby : Lobby) (act : Act) (acts : List Act) :
    lobby.run (act :: acts) = (lobby.step act).run acts := rfl

/-- A caller that looks has nothing to wait for, or lets its start go on, or has its outcome. -/
theorem poll_cases (lobby : Lobby) (number : Nat) :
    lobby.poll number = lobby ∨
      ∃ language start,
        lobby.callers[number]? = some ⟨language, .joined start, .waiting⟩ ∧
          ((lobby.registry.outcome? start = none ∧
              lobby.poll number =
                { lobby with
                  registry := (lobby.registry.turnStart start).getD lobby.registry }) ∨
            ∃ outcome, lobby.registry.outcome? start = some outcome ∧
              lobby.poll number =
                { lobby with registry := lobby.registry.collect language start outcome }.setStanding
                  number (.returned outcome)) := by
  simp only [poll]
  split
  · rename_i language start found
    refine .inr ⟨language, start, found, ?_⟩
    split
    · rename_i pending
      exact .inl ⟨pending, rfl⟩
    · rename_i outcome settled
      exact .inr ⟨outcome, settled, rfl⟩
  · exact .inl rfl

theorem registry_leave (lobby : Lobby) (number : Nat) :
    (lobby.leave number).registry = lobby.registry := by
  simp only [leave]
  split <;> rfl

theorem registry_acquire (lobby : Lobby) (language : String) (launcher : Nat)
    (timeout : Duration) :
    (lobby.acquire language launcher timeout).registry =
      (lobby.registry.acquire language launcher timeout).1 := rfl

theorem run_append (lobby : Lobby) (acts more : List Act) :
    lobby.run (acts ++ more) = (lobby.run acts).run more := List.foldl_append

end Lobby

end Polyglot.Worker
