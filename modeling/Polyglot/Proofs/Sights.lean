import Polyglot.Proofs.Sandbox.Sights
import Polyglot.Proofs.Worker.Sights

/-!
# Results depend on what was heard only

Sandboxes and workers keep to one rule: the result of a run is made of what the run saw up to its
end.  When answers came, in which order and what they were does not change it.
-/

namespace Polyglot

/-- Whatever happens to a sandbox executor or to a worker that is new: a run returns the output up
to the end that it saw, with what the end adds, and nothing before it saw one.  So runs that see
the same output and the same end return the same, whatever was asked and answered meanwhile. -/
theorem isMadeOf_sights :
    (∀ (desk : Desk) (language : String) (broker : Nat) (events : List Sandbox.Event)
        (number : Nat),
      Sight.IsMadeOf
        (((Sandbox.Place.fresh desk language broker).run events).executor.result? number)
        ((Sandbox.Place.fresh desk language broker).sights number events)) ∧
    (∀ handle : Worker.Handle, handle.runs = [] →
      ∀ (moves : List Worker.Handle.Move) (number : Nat),
        Sight.IsMadeOf ((handle.moved moves).result? number) (handle.sights number moves)) ∧
    (∀ (desk₁ desk₂ : Desk) (language₁ language₂ : String) (broker₁ broker₂ : Nat)
        (events₁ events₂ : List Sandbox.Event) (number₁ number₂ : Nat),
      ((Sandbox.Place.fresh desk₁ language₁ broker₁).sights number₁ events₁).filter
          Sight.matters =
        ((Sandbox.Place.fresh desk₂ language₂ broker₂).sights number₂ events₂).filter
          Sight.matters →
      ((Sandbox.Place.fresh desk₁ language₁ broker₁).run events₁).executor.result? number₁ =
        ((Sandbox.Place.fresh desk₂ language₂ broker₂).run events₂).executor.result? number₂) ∧
    ∀ handle₁ handle₂ : Worker.Handle, handle₁.runs = [] → handle₂.runs = [] →
      ∀ (moves₁ moves₂ : List Worker.Handle.Move) (number₁ number₂ : Nat),
        (handle₁.sights number₁ moves₁).filter Sight.matters =
          (handle₂.sights number₂ moves₂).filter Sight.matters →
        (handle₁.moved moves₁).result? number₁ = (handle₂.moved moves₂).result? number₂ := by
  refine ⟨Sandbox.Place.isMadeOf_run, fun _ new => Worker.Handle.isMadeOf_moved new, ?_, ?_⟩
  · intro desk₁ desk₂ language₁ language₂ broker₁ broker₂ events₁ events₂ number₁ number₂ same
    exact (Sandbox.Place.isMadeOf_run desk₁ language₁ broker₁ events₁ number₁).same
      (Sandbox.Place.isMadeOf_run desk₂ language₂ broker₂ events₂ number₂) same
  · intro handle₁ handle₂ new₁ new₂ moves₁ moves₂ number₁ number₂ same
    exact (Worker.Handle.isMadeOf_moved new₁ moves₁ number₁).same
      (Worker.Handle.isMadeOf_moved new₂ moves₂ number₂) same

/-- A desk whose only broker had one request, answered so. -/
def Desk.answering (value : String) : Desk :=
  { brokers := [(0, { language := "python", tickets := [.answered value] })] }

/-- Code in a sandbox asks for input and gets an answer after it has gone on. -/
def Sandbox.asking (value : String) : List Sandbox.Event :=
  [.call (.execute "x"), .launched 0 (.ok ()), .context 0 (.say (.inputRequest "?")),
    .context 0 (.say (.stdout "A")), .poll (fun _ => none) 0, .poll (fun _ => none) 0,
    .desk (.answering value), .poll (fun _ => none) 0, .context 0 (.say .executionComplete),
    .poll (fun _ => none) 0]

/-- Code on a worker asks for input and gets an answer before it goes on. -/
def Worker.asking (value : String) : List Worker.Handle.Move :=
  [.launched (.ok ()), .run {} 0 "x", .interpreter (.say (.inputRequest "?")), .message,
    .turn (fun _ => none) false {} 0, .turn (fun _ => none) false (.answering value) 0,
    .interpreter (.say (.stdout "A")), .message, .turn (fun _ => none) false {} 0,
    .interpreter (.say .done), .message, .turn (fun _ => none) false {} 0]

/-- Code that gets one answer or another sees and returns the same, in a sandbox and on a
worker. -/
theorem isMadeOf_sights_asking :
    (((Sandbox.Place.fresh {} "javascript" 0).run (Sandbox.asking "yes")).executor.result? 0 =
        some (.success "A") ∧
      ((Sandbox.Place.fresh {} "javascript" 0).run (Sandbox.asking "yes")).executor.result? 0 =
        ((Sandbox.Place.fresh {} "javascript" 0).run (Sandbox.asking "no")).executor.result? 0) ∧
    Sight.Yields
      (({ language := "python", launcher := 0 } : Worker.Handle).sights 0 (Worker.asking "yes"))
      (.success "A") ∧
    (({ language := "python", launcher := 0 } : Worker.Handle).moved
        (Worker.asking "yes")).result? 0 =
      (({ language := "python", launcher := 0 } : Worker.Handle).moved
        (Worker.asking "no")).result? 0 := by
  have worker := isMadeOf_sights.2.1 { language := "python", launcher := 0 } rfl
    (Worker.asking "yes") 0
  exact ⟨⟨rfl, isMadeOf_sights.2.2.1 _ _ _ _ _ _ _ _ _ _ rfl⟩, (worker.yields _).mp rfl,
    isMadeOf_sights.2.2.2 _ _ rfl rfl _ _ _ _ rfl⟩

end Polyglot
