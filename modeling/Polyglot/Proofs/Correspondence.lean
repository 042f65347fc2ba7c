import Polyglot.Proofs.Sandbox.Correspondence
import Polyglot.Proofs.Worker.Correspondence

/-!
# The correspondence of hosts with running code

Sandboxes and workers keep to one rule: the answers that a run gets are the values of its
requests, in the order of the requests, each at most once.
-/

namespace Polyglot

/-- Whatever happens to a sandbox executor, and whatever happens to workers whose runs use a
broker: each run has sent the values of its first requests, in order and once each, no other
answer was sent, and no two runs share a request.  The relay of a worker passes answers on in
the order in which they were sent. -/
theorem inOrder_of_runs (desk : Desk) (hook : Nat) (language : String) :
    (∀ occasions : List Sandbox.Occasion,
      ((Sandbox.Correspondence.fresh desk hook language).run occasions).ledger.InOrder) ∧
    ∀ occasions : List Worker.Occasion,
      ((Worker.Correspondence.fresh desk hook language).run occasions).ledger.InOrder ∧
      ∀ handle, ((Worker.Correspondence.fresh desk hook language).run occasions).relayed handle <+:
        ((Worker.Correspondence.fresh desk hook language).run occasions).posted handle :=
  ⟨Sandbox.Correspondence.inOrder_run desk hook language,
    Worker.Correspondence.inOrder_run desk hook language⟩

end Polyglot
