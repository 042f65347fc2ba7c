/-!
# Locks

A lock is held by at most one caller.  The others wait in the order in which
they came, and a lock that is given up belongs to the first of them at once,
even before it looks.
-/

namespace Polyglot

/-- Who holds a lock and who waits for it, first come first. -/
structure Lock where
  holder : Option Nat := none
  waiters : List Nat := []
  deriving Repr, DecidableEq

namespace Lock

/-- Whether nobody holds the lock. -/
def isFree (lock : Lock) : Bool := lock.holder.isNone

/-- Whether a caller holds the lock. -/
def isHeldBy (lock : Lock) (caller : Nat) : Bool := lock.holder = some caller

/-- A caller asks for the lock. -/
def enter (lock : Lock) (caller : Nat) : Lock :=
  match lock.holder with
  | none => { lock with holder := some caller }
  | some _ => { lock with waiters := lock.waiters ++ [caller] }

/-- A caller gives the lock up, or stops waiting for it. -/
def leave (lock : Lock) (caller : Nat) : Lock :=
  if lock.isHeldBy caller then
    match lock.waiters with
    | [] => { lock with holder := none }
    | next :: rest => ⟨some next, rest⟩
  else { lock with waiters := lock.waiters.erase caller }

end Lock

end Polyglot
