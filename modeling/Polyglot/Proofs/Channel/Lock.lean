import Mathlib.Data.List.Nodup
import Polyglot.Channel.Lock

/-!
# Locks as queues

A lock is a queue of callers whose first member holds it.  Asking for the lock
appends to the queue and leaving erases from it, so whatever is said about a
holder and its waiters can be said about one list.
-/

namespace Polyglot.Lock

/-- Everybody who asked for the lock and has not left, in the order of asking. -/
def line (lock : Lock) : List Nat := lock.holder.toList ++ lock.waiters

/-- Nobody waits for a lock that nobody holds. -/
def Ordered (lock : Lock) : Prop := lock.holder = none → lock.waiters = []

@[simp] theorem line_empty : line {} = [] := rfl

theorem ordered_empty : Ordered {} := fun _ => rfl

@[simp] theorem isHeldBy_iff {lock : Lock} {caller : Nat} :
    lock.isHeldBy caller = true ↔ lock.holder = some caller := by
  simp [isHeldBy]

/-- Whoever asks goes to the end of the line. -/
theorem line_enter {lock : Lock} (ordered : lock.Ordered) (caller : Nat) :
    (lock.enter caller).line = lock.line ++ [caller] := by
  cases held : lock.holder with
  | none => simp [line, enter, held, ordered held]
  | some holder => simp [line, enter, held]

theorem ordered_enter (lock : Lock) (caller : Nat) : (lock.enter caller).Ordered := by
  intro free
  cases held : lock.holder with
  | none => simp [enter, held] at free
  | some holder => simp [enter, held] at free

/-- Whoever leaves is taken out of the line, and the next one becomes the first. -/
theorem line_leave {lock : Lock} (caller : Nat) :
    (lock.leave caller).line = lock.line.erase caller := by
  by_cases held : lock.holder = some caller
  · cases waiting : lock.waiters with
    | nil => simp [line, leave, held, waiting]
    | cons next rest => simp [line, leave, held, waiting]
  · have unheld : lock.isHeldBy caller = false := by simpa [isHeldBy] using held
    cases holder : lock.holder with
    | none => simp [line, leave, unheld, holder]
    | some other =>
        have different : (other == caller) = false := by
          simpa [holder] using held
        simp [line, leave, unheld, holder, different]

theorem Ordered.leave {lock : Lock} (ordered : lock.Ordered) (caller : Nat) :
    (lock.leave caller).Ordered := by
  intro free
  by_cases held : lock.holder = some caller
  · cases waiting : lock.waiters with
    | nil => simp [Lock.leave, held, waiting]
    | cons next rest => simp [Lock.leave, held, waiting] at free
  · have unheld : lock.isHeldBy caller = false := by simpa [isHeldBy] using held
    simp only [Lock.leave, unheld, Bool.false_eq_true, if_false] at free ⊢
    simp [ordered free]

/-- A lock that admits callers one by one: those in line are the ones whose call
goes on, and only the first of them can be past the lock. -/
structure Admits (lock : Lock) (goesOn isInside : Nat → Prop) : Prop where
  ordered : lock.Ordered
  nodup : lock.line.Nodup
  mem_line : ∀ caller, caller ∈ lock.line ↔ goesOn caller
  holds : ∀ caller, isInside caller → lock.holder = some caller

namespace Admits

variable {lock : Lock} {goesOn isInside goesOn' isInside' : Nat → Prop} {caller : Nat}

/-- A lock that nobody uses admits nobody. -/
theorem empty (none : ∀ caller, ¬goesOn caller) (inside : ∀ caller, ¬isInside caller) :
    Admits {} goesOn isInside where
  ordered := ordered_empty
  nodup := List.nodup_nil
  mem_line caller := by simp [none caller]
  holds caller entered := absurd entered (inside caller)

/-- The first of the line is one whose call goes on. -/
theorem goesOn_of_holder (admits : lock.Admits goesOn isInside)
    (held : lock.holder = some caller) : goesOn caller := by
  rw [← admits.mem_line]
  simp [line, held]

theorem congr (admits : lock.Admits goesOn isInside)
    (same : ∀ caller, goesOn' caller ↔ goesOn caller)
    (holds : ∀ caller, isInside' caller → lock.holder = some caller) :
    lock.Admits goesOn' isInside' where
  ordered := admits.ordered
  nodup := admits.nodup
  mem_line caller := by rw [admits.mem_line, same]
  holds := holds

/-- A new call asks for the lock. -/
theorem enter (admits : lock.Admits goesOn isInside) (new : ¬goesOn caller)
    (grows : ∀ other, goesOn' other ↔ goesOn other ∨ other = caller)
    (inside : ∀ other, isInside' other → isInside other) :
    (lock.enter caller).Admits goesOn' isInside' where
  ordered := ordered_enter lock caller
  nodup := by
    rw [line_enter admits.ordered, List.nodup_append]
    refine ⟨admits.nodup, by simp, ?_⟩
    intro other member last lastMem equal
    obtain rfl : last = caller := by simpa using lastMem
    exact new ((admits.mem_line last).mp (equal ▸ member))
  mem_line other := by
    simp [line_enter admits.ordered, admits.mem_line, grows]
  holds other entered := by
    have held := admits.holds other (inside other entered)
    simp [Lock.enter, held]

/-- A call ends, and the lock goes to the next in line. -/
theorem leave (admits : lock.Admits goesOn isInside)
    (shrinks : ∀ other, goesOn' other ↔ goesOn other ∧ other ≠ caller)
    (inside : ∀ other, isInside' other → isInside other ∧ other ≠ caller) :
    (lock.leave caller).Admits goesOn' isInside' where
  ordered := admits.ordered.leave caller
  nodup := by
    rw [line_leave]
    exact admits.nodup.erase caller
  mem_line other := by
    rw [line_leave, admits.nodup.mem_erase_iff, admits.mem_line, shrinks]
    exact and_comm
  holds other entered := by
    obtain ⟨wasInside, different⟩ := inside other entered
    have held := admits.holds other wasInside
    have unheld : lock.isHeldBy caller = false := by
      simpa [isHeldBy, held] using different
    simp [Lock.leave, unheld, held]

end Admits

end Polyglot.Lock
