/-! # The queue of pending saves

Each set has at most one save pending, with the time from which on it is due. -/

namespace Groovebox

/-- A save that is to happen. -/
structure PendingSave where
  /-- The set to save. -/
  set : Nat
  /-- The time from which on it is due, in milliseconds. -/
  due : Nat
deriving DecidableEq, Repr

/-- The pending saves, in the order in which they were scheduled. -/
structure SaveQueue where
  /-- The entries. -/
  pending : List PendingSave := []
deriving DecidableEq, Repr

namespace SaveQueue

instance : Inhabited SaveQueue := ⟨{}⟩

/-- Takes back the save of a set. -/
def cancel (q : SaveQueue) (set : Nat) : SaveQueue :=
  { pending := q.pending.filter fun e => e.set ≠ set }

/-- Schedules the save of a set, in place of one that is pending already. -/
def schedule (q : SaveQueue) (set due : Nat) : SaveQueue :=
  { pending := (q.cancel set).pending ++ [{ set, due }] }

/-- The sets that are due, the earliest first and equal times in the order of scheduling. -/
def dueAt (q : SaveQueue) (now : Nat) : List Nat :=
  let due := q.pending.filter fun e => e.due ≤ now
  (due.mergeSort fun a b => decide (a.due ≤ b.due)).map PendingSave.set

/-- The queue without the saves that are due. -/
def after (q : SaveQueue) (now : Nat) : SaveQueue :=
  { pending := q.pending.filter fun e => ¬ e.due ≤ now }

end SaveQueue
end Groovebox
