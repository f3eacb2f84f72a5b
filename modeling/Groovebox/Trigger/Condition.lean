import Groovebox.Trigger.Ratchet
/-! # Loop conditions

A condition lets a step sound on some loops of its pattern only: on loop `m` of every `n`, or on
every loop but that one. The 56 cycles form one table; position 0 stands for no condition. -/

namespace Groovebox

/-- Loop `m` (counted from 1) of every `n` loops, or every loop but that one when inverted. -/
structure Cycle where
  /-- The number of loops in a cycle. -/
  n : Nat
  /-- The loop within the cycle, counted from 1. -/
  m : Nat
  /-- Whether the step sounds on all other loops instead. -/
  invert : Bool
deriving DecidableEq, Repr

namespace Cycle

/-- Whether the cycle lets a step sound after `iteration` completed loops. -/
def fires (c : Cycle) (iteration : Nat) : Bool :=
  decide (iteration % c.n = c.m - 1) != c.invert

/-- As `fires`, but undefined on a cycle of no loops. -/
def fires? (c : Cycle) (iteration : Nat) : Option Bool :=
  if c.n = 0 then none else some (c.fires iteration)

/-- The cycle lengths on offer. -/
def lengths : List Nat := [2, 3, 4, 5, 6, 8]

/-- Every loop of every cycle length, in table order. -/
def half (invert : Bool) : List Cycle :=
  lengths.flatMap fun n => (List.range n).map fun m => { n, m := m + 1, invert }

/-- All cycles in table order: the plain ones, then their inverted copies. -/
def all : List Cycle :=
  half false ++ half true

end Cycle

/-- A position in the condition table; 0 means that the step sounds on every loop. -/
structure Condition where
  /-- The position in the table. -/
  position : Fin 57
deriving DecidableEq, Repr

namespace Condition

/-- No condition: the step sounds on every loop. -/
def always : Condition := ⟨0⟩

instance : Inhabited Condition := ⟨always⟩

/-- The condition at a position, refusing positions outside the table. -/
def ofIndex (i : Int) : Except TriggerFault Condition :=
  if h : 0 ≤ i ∧ i < 57 then .ok ⟨⟨i.toNat, by omega⟩⟩ else .error (.conditionIndex i)

/-- The condition at a position, moving positions outside the table to its nearer end. -/
def clamped (i : Int) : Condition :=
  ⟨⟨(min (max i 0) 56).toNat, by omega⟩⟩

/-- The position of a cycle, if it is in the table. -/
def ofCycle? (c : Cycle) : Option Condition :=
  let i := Cycle.all.idxOf c
  if h : i < 56 then some ⟨⟨i + 1, by omega⟩⟩ else none

/-- The stored position. -/
def index (c : Condition) : Nat := c.position.val

/-- Whether the step sounds on every loop. -/
def isNone (c : Condition) : Bool := c.position == 0

/-- The cycle behind a condition, if it has one. -/
def cycle? (c : Condition) : Option Cycle :=
  if c.isNone then none else Cycle.all[c.index - 1]?

/-- Whether the step sounds after `iteration` completed loops. -/
def fires (c : Condition) (iteration : Nat) : Bool :=
  match c.cycle? with
  | none => true
  | some cycle => cycle.fires iteration

/-- The name shown for a condition: `m:n`, with `!` in front when inverted. -/
def name (c : Condition) : String :=
  match c.cycle? with
  | none => "---"
  | some cycle =>
    (if cycle.invert then "!" else "") ++ toString cycle.m ++ ":" ++ toString cycle.n

end Condition
end Groovebox
