import Groovebox.Trigger.Condition
/-! # The chance dial

One dial sets how likely a step is to sound: its first twenty positions are probabilities from 5%
to 100%, the others are the conditions. A condition always goes with 100%. -/

namespace Groovebox

/-- A probability together with a condition; the probability counts only without a condition. -/
structure Chance where
  /-- The probability in percent. -/
  probability : Nat := 100
  /-- The condition. -/
  condition : Condition := .always
deriving DecidableEq, Repr

namespace Chance

/-- The number of probabilities on the dial. -/
def probabilities : Nat := 20

/-- The last position of the dial; position 0 of the condition table has none. -/
def lastPosition : Nat := 75

/-- The chance at a dial position, moving positions outside the dial to its nearer end. -/
def ofDial (position : Int) : Chance :=
  let i := (min (max position 0) lastPosition).toNat
  if i < probabilities then { probability := (i + 1) * 5 }
  else { probability := 100, condition := Condition.clamped (i - probabilities + 1 : Nat) }

/-- The dial position of a chance; probabilities between two positions go to the nearest. -/
def dial (c : Chance) : Nat :=
  if c.condition.isNone then min (max ((c.probability + 2) / 5) 1) probabilities - 1
  else probabilities + c.condition.index - 1

/-- The label shown for a chance. -/
def label (c : Chance) : String :=
  if c.condition.isNone then toString c.probability ++ "%" else c.condition.name

end Chance
end Groovebox
