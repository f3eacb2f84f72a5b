import Groovebox.Bank
import Groovebox.Step
/-! # Patterns

A pattern has 64 steps and the window of them that it loops over. -/

namespace Groovebox

/-- The steps from `start` to `stop`, both included, that a pattern loops over. -/
structure LoopWindow where
  /-- The first step of the loop. -/
  start : Nat
  /-- The last step of the loop. -/
  stop : Nat
  start_le_stop : start ≤ stop
  stop_lt : stop < 64
deriving DecidableEq, Repr

/-- The window of all steps. -/
def LoopWindow.whole : LoopWindow := ⟨0, 63, by decide, by decide⟩

/-- The window with the given ends, if they are in order and within the pattern. -/
def LoopWindow.of? (start stop : Nat) : Option LoopWindow :=
  if h : start ≤ stop ∧ stop < 64 then some ⟨start, stop, h.1, h.2⟩ else none

/-- A bar of music that repeats: 64 steps and a loop window. -/
structure Pattern where
  /-- The steps. -/
  steps : Bank Step 64 := Vector.replicate 64 {}
  /-- The steps that are looped over. -/
  loop : LoopWindow := .whole
deriving DecidableEq, Repr

namespace Pattern

instance : Inhabited Pattern := ⟨{}⟩

/-- The first 64 steps of a list, filled up with empty steps. -/
def fit (steps : List Step) : Bank Step 64 :=
  Vector.ofFn fun i => steps.getD i {}

/-- The pattern with the given steps, as many as fit. -/
def ofSteps (steps : List Step) : Pattern :=
  { steps := fit steps }

/-- Replaces the steps and keeps the loop window. -/
def replaceSteps (p : Pattern) (steps : List Step) : Pattern :=
  { p with steps := fit steps }

/-- Replaces the step at a position within the pattern. -/
def setStep (p : Pattern) (i : Fin 64) (s : Step) : Pattern :=
  { p with steps := p.steps.put i s }

/-- Sets the loop window; ends out of order or out of range are refused. -/
def setLoop? (p : Pattern) (start stop : Nat) : Option Pattern :=
  (LoopWindow.of? start stop).map fun loop => { p with loop }

/-- Whether any step has content. -/
def hasContent (p : Pattern) : Bool :=
  p.steps.any Step.hasContent

/-- Whether the pattern is the default one, loop window included. -/
def isEmpty (p : Pattern) : Bool :=
  p == {}

end Pattern
end Groovebox
