import Groovebox.Trigger.Condition
/-! # The transpose sequence

A song may transpose everything that follows the chord by a looping sequence of up to 16 steps,
each an interval in semitones that lasts some beats. A step may jump to another step, by its
position. -/

namespace Groovebox

/-- An interval and how many beats it lasts. -/
structure TransposeStep where
  /-- The interval in semitones. -/
  transpose : Int := 0
  /-- The length in beats. -/
  duration : Nat := 4
  /-- The step to go to afterwards. -/
  jump : Option Nat := none
  /-- The loops on which the step counts. -/
  condition : Condition := .always
deriving DecidableEq, Repr

namespace TransposeStep

instance : Inhabited TransposeStep := ⟨{}⟩

/-- The nearest interval within two octaves. -/
def clampTranspose (t : Int) : Int :=
  min (max t (-24)) 24

/-- The nearest length from 1 to 64 beats. -/
def clampDuration (d : Int) : Nat :=
  (min (max d 1) 64).toNat

/-- A step without jump or condition. -/
def new (transpose duration : Int) : TransposeStep :=
  { transpose := clampTranspose transpose, duration := clampDuration duration }

end TransposeStep

/-- The looping sequence of intervals. -/
structure TransposeSequence where
  /-- The steps in order. -/
  steps : List TransposeStep := []
deriving DecidableEq, Repr

namespace TransposeSequence

instance : Inhabited TransposeSequence := ⟨{}⟩

/-- The most steps a sequence holds. -/
def capacity : Nat := 16

/-- The sequence of the first 16 steps of a list. -/
def ofSteps (steps : List TransposeStep) : TransposeSequence :=
  { steps := steps.take capacity }

/-- The number of steps. -/
def length (q : TransposeSequence) : Nat :=
  q.steps.length

/-- Changes the step at a position, which must exist. -/
def modify? (q : TransposeSequence) (i : Nat) (f : TransposeStep → TransposeStep) :
    Option TransposeSequence :=
  if i < q.length then some { steps := q.steps.modify i f } else none

/-- Changes an existing step, or appends one at the next free position. Without a duration an
existing step keeps its own and a new one lasts four beats. -/
def setStep? (q : TransposeSequence) (i : Nat) (transpose : Int) (duration : Option Int) :
    Option TransposeSequence :=
  if capacity ≤ i then none
  else if i = q.length then
    some { steps := q.steps ++ [TransposeStep.new transpose (duration.getD 4)] }
  else q.modify? i fun s =>
    { s with
      transpose := TransposeStep.clampTranspose transpose
      duration := (duration.map TransposeStep.clampDuration).getD s.duration }

/-- Changes the length of a step. -/
def setDuration? (q : TransposeSequence) (i : Nat) (duration : Int) : Option TransposeSequence :=
  q.modify? i fun s => { s with duration := TransposeStep.clampDuration duration }

/-- The length next to `d` in the direction of `delta`: beat by beat up to five bars, bar by bar
above. -/
def nextDuration (d : Nat) (delta : Int) : Nat :=
  TransposeStep.clampDuration <|
    if 0 < delta then (d : Int) + (if d < 20 then 1 else 4)
    else if delta < 0 then (if d ≤ 20 then (d : Int) - 1 else max ((d : Int) - 4) 20)
    else d

/-- Moves the length of a step by one notch. -/
def adjustDuration? (q : TransposeSequence) (i : Nat) (delta : Int) : Option TransposeSequence :=
  q.modify? i fun s => { s with duration := nextDuration s.duration delta }

/-- Where a jump leads once the step at `removed` is gone: a jump onto it is dropped, a jump past
it follows its target. -/
def retarget (removed : Nat) (jump : Option Nat) : Option Nat :=
  jump.bind fun j => if j = removed then none else if removed < j then some (j - 1) else some j

/-- Removes a step and moves the later ones, and the jumps to them, down by one. -/
def removeStep? (q : TransposeSequence) (i : Nat) : Option TransposeSequence :=
  if i < q.length then
    some { steps := (q.steps.eraseIdx i).map fun s => { s with jump := retarget i s.jump } }
  else none

/-! ## Playing -/

/-- The length of one loop in beats. -/
def totalDuration (q : TransposeSequence) : Nat :=
  q.steps.foldr (fun s total => s.duration + total) 0

/-- The position of the step that covers a beat counted from the start of the loop. -/
def covering? (beat : Nat) : List TransposeStep → Option Nat
  | [] => none
  | s :: rest =>
    if beat < s.duration then some 0 else (covering? (beat - s.duration) rest).map (· + 1)

/-- The position of the step that sounds at a beat. -/
def stepAtBeat? (q : TransposeSequence) (beat : Nat) : Option Nat :=
  if q.totalDuration = 0 then none else covering? (beat % q.totalDuration) q.steps

/-- The interval that sounds at a beat. -/
def transposeAtBeat (q : TransposeSequence) (beat : Nat) : Int :=
  match (q.stepAtBeat? beat).bind (q.steps[·]?) with
  | some s => s.transpose
  | none => 0

end TransposeSequence

/-! ## Labels -/

/-- A count with its unit. -/
def countOf (n : Nat) (unit : String) : String :=
  toString n ++ " " ++ unit ++ (if n = 1 then "" else "s")

/-- A length in bars and beats. -/
def durationLabel (beats : Nat) : String :=
  if beats < 4 then countOf beats "beat"
  else if beats % 4 = 0 then countOf (beats / 4) "bar"
  else countOf (beats / 4) "bar" ++ " " ++ countOf (beats % 4) "beat"

end Groovebox
