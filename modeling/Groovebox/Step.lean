import Groovebox.Arp
import Groovebox.Chord
import Groovebox.Trigger.Chance
import Groovebox.Trigger.Ratchet
/-! # Steps

A step is one slot of a pattern: a chord, when and how it sounds, and the settings it overrides on
its track. -/

namespace Groovebox

/-- One slot of a pattern. An optional setting that is absent is taken from the track. -/
structure Step where
  /-- The notes and their velocities. -/
  chord : Chord := {}
  /-- The sounding part of the step in percent; 0 takes the gate of the track. -/
  gate : Nat := 0
  /-- The first controller lock. -/
  cc1 : Option Nat := none
  /-- The second controller lock. -/
  cc2 : Option Nat := none
  /-- The probability in percent, which counts only without a condition. -/
  probability : Nat := 100
  /-- The loops on which the step sounds. -/
  condition : Condition := .always
  /-- The repetition of the notes within the step. -/
  ratchet : Ratchet := {}
  /-- How many steps the notes are held. -/
  length : Nat := 1
  /-- The loops on which the controller locks apply. -/
  paramSpark : Condition := .always
  /-- The loops on which the ratchet and the jump apply. -/
  compSpark : Condition := .always
  /-- The step to go to next. -/
  jump : Option Nat := none
  /-- The shift against the grid in ticks, 48 to a step. -/
  offset : Int := 0
  /-- The arpeggio order. -/
  arpMode : Option ArpMode := none
  /-- The arpeggio note value. -/
  arpSpeed : Option ArpSpeed := none
  /-- The arpeggio spread. -/
  arpOctave : Option ArpOctave := none
  /-- What happens to the arpeggio before. -/
  arpLayer : ArpLayer := .layer
  /-- The arpeggio notes that sound, as a bit pattern. -/
  arpPlaySteps : Option Nat := none
  /-- The bit of the pattern that comes first. -/
  arpPlayStart : Option Nat := none
deriving DecidableEq, Repr

namespace Step

instance : Inhabited Step := ⟨{}⟩

/-! ## Notes -/

/-- Appends a note where the chord admits it. -/
def addNote? (s : Step) (note velocity : Nat) : Option Step :=
  (s.chord.add? note velocity).map fun chord => { s with chord }

/-- Removes a note that the chord holds. -/
def removeNote? (s : Step) (note : Nat) : Option Step :=
  (s.chord.remove? note).map fun chord => { s with chord }

/-- Removes the note if it is there and adds it otherwise. -/
def toggleNote? (s : Step) (note velocity : Nat) : Option Step :=
  (s.chord.toggle? note velocity).map fun chord => { s with chord }

/-- Replaces the chord. -/
def setChord (s : Step) (notes velocities : List Nat) (fallback : Nat) : Step :=
  { s with chord := Chord.ofLists notes velocities fallback }

/-- Changes the velocity of the note at a position. -/
def setVelocity (s : Step) (i velocity : Nat) : Step :=
  { s with chord := s.chord.setVelocity i velocity }

/-- Removes all notes. -/
def clearNotes (s : Step) : Step :=
  { s with chord := {} }

/-! ## Timing and chance -/

/-- The largest shift against the grid, half a step. -/
def maxOffset : Int := 24

/-- Shifts the step against the grid, by half a step at most. -/
def setOffset (s : Step) (ticks : Int) : Step :=
  { s with offset := min (max ticks (-maxOffset)) maxOffset }

/-- The probability and the condition as one setting. -/
def chance (s : Step) : Chance :=
  { probability := s.probability, condition := s.condition }

/-- Turns the chance dial, which sets probability and condition together. -/
def setDial (s : Step) (position : Int) : Step :=
  let c := Chance.ofDial position
  { s with probability := c.probability, condition := c.condition }

/-! ## Content -/

/-- Whether the step has notes or controller locks, the things that make a song worth keeping. -/
def hasContent (s : Step) : Bool :=
  !s.chord.isEmpty || s.cc1.isSome || s.cc2.isSome

/-- Whether every field holds its default. -/
def isEmpty (s : Step) : Bool :=
  s == {}

end Step
end Groovebox
