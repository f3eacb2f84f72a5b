import Groovebox.Pattern
import Groovebox.Speed
/-! # Tracks

A track owns 16 patterns, plays one of them, and holds the settings that its steps inherit. -/

namespace Groovebox

/-- One voice of a song with its patterns and settings. -/
structure Track where
  /-- The pattern bank. -/
  patterns : Bank Pattern 16 := Vector.replicate 16 {}
  /-- The pattern that plays; none when the track is off. -/
  current : Option Nat := some 0
  /-- The output channel. -/
  channel : Nat := 0
  /-- Whether the track is silenced. -/
  muted : Bool := false
  /-- The speed against the master clock. -/
  speed : Speed := .normal
  /-- The swing in percent; 50 is straight. -/
  swing : Nat := 50
  /-- The number of steps played before the track repeats. -/
  length : Nat := 16
  /-- The number of steps after which the track starts over; 0 is never. -/
  resetLength : Nat := 0
  /-- The sounding part of a step in percent. -/
  gate : Nat := 95
  /-- The arpeggio order. -/
  arpMode : ArpMode := .off
  /-- The arpeggio note value. -/
  arpSpeed : ArpSpeed := .sixteenth
  /-- The arpeggio spread. -/
  arpOctave : ArpOctave := .zero
  /-- Whether an arpeggio goes on across steps. -/
  arpContinuous : Bool := false
  /-- The arpeggio notes that sound, as a bit pattern. -/
  arpPlaySteps : Nat := 1
  /-- The bit of the pattern that comes first. -/
  arpPlayStart : Nat := 0
  /-- The resting value of the first controller. -/
  cc1 : Nat := 64
  /-- The resting value of the second controller. -/
  cc2 : Nat := 64
deriving DecidableEq, Repr

namespace Track

instance : Inhabited Track := ⟨{}⟩

/-- The channel a track starts on: its own for the first eight, the drum channel for the rest. -/
def defaultChannel (index : Nat) : Nat :=
  if index < 8 then index else 9

/-- An empty track on a channel, 15 at most. -/
def new (channel : Nat) : Track :=
  { channel := min channel 15 }

/-- The empty track at a position of a song. -/
def fresh (index : Nat) : Track :=
  new (defaultChannel index)

/-- The pattern that steps are edited in: the one that plays, or the first when the track is off
or points past its bank. -/
def playingIndex (t : Track) : Fin 16 :=
  match t.current with
  | none => 0
  | some p => if h : p < 16 then ⟨p, h⟩ else 0

/-- The pattern that steps are edited in. -/
def playing (t : Track) : Pattern :=
  t.patterns.get t.playingIndex

/-- Replaces one pattern. -/
def setPattern (t : Track) (i : Fin 16) (p : Pattern) : Track :=
  { t with patterns := t.patterns.put i p }

/-- Whether any pattern has content. -/
def hasContent (t : Track) : Bool :=
  t.patterns.any Pattern.hasContent

end Track
end Groovebox
