import Groovebox.Generator.Style
/-! # Edits

Everything a user can do to a song, and to the generator, in one step. -/

namespace Groovebox

/-- One edit. Places are positions from 0; steps are those of the pattern that a track plays. -/
inductive Edit
  | toggleNote (track step note velocity : Nat)
  | clearStep (track step : Nat)
  | setDial (track step : Nat) (position : Int)
  | setRatchet (track step : Nat) (index : Int)
  | setOffset (track step : Nat) (ticks : Int)
  | setBpm (bpm : Int)
  | toggleMute (track : Nat)
  | setCurrent (track : Nat) (pattern : Option Nat)
  | setChordFollow (track : Nat) (follow : Bool)
  | saveSnapshot (slot : Nat)
  | recallSnapshot (slot : Nat)
  | clearSnapshot (slot : Nat)
  | copyPattern (fromTrack fromPattern toTrack toPattern : Nat)
  | setTransposeStep (index : Nat) (transpose : Int) (duration : Option Int)
  | adjustTransposeDuration (index : Nat) (delta : Int)
  | removeTransposeStep (index : Nat)
  | clearTranspose
  | nudgeGenerator (knob : Nat) (delta : Int)
  | setStyle (style : Style)
  | generate (track : Nat)
  | endGenerate
deriving DecidableEq, Repr

end Groovebox
