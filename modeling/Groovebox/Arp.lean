import Groovebox.Table
/-! # Arpeggiator settings

The order in which an arpeggio walks a chord, its note value, its octave spread, and how a new
arpeggio treats the one before it. -/

namespace Groovebox

/-- The order in which an arpeggio plays the notes of a chord. -/
inductive ArpMode
  | off | up | down | upDown | downUp | upAndDown | downAndUp | random | chord | outsideIn
  | insideOut | converge | diverge | thumb | pinky
deriving DecidableEq, Inhabited, Repr

instance : Table ArpMode where
  all := [.off, .up, .down, .upDown, .downUp, .upAndDown, .downAndUp, .random, .chord, .outsideIn,
    .insideOut, .converge, .diverge, .thumb, .pinky]
  name
    | .off => "Off"
    | .up => "Up"
    | .down => "Down"
    | .upDown => "UpDown"
    | .downUp => "DownUp"
    | .upAndDown => "UpAndDown"
    | .downAndUp => "DownAndUp"
    | .random => "Random"
    | .chord => "Chord"
    | .outsideIn => "OutsideIn"
    | .insideOut => "InsideOut"
    | .converge => "Converge"
    | .diverge => "Diverge"
    | .thumb => "Thumb"
    | .pinky => "Pinky"
  mem_all := by intro m; cases m <;> decide

/-- The note value of one arpeggio note; sixteen steps make a bar. -/
inductive ArpSpeed
  | thirtySecond | tripletSixteenth | sixteenth | tripletEighth | eighth | tripletQuarter
  | quarter | tripletHalf | half | whole
deriving DecidableEq, Inhabited, Repr

instance : Table ArpSpeed where
  all := [.thirtySecond, .tripletSixteenth, .sixteenth, .tripletEighth, .eighth, .tripletQuarter,
    .quarter, .tripletHalf, .half, .whole]
  name
    | .thirtySecond => "ThirtySecond"
    | .tripletSixteenth => "TripletSixteenth"
    | .sixteenth => "Sixteenth"
    | .tripletEighth => "TripletEighth"
    | .eighth => "Eighth"
    | .tripletQuarter => "TripletQuarter"
    | .quarter => "Quarter"
    | .tripletHalf => "TripletHalf"
    | .half => "Half"
    | .whole => "Whole"
  mem_all := by intro s; cases s <;> decide

/-- How far an arpeggio spreads over the octaves. -/
inductive ArpOctave
  | zero | up1 | up2 | down1 | down2 | both1 | both2
deriving DecidableEq, Inhabited, Repr

instance : Table ArpOctave where
  all := [.zero, .up1, .up2, .down1, .down2, .both1, .both2]
  name
    | .zero => "Zero"
    | .up1 => "Up1"
    | .up2 => "Up2"
    | .down1 => "Down1"
    | .down2 => "Down2"
    | .both1 => "Both1"
    | .both2 => "Both2"
  mem_all := by intro o; cases o <;> decide

/-- Whether arpeggios play over each other (`layer`) or a new one silences the one before
(`cut`). Only steps carry this setting. -/
inductive ArpLayer
  | layer | cut
deriving DecidableEq, Inhabited, Repr

instance : Table ArpLayer where
  all := [.layer, .cut]
  name
    | .layer => "Layer"
    | .cut => "Cut"
  mem_all := by intro l; cases l <;> decide

end Groovebox
