import Groovebox.Binary64
import Groovebox.Generator.Style
import Groovebox.Random
/-! # Which notes sound, and how hard

Notes are picked from the scale around a centre that the style chooses; velocities follow a curve
of the style with a little chance. -/

namespace Groovebox.Generator

/-- The notes of a scale from an octave up through some octaves, as far as notes go. -/
def validNotes (intervals : List Nat) (root octave range : Nat) : List Nat :=
  let low := (octave + 1) * 12 + root
  let above := min (low + range * 12) 128
  (List.range' low (above - low)).filter fun note => intervals.contains ((note - root) % 12)

/-! ## Picking -/

/-- A random shift by -4 to 3 places. -/
def jitter (g : Random) : Int × Random :=
  let (k, g) := g.unit53
  ((k / 1125899906842624 : Nat) - 4, g)

/-- Whether a place between 0 and `last` is still free. -/
def isFree (taken : List Nat) (last : Nat) (place : Int) : Bool :=
  decide (0 ≤ place) && decide (place ≤ last) && !taken.contains place.toNat

/-- The free place nearest to `start`, the upper one of two at the same distance. -/
def nearestFree? (taken : List Nat) (last : Nat) (start : Int) : Option Nat :=
  (List.range (last + 1)).findSome? fun (distance : Nat) =>
    if isFree taken last (start + distance) then some (start + distance).toNat
    else if isFree taken last (start - distance) then some (start - distance).toNat
    else none

/-- Takes up to `count` free places between 0 and `last`, each near `centre`. -/
def pickPlaces (last : Nat) (centre : Int) (taken : List Nat) (count : Nat) (g : Random) :
    List Nat × Random :=
  match count with
  | 0 => (taken, g)
  | count + 1 =>
    if last < taken.length then (taken, g)
    else
      let (shift, g) := jitter g
      let start := min (max (centre + shift) 0) last
      match nearestFree? taken last start with
      | some place => pickPlaces last centre (place :: taken) count g
      | none => pickPlaces last centre taken count g

/-- Up to `count` different notes near the place `centre`, ascending. -/
def notesNear (valid : List Nat) (centre count : Nat) (g : Random) : List Nat × Random :=
  if valid.isEmpty then ([], g)
  else
    let last := valid.length - 1
    let (places, g) := pickPlaces last (min centre last : Nat) [] count g
    ((places.filterMap (valid[·]?)).mergeSort fun a b => decide (a ≤ b), g)

/-! ## Curves over the pattern -/

/-- Where a step stands in the pattern, from 0 to 1. -/
def position (step length : Nat) : Float :=
  step.toFloat / (max (length - 1) 1).toFloat

/-- The variation from 0 to 1. -/
def fraction (variation : Nat) : Float :=
  variation.toFloat / 127.0

/-- A curve that rises to 1 where the variation says and falls from there. -/
def arc (position peak : Float) : Float :=
  if position ≤ peak then (if 0.0 < peak then position / peak else 0.0)
  else if peak < 1.0 then 1.0 - (position - peak) / (1.0 - peak)
  else 1.0

/-- The place in the scale around which the notes of a step are picked. -/
def centre (step length places : Nat) (style : Style) (variation : Nat) (g : Random) :
    Nat × Random :=
  let span := (places - 1).toFloat
  let along := position step length
  let bend := 1.0 + fraction variation * 2.0
  match style with
  | .rising => (Binary64.wholePart (Float.pow along bend * span), g)
  | .falling => (Binary64.wholePart (Float.pow (1.0 - along) bend * span), g)
  | .arc => (Binary64.wholePart (arc along (fraction variation) * span), g)
  | .pulse => if step % 4 = 0 then (0, g) else g.below places
  | _ => g.below places

/-- The note of last resort, for a scale without notes in range. -/
def fallbackNote : Nat := 60

/-- The notes of a step, ascending. -/
def notesFor (step length voices : Nat) (valid : List Nat) (style : Style) (variation : Nat)
    (g : Random) : List Nat × Random :=
  if valid.isEmpty then ([fallbackNote], g)
  else
    let (centre, g) := centre step length valid.length style variation g
    notesNear valid centre voices g

/-! ## Velocities -/

/-- The velocity around which styles vary. -/
def baseVelocity : Nat := 90

/-- A random number from -1/2 to 1/2, times a width. -/
def spread (width : Float) (g : Random) : Float × Random :=
  let (k, g) := g.unit53
  ((k.toFloat / 9007199254740992.0 - 0.5) * width, g)

/-- The velocity that the style gives a step. -/
def curve (step length : Nat) (style : Style) (variation : Nat) (g : Random) : Float × Random :=
  match style with
  | .pulse =>
    let accent := fraction variation * 30.0
    (if step % 4 = 0 then 90.0 + accent else 90.0 - accent / 2.0, g)
  | .rising => (60.0 + position step length * 60.0, g)
  | .falling => (120.0 - position step length * 60.0, g)
  | _ =>
    let (x, g) := spread 25.0 g
    (90.0 + x, g)

/-- The velocity of one note: the curve of the style with a little chance, rounded and moved into
range. -/
def velocity (step length : Nat) (style : Style) (variation : Nat) (g : Random) : Nat × Random :=
  let (x, g) := curve step length style variation g
  let (shake, g) := spread 10.0 g
  ((min (max (Binary64.ofFloat (x + shake)).round 1) 127).toNat, g)

/-- The velocities of the notes of a step. -/
def velocitiesFor (count step length : Nat) (style : Style) (variation : Nat) (g : Random) :
    List Nat × Random :=
  match count with
  | 0 => ([], g)
  | count + 1 =>
    let (v, g) := velocity step length style variation g
    let (rest, g) := velocitiesFor count step length style variation g
    (v :: rest, g)

end Groovebox.Generator
