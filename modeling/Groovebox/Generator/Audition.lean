import Groovebox.Generator.Notes
import Groovebox.Generator.Params
import Groovebox.Generator.Slots
/-! # Generated patterns and their audition

A generated pattern has notes in some slots of the chosen length. Repeated generation writes over
the pattern generated last, so that the user can try again, but never over other music while an
empty pattern is left. -/

namespace Groovebox

/-! ## Patterns -/

namespace Generator

/-- Fills the given slots in turn and leaves the others as they are. -/
def fillSlots (p : GeneratorParams) (style : Style) (valid : List Nat) (slots : List Nat)
    (steps : Bank Step 64) (g : Random) : Bank Step 64 × Random :=
  match slots with
  | [] => (steps, g)
  | slot :: rest =>
    let (notes, g) := notesFor slot p.length p.voices valid style p.variation g
    let (velocities, g) := velocitiesFor notes.length slot p.length style p.variation g
    let step := ({} : Step).setChord notes velocities baseVelocity
    fillSlots p style valid rest (steps.setIfInBounds slot step) g

/-- The steps of a new pattern. Steps from the chosen length on stay empty. -/
def steps (params : GeneratorParams) (style : Style) (hint : Option Scale) (g : Random) :
    Bank Step 64 × Random :=
  let p := params.clamped
  let valid := validNotes (p.scale.intervals hint) (p.resolveRoot hint) p.octave p.range
  let (active, g) := slots p.length p.density style p.variation g
  fillSlots p style valid (active.filter (· < p.length)) (Vector.replicate 64 {}) g

end Generator

/-! ## Targets -/

/-- The first empty pattern of a track from the playing one on, going round, or the one after the
playing one if none is empty. -/
def Track.emptyTarget (t : Track) : Fin 16 :=
  let choices := (List.range 16).map (Bank.onward t.playingIndex)
  (choices.find? fun i => !(t.patterns.get i).hasContent).getD (Bank.onward t.playingIndex 1)

/-- The pattern of a track that a new one is written to: the one generated last, or else an empty
one. -/
def Track.generationTarget (t : Track) (last : Option Nat) : Fin 16 :=
  match last with
  | some p => if h : p < 16 then ⟨p, h⟩ else t.emptyTarget
  | none => t.emptyTarget

/-- The pattern generated last since the user turned to the generator, with its track. -/
structure Audition where
  /-- The track and the pattern. -/
  last : Option (Nat × Nat) := none
deriving DecidableEq, Repr

namespace Audition

/-- The pattern generated last, if it was on the given track. -/
def lastOn (a : Audition) (track : Nat) : Option Nat :=
  a.last.bind fun (t, p) => if t = track then some p else none

/-- What a generation changes: the audition, the track, and the random generator; and where it
went. -/
structure Outcome where
  /-- The pattern written to. -/
  target : Fin 16
  /-- The audition afterwards. -/
  audition : Audition
  /-- The track afterwards. -/
  track : Track
  /-- The random generator afterwards. -/
  random : Random

/-- Generates a pattern into the target on a track, which then plays it with the chosen length. -/
def generate (a : Audition) (index : Nat) (track : Track) (params : GeneratorParams)
    (style : Style) (hint : Option Scale) (g : Random) : Outcome :=
  let target := track.generationTarget (a.lastOn index)
  let (steps, g) := Generator.steps params style hint g
  { target
    audition := { last := some (index, target) }
    track := { track.setPattern target { track.patterns.get target with steps } with
      length := params.clamped.length
      current := some target }
    random := g }

/-- Forgets the pattern generated last. -/
def finish (_ : Audition) : Audition := {}

end Audition
end Groovebox
