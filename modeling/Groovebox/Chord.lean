/-! # Chords

The notes of a step in playing order, with their velocities in a parallel list. A chord holds at
most seven different notes of the range 0 to 127; velocities lie in 1 to 127. -/

namespace Groovebox

/-- The notes of a step and, in the same order, how hard each is struck. -/
structure Chord where
  /-- The notes in playing order. -/
  notes : List Nat := []
  /-- One velocity for each note. -/
  velocities : List Nat := []
deriving DecidableEq, Repr

namespace Chord

instance : Inhabited Chord := ⟨{}⟩

/-- The most notes one chord holds. -/
def capacity : Nat := 7

/-- The nearest velocity that sounds. -/
def clampVelocity (v : Nat) : Nat :=
  min (max v 1) 127

/-- Appends a note; refused if the note is out of range or already held, or the chord is full. -/
def add? (c : Chord) (note velocity : Nat) : Option Chord :=
  if 127 < note ∨ note ∈ c.notes ∨ capacity ≤ c.notes.length then none
  else some
    { notes := c.notes ++ [note], velocities := c.velocities ++ [clampVelocity velocity] }

/-- Appends a note where `add?` admits it, and leaves the chord alone otherwise. -/
def add (c : Chord) (note velocity : Nat) : Chord :=
  (c.add? note velocity).getD c

/-- Removes a note together with its velocity; refused if the chord does not hold it. -/
def remove? (c : Chord) (note : Nat) : Option Chord :=
  if note ∈ c.notes then
    let i := c.notes.idxOf note
    some { notes := c.notes.eraseIdx i, velocities := c.velocities.eraseIdx i }
  else none

/-- Removes the note if the chord holds it and adds it otherwise. -/
def toggle? (c : Chord) (note velocity : Nat) : Option Chord :=
  c.remove? note <|> c.add? note velocity

/-- Adds the notes in turn, each with the velocity at its own position, or with `fallback` where
the velocities end early. -/
def addAll (c : Chord) : List Nat → List Nat → Nat → Chord
  | [], _, _ => c
  | note :: notes, [], fallback => (c.add note fallback).addAll notes [] fallback
  | note :: notes, v :: velocities, fallback => (c.add note v).addAll notes velocities fallback

/-- The chord that holds the given notes as far as it can. -/
def ofLists (notes velocities : List Nat) (fallback : Nat) : Chord :=
  ({} : Chord).addAll notes velocities fallback

/-- Changes the velocity of the note at a position; positions past the end change nothing. -/
def setVelocity (c : Chord) (i velocity : Nat) : Chord :=
  { c with velocities := c.velocities.set i (clampVelocity velocity) }

/-- Whether the chord has no notes. -/
def isEmpty (c : Chord) : Bool :=
  c.notes.isEmpty

end Chord
end Groovebox
