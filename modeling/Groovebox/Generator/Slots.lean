import Groovebox.Binary64
import Groovebox.Generator.Style
import Groovebox.Random
import Groovebox.Rhythm
/-! # Which steps sound

The number of sounding steps follows from length and density; the style places them. -/

namespace Groovebox.Generator

/-- The number of sounding steps, at least one and at most as many as 64 bits count. The product is
a double, and a half is rounded up. -/
def noteCount (length density : Nat) : Nat :=
  let product := Binary64.ofFloat (density.toFloat / 100.0 * length.toFloat)
  min (max product.round.toNat 1) (Word.count64 - 1)

/-! ## Placement by rank -/

/-- The first `count` slots by rank, equal ranks from left to right, in ascending order. -/
def ranked (length count : Nat) (rank : Nat → Nat) : List Nat :=
  let byRank := (List.range length).mergeSort fun i j => decide (rank i ≤ rank j)
  (byRank.take count).mergeSort fun i j => decide (i ≤ j)

/-- The rank of a slot in the pulse style: beats, then the middles between them, then the rest. -/
def pulseRank (i : Nat) : Nat :=
  if i % 4 = 0 then 0 else if i % 2 = 0 then 1 else 2

/-- The rank of a slot in the offbeat style: odd slots, then the middles between beats, then the
beats. -/
def offbeatRank (i : Nat) : Nat :=
  if i % 2 = 1 then 0 else if i % 4 = 2 then 1 else 2

/-! ## Placement at random -/

/-- A random choice of `count` slots, in ascending order. -/
def scattered (length count : Nat) (g : Random) : List Nat × Random :=
  let (slots, g) := g.shuffle (List.range length)
  ((slots.take count).mergeSort fun i j => decide (i ≤ j), g)

/-- The most slots in one cluster: 2 and up to 6 more with full variation, rounded to the
nearest. -/
def clusterMax (variation : Nat) : Nat :=
  2 + (12 * variation + 127) / 254

/-- Runs of 2 to `most` slots with gaps of 2 to 6 slots between them, from `position` on, until
`todo` slots are placed or the end is reached. -/
def clusters (length most todo position : Nat) (g : Random) : List Nat × Random :=
  if todo = 0 ∨ length ≤ position then ([], g)
  else
    let (size, g) := g.between 2 most
    let run := min (min size todo) (length - position)
    let (gap, g) := g.below 5
    let (rest, g) := clusters length most (todo - run) (position + run + (2 + gap)) g
    (List.range' position run ++ rest, g)
termination_by length - position
decreasing_by omega

/-! ## Placement by style -/

/-- How far a rhythm is turned: by its whole length with full variation. The product is a
double. -/
def shift (length variation : Nat) : Nat :=
  Binary64.wholePart (variation.toFloat / 127.0 * length.toFloat)

/-- The sounding slots among the first `length`, ascending. -/
def slots (length density : Nat) (style : Style) (variation : Nat) (g : Random) :
    List Nat × Random :=
  let count := noteCount length density
  match style with
  | .euclidean =>
    let rhythm := Rhythm.euclidean count length
    (Rhythm.hits (Rhythm.rotate rhythm (shift length variation : Nat)), g)
  | .pulse => (ranked length count pulseRank, g)
  | .offbeat => (ranked length count offbeatRank, g)
  | .clustered => clusters length (clusterMax variation) count 0 g
  | .random | .rising | .falling | .arc => scattered length count g

end Groovebox.Generator
