import Groovebox.Rhythm
/-! # Even rhythms by levels

The division of a rhythm can be done first and written down in two tables, with one level for each
round. The rhythm is then built from the last level down. -/

namespace Groovebox.Rhythm

/-- A division under way, with the tables of the levels so far. -/
structure Division where
  /-- How often the word of each level repeats the word one level below. -/
  counts : List Nat := []
  /-- What remains on each level. -/
  remainders : List Nat
  /-- What is divided next. -/
  divisor : Nat
  /-- The level reached. -/
  level : Nat := 0
deriving DecidableEq, Repr

namespace Division

/-- The rests are shared out among the hits. -/
def start (pulses steps : Nat) : Division :=
  { remainders := [pulses], divisor := steps - pulses }

/-- One more round, which divides by what remains. -/
def next (d : Division) (remainder : Nat) : Division where
  counts := d.counts ++ [d.divisor / remainder]
  remainders := d.remainders ++ [d.divisor % remainder]
  divisor := remainder
  level := d.level + 1

/-- The last level takes what is left to be divided. -/
def close (d : Division) : Division :=
  { d with counts := d.counts ++ [d.divisor] }

/-- Goes on for so many turns at most, until no more than one remains on the level reached. There is
no answer if the turns do not suffice, or if nothing is written down for a level that is looked
up. -/
def finish? : Nat → Division → Option Division
  | 0, _ => none
  | turns + 1, d => do
    let remainder ← d.remainders[d.level]?
    if 1 < remainder then finish? turns (d.next remainder)
    else some d.close

/-- The word of a level: as many copies of the word one level below as were counted, and the word
two levels below if anything remains. Below the first level stand a rest and a hit. There is no
answer if nothing is written down for a level that is looked up. -/
def word? (d : Division) : Int → Option (List Bool)
  | -1 => some [false]
  | -2 => some [true]
  | .ofNat level => do
    let count ← d.counts[level]?
    let newer ← d.word? (level - 1)
    let remainder ← d.remainders[level]?
    if remainder = 0 then some (copies count newer)
    else
      let older ← d.word? (level - 2)
      some (copies count newer ++ older)
  | .negSucc _ => none
termination_by level => (level + 2).toNat
decreasing_by
  · simp only [Int.ofNat_eq_natCast]
    omega
  · simp only [Int.ofNat_eq_natCast]
    omega

end Division

/-- The rhythm of `pulses` hits over `steps` slots, built from the tables of its division. -/
def byLevels? (turns pulses steps : Nat) : Option (List Bool) :=
  if steps ≤ pulses then some (List.replicate steps true)
  else if pulses = 0 then some (List.replicate steps false)
  else do
    let d ← (Division.start pulses steps).finish? turns
    d.word? d.level

end Groovebox.Rhythm
