/-! # Even rhythms

Bjorklund's way of spreading hits over the slots of a bar as evenly as possible, and rotation of
the result. -/

namespace Groovebox.Rhythm

/-- So many copies of a word, one after the other. -/
def copies (n : Nat) (word : List Bool) : List Bool :=
  (List.replicate n word).flatten

/-- Divides the slots by Euclid's algorithm. Each round builds the next longer word: as many copies
of the newer word as the quotient says, and the older word behind them if anything remains. -/
def weave (divisor remainder : Nat) (older newer : List Bool) : List Bool :=
  if 1 < remainder then
    weave remainder (divisor % remainder) newer (copies (divisor / remainder) newer ++ older)
  else copies divisor newer ++ (if remainder = 0 then [] else older)
termination_by remainder
decreasing_by exact Nat.mod_lt _ (by omega)

/-- The rhythm of `pulses` hits over `steps` slots. The first hit need not be on the first
slot. -/
def euclidean (pulses steps : Nat) : List Bool :=
  if steps ≤ pulses then List.replicate steps true
  else if pulses = 0 then List.replicate steps false
  else weave (steps - pulses) pulses [true] [false]

/-- Moves every slot to the right, and those that leave at the end to the front; a negative offset
moves to the left. -/
def rotate (pattern : List Bool) (offset : Int) : List Bool :=
  let cut := pattern.length - (offset % pattern.length).toNat
  pattern.drop cut ++ pattern.take cut

/-- The slots that hold a hit, ascending. -/
def hits (pattern : List Bool) : List Nat :=
  pattern.zipIdx.filterMap fun (hit, i) => if hit then some i else none

end Groovebox.Rhythm
