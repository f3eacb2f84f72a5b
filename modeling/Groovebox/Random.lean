import Groovebox.Word
/-! # The random generator

A permuted congruential generator: a 64-bit linear congruential state whose outputs are 32 bits
taken from it by a shift and a rotation that the state itself chooses. Equal seeds give equal
sequences. -/

namespace Groovebox

/-- The state of the generator and the odd increment that selects its sequence. -/
structure Random where
  /-- The current state. -/
  state : UInt64
  /-- The increment. -/
  increment : UInt64
deriving DecidableEq, Repr

namespace Random

instance : Inhabited Random := ⟨⟨0, 1⟩⟩

/-! ## Seeding and words -/

/-- The multiplier of the congruential step. -/
def multiplier : UInt64 := 6364136223846793005

/-- The output for a state: the upper bits folded down and rotated by the top five bits. -/
def output (s : UInt64) : UInt32 :=
  let x := (((s >>> 18) ^^^ s) >>> 27).toUInt32
  let r := (s >>> 59).toUInt32
  (x >>> r) ||| (x <<< ((32 - r) &&& 31))

/-- The state that follows. -/
def advance (g : Random) : Random :=
  { g with state := g.state * multiplier + g.increment }

/-- The next 32 bits. -/
def next32 (g : Random) : UInt32 × Random :=
  (output g.state, g.advance)

/-- The next 64 bits, the low half first. -/
def next64 (g : Random) : UInt64 × Random :=
  let (low, g) := g.next32
  let (high, g) := g.next32
  (low.toUInt64 ||| (high.toUInt64 <<< 32), g)

/-- One word of seed material and the state behind it. -/
def seedWord (t : UInt64) : UInt64 × UInt64 :=
  let t := t * multiplier + 11634580027462260723
  ((output t).toUInt64, t)

/-- The generator for a seed. -/
def ofSeed (seed : UInt64) : Random :=
  let (w0, t) := seedWord seed
  let (w1, t) := seedWord t
  let (w2, t) := seedWord t
  let (w3, _) := seedWord t
  let increment := (w2 ||| (w3 <<< 32)) ||| 1
  advance { state := (w0 ||| (w1 <<< 32)) + increment, increment }

/-! ## Draws -/

/-- A draw of 53 bits, which stands for a fraction of the unit interval. -/
def unit53 (g : Random) : Nat × Random :=
  let (w, g) := g.next64
  ((w >>> 11).toNat, g)

/-- A number below `n`. The product of a word with `n` is cut to its upper half; where the lower
half could still be carried over, a second word decides. -/
def below (g : Random) (n : Nat) : Nat × Random :=
  let (w, g) := g.next32
  let product := w.toNat * n
  let high := product / Word.count32
  let low := product % Word.count32
  if Word.count32 - n < low then
    let (w, g) := g.next32
    let carry := w.toNat * n / Word.count32
    (if Word.count32 ≤ low + carry then high + 1 else high, g)
  else (high, g)

/-- A number from `lo` to `hi`, both included. -/
def between (g : Random) (lo hi : Nat) : Nat × Random :=
  let (k, g) := g.below (hi + 1 - lo)
  (lo + k, g)

/-! ## Shuffling -/

/-- The product of consecutive numbers from `c` on, as long as it fits into 32 bits, and the
number it stops at. The product doubles at least, so 32 rounds are enough. -/
def block (rounds product c : Nat) : Nat × Nat :=
  match rounds with
  | 0 => (product, c)
  | rounds + 1 =>
    if product * c < Word.count32 then block rounds (product * c) (c + 1) else (product, c)

/-- Shuffles the places from `i` on, `todo` of them. One draw serves several places: `chunk` is
what is left of it, for `left` more places. -/
def shuffleFrom (g : Random) (todo i left chunk : Nat) (xs : Array Nat) : Array Nat × Random :=
  match todo with
  | 0 => (xs, g)
  | todo + 1 =>
    let m := i + 1
    let ((chunk, g), left) :=
      if left = 0 then
        let (product, c) := block 32 m (m + 1)
        (g.below product, c - m)
      else ((chunk, g), left)
    let left := left - 1
    let (j, chunk) := if left = 0 then (chunk, chunk) else (chunk % m, chunk / m)
    shuffleFrom g todo m left chunk (xs.swapIfInBounds i j)

/-- The items in random order. Fewer than two items take no draw. -/
def shuffle (g : Random) (xs : List Nat) : List Nat × Random :=
  if xs.length ≤ 1 then (xs, g)
  else
    let (shuffled, g) := g.shuffleFrom xs.length 0 1 0 xs.toArray
    (shuffled.toList, g)

end Random
end Groovebox
