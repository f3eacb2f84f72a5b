import Groovebox.Scale
import Groovebox.Text
/-! # Generator settings

The eight knobs of the pattern generator, and the choice of scale among them. -/

namespace Groovebox

/-! ## The scale knob -/

/-- The scale of the generator: the one detected in the song, all twelve notes, or a template. -/
inductive ScaleChoice
  | detected
  | chromatic
  | template (position : Nat)
deriving DecidableEq, Inhabited, Repr

namespace ScaleChoice

/-- The number of choices. -/
def count : Nat := ScaleTemplate.all.length + 2

/-- The choice at a stored position. -/
def ofIndex? (i : Nat) : Option ScaleChoice :=
  if i = 0 then some detected
  else if i = 1 then some chromatic
  else if i < count then some (template (i - 2))
  else none

/-- The stored position of a choice, in 64 bits. -/
def index : ScaleChoice → Nat
  | detected => 0
  | chromatic => 1
  | template i => (i + 2) % Word.count64

/-- The three-letter name of a choice. -/
def shortName : ScaleChoice → String
  | detected => "Det"
  | chromatic => "Chr"
  | template i => (ScaleTemplate.all[i]?.map ScaleTemplate.short).getD "?"

/-- The intervals above the root. A detected scale is the one hinted at, and the chromatic scale
without a hint. -/
def intervals (hint : Option Scale) : ScaleChoice → List Nat
  | detected => (hint.map Scale.intervals).getD ScaleTemplate.chromatic
  | chromatic => ScaleTemplate.chromatic
  | template i => ScaleTemplate.intervalsAt i

end ScaleChoice

/-- The scale that an engine reports by its root and its name. -/
def Scale.ofReport? (root name : String) : Option Scale := do
  let root ← Text.nat? 11 (Text.trim root)
  let name := Text.trim name
  let template := ScaleTemplate.all.findIdx (·.name == name)
  if template < ScaleTemplate.all.length then some { root, template } else none

/-! ## The knobs -/

/-- The settings of the generator. -/
structure GeneratorParams where
  /-- The number of steps to fill. -/
  length : Nat := 16
  /-- How many of the steps sound, in percent. -/
  density : Nat := 50
  /-- The number of notes in a step. -/
  voices : Nat := 1
  /-- The scale. -/
  scale : ScaleChoice := .detected
  /-- The root: 1 to 12 from C, or 0 for the root of the detected scale. -/
  root : Nat := 0
  /-- The lowest octave. -/
  octave : Nat := 3
  /-- The number of octaves. -/
  range : Nat := 2
  /-- A variation whose meaning depends on the style. -/
  variation : Nat := 64
deriving DecidableEq, Repr

namespace GeneratorParams

instance : Inhabited GeneratorParams := ⟨{}⟩

/-- The nearest number within bounds. -/
def clamp (n lo hi : Nat) : Nat :=
  min (max n lo) hi

/-- The settings with every knob moved into its range. -/
def clamped (p : GeneratorParams) : GeneratorParams where
  length := clamp p.length 1 64
  density := clamp p.density 5 100
  voices := clamp p.voices 1 7
  scale := (ScaleChoice.ofIndex? p.scale.index).getD .detected
  root := min p.root 12
  octave := clamp p.octave 1 6
  range := clamp p.range 1 4
  variation := min p.variation 127

/-- A knob position moved by some notches, stopping at the ends. The sum is one of 32 bits. -/
def stepped (n : Nat) (delta : Int) (lo hi : Int) : Nat :=
  (min (max (Word.wrap32 (n + delta)) lo) hi).toNat

/-- A knob position moved by some notches, going round at the ends. Of a position past the last, as
a song can hold it, the lowest 32 bits count, and the sum is one of 32 bits. -/
def wrapped (n : Nat) (delta : Int) (count : Nat) : Nat :=
  (Word.wrap32 (Word.wrap32 n + delta) % (count : Int)).toNat

/-- Turns one knob. Scale and root go round, the others stop at their ends; a knob past the last
one changes nothing. Density and variation take several notches at a time, counted in 32 bits. -/
def nudge (p : GeneratorParams) (knob : Nat) (delta : Int) : GeneratorParams :=
  match knob with
  | 0 => { p with length := stepped p.length delta 1 64 }
  | 1 => { p with density := stepped p.density (Word.wrap32 (delta * 5)) 5 100 }
  | 2 => { p with voices := stepped p.voices delta 1 7 }
  | 3 =>
    let i := wrapped p.scale.index delta ScaleChoice.count
    { p with scale := (ScaleChoice.ofIndex? i).getD .detected }
  | 4 => { p with root := wrapped p.root delta 13 }
  | 5 => { p with octave := stepped p.octave delta 1 6 }
  | 6 => { p with range := stepped p.range delta 1 4 }
  | 7 => { p with variation := stepped p.variation (Word.wrap32 (delta * 4)) 0 127 }
  | _ => p

/-- The pitch class of the root: the one set, or else the one hinted at, or else C. -/
def resolveRoot (p : GeneratorParams) (hint : Option Scale) : Nat :=
  if p.root = 0 then (hint.map Scale.root).getD 0 else min (p.root - 1) 11

end GeneratorParams
end Groovebox
