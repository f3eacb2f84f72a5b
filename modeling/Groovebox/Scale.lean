import Groovebox.Song
/-! # Scales

Note names, the scale templates, a scale on a root, and the guess of a song's scale from its
notes. -/

namespace Groovebox

/-! ## Note names -/

namespace Pitch

/-- The twelve pitch classes, from C. -/
def classNames : List String :=
  ["C", "C#", "D", "D#", "E", "F", "F#", "G", "G#", "A", "A#", "B"]

/-- The name of the pitch class that a note belongs to. -/
def className (note : Nat) : String :=
  classNames.get ⟨note % 12, by simp only [classNames, List.length_cons, List.length_nil]; omega⟩

/-- The name of a note with its octave; note 60 is `C4`. -/
def name (note : Nat) : String :=
  className note ++ toString ((note / 12 : Nat) - 1 : Int)

end Pitch

/-! ## Templates -/

/-- A scale as intervals above a root. -/
structure ScaleTemplate where
  /-- The full name. -/
  name : String
  /-- The three-letter name. -/
  short : String
  /-- The intervals in semitones, ascending from 0. -/
  intervals : List Nat
deriving DecidableEq, Repr

namespace ScaleTemplate

/-- The templates, simplest first. -/
def all : List ScaleTemplate :=
  [⟨"Minor Penta", "mPn", [0, 3, 5, 7, 10]⟩,
    ⟨"Major Penta", "MPn", [0, 2, 4, 7, 9]⟩,
    ⟨"Blues", "Blu", [0, 3, 5, 6, 7, 10]⟩,
    ⟨"Whole Tone", "WhT", [0, 2, 4, 6, 8, 10]⟩,
    ⟨"Major", "Maj", [0, 2, 4, 5, 7, 9, 11]⟩,
    ⟨"Natural Minor", "Min", [0, 2, 3, 5, 7, 8, 10]⟩,
    ⟨"Dorian", "Dor", [0, 2, 3, 5, 7, 9, 10]⟩,
    ⟨"Mixolydian", "Mix", [0, 2, 4, 5, 7, 9, 10]⟩,
    ⟨"Phrygian", "Phr", [0, 1, 3, 5, 7, 8, 10]⟩,
    ⟨"Lydian", "Lyd", [0, 2, 4, 6, 7, 9, 11]⟩,
    ⟨"Locrian", "Loc", [0, 1, 3, 5, 6, 8, 10]⟩,
    ⟨"Harmonic Minor", "HMn", [0, 2, 3, 5, 7, 8, 11]⟩,
    ⟨"Melodic Minor", "MMn", [0, 2, 3, 5, 7, 9, 11]⟩,
    ⟨"Diminished HW", "DHW", [0, 1, 3, 4, 6, 7, 9, 10]⟩,
    ⟨"Diminished WH", "DWH", [0, 2, 3, 5, 6, 8, 9, 11]⟩]

/-- All twelve pitch classes, the scale of last resort. -/
def chromatic : List Nat := List.range 12

/-- The intervals of the template at a position, or the chromatic scale past the last one. -/
def intervalsAt (i : Nat) : List Nat :=
  (all[i]?.map intervals).getD chromatic

end ScaleTemplate

/-- A template on a root. -/
structure Scale where
  /-- The pitch class of the root. -/
  root : Nat
  /-- The position of the template. -/
  template : Nat
deriving DecidableEq, Repr

namespace Scale

/-- The intervals above the root. -/
def intervals (s : Scale) : List Nat :=
  ScaleTemplate.intervalsAt s.template

/-- The name of the template. -/
def name (s : Scale) : String :=
  (ScaleTemplate.all[s.template]?.map ScaleTemplate.name).getD "Chromatic"

/-- The name with the root in front. -/
def displayName (s : Scale) : String :=
  Pitch.className s.root ++ " " ++ s.name

/-- Whether a pitch class is in the scale. -/
def contains (s : Scale) (pitchClass : Nat) : Bool :=
  s.intervals.contains ((pitchClass % 12 + 12 - s.root) % 12)

end Scale

/-! ## Detection -/

namespace Song

/-- The pitch classes, ascending, that occur in any pattern of the tracks that follow the
chord. -/
def pitchClasses (s : Song) : List Nat :=
  let following := (s.tracks.zip s.chordFollow).toList.filter Prod.snd
  let occurs (c : Nat) : Bool := following.any fun (track, _) =>
    track.patterns.any fun pattern => pattern.steps.any fun step =>
      step.chord.notes.any fun note => note % 12 == c
  (List.range 12).filter occurs

end Song

namespace Scale

/-- How many of the pitch classes are in the scale. -/
def fitting (classes : List Nat) (s : Scale) : Nat :=
  classes.countP s.contains

/-- How well a scale explains the pitch classes: the share of them that it holds, and a bonus that
is the larger the fewer notes the scale has. -/
def score (classes : List Nat) (s : Scale) : Float :=
  (s.fitting classes).toFloat / classes.length.toFloat + 0.1 / s.intervals.length.toFloat

/-- Every template on every root, lower roots first and earlier templates first on each. -/
def candidates : List Scale :=
  (List.range 12).flatMap fun root =>
    (List.range ScaleTemplate.all.length).map fun template => { root, template }

/-- The best scale so far with its score, after one more; of equal scores the first one stays. -/
def keepBest (classes : List Nat) (best : Option (Float × Scale)) (s : Scale) :
    Option (Float × Scale) :=
  let x := s.score classes
  match best with
  | none => some (x, s)
  | some (y, b) => if y < x then some (x, s) else some (y, b)

/-- The first of the candidates with the best score, where there is any pitch class. -/
def detect? (s : Song) : Option Scale :=
  let classes := s.pitchClasses
  if classes.isEmpty then none
  else (candidates.foldl (keepBest classes) none).map Prod.snd

end Scale
end Groovebox
