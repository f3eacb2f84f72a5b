import Groovebox.Track
import Groovebox.Transpose
/-! # Songs

A song is what one file holds: 16 tracks, the tempo, the transpose sequence, and up to 16
snapshots of which pattern each track plays. -/

namespace Groovebox

/-- Which pattern each track plays, recalled as a unit. -/
abbrev Snapshot := Bank (Option Nat) 16

/-- A whole song. -/
structure Song where
  /-- The tracks. -/
  tracks : Bank Track 16 := Vector.ofFn fun i => Track.fresh i
  /-- The tempo in beats per minute. -/
  bpm : Nat := 120
  /-- The transpose sequence. -/
  transposes : TransposeSequence := {}
  /-- Which tracks follow the chord. -/
  chordFollow : Bank Bool 16 := Vector.ofFn fun i => decide (i.val < 8)
  /-- The kind of sequencer the song is for. -/
  sequencerType : Nat := 0
  /-- The snapshot slots. -/
  snapshots : Bank (Option Snapshot) 16 := Vector.replicate 16 none
  /-- The slot saved or recalled last. -/
  activeSnapshot : Option Nat := none
  /-- The number of steps after which all tracks start over; 0 is never. -/
  masterReset : Nat := 0
  /-- The colour shown for the song. -/
  color : Option Nat := none
deriving DecidableEq, Repr

namespace Song

instance : Inhabited Song := ⟨{}⟩

/-- Which tracks follow the chord at first: all but the drum tracks. -/
def defaultChordFollow : Bank Bool 16 := ({} : Song).chordFollow

/-- The nearest tempo from 20 to 300. -/
def clampBpm (bpm : Int) : Nat :=
  (min (max bpm 20) 300).toNat

/-- Sets the tempo, moving it into range. -/
def setBpm (s : Song) (bpm : Int) : Song :=
  { s with bpm := clampBpm bpm }

/-- Replaces one track. -/
def setTrack (s : Song) (i : Fin 16) (t : Track) : Song :=
  { s with tracks := s.tracks.put i t }

/-- Whether any track has content. -/
def hasContent (s : Song) : Bool :=
  s.tracks.any Track.hasContent

/-! ## Snapshots -/

/-- Stores which pattern each track plays; slots out of range are refused. -/
def saveSnapshot? (s : Song) (slot : Nat) : Option Song :=
  if h : slot < 16 then
    some { s with
      snapshots := s.snapshots.set slot (some (s.tracks.map Track.current))
      activeSnapshot := some slot }
  else none

/-- Makes every track play what a snapshot holds; an empty slot is refused. -/
def recallSnapshot? (s : Song) (slot : Nat) : Option Song :=
  s.snapshots[slot]?.join.map fun snapshot =>
    { s with
      tracks := s.tracks.zipWith (fun t current => { t with current }) snapshot
      activeSnapshot := some slot }

/-- Empties a slot, which must not be empty already. -/
def clearSnapshot? (s : Song) (slot : Nat) : Option Song :=
  if h : slot < 16 then
    if s.snapshots[slot].isSome then
      some { s with
        snapshots := s.snapshots.set slot none
        activeSnapshot := if s.activeSnapshot = some slot then none else s.activeSnapshot }
    else none
  else none

/-! ## Copying -/

/-- The pattern at a track and a place in its bank. -/
def pattern? (s : Song) (track pattern : Nat) : Option Pattern :=
  s.tracks[track]?.bind fun t => t.patterns[pattern]?

/-- Replaces the pattern at a track and a place in its bank. -/
def setPattern? (s : Song) (track pattern : Nat) (p : Pattern) : Option Song :=
  if ht : track < 16 then
    if hp : pattern < 16 then
      some (s.setTrack ⟨track, ht⟩ (s.tracks[track].setPattern ⟨pattern, hp⟩ p))
    else none
  else none

/-- Copies a pattern between any two places. -/
def copyPattern? (s : Song) (fromTrack fromPattern toTrack toPattern : Nat) : Option Song :=
  (s.pattern? fromTrack fromPattern).bind (s.setPattern? toTrack toPattern)

end Song
end Groovebox
