import Groovebox.Document.Printer
import Groovebox.Song
/-! # Writing songs

The sparse form of a song: only what differs from its default is written, under short names, and
steps, patterns and tracks that hold nothing else are left out. Tables are written as positions,
and containers as objects whose names are positions. -/

namespace Groovebox

namespace Stored

/-- A member that is written where its value is present. -/
def member (name : String) (value : Option Document) : List (String × Document) :=
  match value with
  | some d => [(name, d)]
  | none => []

/-- A whole number. -/
def nat (n : Nat) : Document :=
  .int n

/-- A value where it differs from the default. -/
def changed {α : Type} [DecidableEq α] (value default : α) : Option α :=
  if value = default then none else some value

/-- A number that is written where it differs from the default. -/
def number (name : String) (value default : Nat) : List (String × Document) :=
  member name ((changed value default).map nat)

/-- A number that is written where it is set. -/
def optional (name : String) (value : Option Nat) : List (String × Document) :=
  member name (value.map nat)

/-- A truth value that is written where it is true. -/
def flag (name : String) (value : Bool) : List (String × Document) :=
  if value then [(name, .bool true)] else []

/-- A pattern number, or -1 for none. -/
def patternNumber : Option Nat → Document
  | some p => .int p
  | none => .int (-1)

/-- The entries of a container that are present, named by their positions. -/
def positions (items : List (Option Document)) : List (String × Document) :=
  items.zipIdx.filterMap fun (d, i) => d.map fun d => (toString i, d)

end Stored

open Stored

/-! ## Steps and patterns -/

/-- The members of a step that differ from the default. -/
def Step.toMembers (s : Step) : List (String × Document) :=
  (if s.chord.isEmpty then []
    else [("n", .arr (s.chord.notes.map nat)), ("v", .arr (s.chord.velocities.map nat))]) ++
  number "gt" s.gate 0 ++
  optional "c1" s.cc1 ++
  optional "c2" s.cc2 ++
  number "pr" s.probability 100 ++
  number "co" s.condition.index 0 ++
  number "ra" s.ratchet.index 0 ++
  number "le" s.length 1 ++
  number "ps" s.paramSpark.index 0 ++
  number "cs" s.compSpark.index 0 ++
  optional "ju" s.jump ++
  member "of" ((changed s.offset 0).map .int) ++
  optional "am" (s.arpMode.map Table.index) ++
  optional "as" (s.arpSpeed.map Table.index) ++
  optional "ao" (s.arpOctave.map Table.index) ++
  number "al" (Table.index s.arpLayer) 0 ++
  optional "ap" s.arpPlaySteps ++
  optional "at" s.arpPlayStart

/-- The stored form of a step that is not the default one. -/
def Step.toDocument? (s : Step) : Option Document :=
  if s.isEmpty then none else some (.obj s.toMembers)

/-- The stored form of a pattern that is not the default one. -/
def Pattern.toDocument? (p : Pattern) : Option Document :=
  let steps := positions (p.steps.toList.map Step.toDocument?)
  let loop := number "ls" p.loop.start 0 ++ number "le" p.loop.stop 63
  if steps.isEmpty && loop.isEmpty then none else some (.obj (("s", .obj steps) :: loop))

/-! ## Tracks -/

/-- The members of the track at a position of a song that differ from a fresh track's. -/
def Track.toMembers (index : Nat) (t : Track) : List (String × Document) :=
  let patterns := positions (t.patterns.toList.map Pattern.toDocument?)
  member "cp" ((changed t.current (some 0)).map patternNumber) ++
  flag "mu" t.muted ++
  number "ch" t.channel (Track.defaultChannel index) ++
  number "sp" (Table.index t.speed) (Table.index Speed.normal) ++
  number "sw" t.swing 50 ++
  number "tl" t.length 16 ++
  number "rl" t.resetLength 0 ++
  number "ga" t.gate 95 ++
  number "am" (Table.index t.arpMode) 0 ++
  number "as" (Table.index t.arpSpeed) (Table.index ArpSpeed.sixteenth) ++
  number "ao" (Table.index t.arpOctave) 0 ++
  flag "ac" t.arpContinuous ++
  number "ap" t.arpPlaySteps 1 ++
  number "at" t.arpPlayStart 0 ++
  number "c1" t.cc1 64 ++
  number "c2" t.cc2 64 ++
  member "p" (if patterns.isEmpty then none else some (.obj patterns))

/-- The stored form of the track at a position of a song, if it has anything to store. -/
def Track.toDocument? (index : Nat) (t : Track) : Option Document :=
  let members := t.toMembers index
  if members.isEmpty then none else some (.obj members)

/-! ## Songs -/

/-- The stored form of a transpose step. -/
def TransposeStep.toDocument (s : TransposeStep) : Document :=
  .obj ([("transpose", .int s.transpose), ("duration", nat s.duration)] ++
    optional "jump" s.jump ++
    number "condition" s.condition.index 0)

/-- The stored form of a snapshot. -/
def Snapshot.toDocument (s : Snapshot) : Document :=
  .arr (s.toList.map patternNumber)

/-- The members of a song. The version and the tracks are always written. -/
def Song.toMembers (s : Song) : List (String × Document) :=
  let snapshots := positions (s.snapshots.toList.map fun slot => slot.map Snapshot.toDocument)
  let transposes := s.transposes.steps.map TransposeStep.toDocument
  [("v", nat 2),
    ("t", .obj (positions (s.tracks.toList.zipIdx.map fun (t, i) => t.toDocument? i)))] ++
  number "bpm" s.bpm 120 ++
  member "ts" (if transposes.isEmpty then none else some (.arr transposes)) ++
  member "cf" ((changed s.chordFollow Song.defaultChordFollow).map fun flags =>
    .arr (flags.toList.map .bool)) ++
  number "st" s.sequencerType 0 ++
  member "ps" (if snapshots.isEmpty then none else some (.obj snapshots)) ++
  optional "ap" s.activeSnapshot ++
  number "mr" s.masterReset 0 ++
  optional "color" s.color

/-- The stored form of a song. -/
def Song.toDocument (s : Song) : Document :=
  .obj s.toMembers

/-- The text of a song's file. -/
def Song.text (s : Song) : String :=
  s.toDocument.print

end Groovebox
