import Groovebox.Song
import Groovebox.Stored.Field
/-! # Reading songs

Every shape in which songs have been stored reads as a song: a bare array of tracks, an object
with long names, and the sparse form with short names. Reading never fails. What is missing takes
its default, and so does a value of the wrong kind; a number out of range is moved into range or
counts as missing, as its field has it. -/

namespace Groovebox

open Stored

/-! ## Steps -/

/-- The notes, the velocities and the one velocity of old files, as a chord. -/
def Chord.ofMembers (m : Members) : Chord :=
  let notes := ((first? m ["notes", "n"] Document.items?).getD []).filterMap fun d =>
    (d.int64?.filter fun n => 0 ≤ n ∧ n ≤ 127).map Int.toNat
  let fallback := (intIn? m ["velocity"] 1 127).getD 100
  let velocities := ((first? m ["velocities", "v"] Document.items?).getD []).map fun d =>
    match d.int64? with
    | some v => (min (max v 1) 127).toNat
    | none => fallback
  Chord.ofLists notes velocities fallback

/-- A condition by its position; positions outside the table stand for none. -/
def Condition.ofMembers (m : Members) (names : List String) : Condition :=
  match (int? m names).map Condition.ofIndex with
  | some (.ok c) => c
  | _ => .always

/-- A ratchet by its position; positions outside the table stand for a single hit. -/
def Ratchet.ofMembers (m : Members) (names : List String) : Ratchet :=
  match (int? m names).map Ratchet.ofIndex with
  | some (.ok r) => r
  | _ => {}

/-- The step that an object holds. -/
def Step.ofMembers (m : Members) : Step where
  chord := Chord.ofMembers m
  gate := (intIn? m ["gate", "gt"] 0 100).getD 0
  cc1 := optional? m ["cc1", "c1"] fun v => some (min v 127)
  cc2 := optional? m ["cc2", "c2"] fun v => some (min v 127)
  probability := ((int? m ["probability", "pr"]).map fun v => (min (max v 1) 100).toNat).getD 100
  condition := Condition.ofMembers m ["condition", "co"]
  ratchet := Ratchet.ofMembers m ["ratchet", "ra"]
  length := ((int? m ["length", "le"]).map fun v => (min (max v 1) 64).toNat).getD 1
  paramSpark := Condition.ofMembers m ["paramSpark", "ps"]
  compSpark := Condition.ofMembers m ["compSpark", "cs"]
  jump := optional? m ["jump", "ju"] (upTo 63)
  offset := ((int? m ["offset", "of"]).map fun v => min (max v (-24)) 24).getD 0
  arpMode := optional? m ["arpMode", "am"] Table.ofIndex?
  arpSpeed := optional? m ["arpSpeed", "as"] Table.ofIndex?
  arpOctave := optional? m ["arpOctave", "ao"] Table.ofIndex?
  arpLayer := (optional? m ["arpLayer", "al"] Table.ofIndex?).getD .layer
  arpPlaySteps := optional? m ["arpPlaySteps", "ap"] fun v =>
    if 1 ≤ v then upTo 255 v else none
  arpPlayStart := optional? m ["arpPlayStart", "at"] (upTo 7)

/-- The step that a document holds. -/
def Step.ofDocument (d : Document) : Step :=
  match d.members? with
  | some m => Step.ofMembers m
  | none => {}

/-! ## Patterns -/

/-- The loop window that an object holds; ends that make no window stand for the whole
pattern. -/
def LoopWindow.ofMembers (m : Members) : LoopWindow :=
  let start := (int? m ["loopStart", "ls"]).getD 0
  let stop := (int? m ["loopEnd", "le"]).getD 63
  if 0 ≤ start ∧ 0 ≤ stop then (LoopWindow.of? start.toNat stop.toNat).getD .whole else .whole

/-- The pattern that a document holds. -/
def Pattern.ofDocument (d : Document) : Pattern :=
  match d.members? with
  | none => {}
  | some m =>
    { steps := fill (Vector.replicate 64 {}) ((present? m ["steps", "s"]).getD .null)
        fun _ => Step.ofDocument
      loop := LoopWindow.ofMembers m }

/-! ## Tracks -/

/-- The pattern that plays: none for a negative number, the first for one past the bank. -/
def Track.currentOf (v : Int) : Option Nat :=
  if v < 0 then none else if v < 16 then some v.toNat else some 0

/-- The track at a position of a song that an object holds. -/
def Track.ofMembers (index : Nat) (m : Members) : Track :=
  let fresh := Track.fresh index
  { patterns := fill fresh.patterns ((present? m ["patterns", "p"]).getD .null)
      fun _ => Pattern.ofDocument
    current := ((int? m ["currentPattern", "cp"]).map Track.currentOf).getD fresh.current
    channel := (intIn? m ["channel", "ch"] 0 15).getD fresh.channel
    muted := (flag? m ["muted", "mu"]).getD fresh.muted
    speed := (optional? m ["speedIndex", "sp"] Table.ofIndex?).getD fresh.speed
    swing := (intIn? m ["swing", "sw"] 0 100).getD fresh.swing
    length := (intIn? m ["trackLength", "tl"] 1 64).getD fresh.length
    resetLength := (intIn? m ["resetLength", "rl"] 0 256).getD fresh.resetLength
    gate := (intIn? m ["gate", "ga"] 1 100).getD fresh.gate
    arpMode := (optional? m ["arpMode", "am"] Table.ofIndex?).getD fresh.arpMode
    arpSpeed := (optional? m ["arpSpeed", "as"] Table.ofIndex?).getD fresh.arpSpeed
    arpOctave := (optional? m ["arpOctave", "ao"] Table.ofIndex?).getD fresh.arpOctave
    arpContinuous := (flag? m ["arpContinuous", "ac"]).getD fresh.arpContinuous
    arpPlaySteps := (intIn? m ["arpPlaySteps", "ap"] 1 255).getD fresh.arpPlaySteps
    arpPlayStart := (intIn? m ["arpPlayStart", "at"] 0 7).getD fresh.arpPlayStart
    cc1 := (intIn? m ["cc1Default", "c1"] 0 127).getD fresh.cc1
    cc2 := (intIn? m ["cc2Default", "c2"] 0 127).getD fresh.cc2 }

/-- The track at a position of a song that a document holds. -/
def Track.ofDocument (index : Nat) (d : Document) : Track :=
  match d.members? with
  | some m => Track.ofMembers index m
  | none => Track.fresh index

/-- The tracks that a container holds, with fresh ones where it has none. -/
def Song.tracksOf (container : Document) : Bank Track 16 :=
  fill (Vector.ofFn fun i => Track.fresh i) container Track.ofDocument

/-! ## The transpose sequence -/

/-- The transpose step that an object holds. -/
def TransposeStep.ofMembers (m : Members) : TransposeStep :=
  { TransposeStep.new ((int? m ["transpose"]).getD 0) ((int? m ["duration"]).getD 4) with
    jump := optional? m ["jump"] (upTo 255)
    condition := Condition.ofMembers m ["condition"] }

/-- Drops the jumps that lead past the last step. -/
def TransposeSequence.boundJumps (q : TransposeSequence) : TransposeSequence :=
  { steps := q.steps.map fun s => { s with jump := s.jump.filter (· < q.length) } }

/-- The sequence that an array holds; entries that are not objects are left out. -/
def TransposeSequence.ofDocument (d : Document) : TransposeSequence :=
  let objects := (d.items?.getD []).filterMap Document.members?
  (TransposeSequence.ofSteps (objects.map TransposeStep.ofMembers)).boundJumps

/-! ## Songs -/

/-- Which tracks follow the chord. An array of fewer than eight entries stands for the default;
one of fewer than sixteen repeats its last eight. -/
def Song.chordFollowOf (d : Document) : Bank Bool 16 :=
  let flags := (d.items?.getD []).map fun d =>
    d.bool?.getD ((d.int64?.map (· != 0)).getD false)
  if flags.length < 8 then Song.defaultChordFollow
  else Vector.ofFn fun t => flags.getD t (flags.getD (t - 8) false)

/-- The snapshot that an array holds: a missing or unusable entry stands for the first pattern,
a negative one for a track that is off. -/
def Snapshot.ofDocument? (d : Document) : Option Snapshot :=
  d.items?.map fun items => Vector.ofFn fun t =>
    match items[t.val]?.bind Document.int64? with
    | some v => Track.currentOf v
    | none => some 0

/-- The snapshot slots that a container holds. -/
def Song.snapshotsOf (container : Document) : Bank (Option Snapshot) 16 :=
  (entries 16 container).foldl (fun slots (i, d) =>
    match Snapshot.ofDocument? d with
    | some snapshot => slots.setIfInBounds i (some snapshot)
    | none => slots) (Vector.replicate 16 none)

/-- The song that an object holds. -/
def Song.ofMembers (m : Members) : Song where
  tracks := Song.tracksOf ((present? m ["t", "tracks"]).getD .null)
  bpm := Song.clampBpm ((int? m ["bpm"]).getD 120)
  transposes := TransposeSequence.ofDocument ((present? m ["ts", "transposeSequence"]).getD .null)
  chordFollow := Song.chordFollowOf ((present? m ["cf", "chordFollow"]).getD .null)
  sequencerType := (intIn? m ["st", "sequencerType"] 0 255).getD 0
  snapshots := Song.snapshotsOf ((present? m ["ps", "patternSnapshots"]).getD .null)
  activeSnapshot := intIn? m ["ap", "activePatternSnapshot"] 0 15
  masterReset := (intIn? m ["mr", "masterReset"] 0 256).getD 0
  color := intIn? m ["color"] 0 255

/-- The song that a document holds. -/
def Song.ofDocument (d : Document) : Song :=
  match d with
  | .arr _ => { tracks := Song.tracksOf d }
  | .obj m => Song.ofMembers m
  | _ => {}

end Groovebox
