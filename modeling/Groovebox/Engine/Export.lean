import Groovebox.Engine.Batch
import Groovebox.Engine.Param
import Groovebox.Song
/-! # Exporting a song to the engine

The calls that make the engine play what a song says. A step is cleared first and then given the
settings that differ from the default, so that what is not sent is at its default too. -/

namespace Groovebox.Export

/-! ## Values -/

/-- A truth value. -/
def flag (b : Bool) : String :=
  if b then "1" else "0"

/-- A pattern or step number, or -1 for none. -/
def place : Option Nat → String
  | some n => toString n
  | none => "-1"

/-- A setting that is sent where a test holds. -/
def only (test : Bool) (p : Param) (value : String) : List Call :=
  if test then [p.call value] else []

/-- A setting that is sent where it is present. -/
def optional (p : Param) (value : Option Nat) : List Call :=
  match value with
  | some n => [p.call (toString n)]
  | none => []

/-- A condition; one without a cycle is sent as zeros. -/
def condition (p : CyclePart → Param) (c : Condition) : List Call :=
  let cycle := c.cycle?.getD { n := 0, m := 0, invert := false }
  [(p .n).call (toString cycle.n),
    (p .m).call (toString cycle.m),
    (p .invert).call (flag cycle.invert)]

/-- A condition that is sent where it has a cycle. -/
def someCondition (p : CyclePart → Param) (c : Condition) : List Call :=
  if c.isNone then [] else condition p c

/-- A ratchet that is sent where it is more than a single hit and has an engine value. -/
def ratchet (p : Param) (r : Ratchet) : List Call :=
  if r.isSingle then []
  else
    match r.encode with
    | .ok value => [p.call (toString value)]
    | .error _ => []

/-! ## Steps -/

/-- The calls for one step. -/
def step (track index : Nat) (s : Step) : List Call :=
  let p := Param.step track index
  [(p .clear).call "1"] ++
  (s.chord.notes.zip s.chord.velocities).map (fun (note, velocity) =>
    (p .addNote).call (toString note ++ "," ++ toString velocity)) ++
  only (s.gate != 0) (p .gate) (toString s.gate) ++
  optional (p .cc1) s.cc1 ++
  optional (p .cc2) s.cc2 ++
  only (s.probability < 100) (p .probability) (toString s.probability) ++
  ratchet (p .ratchet) s.ratchet ++
  only (1 < s.length) (p .length) (toString s.length) ++
  only (s.offset != 0) (p .offset) (toString s.offset) ++
  someCondition (fun part => p (.condition part)) s.condition ++
  someCondition (fun part => p (.paramSpark part)) s.paramSpark ++
  someCondition (fun part => p (.compSpark part)) s.compSpark ++
  optional (p .jump) s.jump ++
  optional (p .arpMode) (s.arpMode.map Table.index) ++
  optional (p .arpSpeed) (s.arpSpeed.map Table.index) ++
  optional (p .arpOctave) (s.arpOctave.map Table.index) ++
  only (s.arpLayer != .layer) (p .arpLayer) (toString (Table.index s.arpLayer)) ++
  optional (p .arpPlaySteps) s.arpPlaySteps ++
  optional (p .arpPlayStart) s.arpPlayStart

/-! ## Tracks -/

/-- The call that silences a track or lets it sound. -/
def mute (index : Nat) (t : Track) : List Call :=
  [(Param.track index .mute).call (flag t.muted)]

/-- The call that chooses the pattern of a track. -/
def current (index : Nat) (t : Track) : List Call :=
  [(Param.track index .pattern).call (place t.current)]

/-- The calls for a track's settings, without its steps. -/
def settings (index : Nat) (t : Track) (follow : Bool) : List Call :=
  let p := Param.track index
  [(p .channel).call (toString t.channel)] ++
  mute index t ++
  [(p .speed).call t.speed.multiplier,
    (p .swing).call (toString t.swing)] ++
  current index t ++
  [(p .chordFollow).call (flag follow),
    (p .arpMode).call (toString (Table.index t.arpMode)),
    (p .arpSpeed).call (toString (Table.index t.arpSpeed)),
    (p .arpOctave).call (toString (Table.index t.arpOctave)),
    (p .arpContinuous).call (flag t.arpContinuous),
    (p .arpPlaySteps).call (toString t.arpPlaySteps),
    (p .arpPlayStart).call (toString t.arpPlayStart),
    (p .cc1).call (toString t.cc1),
    (p .cc2).call (toString t.cc2),
    (p .length).call (toString t.length),
    (p .reset).call (toString t.resetLength),
    (p .gate).call (toString t.gate)]

/-- The calls for a track with every step of the pattern it plays. -/
def track (index : Nat) (t : Track) (follow : Bool) : List Call :=
  settings index t follow ++
    t.playing.steps.toList.zipIdx.flatMap fun (s, i) => step index i s

/-! ## Songs -/

/-- The call for the tempo. -/
def bpm (s : Song) : List Call :=
  [Param.bpm.call (toString (Song.clampBpm s.bpm))]

/-- The calls for one transpose step of a sequence of `count`; the engine counts sixteenths, four
to a beat. -/
def transposeStep (count index : Nat) (s : TransposeStep) : List Call :=
  let p := Param.transposeStep index
  [(p .transpose).call (toString s.transpose),
    (p .duration).call (toString (s.duration * 4)),
    (p .jump).call (place (s.jump.filter (· < count)))] ++
  condition (fun part => p (.condition part)) s.condition

/-- The calls for the transpose sequence. -/
def transposes (q : TransposeSequence) : List Call :=
  [Param.transposeClear.call "1"] ++
  (q.steps.zipIdx.flatMap fun (s, i) => transposeStep q.length i s) ++
  [Param.transposeCount.call (toString q.length)]

/-- The pairs for a whole song. -/
def songPairs (s : Song) : List Call :=
  bpm s ++
  ((s.tracks.zip s.chordFollow).toList.zipIdx.flatMap fun ((t, follow), i) => track i t follow) ++
  transposes s.transposes ++
  [Param.masterReset.call (toString s.masterReset)]

/-- The bulk calls for a whole song, which is one batch. -/
def song (limit : Nat) (s : Song) : List Call :=
  Batch.sentFor limit (songPairs s)

/-- The bulk calls for some tracks of a song, which are one batch together. -/
def tracks (limit : Nat) (s : Song) (indices : List (Fin 16)) : List Call :=
  Batch.sentFor limit
    (indices.flatMap fun (i : Fin 16) => track i (s.tracks.get i) (s.chordFollow.get i))

end Groovebox.Export
