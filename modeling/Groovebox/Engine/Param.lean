import Groovebox.Engine.Call
/-! # Parameters of the engine

Everything the engine can be told, as a value, and the key under which it is told. -/

namespace Groovebox

/-- The three numbers that a condition is sent as: cycle length, loop, and whether it is
inverted. -/
inductive CyclePart
  | n | m | invert
deriving DecidableEq, Repr

/-- The end of a condition's key. -/
def CyclePart.key : CyclePart → String
  | n => "_n"
  | m => "_m"
  | invert => "_not"

/-- A setting of a step. -/
inductive StepParam
  | clear | addNote | gate | cc1 | cc2 | probability | ratchet | length | offset
  | condition (part : CyclePart)
  | paramSpark (part : CyclePart)
  | compSpark (part : CyclePart)
  | jump | arpMode | arpSpeed | arpOctave | arpLayer | arpPlaySteps | arpPlayStart
deriving DecidableEq, Repr

/-- The end of a step's key. -/
def StepParam.key : StepParam → String
  | clear => "clear"
  | addNote => "add_note"
  | gate => "gate"
  | cc1 => "cc1"
  | cc2 => "cc2"
  | probability => "probability"
  | ratchet => "ratchet"
  | length => "length"
  | offset => "offset"
  | condition part => "condition" ++ part.key
  | paramSpark part => "param_spark" ++ part.key
  | compSpark part => "comp_spark" ++ part.key
  | jump => "jump"
  | arpMode => "arp_mode"
  | arpSpeed => "arp_speed"
  | arpOctave => "arp_octave"
  | arpLayer => "arp_layer"
  | arpPlaySteps => "arp_play_steps"
  | arpPlayStart => "arp_play_start"

/-- A setting of a track. -/
inductive TrackParam
  | channel | mute | speed | swing | pattern | chordFollow | arpMode | arpSpeed | arpOctave
  | arpContinuous | arpPlaySteps | arpPlayStart | cc1 | cc2 | length | reset | gate
deriving DecidableEq, Repr

/-- The end of a track's key. -/
def TrackParam.key : TrackParam → String
  | channel => "channel"
  | mute => "mute"
  | speed => "speed"
  | swing => "swing"
  | pattern => "pattern"
  | chordFollow => "chord_follow"
  | arpMode => "arp_mode"
  | arpSpeed => "arp_speed"
  | arpOctave => "arp_octave"
  | arpContinuous => "arp_continuous"
  | arpPlaySteps => "arp_play_steps"
  | arpPlayStart => "arp_play_start"
  | cc1 => "cc1_default"
  | cc2 => "cc2_default"
  | length => "length"
  | reset => "reset"
  | gate => "gate"

/-- A setting of a transpose step. -/
inductive TransposeParam
  | transpose | duration | jump
  | condition (part : CyclePart)
deriving DecidableEq, Repr

/-- The end of a transpose step's key. -/
def TransposeParam.key : TransposeParam → String
  | transpose => "transpose"
  | duration => "duration"
  | jump => "jump"
  | condition part => "condition" ++ part.key

/-- A parameter of the engine. -/
inductive Param
  | bpm
  | masterReset
  | track (track : Nat) (setting : TrackParam)
  | step (track step : Nat) (setting : StepParam)
  | transposeClear
  | transposeStep (index : Nat) (setting : TransposeParam)
  | transposeCount
deriving DecidableEq, Repr

namespace Param

/-- The beginning of the keys of a track. -/
def trackKey (track : Nat) : String :=
  "track_" ++ toString track ++ "_"

/-- The beginning of the keys of a step. -/
def stepKey (track step : Nat) : String :=
  trackKey track ++ "step_" ++ toString step ++ "_"

/-- The key under which a parameter is sent. -/
def key : Param → String
  | bpm => "bpm"
  | masterReset => "master_reset"
  | track t setting => trackKey t ++ setting.key
  | step t s setting => stepKey t s ++ setting.key
  | transposeClear => "transpose_clear"
  | transposeStep i setting => "transpose_step_" ++ toString i ++ "_" ++ setting.key
  | transposeCount => "transpose_step_count"

/-- The call that gives a parameter a value. -/
def call (p : Param) (value : String) : Call :=
  { key := p.key, value }

end Param
end Groovebox
