import Groovebox.Edit
import Groovebox.Engine.Export
import Groovebox.Engine.Link
import Groovebox.Generator.Audition
import Groovebox.Session
import Groovebox.Settings
import Groovebox.Trying
/-! # The desk

The desk is where the user's edits arrive. Each edit changes the song, sends the engine what
follows from the change, and marks the song as dirty, so that it is saved in time. -/

namespace Groovebox

/-- An editing session together with the engine and the generator. -/
structure Desk where
  /-- The editing session. -/
  session : Session
  /-- The settings of the library. -/
  settings : Settings
  /-- The generator's knobs. -/
  params : GeneratorParams := {}
  /-- The generator's style. -/
  style : Style := .random
  /-- What was generated last. -/
  audition : Audition := {}
  /-- The random generator. -/
  random : Random
  /-- What the engine made known. -/
  facts : Facts := []
  /-- The calls sent to the engine, the oldest first. -/
  sent : List Call := []
deriving Repr

namespace Desk

/-! ## Sending -/

/-- Sends calls to the engine. -/
def send (d : Desk) (calls : List Call) : Desk :=
  { d with sent := d.sent ++ calls }

/-- The song being edited. -/
def song (d : Desk) : Song := d.session.song

/-- Replaces the song being edited. -/
def setSong (d : Desk) (song : Song) : Desk :=
  { d with session := { d.session with song } }

/-- Sends the whole song. -/
def sendSong (d : Desk) : Desk :=
  d.send (Export.song d.settings.bulkChunk d.song)

/-- Sends some tracks with their steps. -/
def sendTracks (d : Desk) (tracks : List (Fin 16)) : Desk :=
  d.send (Export.tracks d.settings.bulkChunk d.song tracks)

/-- Sends a track if it plays the pattern at a place. -/
def sendIfPlays (d : Desk) (track pattern : Nat) : Desk :=
  if h : track < 16 then
    if d.song.tracks[track].playingIndex.val = pattern then d.sendTracks [⟨track, h⟩] else d
  else d

/-- Sends the transpose sequence. -/
def sendTransposes (d : Desk) : Desk :=
  d.send (Export.transposes d.song.transposes)

/-- Opens a set, or the last one for a number past it, and sends its song. -/
def start (library : Library) (setIndex : Nat) (settings : Settings) (facts : Facts)
    (seed : UInt64) : Desk :=
  let session := Session.start library (min setIndex (Library.capacity - 1)) settings.saveDebounce
  ({ session, settings, facts, random := Random.ofSeed seed } : Desk).sendSong

/-! ## Generating -/

/-- The scale that the engine reports, or else the one found in the song. -/
def scaleHint (d : Desk) : Option Scale :=
  let reported := do
    let root ← d.facts.get? "detected_scale_root"
    let name ← d.facts.get? "detected_scale_name"
    Scale.ofReport? root name
  reported <|> Scale.detect? d.song

/-- Generates a pattern on a track. The answer is the pattern written to. -/
def generate (d : Desk) (track : Nat) : Option Nat × Desk :=
  if h : track < 16 then
    let o := d.audition.generate track d.song.tracks[track] d.params d.style d.scaleHint d.random
    let d := { d with audition := o.audition, random := o.random }
    (some o.target, (d.setSong (d.song.setTrack ⟨track, h⟩ o.track)).sendTracks [⟨track, h⟩])
  else (none, d)

/-! ## Edits -/

/-- Puts a song in place of the one being edited, keeping the answer that came with it. -/
def withSong (d : Desk) (r : Bool × Song) : Bool × Desk :=
  (r.1, d.setSong r.2)

/-- Changes a step of the pattern that a track plays, and sends it. Refused where there is no such
step, and where `change` refuses. -/
def tryStep (d : Desk) (track step : Nat) (change : Step → Bool × Step) : Bool × Desk :=
  if ht : track < 16 then
    if hs : step < 64 then
      let t := d.song.tracks[track]
      let i := t.playingIndex
      let (made, s) := change (t.patterns.get i).steps[step]
      let t := t.setPattern i ((t.patterns.get i).setStep ⟨step, hs⟩ s)
      let d := d.setSong (d.song.setTrack ⟨track, ht⟩ t)
      if made then (true, d.send (Export.step track step s)) else (false, d)
    else (false, d)
  else (false, d)

/-- Puts a transpose sequence in place of the song's, and sends it if it was changed. -/
def withTransposes (d : Desk) (changed : Bool) (transposes : TransposeSequence) : Bool × Desk :=
  let d := d.setSong { d.song with transposes }
  if changed then (true, d.sendTransposes) else (false, d)

/-- Makes an edit and sends what follows from it. The answer says whether the song was edited; edits
of the generator's settings are none of the song's. -/
def tryEdit (d : Desk) : Edit → Bool × Desk
  | .toggleNote track step note velocity =>
    d.tryStep track step fun s => s.tryToggleNote note velocity
  | .clearStep track step => d.tryStep track step fun _ => (true, {})
  | .setDial track step position => d.tryStep track step fun s => (true, s.setDial position)
  | .setRatchet track step index =>
    match Ratchet.ofIndex index with
    | .ok ratchet => d.tryStep track step fun s => (true, { s with ratchet })
    | .error _ => (false, d)
  | .setOffset track step ticks => d.tryStep track step fun s => (true, s.setOffset ticks)
  | .setBpm bpm =>
    let d := d.setSong (d.song.setBpm bpm)
    (true, d.send (Export.bpm d.song))
  | .toggleMute track =>
    if h : track < 16 then
      let t := { d.song.tracks[track] with muted := !d.song.tracks[track].muted }
      (true, (d.setSong (d.song.setTrack ⟨track, h⟩ t)).send (Export.mute track t))
    else (false, d)
  | .setCurrent track pattern =>
    if h : track < 16 then
      if pattern.any (16 ≤ ·) then (false, d)
      else
        let t := { d.song.tracks[track] with current := pattern }
        (true, (d.setSong (d.song.setTrack ⟨track, h⟩ t)).sendTracks [⟨track, h⟩])
    else (false, d)
  | .setChordFollow track follow =>
    if h : track < 16 then
      let d := d.setSong { d.song with chordFollow := d.song.chordFollow.set track follow }
      (true, d.send (Export.settings track d.song.tracks[track] follow))
    else (false, d)
  | .saveSnapshot slot => d.withSong (d.song.trySaveSnapshot slot)
  | .recallSnapshot slot =>
    match d.withSong (d.song.tryRecallSnapshot slot) with
    | (true, d) => (true, d.sendTracks (List.finRange 16))
    | (false, d) => (false, d)
  | .clearSnapshot slot => d.withSong (d.song.tryClearSnapshot slot)
  | .copyPattern fromTrack fromPattern toTrack toPattern =>
    match d.withSong (d.song.tryCopyPattern fromTrack fromPattern toTrack toPattern) with
    | (true, d) => (true, d.sendIfPlays toTrack toPattern)
    | (false, d) => (false, d)
  | .setTransposeStep index transpose duration =>
    let (changed, transposes) := d.song.transposes.trySetStep index transpose duration
    d.withTransposes changed transposes
  | .adjustTransposeDuration index delta =>
    let (length, transposes) := d.song.transposes.tryAdjustDuration index delta
    d.withTransposes length.isSome transposes
  | .removeTransposeStep index =>
    let (changed, transposes) := d.song.transposes.tryRemoveStep index
    d.withTransposes changed transposes
  | .clearTranspose => d.withTransposes true {}
  | .nudgeGenerator knob delta => (false, { d with params := d.params.nudge knob delta })
  | .setStyle style => (false, { d with style })
  | .generate track =>
    let (target, d) := d.generate track
    (target.isSome, d)
  | .endGenerate => (false, { d with audition := d.audition.finish })

/-- Makes an edit. The answer says whether the song was edited; if so, it is to be saved. -/
def apply (d : Desk) (e : Edit) (now : Nat) : Bool × Desk :=
  match d.tryEdit e with
  | (true, d) => (true, { d with session := d.session.markDirty now })
  | (false, d) => (false, d)

/-! ## Saving and switching -/

/-- Replaces the session, keeping the answer that came with it. -/
def withSession (d : Desk) (r : Bool × Session) : Bool × Desk :=
  (r.1, { d with session := r.2 })

/-- Does what is due. The answer says whether a set was written. -/
def tick (d : Desk) (now : Nat) : Bool × Desk :=
  d.withSession (d.session.tick now)

/-- Starts or stops the transport. The answer says whether a set was written. -/
def setPlaying (d : Desk) (playing : Bool) (now : Nat) : Bool × Desk :=
  d.withSession (d.session.setPlaying playing now)

/-- Writes the song now if it is dirty. The answer says whether it was written. -/
def flush (d : Desk) (now : Nat) : Bool × Desk :=
  d.withSession (d.session.flush now)

/-- Goes to another set and sends its song. Refused for a number past the last set, and where the
current set cannot be written. -/
def openSet (d : Desk) (index now : Nat) : Bool × Desk :=
  if Library.capacity ≤ index then (false, d)
  else
    match d.withSession (d.session.switchTo index now) with
    | (true, d) => (true, { d with audition := d.audition.finish }.sendSong)
    | (false, d) => (false, d)

end Desk
end Groovebox
