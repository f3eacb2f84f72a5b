import Groovebox.Song
/-! # Operations in place

An operation that may be refused has two forms. The partial one gives nothing where it is refused.
The one that stands here works on what it is given: it answers whether it was carried out, and hands
over what is there afterwards, refused or not. Edits are made in this form. -/

namespace Groovebox

/-! ## Chords and steps -/

namespace Chord

/-- Appends a note, and then its velocity. -/
def tryAdd (c : Chord) (note velocity : Nat) : Bool × Chord :=
  if 127 < note ∨ note ∈ c.notes ∨ capacity ≤ c.notes.length then (false, c)
  else
    let c := { c with notes := c.notes ++ [note] }
    (true, { c with velocities := c.velocities ++ [clampVelocity velocity] })

/-- Removes a note, and then its velocity. -/
def tryRemove (c : Chord) (note : Nat) : Bool × Chord :=
  match c.notes.idxOf? note with
  | some i =>
    let c := { c with notes := c.notes.eraseIdx i }
    (true, { c with velocities := c.velocities.eraseIdx i })
  | none => (false, c)

/-- Tries to remove a note, and to add it to what is left if that is refused. -/
def tryToggle (c : Chord) (note velocity : Nat) : Bool × Chord :=
  match c.tryRemove note with
  | (true, c) => (true, c)
  | (false, c) => c.tryAdd note velocity

end Chord

/-- Removes the note if it is there and adds it otherwise. -/
def Step.tryToggleNote (s : Step) (note velocity : Nat) : Bool × Step :=
  let (made, chord) := s.chord.tryToggle note velocity
  (made, { s with chord })

/-! ## The transpose sequence -/

namespace TransposeSequence

/-- Changes the interval of a step, and then its length if one is given; or appends a step at the
next free position. -/
def trySetStep (q : TransposeSequence) (i : Nat) (transpose : Int) (duration : Option Int) :
    Bool × TransposeSequence :=
  if capacity ≤ i ∨ q.length < i then (false, q)
  else
    match q.steps[i]? with
    | some s =>
      let s := { s with transpose := TransposeStep.clampTranspose transpose }
      let s := match duration with
        | some d => { s with duration := TransposeStep.clampDuration d }
        | none => s
      (true, { q with steps := q.steps.set i s })
    | none =>
      (true, { q with steps := q.steps ++ [TransposeStep.new transpose (duration.getD 4)] })

/-- Moves the length of a step by one notch. The answer is the new length. -/
def tryAdjustDuration (q : TransposeSequence) (i : Nat) (delta : Int) :
    Option Nat × TransposeSequence :=
  match q.steps[i]? with
  | some s =>
    let s := { s with duration := nextDuration s.duration delta }
    (some s.duration, { q with steps := q.steps.set i s })
  | none => (none, q)

/-- Removes a step, and then moves the jumps to the later ones. -/
def tryRemoveStep (q : TransposeSequence) (i : Nat) : Bool × TransposeSequence :=
  if q.length ≤ i then (false, q)
  else
    let q := { q with steps := q.steps.eraseIdx i }
    (true, { q with steps := q.steps.map fun s => { s with jump := retarget i s.jump } })

end TransposeSequence

/-! ## Songs -/

namespace Song

/-- Stores which pattern each track plays. -/
def trySaveSnapshot (s : Song) (slot : Nat) : Bool × Song :=
  if h : slot < 16 then
    let s : Song :=
      { s with snapshots := s.snapshots.set slot (some (s.tracks.map Track.current)) }
    (true, { s with activeSnapshot := some slot })
  else (false, s)

/-- Makes every track play what a snapshot holds. -/
def tryRecallSnapshot (s : Song) (slot : Nat) : Bool × Song :=
  match s.snapshots[slot]?.join with
  | some snapshot =>
    let s : Song := { s with
      tracks := s.tracks.zipWith (fun t current => { t with current }) snapshot }
    (true, { s with activeSnapshot := some slot })
  | none => (false, s)

/-- Empties a slot, whatever it holds. The answer says whether it held a snapshot. -/
def tryClearSnapshot (s : Song) (slot : Nat) : Bool × Song :=
  if h : slot < 16 then
    let removed := s.snapshots[slot].isSome
    let s : Song := { s with snapshots := s.snapshots.set slot none }
    if removed && s.activeSnapshot == some slot then (removed, { s with activeSnapshot := none })
    else (removed, s)
  else (false, s)

/-- Copies a pattern between any two places. -/
def tryCopyPattern (s : Song) (fromTrack fromPattern toTrack toPattern : Nat) : Bool × Song :=
  match s.pattern? fromTrack fromPattern with
  | none => (false, s)
  | some copy =>
    match s.setPattern? toTrack toPattern copy with
    | some s => (true, s)
    | none => (false, s)

end Song
end Groovebox
