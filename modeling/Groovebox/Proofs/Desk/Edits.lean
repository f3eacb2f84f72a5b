import Mathlib.Tactic
import Groovebox.Desk
/-! # Edits as partial functions

Edits are made in place, and could leave something behind where they are refused. Here the same
edits are partial functions, which give nothing where they are refused, and both forms are proved to
agree, from the chord of a step up to the desk. So a refused edit leaves the desk as it was, apart
from the generator's settings (`Desk.adjust`), and what an edit does can be told from the partial
form.

* `answered`: what an operation in place makes of its partial form.
* `Desk.tryEdit_eq`: both forms of an edit agree.
* `Desk.apply_eq`: so does the edit that is marked as one to be saved.
-/

namespace Groovebox

/-- What an operation in place answers and leaves, if it leaves what was there before where it is
refused. -/
def answered {α : Type} (before : α) : Option α → Bool × α
  | some a => (true, a)
  | none => (false, before)

/-! ## Chords and steps -/

namespace Chord

/-- A chord takes up the same note in both forms, with its velocity. -/
theorem tryAdd_eq (c : Chord) (note velocity : Nat) :
    c.tryAdd note velocity = answered c (c.add? note velocity) := by
  unfold tryAdd add?
  split <;> rfl

/-- Just the notes that are held have a place in the chord. -/
theorem tryRemove_eq (c : Chord) (note : Nat) :
    c.tryRemove note = answered c (c.remove? note) := by
  unfold tryRemove remove?
  by_cases hheld : note ∈ c.notes
  · rcases Option.isSome_iff_exists.1 (List.isSome_idxOf?.2 hheld) with ⟨i, hi⟩
    have hplace : c.notes.idxOf note = i := by
      rw [List.idxOf_eq_getD_idxOf?, hi, Option.getD_some]
    rw [hi, if_pos hheld, hplace]
    rfl
  · rw [List.idxOf?_eq_none_iff.2 hheld, if_neg hheld]
    rfl

/-- The note is added to what the refused removal leaves, which is the whole chord. -/
theorem tryToggle_eq (c : Chord) (note velocity : Nat) :
    c.tryToggle note velocity = answered c (c.toggle? note velocity) := by
  rw [tryToggle, tryRemove_eq, toggle?]
  cases c.remove? note with
  | some removed => rfl
  | none => exact tryAdd_eq c note velocity

end Chord

/-- A step that refuses a note keeps its chord, so it is the step that it was. -/
theorem Step.tryToggleNote_eq (s : Step) (note velocity : Nat) :
    s.tryToggleNote note velocity = answered s (s.toggleNote? note velocity) := by
  rw [tryToggleNote, toggleNote?, Chord.tryToggle_eq]
  cases s.chord.toggle? note velocity <;> rfl

/-! ## The transpose sequence -/

namespace TransposeSequence

variable (q : TransposeSequence) (i : Nat)

/-- Reading a step, changing it and writing it back is changing it where it is. -/
theorem modify?_eq (f : TransposeStep → TransposeStep) :
    q.modify? i f = q.steps[i]?.map fun s => { steps := q.steps.set i (f s) } := by
  unfold modify?
  split
  · rename_i hi
    have hi : i < q.steps.length := hi
    rw [List.getElem?_eq_getElem hi, Option.map_some, List.modify_eq_set_get _ hi]
    rfl
  · rename_i hi
    rw [List.getElem?_eq_none (Nat.le_of_not_lt hi), Option.map_none]

/-- A step is set, appended or refused by its place. -/
theorem trySetStep_eq (transpose : Int) (duration : Option Int) :
    q.trySetStep i transpose duration = answered q (q.setStep? i transpose duration) := by
  unfold trySetStep setStep?
  by_cases hcapacity : capacity ≤ i
  · rw [if_pos (Or.inl hcapacity), if_pos hcapacity]
    rfl
  rw [if_neg hcapacity]
  rcases Nat.lt_trichotomy i q.length with hlt | heq | hgt
  · -- There is such a step.
    have hget : q.steps[i]? = some q.steps[i] := List.getElem?_eq_getElem hlt
    rw [if_neg (by omega), if_neg (by omega), modify?_eq, hget]
    cases duration <;> rfl
  · -- The place is the next free one.
    have hget : q.steps[i]? = none := List.getElem?_eq_none (Nat.le_of_eq heq.symm)
    rw [if_neg (by omega), if_pos heq, hget]
    rfl
  · -- The place is past the next free one.
    rw [if_pos (Or.inr hgt), if_neg (by omega), modify?, if_neg (by omega)]
    rfl

/-- The new length is the answer in place; there is one just where there is a step. -/
theorem tryAdjustDuration_eq (delta : Int) :
    ((q.tryAdjustDuration i delta).1.isSome, (q.tryAdjustDuration i delta).2) =
      answered q (q.adjustDuration? i delta) := by
  rw [tryAdjustDuration, adjustDuration?, modify?_eq]
  cases q.steps[i]? <;> rfl

/-- The jumps follow the steps once the step is gone. -/
theorem tryRemoveStep_eq : q.tryRemoveStep i = answered q (q.removeStep? i) := by
  unfold tryRemoveStep removeStep?
  by_cases hi : i < q.length
  · rw [if_pos hi, if_neg (Nat.not_le_of_lt hi)]
    rfl
  · rw [if_neg hi, if_pos (Nat.le_of_not_lt hi)]
    rfl

end TransposeSequence

/-! ## Songs -/

/-- Putting a step back into its pattern changes nothing. -/
theorem Pattern.setStep_self (p : Pattern) (i : Fin 64) : p.setStep i (p.steps.get i) = p := by
  rw [setStep, Bank.put_get_self]

/-- Putting the pattern back that a track plays changes nothing. -/
theorem Track.setPattern_playing (t : Track) : t.setPattern t.playingIndex t.playing = t := by
  rw [setPattern, playing, Bank.put_get_self]

namespace Song

variable (s : Song) (slot : Nat)

theorem setTrack_self (i : Fin 16) : s.setTrack i (s.tracks.get i) = s := by
  rw [setTrack, Bank.put_get_self]

/-- A slot past the last one is refused in both forms. -/
theorem trySaveSnapshot_eq : s.trySaveSnapshot slot = answered s (s.saveSnapshot? slot) := by
  unfold trySaveSnapshot saveSnapshot?
  split <;> rfl

/-- A slot that holds nothing is refused in both forms. -/
theorem tryRecallSnapshot_eq : s.tryRecallSnapshot slot = answered s (s.recallSnapshot? slot) := by
  unfold tryRecallSnapshot recallSnapshot?
  cases s.snapshots[slot]?.join <;> rfl

/-- A slot that is empty already is emptied without effect. -/
theorem tryClearSnapshot_eq : s.tryClearSnapshot slot = answered s (s.clearSnapshot? slot) := by
  unfold tryClearSnapshot clearSnapshot?
  split
  · rename_i hslot
    cases hheld : s.snapshots[slot] with
    | none =>
      have hsame : s.snapshots.set slot none = s.snapshots := by
        rw [← hheld, Vector.set_getElem_self]
      simp only [Option.isSome_none, Bool.false_and, Bool.false_eq_true, if_false, hsame]
      rfl
    | some snapshot =>
      simp only [Option.isSome_some, Bool.true_and, beq_iff_eq, if_true, answered]
      split <;> rfl
  · rfl

/-- The copy is read before anything is written, so a refusal has not written. -/
theorem tryCopyPattern_eq (fromTrack fromPattern toTrack toPattern : Nat) :
    s.tryCopyPattern fromTrack fromPattern toTrack toPattern =
      answered s (s.copyPattern? fromTrack fromPattern toTrack toPattern) := by
  unfold tryCopyPattern copyPattern?
  cases s.pattern? fromTrack fromPattern with
  | none => rfl
  | some copy =>
    simp only [Option.bind_some]
    cases s.setPattern? toTrack toPattern copy <;> rfl

end Song

namespace Desk

/-! ## Edits -/

/-- What an edit comes to: the song, the calls that are sent for it, and the generator. -/
structure Effect where
  /-- The edited song. -/
  song : Song
  /-- The calls that are sent. -/
  calls : List Call
  /-- What was generated last. -/
  audition : Audition
  /-- The random generator. -/
  random : Random

/-- The desk after an effect. -/
def carry (d : Desk) (f : Effect) : Desk :=
  { (d.setSong f.song).send f.calls with audition := f.audition, random := f.random }

/-- The effect of an edit that generates nothing. -/
def effect (d : Desk) (song : Song) (calls : List Call) : Effect :=
  { song, calls, audition := d.audition, random := d.random }

/-- The effect of a change of a step in the pattern that a track plays. None where there is no such
step, and where `change` refuses. -/
def stepEffect? (d : Desk) (track step : Nat) (change : Step → Option Step) : Option Effect :=
  if ht : track < 16 then
    if hs : step < 64 then
      let t := d.song.tracks[track]
      let i := t.playingIndex
      (change (t.patterns.get i).steps[step]).map fun s =>
        let t := t.setPattern i ((t.patterns.get i).setStep ⟨step, hs⟩ s)
        d.effect (d.song.setTrack ⟨track, ht⟩ t) (Export.step track step s)
    else none
  else none

/-- The effect of a change of the transpose sequence. -/
def transposesEffect? (d : Desk) (changed : Option TransposeSequence) : Option Effect :=
  changed.map fun transposes => d.effect { d.song with transposes } (Export.transposes transposes)

/-- The effect of generating a pattern on a track. -/
def generateEffect (d : Desk) (track : Fin 16) : Effect :=
  let t := d.song.tracks.get track
  let o := d.audition.generate track t d.params d.style d.scaleHint d.random
  let song := d.song.setTrack track o.track
  { song
    calls := Export.tracks d.settings.bulkChunk song [track]
    audition := o.audition
    random := o.random }

/-- The calls after a pattern was copied to a place of a track: the track is sent if it plays that
pattern. -/
def copyCalls (d : Desk) (song : Song) (track pattern : Nat) : List Call :=
  if h : track < 16 then
    if song.tracks[track].playingIndex.val = pattern then
      Export.tracks d.settings.bulkChunk song [⟨track, h⟩]
    else []
  else []

/-- The effect of an edit of the song; none where it is refused. Edits of the generator's settings
are none of the song's. -/
def effect? (d : Desk) : Edit → Option Effect
  | .toggleNote track step note velocity =>
    d.stepEffect? track step fun s => s.toggleNote? note velocity
  | .clearStep track step => d.stepEffect? track step fun _ => some {}
  | .setDial track step position => d.stepEffect? track step fun s => some (s.setDial position)
  | .setRatchet track step index =>
    match Ratchet.ofIndex index with
    | .ok ratchet => d.stepEffect? track step fun s => some { s with ratchet }
    | .error _ => none
  | .setOffset track step ticks => d.stepEffect? track step fun s => some (s.setOffset ticks)
  | .setBpm bpm => some (d.effect (d.song.setBpm bpm) (Export.bpm (d.song.setBpm bpm)))
  | .toggleMute track =>
    if h : track < 16 then
      let t := { d.song.tracks[track] with muted := !d.song.tracks[track].muted }
      some (d.effect (d.song.setTrack ⟨track, h⟩ t) (Export.mute track t))
    else none
  | .setCurrent track pattern =>
    if h : track < 16 then
      if pattern.any (16 ≤ ·) then none
      else
        let song := d.song.setTrack ⟨track, h⟩ { d.song.tracks[track] with current := pattern }
        some (d.effect song (Export.tracks d.settings.bulkChunk song [⟨track, h⟩]))
    else none
  | .setChordFollow track follow =>
    if h : track < 16 then
      some (d.effect { d.song with chordFollow := d.song.chordFollow.set track follow }
        (Export.settings track d.song.tracks[track] follow))
    else none
  | .saveSnapshot slot => (d.song.saveSnapshot? slot).map fun song => d.effect song []
  | .recallSnapshot slot =>
    (d.song.recallSnapshot? slot).map fun song =>
      d.effect song (Export.tracks d.settings.bulkChunk song (List.finRange 16))
  | .clearSnapshot slot => (d.song.clearSnapshot? slot).map fun song => d.effect song []
  | .copyPattern fromTrack fromPattern toTrack toPattern =>
    (d.song.copyPattern? fromTrack fromPattern toTrack toPattern).map fun song =>
      d.effect song (d.copyCalls song toTrack toPattern)
  | .setTransposeStep index transpose duration =>
    d.transposesEffect? (d.song.transposes.setStep? index transpose duration)
  | .adjustTransposeDuration index delta =>
    d.transposesEffect? (d.song.transposes.adjustDuration? index delta)
  | .removeTransposeStep index => d.transposesEffect? (d.song.transposes.removeStep? index)
  | .clearTranspose => d.transposesEffect? (some {})
  | .generate track => if h : track < 16 then some (d.generateEffect ⟨track, h⟩) else none
  | .nudgeGenerator .. | .setStyle _ | .endGenerate => none

/-- The desk after an edit of the song; none where it is refused. -/
def edit? (d : Desk) (e : Edit) : Option Desk :=
  (d.effect? e).map d.carry

/-- What an edit does to the generator's settings; nothing unless it is an edit of them. -/
def adjust (d : Desk) : Edit → Desk
  | .nudgeGenerator knob delta => { d with params := d.params.nudge knob delta }
  | .setStyle style => { d with style }
  | .endGenerate => { d with audition := d.audition.finish }
  | _ => d

/-! ## Both forms agree -/

/-- A refused operation hands over the song that it was given. -/
theorem withSong_eq (d : Desk) (o : Option Song) :
    d.withSong (answered d.song o) = answered d (o.map d.setSong) := by
  cases o <;> rfl

/-- A refused change of the transpose sequence sends nothing, and puts back what was there. -/
theorem withTransposes_eq (d : Desk) (o : Option TransposeSequence) :
    d.withTransposes (answered d.song.transposes o).1 (answered d.song.transposes o).2 =
      answered d ((d.transposesEffect? o).map d.carry) := by
  cases o <;> rfl

/-- A step that refuses a change is put back as it was. -/
theorem tryStep_eq (d : Desk) (track step : Nat) {change : Step → Bool × Step}
    {partialChange : Step → Option Step} (hchange : ∀ s, change s = answered s (partialChange s)) :
    d.tryStep track step change =
      answered d ((d.stepEffect? track step partialChange).map d.carry) := by
  unfold tryStep stepEffect?
  split
  · split
    · rename_i ht hs
      simp only [hchange]
      cases partialChange ((d.song.tracks[track].patterns.get
          d.song.tracks[track].playingIndex).steps[step]) with
      | some new => rfl
      | none =>
        let t := d.song.tracks.get ⟨track, ht⟩
        let p := t.playing
        have hsame : d.song.setTrack ⟨track, ht⟩
            (t.setPattern t.playingIndex (p.setStep ⟨step, hs⟩ (p.steps.get ⟨step, hs⟩))) =
              d.song := by
          rw [Pattern.setStep_self, Track.setPattern_playing, Song.setTrack_self]
        exact congrArg (fun song => (false, d.setSong song)) hsame
    · rfl
  · rfl

/-- A change that takes any step is never refused. -/
theorem tryStep_some_eq (d : Desk) (track step : Nat) (change : Step → Step) :
    d.tryStep track step (fun s => (true, change s)) =
      answered d ((d.stepEffect? track step fun s => some (change s)).map d.carry) :=
  tryStep_eq d track step fun _ => rfl

/-- Sending tracks of a new song is part of the effect that makes the song. -/
theorem sendTracks_eq (d : Desk) (song : Song) (tracks : List (Fin 16)) :
    (d.setSong song).sendTracks tracks =
      d.carry (d.effect song (Export.tracks d.settings.bulkChunk song tracks)) := by
  rw [sendTracks]
  rfl

/-- Generating is refused only for a track that there is not, and changes nothing then. -/
theorem generate_eq (d : Desk) (track : Nat) :
    ((d.generate track).1.isSome, (d.generate track).2) =
      answered d (d.edit? (.generate track)) := by
  simp only [generate, edit?, effect?, sendTracks_eq]
  split <;> rfl

/-- An effect without calls is the song that it makes. -/
theorem carry_silent (d : Desk) (song : Song) : d.carry (d.effect song []) = d.setSong song := by
  simp [carry, effect, send, setSong]

/-- Whether a copied pattern is sent depends on the new song alone. -/
theorem sendIfPlays_eq (d : Desk) (song : Song) (track pattern : Nat) :
    (d.setSong song).sendIfPlays track pattern =
      d.carry (d.effect song (d.copyCalls song track pattern)) := by
  unfold sendIfPlays copyCalls
  split
  · rename_i ht
    split
    · rename_i hplays
      have hplays : song.tracks[track].playingIndex.val = pattern := hplays
      rw [if_pos hplays, sendTracks_eq]
    · rename_i hidle
      have hidle : ¬ song.tracks[track].playingIndex.val = pattern := hidle
      rw [if_neg hidle, carry_silent]
  · rw [carry_silent]

/-- Both forms of an edit agree: where the partial one gives nothing, the one in place leaves the
desk as it was, apart from the generator's settings. -/
theorem tryEdit_eq (d : Desk) (e : Edit) : d.tryEdit e = answered (d.adjust e) (d.edit? e) := by
  cases e with
  | toggleNote track step note velocity =>
    simp only [tryEdit, edit?, effect?]
    exact tryStep_eq d track step fun s => s.tryToggleNote_eq note velocity
  | clearStep track step =>
    simp only [tryEdit, edit?, effect?]
    exact tryStep_some_eq d track step _
  | setDial track step position =>
    simp only [tryEdit, edit?, effect?]
    exact tryStep_some_eq d track step _
  | setRatchet track step index =>
    simp only [tryEdit, edit?, effect?]
    cases Ratchet.ofIndex index with
    | ok ratchet => exact tryStep_some_eq d track step _
    | error fault => rfl
  | setOffset track step ticks =>
    simp only [tryEdit, edit?, effect?]
    exact tryStep_some_eq d track step _
  | setBpm bpm => rfl
  | toggleMute track =>
    simp only [tryEdit, edit?, effect?]
    split <;> rfl
  | setCurrent track pattern =>
    simp only [tryEdit, edit?, effect?, sendTracks_eq]
    split
    · split <;> rfl
    · rfl
  | setChordFollow track follow =>
    simp only [tryEdit, edit?, effect?]
    split <;> rfl
  | saveSnapshot slot =>
    simp only [tryEdit, edit?, effect?, Song.trySaveSnapshot_eq, withSong_eq, Option.map_map,
      Function.comp_def, carry_silent]
    rfl
  | recallSnapshot slot =>
    simp only [tryEdit, edit?, effect?, Song.tryRecallSnapshot_eq, withSong_eq]
    cases d.song.recallSnapshot? slot with
    | none => rfl
    | some song => exact congrArg (Prod.mk true) (sendTracks_eq d song (List.finRange 16))
  | clearSnapshot slot =>
    simp only [tryEdit, edit?, effect?, Song.tryClearSnapshot_eq, withSong_eq, Option.map_map,
      Function.comp_def, carry_silent]
    rfl
  | copyPattern fromTrack fromPattern toTrack toPattern =>
    simp only [tryEdit, edit?, effect?, Song.tryCopyPattern_eq, withSong_eq]
    cases d.song.copyPattern? fromTrack fromPattern toTrack toPattern with
    | none => rfl
    | some song => exact congrArg (Prod.mk true) (sendIfPlays_eq d song toTrack toPattern)
  | setTransposeStep index transpose duration =>
    simp only [tryEdit, edit?, effect?, TransposeSequence.trySetStep_eq]
    exact withTransposes_eq d _
  | adjustTransposeDuration index delta =>
    -- The new length is the answer here, and only whether there is one counts.
    have hadjust := TransposeSequence.tryAdjustDuration_eq d.song.transposes index delta
    rcases Prod.mk.inj hadjust with ⟨hlength, hleft⟩
    simp only [tryEdit, edit?, effect?]
    rw [hlength, hleft]
    exact withTransposes_eq d _
  | removeTransposeStep index =>
    simp only [tryEdit, edit?, effect?, TransposeSequence.tryRemoveStep_eq]
    exact withTransposes_eq d _
  | clearTranspose => rfl
  | nudgeGenerator knob delta => rfl
  | setStyle style => rfl
  | generate track => exact generate_eq d track
  | endGenerate => rfl

/-- An edit is made, and marked as one to be saved, where its partial form gives something; where it
gives nothing, the generator's settings are all that may change. -/
theorem apply_eq (d : Desk) (e : Edit) (now : Nat) :
    d.apply e now = match d.edit? e with
      | some d => (true, { d with session := d.session.markDirty now })
      | none => (false, d.adjust e) := by
  rw [apply, tryEdit_eq]
  cases d.edit? e <;> rfl

end Desk
end Groovebox
