import Mathlib.Tactic
import Groovebox.Proofs.Desk.Ranges
import Groovebox.Proofs.Desk.Timing
/-! # Which edits are refused

Each of the twenty-one kinds of edits is refused for reasons of its own: a place that does not
exist, a full chord, a slot without a snapshot. The first part says for each kind when a song admits
it (`Edit.Admitted`), without a look at how the edit is made. An edit is made in place; that nothing
is left of a refused one is told from its partial form (`Desk.tryEdit_eq`).

* `Desk.edit?_isSome_iff`: an edit is made exactly when the song admits it.
* `Desk.adjust_eq`: a refused edit touches the generator's settings at most.
* `Desk.perform_punctual`: whatever is done to a desk, only the active set waits to be saved.
* `Desk.apply_all_or_nothing`: a refused edit leaves all as it was, and after one that is made the
  save of the active set waits and no other.
-/

namespace Groovebox

/-! ## What a song admits -/

/-- The step that edits of a track change at a place: one of the pattern that the track plays. -/
def Song.playedStep? (s : Song) (track step : Nat) : Option Step :=
  s.tracks[track]?.bind fun t => t.playing.steps[step]?

/-- A chord gives up a note that it holds, and takes in a note in range while there is room. -/
def Chord.Toggles (c : Chord) (note : Nat) : Prop :=
  note ∈ c.notes ∨ (note ≤ 127 ∧ c.notes.length < Chord.capacity)

instance (c : Chord) (note : Nat) : Decidable (c.Toggles note) :=
  inferInstanceAs (Decidable (_ ∨ _))

/-- Whether a song admits an edit. Edits of the generator's settings are none of the song's. -/
def Edit.Admitted (s : Song) : Edit → Prop
  | .toggleNote track step note _ => ∃ held ∈ s.playedStep? track step, held.chord.Toggles note
  | .clearStep track step | .setDial track step _ | .setOffset track step _ =>
    track < 16 ∧ step < 64
  | .setRatchet track step index => (track < 16 ∧ step < 64) ∧ 0 ≤ index ∧ index < 22
  | .setBpm _ | .clearTranspose => True
  | .toggleMute track | .setChordFollow track _ | .generate track => track < 16
  | .setCurrent track pattern => track < 16 ∧ ∀ p ∈ pattern, p < 16
  | .saveSnapshot slot => slot < 16
  | .recallSnapshot slot | .clearSnapshot slot => s.snapshots[slot]?.join.isSome
  | .copyPattern fromTrack fromPattern toTrack toPattern =>
    (fromTrack < 16 ∧ fromPattern < 16) ∧ toTrack < 16 ∧ toPattern < 16
  | .setTransposeStep index _ _ =>
    index ≤ s.transposes.length ∧ index < TransposeSequence.capacity
  | .adjustTransposeDuration index _ | .removeTransposeStep index => index < s.transposes.length
  | .nudgeGenerator _ _ | .setStyle _ | .endGenerate => False

instance (s : Song) : (e : Edit) → Decidable (e.Admitted s)
  | .toggleNote _ _ _ _ =>
    inferInstanceAs (Decidable (∃ held ∈ _, Chord.Toggles (Step.chord held) _))
  | .clearStep _ _ | .setDial _ _ _ | .setOffset _ _ _ => inferInstanceAs (Decidable (_ ∧ _))
  | .setRatchet _ _ _ | .copyPattern _ _ _ _ => inferInstanceAs (Decidable ((_ ∧ _) ∧ _ ∧ _))
  | .setBpm _ | .clearTranspose => inferInstanceAs (Decidable True)
  | .toggleMute _ | .setChordFollow _ _ | .generate _ | .saveSnapshot _
  | .adjustTransposeDuration _ _ | .removeTransposeStep _ => inferInstanceAs (Decidable (_ < _))
  | .setCurrent _ _ => inferInstanceAs (Decidable (_ ∧ ∀ p ∈ _, p < 16))
  | .recallSnapshot _ | .clearSnapshot _ => inferInstanceAs (Decidable (_ = true))
  | .setTransposeStep _ _ _ => inferInstanceAs (Decidable (_ ≤ _ ∧ _ < _))
  | .nudgeGenerator _ _ | .setStyle _ | .endGenerate => inferInstanceAs (Decidable False)

/-- Whether an edit is one of the generator's settings, which are no part of the song. -/
def Edit.IsSetting : Edit → Prop
  | .nudgeGenerator _ _ | .setStyle _ | .endGenerate => True
  | _ => False

/-- Each of the sixteen tracks plays 64 steps. -/
theorem Song.playedStep?_isSome_iff (s : Song) (track step : Nat) :
    (s.playedStep? track step).isSome ↔ track < 16 ∧ step < 64 := by
  unfold playedStep?
  by_cases ht : track < 16
  · rw [Vector.getElem?_eq_getElem ht, Option.bind_some]
    simp [ht]
  · rw [Vector.getElem?_eq_none (Nat.le_of_not_lt ht), Option.bind_none]
    simp [ht]

/-- Toggling a note is refused just if it is a new one and cannot be added. -/
theorem Chord.toggle?_isSome_iff (c : Chord) (note velocity : Nat) :
    (c.toggle? note velocity).isSome ↔ c.Toggles note := by
  unfold toggle? remove? Toggles
  by_cases hheld : note ∈ c.notes
  · simp [hheld]
  · -- A note that is not held is added, which is refused out of range and in a full chord.
    rw [if_neg hheld]
    show (c.add? note velocity).isSome ↔ _
    simp only [add?, hheld, false_or]
    split
    · rename_i hrefused
      simp only [Option.isSome_none, Bool.false_eq_true, false_iff]
      omega
    · rename_i hadded
      simp only [Option.isSome_some, true_iff]
      omega

theorem Step.toggleNote?_isSome_iff (s : Step) (note velocity : Nat) :
    (s.toggleNote? note velocity).isSome ↔ s.chord.Toggles note := by
  rw [toggleNote?, Option.isSome_map, Chord.toggle?_isSome_iff]

/-- The stored positions of ratchets are those of the 22 engine values. -/
theorem Ratchet.exists_ofIndex_iff (i : Int) :
    (∃ r, Ratchet.ofIndex i = .ok r) ↔ 0 ≤ i ∧ i < 22 := by
  constructor
  · rintro ⟨r, hr⟩
    unfold ofIndex at hr
    split at hr
    · rename_i value hvalue
      split at hvalue
      · cases hvalue
      · have hlt : i.toNat < wireValues.length := (List.getElem?_eq_some_iff.1 hvalue).1
        have hlen : wireValues.length = 22 := rfl
        omega
    · cases hr
  · rintro ⟨hlo, hhi⟩
    interval_cases i <;> exact ⟨_, rfl⟩

/-- A pattern is copied just if both places are ones of the song. -/
theorem Song.copyPattern?_isSome_iff (s : Song) (fromTrack fromPattern toTrack toPattern : Nat) :
    (s.copyPattern? fromTrack fromPattern toTrack toPattern).isSome ↔
      (fromTrack < 16 ∧ fromPattern < 16) ∧ toTrack < 16 ∧ toPattern < 16 := by
  have hsource : (s.pattern? fromTrack fromPattern).isSome ↔ fromTrack < 16 ∧ fromPattern < 16 := by
    unfold pattern?
    by_cases ht : fromTrack < 16
    · rw [Vector.getElem?_eq_getElem ht, Option.bind_some]
      simp [ht]
    · rw [Vector.getElem?_eq_none (Nat.le_of_not_lt ht), Option.bind_none]
      simp [ht]
  have htarget (p : Pattern) : (s.setPattern? toTrack toPattern p).isSome ↔
      toTrack < 16 ∧ toPattern < 16 := by
    unfold setPattern?
    split
    · split <;> simp_all
    · simp_all
  rw [← hsource, copyPattern?]
  cases hp : s.pattern? fromTrack fromPattern with
  | none => simp
  | some p => simp [htarget p]

theorem TransposeSequence.modify?_isSome_iff (q : TransposeSequence) (i : Nat)
    (f : TransposeStep → TransposeStep) : (q.modify? i f).isSome ↔ i < q.length := by
  unfold modify?
  split <;> simp_all

/-- A step can be set where there is one, and right behind the last one while there is room. -/
theorem TransposeSequence.setStep?_isSome_iff (q : TransposeSequence) (i : Nat) (transpose : Int)
    (duration : Option Int) :
    (q.setStep? i transpose duration).isSome ↔ i ≤ q.length ∧ i < capacity := by
  unfold setStep?
  split
  · simp only [Option.isSome_none, Bool.false_eq_true, false_iff]
    omega
  · split
    · simp only [Option.isSome_some, true_iff]
      omega
    · rw [modify?_isSome_iff]
      omega

/-- A slot is emptied just if it holds a snapshot. -/
theorem Song.clearSnapshot?_isSome_iff (s : Song) (slot : Nat) :
    (s.clearSnapshot? slot).isSome ↔ s.snapshots[slot]?.join.isSome := by
  unfold clearSnapshot?
  by_cases hslot : slot < 16
  · rw [dif_pos hslot, Vector.getElem?_eq_getElem hslot]
    cases s.snapshots[slot] <;> simp
  · rw [dif_neg hslot, Vector.getElem?_eq_none (Nat.le_of_not_lt hslot)]
    simp

namespace Desk

variable {d : Desk}

/-! ## Which edits are made -/

/-- A step is changed where there is one that takes the change. -/
theorem stepEffect?_isSome_iff (d : Desk) (track step : Nat) (change : Step → Option Step) :
    (d.stepEffect? track step change).isSome ↔
      ∃ held ∈ d.song.playedStep? track step, (change held).isSome := by
  unfold stepEffect? Song.playedStep?
  split
  · rename_i ht
    rw [Vector.getElem?_eq_getElem ht, Option.bind_some]
    split
    · rename_i hs
      rw [Vector.getElem?_eq_getElem hs, Option.isSome_map]
      simp [Track.playing]
    · rename_i hs
      rw [Vector.getElem?_eq_none (Nat.le_of_not_lt hs)]
      simp
  · rename_i ht
    rw [Vector.getElem?_eq_none (Nat.le_of_not_lt ht)]
    simp

/-- A change that takes any step is made wherever there is a step. -/
theorem stepEffect?_some_isSome_iff (d : Desk) (track step : Nat) (change : Step → Step) :
    (d.stepEffect? track step fun s => some (change s)).isSome ↔ track < 16 ∧ step < 64 := by
  rw [stepEffect?_isSome_iff, ← Song.playedStep?_isSome_iff d.song, Option.isSome_iff_exists]
  simp

/-- Changing the transpose sequence has an effect where the change is not refused. -/
theorem transposesEffect?_isSome (d : Desk) (changed : Option TransposeSequence) :
    (d.transposesEffect? changed).isSome = changed.isSome := by
  rw [transposesEffect?, Option.isSome_map]

/-- An edit is made exactly when the song admits it. -/
theorem edit?_isSome_iff (d : Desk) (e : Edit) : (d.edit? e).isSome ↔ e.Admitted d.song := by
  rw [edit?, Option.isSome_map]
  cases e with
  | toggleNote track step note velocity =>
    simp only [effect?, stepEffect?_isSome_iff, Step.toggleNote?_isSome_iff, Edit.Admitted]
  | clearStep track step =>
    simp only [effect?, stepEffect?_some_isSome_iff, Edit.Admitted]
  | setDial track step position =>
    simp only [effect?, stepEffect?_some_isSome_iff, Edit.Admitted]
  | setRatchet track step index =>
    simp only [effect?, Edit.Admitted, ← Ratchet.exists_ofIndex_iff]
    split
    · rename_i ratchet hratchet
      rw [stepEffect?_some_isSome_iff, hratchet]
      simp
    · rename_i fault hfault
      simp [hfault]
  | setOffset track step ticks =>
    simp only [effect?, stepEffect?_some_isSome_iff, Edit.Admitted]
  | setBpm bpm => simp [effect?, Edit.Admitted]
  | toggleMute track =>
    simp only [effect?, Edit.Admitted]
    split <;> simp_all
  | setCurrent track pattern =>
    simp only [effect?, Edit.Admitted]
    split
    · cases pattern with
      | none => simp_all
      | some p =>
        simp only [Option.any_some, decide_eq_true_eq]
        split <;> simp_all
    · simp_all
  | setChordFollow track follow =>
    simp only [effect?, Edit.Admitted]
    split <;> simp_all
  | saveSnapshot slot =>
    simp only [effect?, Edit.Admitted, Option.isSome_map, Song.saveSnapshot?]
    split <;> simp_all
  | recallSnapshot slot =>
    simp only [effect?, Edit.Admitted, Option.isSome_map, Song.recallSnapshot?]
  | clearSnapshot slot =>
    simp only [effect?, Edit.Admitted, Option.isSome_map, Song.clearSnapshot?_isSome_iff]
  | copyPattern fromTrack fromPattern toTrack toPattern =>
    simp only [effect?, Edit.Admitted, Option.isSome_map, Song.copyPattern?_isSome_iff]
  | setTransposeStep index transpose duration =>
    simp only [effect?, Edit.Admitted, transposesEffect?_isSome,
      TransposeSequence.setStep?_isSome_iff]
  | adjustTransposeDuration index delta =>
    simp only [effect?, Edit.Admitted, transposesEffect?_isSome,
      TransposeSequence.adjustDuration?, TransposeSequence.modify?_isSome_iff]
  | removeTransposeStep index =>
    simp only [effect?, Edit.Admitted, transposesEffect?_isSome, TransposeSequence.removeStep?]
    split <;> simp_all
  | clearTranspose => simp [effect?, Edit.Admitted, transposesEffect?]
  | nudgeGenerator knob delta => simp [effect?, Edit.Admitted]
  | setStyle style => simp [effect?, Edit.Admitted]
  | generate track =>
    simp only [effect?, Edit.Admitted]
    split <;> simp_all
  | endGenerate => simp [effect?, Edit.Admitted]

/-- A refused edit touches the knobs, the style and the audition at most, and these only if it is
an edit of them. -/
theorem adjust_eq (d : Desk) (e : Edit) :
    d.adjust e = { d with
      params := (d.adjust e).params
      style := (d.adjust e).style
      audition := (d.adjust e).audition } ∧
    (¬ e.IsSetting → d.adjust e = d) := by
  cases e <;> simp [adjust, Edit.IsSetting]

/-! ## Saves that wait -/

/-- The queue of a desk follows its flag, and its songs rest for a given time. -/
structure Punctual (debounce : Nat) (d : Desk) : Prop where
  aligned : d.session.Aligned
  debounce : d.session.debounce = debounce

/-- What an operation of the session does keeps a desk punctual. -/
theorem Punctual.of_session {debounce : Nat} {d' : Desk} (h : d.Punctual debounce)
    {e : Session.Event} (hsession : d'.session = d.session.step e) : d'.Punctual debounce where
  aligned := hsession ▸ h.aligned.step e
  debounce := by
    rw [hsession, h.aligned.step_debounce]
    exact h.debounce

/-- A session with the old queue, flag, set and rest is as punctual as the old one. -/
theorem Punctual.of_same {debounce : Nat} {d' : Desk} (h : d.Punctual debounce) {song : Song}
    {library : Library} (hsession : d'.session = { d.session with song, library }) :
    d'.Punctual debounce := by
  have hedit : (d.session.step (.edit song)).Aligned := h.aligned.step (.edit song)
  have haligned : ((d.session.step (.edit song)).step (.useLibrary library)).Aligned :=
    hedit.step (.useLibrary library)
  constructor
  · rw [hsession]
    exact haligned
  · rw [hsession]
    exact h.debounce

/-- Every event keeps the desk punctual. -/
theorem step_punctual {debounce : Nat} (h : d.Punctual debounce) (e : Event) :
    (d.step e).Punctual debounce := by
  cases e with
  | edit e now =>
    rcases apply_session d e now with hsame | ⟨song, -, hnew⟩
    · exact h.of_same hsame
    · -- A song that was edited is marked at once.
      have hedited : (d.setSong song).Punctual debounce := h.of_same rfl
      exact hedited.of_session (e := .markDirty now) hnew
  | tick now => exact h.of_session (e := .tick now) rfl
  | setPlaying playing now => exact h.of_session (e := .setPlaying playing now) rfl
  | flush now => exact h.of_session (e := .flush now) rfl
  | openSet index now =>
    rcases openSet_session d index now with hsame | hnew
    · exact h.of_same hsame
    · exact h.of_session (e := .switchTo index now) hnew
  | hear facts => exact h.of_same rfl
  | lock readOnly => exact h.of_same rfl

/-- Generating a pattern, which is no event, keeps the desk punctual as well. -/
theorem generate_punctual {debounce : Nat} (h : d.Punctual debounce) (track : Nat) :
    (d.generate track).2.Punctual debounce := by
  unfold generate
  split
  · exact h.of_same rfl
  · exact h

/-- Every action keeps a desk punctual. -/
theorem act_punctual {debounce : Nat} (h : d.Punctual debounce) (a : Action) :
    (d.act a).Punctual debounce := by
  cases a with
  | event e => exact step_punctual h e
  | generate track => exact generate_punctual h track
  | replaceDisk disk => exact h.of_same rfl

/-- Along every run of actions, the desk is punctual. -/
theorem perform_punctual {debounce : Nat} (actions : List Action) :
    ∀ {d : Desk}, d.Punctual debounce → (d.perform actions).Punctual debounce := by
  induction actions with
  | nil => exact id
  | cons a actions ih => exact fun h => ih (act_punctual h a)

/-- A desk that just opened a set has nothing to save. -/
theorem start_punctual (library : Library) (setIndex : Nat) (settings : Settings) (facts : Facts)
    (seed : UInt64) :
    (start library setIndex settings facts seed).Punctual settings.saveDebounce where
  aligned := ⟨fun _ => rfl, fun h => Bool.noConfusion h⟩
  debounce := rfl

/-! ## The answer to an edit -/

/-- An edit is accepted just if its partial form gives something. -/
theorem apply_fst (d : Desk) (e : Edit) (now : Nat) :
    (d.apply e now).1 = (d.edit? e).isSome := by
  rw [apply_eq]
  cases d.edit? e <;> rfl

/-- A refused edit leaves the desk as it was, apart from the generator's settings. -/
theorem apply_of_refused {e : Edit} (h : (d.edit? e).isSome = false) (now : Nat) :
    (d.apply e now).2 = d.adjust e := by
  have hnone : d.edit? e = none := by simpa using h
  rw [apply_eq, hnone]

/-- After an edit that is made the song is dirty, and its save waits from now on. -/
theorem apply_of_made {debounce : Nat} (h : d.Punctual debounce) {e : Edit}
    (hmade : (d.edit? e).isSome = true) (now : Nat) :
    (d.apply e now).2.session.dirty = true ∧
      (d.apply e now).2.session.setIndex = d.session.setIndex ∧
      (d.apply e now).2.session.queue.pending =
        [{ set := d.session.setIndex, due := now + debounce }] := by
  rcases Option.isSome_iff_exists.1 hmade with ⟨d', hd'⟩
  have hsession : (d.apply e now).2.session = d'.session.markDirty now := by
    rw [apply_eq, hd']
  have hsame : d'.session = { d.session with song := d'.song } := (edit?_edited hd').session
  rw [hsession, hsame]
  refine ⟨rfl, rfl, ?_⟩
  -- Whatever waited was the save of the active set, and is replaced.
  have hqueue := SaveQueue.schedule_of_only h.aligned.only (now + d.session.debounce)
  rw [h.debounce] at hqueue
  exact congrArg SaveQueue.pending (h.debounce ▸ hqueue)

/-- In every state that a desk gets into, an edit is made exactly when the song admits it. A refused
edit leaves the session, with its song, set, flag and queue, the random generator and what was sent
as they were, and the whole desk unless it is an edit of the generator's settings. After an edit
that is made, the song is dirty, and of all saves only that of the active set waits, for one rest
from now. -/
theorem apply_all_or_nothing (library : Library) (setIndex : Nat) (settings : Settings)
    (facts : Facts) (seed : UInt64) (actions : List Action) (e : Edit) (now : Nat) :
    let d := (start library setIndex settings facts seed).perform actions
    let r := d.apply e now
    (r.1 = true ↔ e.Admitted d.song) ∧
      (r.1 = false → r.2.session = d.session ∧ r.2.random = d.random ∧ r.2.sent = d.sent ∧
        (¬ e.IsSetting → r.2 = d)) ∧
      (r.1 = true → r.2.session.dirty = true ∧ r.2.session.setIndex = d.session.setIndex ∧
        r.2.session.queue.pending =
          [{ set := d.session.setIndex, due := now + settings.saveDebounce }]) := by
  intro d r
  have hpunctual : d.Punctual settings.saveDebounce :=
    perform_punctual actions (start_punctual library setIndex settings facts seed)
  have hanswer : r.1 = (d.edit? e).isSome := apply_fst d e now
  refine ⟨?_, ?_, ?_⟩
  · rw [hanswer]
    exact edit?_isSome_iff d e
  · intro hrefused
    have hkept : r.2 = d.adjust e := apply_of_refused (hanswer ▸ hrefused) now
    rcases adjust_eq d e with ⟨hsettings, hsame⟩
    rw [hkept]
    refine ⟨?_, ?_, ?_, hsame⟩
    · rw [hsettings]
    · rw [hsettings]
    · rw [hsettings]
  · intro hmade
    exact apply_of_made hpunctual (hanswer ▸ hmade) now

theorem apply_all_or_nothing_full_chord :
    let d := (start {} 0 {} [] 0).perform
      ((List.range 7).map fun n => .event (.edit (.toggleNote 0 0 (60 + n) 100) n))
    (d.apply (.toggleNote 0 0 67 100) 7).2 = d ∧
      (d.apply (.toggleNote 0 0 60 100) 8).2.session.queue.pending =
        [{ set := d.session.setIndex, due := 8 + ({} : Settings).saveDebounce }] := by
  have hfull := apply_all_or_nothing {} 0 {} [] 0
    ((List.range 7).map fun n => .event (.edit (.toggleNote 0 0 (60 + n) 100) n))
    (.toggleNote 0 0 67 100) 7
  have hheld := apply_all_or_nothing {} 0 {} [] 0
    ((List.range 7).map fun n => .event (.edit (.toggleNote 0 0 (60 + n) 100) n))
    (.toggleNote 0 0 60 100) 8
  -- There is no room for an eighth note; one of the seven is given up.
  have hkept := (hfull.2.1 (by decide +kernel)).2.2.2 id
  have hwaits := (hheld.2.2 (by decide +kernel)).2.2
  exact ⟨hkept, hwaits⟩

end Desk
end Groovebox
