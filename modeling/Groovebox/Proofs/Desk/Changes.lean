import Mathlib.Tactic
import Groovebox.Proofs.Desk.Edits
import Groovebox.Proofs.Editing
/-! # What an edit changes

Twenty-one kinds of edits change a song in nine ways. `Desk.Change` lists them, each with the calls
that are sent for it, and `Desk.edit?_edited` says that every edit that is not refused is one of
them, changes nothing else in the session, keeps the song well-formed, and leaves alone the snapshot
slots that it is not about. What edits do is proved from these. That both forms of an edit agree
(`Desk.tryEdit_eq`) and when an edit is refused (`Desk.edit?_isSome_iff`) is told for each kind of
edit on its own. -/

namespace Groovebox

/-- The track with a step replaced in the pattern that it plays. -/
def Track.withStep (t : Track) (i : Fin 64) (s : Step) : Track :=
  t.setPattern t.playingIndex (t.playing.setStep i s)

/-- The edit saves or clears a slot. -/
def Edit.Overwrites (slot : Nat) (e : Edit) : Prop :=
  e = .saveSnapshot slot ∨ e = .clearSnapshot slot

instance (slot : Nat) (e : Edit) : Decidable (e.Overwrites slot) :=
  inferInstanceAs (Decidable (e = .saveSnapshot slot ∨ e = .clearSnapshot slot))

namespace Desk

/-! ## Changes -/

/-- The ways in which one edit changes a song, with the calls that are sent for it. -/
inductive Change (limit : Nat) (s : Song) : Song → List Call → Prop
  /-- A step of the pattern that a track plays is replaced, and sent. -/
  | step (t : Fin 16) (i : Fin 64) (new : Step) :
      Change limit s (s.setTrack t ((s.tracks.get t).withStep i new)) (Export.step t i new)
  /-- The tempo is set and sent. -/
  | bpm (bpm : Int) : Change limit s (s.setBpm bpm) (Export.bpm (s.setBpm bpm))
  /-- A track is silenced or let sound again, and only this is sent. -/
  | mute (t : Fin 16) (muted : Bool) :
      Change limit s (s.setTrack t { s.tracks.get t with muted })
        (Export.mute t { s.tracks.get t with muted })
  /-- A track is replaced and sent with all steps it plays. -/
  | track (t : Fin 16) (new : Track) :
      Change limit s (s.setTrack t new) (Export.tracks limit (s.setTrack t new) [t])
  /-- A track follows the chord or not; its settings are sent. -/
  | follow (t : Fin 16) (follow : Bool) :
      Change limit s { s with chordFollow := s.chordFollow.put t follow }
        (Export.settings t (s.tracks.get t) follow)
  /-- Snapshot slots change, of which the engine knows nothing. -/
  | slots (snapshots : Bank (Option Snapshot) 16) (activeSnapshot : Option Nat) :
      Change limit s { s with snapshots, activeSnapshot } []
  /-- All tracks are replaced and sent. -/
  | tracks (tracks : Bank Track 16) (activeSnapshot : Option Nat) :
      Change limit s { s with tracks, activeSnapshot }
        (Export.tracks limit { s with tracks, activeSnapshot } (List.finRange 16))
  /-- A pattern that its track does not play is replaced, and nothing is sent. -/
  | idle (t p : Fin 16) (new : Pattern) (h : (s.tracks.get t).playingIndex ≠ p) :
      Change limit s (s.setTrack t ((s.tracks.get t).setPattern p new)) []
  /-- The transpose sequence is replaced and sent. -/
  | transposes (transposes : TransposeSequence) :
      Change limit s { s with transposes } (Export.transposes transposes)

/-- What an edit that is not refused does to a desk. -/
structure Edited (d : Desk) (e : Edit) (d' : Desk) : Prop where
  session : d'.session = { d.session with song := d'.song }
  settings : d'.settings = d.settings
  wellFormed : d.song.WellFormed → d'.song.WellFormed
  change : ∃ calls, d'.sent = d.sent ++ calls ∧
    Change d.settings.bulkChunk d.song d'.song calls
  slots : ∀ slot, ¬ e.Overwrites slot → d'.song.snapshots[slot]? = d.song.snapshots[slot]?

variable {d d' : Desk} {e : Edit} {f : Effect} {song : Song} {calls : List Call}
  {audition : Audition} {random : Random}

/-! ## Single edits -/

/-- A changed song and the calls that go with the change make an edit. -/
theorem edited_of_change (hchange : Change d.settings.bulkChunk d.song song calls)
    (hwell : d.song.WellFormed → song.WellFormed)
    (hslots : ∀ slot, ¬ e.Overwrites slot → song.snapshots[slot]? = d.song.snapshots[slot]?) :
    Edited d e (d.carry { song, calls, audition, random }) where
  session := rfl
  settings := rfl
  wellFormed := hwell
  change := ⟨calls, rfl, hchange⟩
  slots := hslots

/-- As `edited_of_change`, where no slot is changed. -/
theorem edited_of_change_same (hchange : Change d.settings.bulkChunk d.song song calls)
    (hwell : d.song.WellFormed → song.WellFormed)
    (hsame : song.snapshots = d.song.snapshots) :
    Edited d e (d.carry { song, calls, audition, random }) :=
  edited_of_change hchange hwell fun slot _ => by rw [hsame]

/-- A change of a step is sent as the step that it makes. -/
theorem stepEffect?_edited {track step : Nat} {change : Step → Option Step}
    (h : d.stepEffect? track step change = some f)
    (hwell : ∀ s s', s.WellFormed → change s = some s' → s'.WellFormed) :
    Edited d e (d.carry f) := by
  unfold stepEffect? at h
  split at h
  · rename_i ht
    split at h
    · rename_i hs
      rcases Option.map_eq_some_iff.1 h with ⟨new, hnew, rfl⟩
      refine edited_of_change_same (.step ⟨track, ht⟩ ⟨step, hs⟩ new) ?_ rfl
      intro hsong
      have htrack : (d.song.tracks.get ⟨track, ht⟩).WellFormed := hsong.tracks _
      have hpattern : (d.song.tracks.get ⟨track, ht⟩).playing.WellFormed := htrack.patterns _
      apply Song.setTrack_wellFormed hsong
      apply Track.setPattern_wellFormed htrack
      apply Pattern.setStep_wellFormed hpattern
      exact hwell _ new (hpattern ⟨step, hs⟩) hnew
    · cases h
  · cases h

/-- A change of the transpose sequence is sent as the whole new sequence. -/
theorem transposesEffect?_edited {q : Option TransposeSequence}
    (h : d.transposesEffect? q = some f)
    (hwell : ∀ q', d.song.transposes.WellFormed → q = some q' → q'.WellFormed) :
    Edited d e (d.carry f) := by
  rcases Option.map_eq_some_iff.1 h with ⟨new, hnew, rfl⟩
  refine edited_of_change_same (.transposes new) ?_ rfl
  intro hsong
  exact { hsong with transposes := hwell new hsong.transposes hnew }

/-- A generated pattern goes into the track it was generated for. -/
theorem generateEffect_edited (d : Desk) (track : Fin 16) :
    Edited d e (d.carry (d.generateEffect track)) := by
  refine edited_of_change_same (.track track _) ?_ rfl
  intro hsong
  apply Song.setTrack_wellFormed hsong
  exact Audition.generate_wellFormed d.audition track (hsong.tracks track) _ _ _ _

/-- A copied pattern is sent if it is played, and cannot be heard otherwise. -/
theorem copyPattern_edited {fromTrack fromPattern toTrack toPattern : Nat} {s : Song}
    (hs : d.song.copyPattern? fromTrack fromPattern toTrack toPattern = some s) :
    Edited d e (d.carry (d.effect s (d.copyCalls s toTrack toPattern))) := by
  have hwell : d.song.WellFormed → s.WellFormed :=
    fun hsong => Song.copyPattern?_wellFormed hsong hs
  -- It does not matter where the pattern comes from.
  rcases Option.bind_eq_some_iff.1 hs with ⟨p, -, hset⟩
  unfold Song.setPattern? at hset
  split at hset
  · rename_i ht
    split at hset
    · rename_i hp
      cases hset
      refine edited_of_change_same ?_ hwell rfl
      show Change _ _ _ (d.copyCalls _ toTrack toPattern)
      unfold copyCalls
      rw [dif_pos ht]
      split
      · exact .track ⟨toTrack, ht⟩ _
      · -- The model asks the new track what it plays; the old one plays the same.
        rename_i hidle
        refine .idle ⟨toTrack, ht⟩ ⟨toPattern, hp⟩ p ?_
        intro hplays
        apply hidle
        have hnew : (d.song.setTrack ⟨toTrack, ht⟩
            (d.song.tracks[toTrack].setPattern ⟨toPattern, hp⟩ p)).tracks[toTrack] =
            d.song.tracks[toTrack].setPattern ⟨toPattern, hp⟩ p := Vector.getElem_set_self ht
        rw [hnew]
        exact congrArg Fin.val hplays
    · cases hset
  · cases hset

/-! ## All edits -/

/-- An edit that is not refused changes the song in one of the nine ways. -/
theorem edit?_edited (h : d.edit? e = some d') : Edited d e d' := by
  rcases Option.map_eq_some_iff.1 h with ⟨f, hf, rfl⟩
  cases e with
  | toggleNote track step note velocity =>
    simp only [effect?] at hf
    exact stepEffect?_edited hf fun s s' hs => Step.toggleNote?_wellFormed hs
  | clearStep track step =>
    simp only [effect?] at hf
    refine stepEffect?_edited hf ?_
    rintro s s' - ⟨⟩
    exact Step.wellFormed_default
  | setDial track step position =>
    simp only [effect?] at hf
    refine stepEffect?_edited hf ?_
    rintro s s' hs ⟨⟩
    exact Step.setDial_wellFormed hs position
  | setRatchet track step index =>
    simp only [effect?] at hf
    split at hf
    · rename_i ratchet hratchet
      refine stepEffect?_edited hf ?_
      rintro s s' hs ⟨⟩
      exact { hs with ratchet := Ratchet.ofIndex_valid hratchet }
    · cases hf
  | setOffset track step ticks =>
    simp only [effect?] at hf
    refine stepEffect?_edited hf ?_
    rintro s s' hs ⟨⟩
    exact Step.setOffset_wellFormed hs ticks
  | setBpm bpm =>
    cases hf
    exact edited_of_change_same (.bpm bpm) (fun hsong => Song.setBpm_wellFormed hsong bpm) rfl
  | toggleMute track =>
    simp only [effect?] at hf
    split at hf
    · rename_i ht
      cases hf
      refine edited_of_change_same (.mute ⟨track, ht⟩ _) ?_ rfl
      intro hsong
      have htrack := hsong.tracks ⟨track, ht⟩
      exact Song.setTrack_wellFormed hsong _ { htrack with }
    · cases hf
  | setCurrent track pattern =>
    simp only [effect?] at hf
    split at hf
    · rename_i ht
      split at hf
      · cases hf
      · rename_i hpattern
        cases hf
        refine edited_of_change_same (.track ⟨track, ht⟩ _) ?_ rfl
        intro hsong
        apply Song.setTrack_wellFormed hsong
        apply Track.withCurrent_wellFormed (hsong.tracks ⟨track, ht⟩)
        intro p hp
        cases hp
        simpa using hpattern
    · cases hf
  | setChordFollow track follow =>
    simp only [effect?] at hf
    split at hf
    · rename_i ht
      cases hf
      exact edited_of_change_same (.follow ⟨track, ht⟩ follow) (fun hsong => { hsong with }) rfl
    · cases hf
  | saveSnapshot slot =>
    rcases Option.map_eq_some_iff.1 hf with ⟨s, hs, rfl⟩
    have hwell : d.song.WellFormed → s.WellFormed :=
      fun hsong => Song.saveSnapshot?_wellFormed hsong hs
    unfold Song.saveSnapshot? at hs
    split at hs
    · rename_i hslot
      cases hs
      refine edited_of_change (.slots _ _) hwell fun other hspares => ?_
      exact Vector.getElem?_set_ne hslot fun hsame => hspares (Or.inl (hsame ▸ rfl))
    · cases hs
  | recallSnapshot slot =>
    rcases Option.map_eq_some_iff.1 hf with ⟨s, hs, rfl⟩
    have hwell : d.song.WellFormed → s.WellFormed :=
      fun hsong => Song.recallSnapshot?_wellFormed hsong hs
    rcases Option.map_eq_some_iff.1 hs with ⟨snapshot, -, rfl⟩
    exact edited_of_change_same (.tracks _ _) hwell rfl
  | clearSnapshot slot =>
    rcases Option.map_eq_some_iff.1 hf with ⟨s, hs, rfl⟩
    have hwell : d.song.WellFormed → s.WellFormed :=
      fun hsong => Song.clearSnapshot?_wellFormed hsong hs
    unfold Song.clearSnapshot? at hs
    split at hs
    · rename_i hslot
      split at hs
      · cases hs
        refine edited_of_change (.slots _ _) hwell fun other hspares => ?_
        exact Vector.getElem?_set_ne hslot fun hsame => hspares (Or.inr (hsame ▸ rfl))
      · cases hs
    · cases hs
  | copyPattern fromTrack fromPattern toTrack toPattern =>
    rcases Option.map_eq_some_iff.1 hf with ⟨s, hs, rfl⟩
    exact copyPattern_edited hs
  | setTransposeStep index transpose duration =>
    exact transposesEffect?_edited hf fun q hq => TransposeSequence.setStep?_wellFormed hq
  | adjustTransposeDuration index delta =>
    exact transposesEffect?_edited hf fun q hq => TransposeSequence.adjustDuration?_wellFormed hq
  | removeTransposeStep index =>
    exact transposesEffect?_edited hf fun q hq => TransposeSequence.removeStep?_wellFormed hq
  | clearTranspose =>
    refine transposesEffect?_edited hf ?_
    rintro q - ⟨⟩
    exact TransposeSequence.wellFormed_empty
  | nudgeGenerator knob delta => cases hf
  | setStyle style => cases hf
  | generate track =>
    simp only [effect?] at hf
    split at hf
    · rename_i ht
      cases hf
      exact generateEffect_edited d ⟨track, ht⟩
    · cases hf
  | endGenerate => cases hf

/-- Generating a pattern directly does to the song what the edit does. -/
theorem generate_edited {track : Nat} (ht : track < 16) :
    Edited d (.generate track) (d.generate track).2 := by
  have hedit : d.edit? (.generate track) = some (d.carry (d.generateEffect ⟨track, ht⟩)) := by
    rw [edit?, effect?, dif_pos ht, Option.map_some]
  have hgenerate := congrArg Prod.snd (generate_eq d track)
  rw [hedit] at hgenerate
  exact hgenerate ▸ edit?_edited hedit

end Desk
end Groovebox
