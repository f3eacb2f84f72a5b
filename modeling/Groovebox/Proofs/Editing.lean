import Mathlib.Tactic
import Groovebox.Generator.Audition
import Groovebox.Proofs.WellFormed
/-! # Edits keep songs well-formed

What each operation on chords, steps, patterns, tracks, transpose sequences and snapshots does to
the ranges of `Groovebox.Proofs.WellFormed`: whatever its arguments are, it keeps them. -/

namespace Groovebox

/-! ## Chords -/

namespace Chord

/-- Clamping makes any number a velocity. -/
theorem clampVelocity_range (v : Nat) : 1 ≤ clampVelocity v ∧ clampVelocity v ≤ 127 := by
  unfold clampVelocity
  omega

/-- A chord that takes up a note stays well-formed. -/
theorem add?_wellFormed {c c' : Chord} {note velocity : Nat} (hc : c.WellFormed)
    (h : c.add? note velocity = some c') : c'.WellFormed := by
  unfold add? at h
  split at h
  · cases h
  · rename_i admitted
    simp only [not_or, Nat.not_lt, Nat.not_le] at admitted
    -- The chord took the note, so the note is a new one in range, and there was room.
    rcases admitted with ⟨hnote, hfresh, hroom⟩
    cases h
    constructor
    · -- Note and velocity are added together.
      simp [hc.parallel]
    · rw [List.length_append]
      exact hroom
    · rw [List.nodup_append]
      refine ⟨hc.distinct, List.nodup_singleton note, ?_⟩
      rintro n hn m hm rfl
      exact hfresh (List.mem_singleton.1 hm ▸ hn)
    · intro n hn
      rcases List.mem_append.1 hn with hn | hn
      · exact hc.notes n hn
      · rw [List.mem_singleton.1 hn]
        exact hnote
    · intro v hv
      rcases List.mem_append.1 hv with hv | hv
      · exact hc.velocities v hv
      · rw [List.mem_singleton.1 hv]
        exact clampVelocity_range velocity

/-- A chord that is offered a note stays well-formed, whether it takes the note or not. -/
theorem add_wellFormed {c : Chord} (hc : c.WellFormed) (note velocity : Nat) :
    (c.add note velocity).WellFormed := by
  unfold add
  cases h : c.add? note velocity with
  | none => exact hc
  | some c' => exact add?_wellFormed hc h

theorem remove?_wellFormed {c c' : Chord} {note : Nat} (hc : c.WellFormed)
    (h : c.remove? note = some c') : c'.WellFormed := by
  unfold remove? at h
  split at h
  · -- Note and velocity are taken out at the same position of both lists.
    rename_i held
    have hi : c.notes.idxOf note < c.notes.length := List.idxOf_lt_length_of_mem held
    have hi' : c.notes.idxOf note < c.velocities.length := hc.parallel ▸ hi
    cases h
    constructor
    · simp only [List.length_eraseIdx_of_lt hi, List.length_eraseIdx_of_lt hi', hc.parallel]
    · exact (List.length_eraseIdx_le _ _).trans hc.few
    · exact hc.distinct.sublist (List.eraseIdx_sublist _ _)
    · exact fun n hn => hc.notes n (List.mem_of_mem_eraseIdx hn)
    · exact fun v hv => hc.velocities v (List.mem_of_mem_eraseIdx hv)
  · cases h

/-- Toggling a note keeps a chord well-formed, whether the note is removed or added. -/
theorem toggle?_wellFormed {c c' : Chord} {note velocity : Nat} (hc : c.WellFormed)
    (h : c.toggle? note velocity = some c') : c'.WellFormed := by
  unfold toggle? at h
  cases hr : c.remove? note with
  | none =>
    rw [hr] at h
    exact add?_wellFormed hc h
  | some r =>
    rw [hr] at h
    cases h
    exact remove?_wellFormed hc hr

/-- Offering a chord any notes in turn, with velocities or without, keeps it well-formed. -/
theorem addAll_wellFormed (notes : List Nat) :
    ∀ {c : Chord} (velocities : List Nat) (fallback : Nat), c.WellFormed →
      (c.addAll notes velocities fallback).WellFormed := by
  -- The chord grows on the way, so the induction is for every well-formed chord.
  induction notes with
  | nil =>
    intro c velocities fallback hc
    rw [addAll]
    exact hc
  | cons note notes ih =>
    intro c velocities fallback hc
    cases velocities with
    -- There is no velocity left for this note, and none for those behind it.
    | nil => exact ih [] fallback (add_wellFormed hc note fallback)
    | cons v velocities => exact ih velocities fallback (add_wellFormed hc note v)

/-- Whatever lists of numbers a chord is made from, it is well-formed. -/
theorem ofLists_wellFormed (notes velocities : List Nat) (fallback : Nat) :
    (ofLists notes velocities fallback).WellFormed :=
  addAll_wellFormed notes velocities fallback wellFormed_empty

/-- Setting a velocity keeps a chord well-formed; there are as many velocities as before. -/
theorem setVelocity_wellFormed {c : Chord} (hc : c.WellFormed) (i velocity : Nat) :
    (c.setVelocity i velocity).WellFormed := by
  refine { hc with parallel := ?_, velocities := ?_ }
  · exact (List.length_set ..).trans hc.parallel
  · intro v hv
    rcases List.mem_or_eq_of_mem_set hv with hold | rfl
    · exact hc.velocities v hold
    · exact clampVelocity_range velocity

end Chord

/-! ## Steps -/

/-- A ratchet that is read from a position of the table is valid. -/
theorem Ratchet.ofIndex_valid {i : Int} {r : Ratchet} (h : Ratchet.ofIndex i = .ok r) :
    r.Valid := by
  unfold Ratchet.ofIndex at h
  split at h
  · unfold Ratchet.decode at h
    split at h
    · cases h
      simp only [Valid, fewest]
      omega
    · split at h
      · cases h
        simp only [Valid, fewest]
        omega
      · split at h
        · cases h
          simp only [Valid, fewest]
          omega
        · cases h
  · cases h

namespace Step

variable {s s' : Step}

theorem withChord_wellFormed (hs : s.WellFormed) {c : Chord} (hc : c.WellFormed) :
    ({ s with chord := c } : Step).WellFormed :=
  { hs with chord := hc }

theorem toggleNote?_wellFormed {note velocity : Nat} (hs : s.WellFormed)
    (h : s.toggleNote? note velocity = some s') : s'.WellFormed := by
  rcases Option.map_eq_some_iff.1 h with ⟨c, hc, rfl⟩
  exact withChord_wellFormed hs (Chord.toggle?_wellFormed hs.chord hc)

/-- Any position of the dial is a chance that a step may have. -/
theorem setDial_wellFormed (hs : s.WellFormed) (position : Int) :
    (s.setDial position).WellFormed := by
  refine { hs with probability := ?_ }
  simp only [setDial, Chance.ofDial]
  -- A position stands for a probability, or for a condition, which goes with a hundred percent.
  split
  · rename_i h
    simp only [Chance.probabilities] at h
    simp only
    omega
  · exact (by decide : 1 ≤ 100 ∧ 100 ≤ 100)

/-- Any number of ticks is clamped to an offset that a step may have. -/
theorem setOffset_wellFormed (hs : s.WellFormed) (ticks : Int) :
    (s.setOffset ticks).WellFormed := by
  refine { hs with offset := ?_ }
  simp only [setOffset, maxOffset]
  omega

end Step

/-! ## Patterns and tracks -/

/-- A well-formed pattern takes a well-formed step at any place. -/
theorem Pattern.setStep_wellFormed {p : Pattern} (hp : p.WellFormed) (i : Fin 64) {s : Step}
    (hs : s.WellFormed) : (p.setStep i s).WellFormed :=
  Bank.All.put hp i hs

namespace Track

variable {t : Track}

theorem setPattern_wellFormed (ht : t.WellFormed) (i : Fin 16) {p : Pattern}
    (hp : p.WellFormed) : (t.setPattern i p).WellFormed :=
  { ht with patterns := ht.patterns.put i hp }

/-- A track may play any pattern that it has, or none. -/
theorem withCurrent_wellFormed (ht : t.WellFormed) {current : Option Nat}
    (hc : ∀ p ∈ current, p < 16) : ({ t with current } : Track).WellFormed :=
  { ht with current := hc }

end Track

/-! ## Transpose sequences -/

namespace TransposeStep

/-- Clamping makes any number an interval within two octaves. -/
theorem clampTranspose_range (t : Int) : -24 ≤ clampTranspose t ∧ clampTranspose t ≤ 24 := by
  unfold clampTranspose
  omega

/-- Clamping makes any number a length of one to 64 beats. -/
theorem clampDuration_range (d : Int) : 1 ≤ clampDuration d ∧ clampDuration d ≤ 64 := by
  unfold clampDuration
  omega

/-- A new step is well-formed in a sequence of any length, since it does not jump. -/
theorem new_wellFormed (count : Nat) (transpose duration : Int) :
    (new transpose duration).WellFormed count where
  transpose := clampTranspose_range transpose
  duration := clampDuration_range duration
  jump := by
    intro j hj
    exact absurd hj (Option.not_mem_none j)

/-- A step stays well-formed in a longer sequence. -/
theorem WellFormed.mono {count more : Nat} {s : TransposeStep} (hs : s.WellFormed count)
    (h : count ≤ more) : s.WellFormed more :=
  { hs with jump := fun j hj => (hs.jump j hj).trans_le h }

end TransposeStep

namespace TransposeSequence

open TransposeStep

variable {q q' : TransposeSequence}

/-- A change that keeps steps well-formed keeps the sequence well-formed. -/
theorem modify?_wellFormed {i : Nat} {f : TransposeStep → TransposeStep} (hq : q.WellFormed)
    (hf : ∀ s, s.WellFormed q.length → (f s).WellFormed q.length)
    (h : q.modify? i f = some q') : q'.WellFormed := by
  unfold modify? at h
  split at h
  · cases h
    have hlen : (q.steps.modify i f).length = q.steps.length := List.length_modify ..
    refine ⟨?_, ?_⟩
    · exact hlen.le.trans hq.few
    · intro s hs
      rcases List.mem_iff_getElem.1 hs with ⟨k, hk, rfl⟩
      have hk' : k < q.steps.length := hlen ▸ hk
      have hold : (q.steps[k]).WellFormed q.length := hq.steps _ (List.getElem_mem hk')
      -- Only the step at the given place is another one.
      rw [List.getElem_modify]
      simp only [length, hlen]
      split
      · exact hf _ hold
      · exact hold
  · cases h

/-- Setting a step, or adding one behind the last, keeps a sequence well-formed. -/
theorem setStep?_wellFormed {i : Nat} {transpose : Int} {duration : Option Int}
    (hq : q.WellFormed) (h : q.setStep? i transpose duration = some q') : q'.WellFormed := by
  unfold setStep? at h
  split at h
  · cases h
  · rename_i hroom
    split at h
    · -- Behind the last step a new one is added, so the jumps of the others have more room.
      rename_i hi
      cases h
      refine ⟨?_, ?_⟩
      · simp only [length, List.length_append, List.length_singleton] at hi ⊢
        omega
      · intro s hs
        have hlonger : q.length ≤ (q.steps ++ [new transpose (duration.getD 4)]).length := by
          simp [length]
        rcases List.mem_append.1 hs with hs | hs
        · exact (hq.steps s hs).mono hlonger
        · rw [List.mem_singleton.1 hs]
          exact new_wellFormed _ _ _
    · -- A step that is there keeps its length unless a new one is given.
      refine modify?_wellFormed hq ?_ h
      intro s hs
      refine { hs with transpose := clampTranspose_range transpose, duration := ?_ }
      cases duration with
      | none => exact hs.duration
      | some d => exact clampDuration_range d

/-- Moving the length of a step by notches keeps it within its range. -/
theorem adjustDuration?_wellFormed {i : Nat} {delta : Int} (hq : q.WellFormed)
    (h : q.adjustDuration? i delta = some q') : q'.WellFormed := by
  refine modify?_wellFormed hq ?_ h
  intro s hs
  exact { hs with duration := clampDuration_range _ }

/-- Removing a step keeps the jumps of the others within the shorter sequence. -/
theorem removeStep?_wellFormed {i : Nat} (hq : q.WellFormed) (h : q.removeStep? i = some q') :
    q'.WellFormed := by
  unfold removeStep? at h
  split at h
  · rename_i hi
    cases h
    simp only [length] at hi
    -- A jump to the removed step is dropped, and one past it moves down by one.
    have hlen : (q.steps.eraseIdx i).length = q.steps.length - 1 := List.length_eraseIdx_of_lt hi
    have hfew : q.steps.length ≤ capacity := hq.few
    refine ⟨?_, ?_⟩
    · simp only [length, List.length_map, hlen]
      omega
    · intro s hs
      rcases List.mem_map.1 hs with ⟨old, hold, rfl⟩
      have hwf := hq.steps old (List.mem_of_mem_eraseIdx hold)
      refine { hwf with jump := ?_ }
      intro j hj
      rcases Option.bind_eq_some_iff.1 (Option.mem_def.1 hj) with ⟨j', hj', hret⟩
      have hlt : j' < q.steps.length := hwf.jump j' hj'
      simp only [length, List.length_map, hlen]
      split at hret
      · cases hret
      · split at hret
        · cases hret
          omega
        · cases hret
          omega
  · cases h

end TransposeSequence

/-! ## Songs -/

namespace Song

variable {s s' : Song}

/-- Clamping makes any number a tempo. -/
theorem clampBpm_range (bpm : Int) : 20 ≤ clampBpm bpm ∧ clampBpm bpm ≤ 300 := by
  unfold clampBpm
  omega

theorem setBpm_wellFormed (hs : s.WellFormed) (bpm : Int) : (s.setBpm bpm).WellFormed :=
  { hs with bpm := clampBpm_range bpm }

theorem setTrack_wellFormed (hs : s.WellFormed) (i : Fin 16) {t : Track} (ht : t.WellFormed) :
    (s.setTrack i t).WellFormed :=
  { hs with tracks := hs.tracks.put i ht }

/-- The patterns that the tracks play make a well-formed snapshot. -/
theorem currents_wellFormed (hs : s.WellFormed) :
    Snapshot.WellFormed (s.tracks.map Track.current) := by
  intro i
  rw [Bank.get, Vector.getElem_map]
  exact (hs.tracks i).current

theorem saveSnapshot?_wellFormed {slot : Nat} (hs : s.WellFormed)
    (h : s.saveSnapshot? slot = some s') : s'.WellFormed := by
  unfold saveSnapshot? at h
  split at h
  · rename_i hslot
    cases h
    refine { hs with snapshots := ?_, activeSnapshot := ?_ }
    · refine Bank.All.put hs.snapshots ⟨slot, hslot⟩ ?_
      -- What is stored is what the tracks play.
      intro snapshot hsnap
      cases hsnap
      exact currents_wellFormed hs
    · intro n hn
      cases hn
      exact hslot
  · cases h

/-- A slot that holds a snapshot is one of the sixteen. -/
theorem slot_lt {slot : Nat} {snapshot : Snapshot} (h : s.snapshots[slot]?.join = some snapshot) :
    slot < 16 := by
  by_contra hslot
  rw [Vector.getElem?_eq_none (by omega)] at h
  cases h

/-- Recalling a snapshot keeps a song well-formed. -/
theorem recallSnapshot?_wellFormed {slot : Nat} (hs : s.WellFormed)
    (h : s.recallSnapshot? slot = some s') : s'.WellFormed := by
  rcases Option.map_eq_some_iff.1 h with ⟨snapshot, hsnap, rfl⟩
  have hslot : slot < 16 := slot_lt hsnap
  have hheld : s.snapshots[slot] = some snapshot := by
    rw [Vector.getElem?_eq_getElem hslot] at hsnap
    exact hsnap
  -- The snapshot names patterns that there are, since the song was well-formed.
  have hsnapshot : Snapshot.WellFormed snapshot := hs.snapshots ⟨slot, hslot⟩ snapshot hheld
  refine { hs with tracks := ?_, activeSnapshot := ?_ }
  · intro i
    rw [Bank.get, Vector.getElem_zipWith]
    exact Track.withCurrent_wellFormed (hs.tracks i) (hsnapshot i)
  · intro n hn
    cases hn
    exact hslot

theorem clearSnapshot?_wellFormed {slot : Nat} (hs : s.WellFormed)
    (h : s.clearSnapshot? slot = some s') : s'.WellFormed := by
  unfold clearSnapshot? at h
  split at h
  · rename_i hslot
    split at h
    · cases h
      refine { hs with snapshots := ?_, activeSnapshot := ?_ }
      · refine Bank.All.put hs.snapshots ⟨slot, hslot⟩ ?_
        intro snapshot hsnap
        exact absurd hsnap (Option.not_mem_none snapshot)
      · intro n hn
        split at hn
        · exact absurd hn (Option.not_mem_none n)
        · exact hs.activeSnapshot n hn
    · cases h
  · cases h

/-- Copying a pattern from any place to any other keeps a song well-formed. -/
theorem copyPattern?_wellFormed {fromTrack fromPattern toTrack toPattern : Nat}
    (hs : s.WellFormed) (h : s.copyPattern? fromTrack fromPattern toTrack toPattern = some s') :
    s'.WellFormed := by
  rcases Option.bind_eq_some_iff.1 h with ⟨p, hp, hset⟩
  -- The copy is a pattern of the song.
  have hpattern : p.WellFormed := by
    rcases Option.bind_eq_some_iff.1 hp with ⟨t, ht, hp⟩
    rcases Vector.getElem?_eq_some_iff.1 ht with ⟨hi, rfl⟩
    rcases Vector.getElem?_eq_some_iff.1 hp with ⟨hj, rfl⟩
    exact (hs.tracks ⟨fromTrack, hi⟩).patterns ⟨fromPattern, hj⟩
  unfold setPattern? at hset
  split at hset
  · rename_i ht
    split at hset
    · cases hset
      exact setTrack_wellFormed hs _
        (Track.setPattern_wellFormed (hs.tracks ⟨toTrack, ht⟩) _ hpattern)
    · cases hset
  · cases hset

end Song

/-! ## Generated patterns -/

namespace Generator

/-- Filling slots keeps every step well-formed. -/
theorem fillSlots_wellFormed (p : GeneratorParams) (style : Style) (valid slots : List Nat) :
    ∀ (steps : Bank Step 64) (g : Random), steps.All Step.WellFormed →
      Bank.All Step.WellFormed (fillSlots p style valid slots steps g).1 := by
  induction slots with
  | nil => exact fun steps g h => h
  | cons slot rest ih =>
    -- Whatever the generator draws, a slot gets a step with a chord made from lists.
    intro steps g h
    rw [fillSlots]
    apply ih
    apply Bank.All.setIfInBounds h
    exact Step.withChord_wellFormed Step.wellFormed_default (Chord.ofLists_wellFormed _ _ _)

/-- All generated steps are well-formed, whatever the parameters are. -/
theorem steps_wellFormed (params : GeneratorParams) (style : Style) (hint : Option Scale)
    (g : Random) : Bank.All Step.WellFormed (steps params style hint g).1 :=
  fillSlots_wellFormed _ _ _ _ _ _ (Bank.all_replicate Step.wellFormed_default)

end Generator

/-- Clamped parameters ask for a length that a track may have. -/
theorem GeneratorParams.clamped_length (p : GeneratorParams) :
    1 ≤ p.clamped.length ∧ p.clamped.length ≤ 64 := by
  simp only [GeneratorParams.clamped, GeneratorParams.clamp]
  omega

/-- Clamped parameters ask for chords that fit into a step. -/
theorem GeneratorParams.clamped_voices (p : GeneratorParams) :
    1 ≤ p.clamped.voices ∧ p.clamped.voices ≤ 7 := by
  simp only [GeneratorParams.clamped, GeneratorParams.clamp]
  omega

/-- Generating into a well-formed track leaves a well-formed track. -/
theorem Audition.generate_wellFormed (a : Audition) (index : Nat) {track : Track}
    (ht : track.WellFormed) (params : GeneratorParams) (style : Style) (hint : Option Scale)
    (g : Random) : (a.generate index track params style hint g).track.WellFormed := by
  have hset := Track.setPattern_wellFormed ht (track.generationTarget (a.lastOn index))
    (p := { track.patterns.get (track.generationTarget (a.lastOn index)) with
      steps := (Generator.steps params style hint g).1 })
    (Generator.steps_wellFormed params style hint g)
  refine { hset with length := params.clamped_length, current := ?_ }
  -- The track plays the pattern that was generated.
  intro p hp
  cases hp
  exact Fin.isLt _

end Groovebox
