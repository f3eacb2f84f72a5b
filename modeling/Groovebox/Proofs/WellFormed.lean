import Mathlib.Tactic.MkIffOfInductiveProp
import Groovebox.Proofs.Bank
import Groovebox.Song
/-! # Well-formed songs

The ranges that the fields of a song keep, from the notes of a step up to the whole song. Every
song that is read from a file and every song that edits can make is well-formed, and only of such
songs does a file hold everything. The main statements say that what songs start from is
well-formed. -/

namespace Groovebox

/-! ## Steps -/

/-- The notes of a chord are different and in range, and each has a velocity that sounds. -/
@[mk_iff]
structure Chord.WellFormed (c : Chord) : Prop where
  parallel : c.velocities.length = c.notes.length
  few : c.notes.length ≤ Chord.capacity
  distinct : c.notes.Nodup
  notes : ∀ n ∈ c.notes, n ≤ 127
  velocities : ∀ v ∈ c.velocities, 1 ≤ v ∧ v ≤ 127

/-- The settings of a step are in range. The notes of its arpeggio that sound are the bits of a
byte. -/
@[mk_iff]
structure Step.WellFormed (s : Step) : Prop where
  chord : s.chord.WellFormed
  gate : s.gate ≤ 100
  cc1 : ∀ n ∈ s.cc1, n ≤ 127
  cc2 : ∀ n ∈ s.cc2, n ≤ 127
  probability : 1 ≤ s.probability ∧ s.probability ≤ 100
  ratchet : s.ratchet.Valid
  length : 1 ≤ s.length ∧ s.length ≤ 64
  jump : ∀ n ∈ s.jump, n < 64
  offset : -24 ≤ s.offset ∧ s.offset ≤ 24
  arpPlaySteps : ∀ n ∈ s.arpPlaySteps, 1 ≤ n ∧ n ≤ 255
  arpPlayStart : ∀ n ∈ s.arpPlayStart, n ≤ 7

instance (c : Chord) : Decidable c.WellFormed :=
  decidable_of_iff' _ c.wellFormed_iff

instance (s : Step) : Decidable s.WellFormed :=
  decidable_of_iff' _ s.wellFormed_iff

/-! ## Patterns and tracks -/

/-- All steps of a pattern are well-formed; the ends of its loop are in range by their type. -/
def Pattern.WellFormed (p : Pattern) : Prop :=
  p.steps.All Step.WellFormed

/-- The patterns of a track are well-formed and its settings are in range. -/
@[mk_iff]
structure Track.WellFormed (t : Track) : Prop where
  patterns : t.patterns.All Pattern.WellFormed
  current : ∀ p ∈ t.current, p < 16
  channel : t.channel ≤ 15
  swing : t.swing ≤ 100
  length : 1 ≤ t.length ∧ t.length ≤ 64
  resetLength : t.resetLength ≤ 256
  gate : 1 ≤ t.gate ∧ t.gate ≤ 100
  arpPlaySteps : 1 ≤ t.arpPlaySteps ∧ t.arpPlaySteps ≤ 255
  arpPlayStart : t.arpPlayStart ≤ 7
  cc1 : t.cc1 ≤ 127
  cc2 : t.cc2 ≤ 127

instance (p : Pattern) : Decidable p.WellFormed :=
  inferInstanceAs (Decidable (p.steps.All Step.WellFormed))

instance (t : Track) : Decidable t.WellFormed :=
  decidable_of_iff' _ t.wellFormed_iff

/-! ## Songs -/

/-- A transpose step of a sequence of `count` steps is in range, and so is the step it jumps to. -/
@[mk_iff]
structure TransposeStep.WellFormed (count : Nat) (s : TransposeStep) : Prop where
  transpose : -24 ≤ s.transpose ∧ s.transpose ≤ 24
  duration : 1 ≤ s.duration ∧ s.duration ≤ 64
  jump : ∀ j ∈ s.jump, j < count

/-- A sequence holds 16 steps at most, all of them in range. -/
@[mk_iff]
structure TransposeSequence.WellFormed (q : TransposeSequence) : Prop where
  few : q.length ≤ TransposeSequence.capacity
  steps : ∀ s ∈ q.steps, s.WellFormed q.length

/-- Every track of a snapshot plays a pattern of its bank or none. -/
def Snapshot.WellFormed (s : Snapshot) : Prop :=
  s.All fun current => ∀ p ∈ current, p < 16

/-- Everything in a song is in range; the type of sequencer and the colour are any bytes. -/
@[mk_iff]
structure Song.WellFormed (s : Song) : Prop where
  tracks : s.tracks.All Track.WellFormed
  bpm : 20 ≤ s.bpm ∧ s.bpm ≤ 300
  transposes : s.transposes.WellFormed
  sequencerType : s.sequencerType ≤ 255
  snapshots : s.snapshots.All fun slot => ∀ snapshot ∈ slot, Snapshot.WellFormed snapshot
  activeSnapshot : ∀ slot ∈ s.activeSnapshot, slot < 16
  masterReset : s.masterReset ≤ 256
  color : ∀ c ∈ s.color, c ≤ 255

instance (count : Nat) (s : TransposeStep) : Decidable (s.WellFormed count) :=
  decidable_of_iff' _ (s.wellFormed_iff count)

instance (q : TransposeSequence) : Decidable q.WellFormed :=
  decidable_of_iff' _ q.wellFormed_iff

instance (s : Snapshot) : Decidable s.WellFormed :=
  inferInstanceAs (Decidable (s.All fun current => ∀ p ∈ current, p < 16))

instance (s : Song) : Decidable s.WellFormed :=
  decidable_of_iff' _ s.wellFormed_iff

/-! ## What songs start from -/

theorem Chord.wellFormed_empty : ({} : Chord).WellFormed := by decide

theorem Step.wellFormed_default : ({} : Step).WellFormed := by decide

/-- An empty pattern has empty steps, and they are well-formed. -/
theorem Pattern.wellFormed_default : ({} : Pattern).WellFormed :=
  Bank.all_replicate Step.wellFormed_default

/-- A fresh track is well-formed at any position of a song. -/
theorem Track.wellFormed_fresh (index : Nat) : (Track.fresh index).WellFormed where
  patterns := Bank.all_replicate Pattern.wellFormed_default
  current := by
    intro p hp
    have h : p = 0 := (Option.mem_some.1 hp).symm
    omega
  channel := Nat.min_le_right _ _
  swing := (by decide : 50 ≤ 100)
  length := (by decide : 1 ≤ 16 ∧ 16 ≤ 64)
  resetLength := (by decide : 0 ≤ 256)
  gate := (by decide : 1 ≤ 95 ∧ 95 ≤ 100)
  arpPlaySteps := (by decide : 1 ≤ 1 ∧ 1 ≤ 255)
  arpPlayStart := (by decide : 0 ≤ 7)
  cc1 := (by decide : 64 ≤ 127)
  cc2 := (by decide : 64 ≤ 127)

theorem TransposeSequence.wellFormed_empty : ({} : TransposeSequence).WellFormed where
  few := by decide
  steps := by
    intro s hs
    exact absurd hs List.not_mem_nil

/-- The empty song is well-formed. -/
theorem Song.wellFormed_default : ({} : Song).WellFormed where
  tracks := Bank.all_ofFn fun i => Track.wellFormed_fresh i
  bpm := by decide
  transposes := TransposeSequence.wellFormed_empty
  sequencerType := by decide
  snapshots := by
    apply Bank.all_replicate
    intro snapshot h
    exact absurd h (Option.not_mem_none snapshot)
  activeSnapshot := by
    intro slot h
    exact absurd h (Option.not_mem_none slot)
  masterReset := by decide
  color := by
    intro c h
    exact absurd h (Option.not_mem_none c)

end Groovebox
