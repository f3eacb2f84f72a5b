import Mathlib.Tactic
import Groovebox.Library
import Groovebox.Proofs.Editing
/-! # Reading lands in range

Whatever a document holds, the song that it reads as is well-formed. Each field of a stored object
has its own rule for values out of range: they count as missing, are moved into range, or stand for
something that is not set. The first part says what each rule yields; the second goes through
steps, patterns, tracks and songs. The main statement is `Song.ofDocument_wellFormed`. -/

namespace Groovebox

/-! ## Fields -/

namespace Stored

variable {m : Members} {names : List String}

/-- A default that has a property and values that have it together have it. -/
theorem getD_of_forall {α : Type} {P : α → Prop} {o : Option α} {default : α}
    (h : ∀ a ∈ o, P a) (hd : P default) : P (o.getD default) := by
  cases o with
  | none => exact hd
  | some a => exact h a rfl

/-- A number out of range counts as missing. -/
theorem intIn?_range {lo hi n : Nat} (h : n ∈ intIn? m names lo hi) : lo ≤ n ∧ n ≤ hi := by
  rcases Option.map_eq_some_iff.1 (Option.mem_def.1 h) with ⟨v, hv, rfl⟩
  have hrange := (Option.filter_eq_some_iff.1 hv).2
  rw [decide_eq_true_eq] at hrange
  omega

/-- With a default in range, whatever is read is in range. -/
theorem intIn?_getD_range {lo hi default : Nat} (hd : lo ≤ default ∧ default ≤ hi) :
    lo ≤ (intIn? m names lo hi).getD default ∧ (intIn? m names lo hi).getD default ≤ hi :=
  getD_of_forall (P := fun n => lo ≤ n ∧ n ≤ hi) (fun _ => intIn?_range) hd

theorem intIn?_getD_le {hi default : Nat} (hd : default ≤ hi) :
    (intIn? m names (0 : Nat) hi).getD default ≤ hi :=
  (intIn?_getD_range ⟨Nat.zero_le _, hd⟩).2

/-- A number that is moved into range, or the default where there is none. -/
theorem clamped_getD_range (v : Option Int) (lo hi default : Nat) (hlo : lo ≤ hi)
    (hd : lo ≤ default ∧ default ≤ hi) :
    lo ≤ (v.map fun n : Int => (min (max n lo) hi).toNat).getD default ∧
      (v.map fun n : Int => (min (max n lo) hi).toNat).getD default ≤ hi := by
  cases v with
  | none => exact hd
  | some v =>
    simp only [Option.map_some, Option.getD_some]
    omega

/-- What an optional number is resolved to has any property that all such values have. -/
theorem optional?_of_resolve {α : Type} {P : α → Prop} {resolve : Nat → Option α}
    (h : ∀ n, ∀ a ∈ resolve n, P a) : ∀ a ∈ optional? m names resolve, P a := by
  intro a ha
  rcases Option.bind_eq_some_iff.1 (Option.mem_def.1 ha) with ⟨v, -, hv⟩
  exact h v.toNat a hv

/-- A number past the limit stands for none. -/
theorem upTo_le {hi n k : Nat} (h : k ∈ upTo hi n) : k ≤ hi := by
  unfold upTo at h
  split at h
  · cases h
    assumption
  · cases h

theorem upTo_range (lo hi n : Nat) {k : Nat} (h : k ∈ (if lo ≤ n then upTo hi n else none)) :
    lo ≤ k ∧ k ≤ hi := by
  unfold upTo at h
  split at h
  · split at h
    · cases h
      omega
    · cases h
  · cases h

theorem moved_le (hi n : Nat) {k : Nat} (h : k ∈ some (min n hi)) : k ≤ hi := by
  cases h
  exact Nat.min_le_right n hi

/-! ## Containers -/

/-- What an entry of a container does to a bank: something is read from it and put at its
position, or nothing is. -/
def place {α : Type} {n : Nat} (read : Nat → Document → Option α) (b : Bank α n)
    (entry : Nat × Document) : Bank α n :=
  match read entry.1 entry.2 with
  | some a => b.setIfInBounds entry.1 a
  | none => b

/-- A bank is filled by placing the entries in turn. -/
theorem fill_eq_place {α : Type} {n : Nat} (start : Bank α n) (container : Document)
    (read : Nat → Document → α) :
    fill start container read =
      (entries n container).foldl (place fun i d => some (read i d)) start := rfl

/-- A property of a bank and of everything that is read is kept by placing entries. -/
theorem foldl_place_all {α : Type} {n : Nat} {P : α → Prop}
    {read : Nat → Document → Option α} (hread : ∀ i d, ∀ a ∈ read i d, P a)
    (es : List (Nat × Document)) :
    ∀ {b : Bank α n}, b.All P → Bank.All P (es.foldl (place read) b) := by
  induction es with
  | nil => exact fun h => h
  | cons e es ih =>
    intro b hb
    apply ih
    -- Only the entry at the given position is another one, if any.
    unfold place
    split
    · rename_i a ha
      exact Bank.All.setIfInBounds hb e.1 (hread e.1 e.2 a ha)
    · exact hb

/-- A property of the start and of everything that is read holds of a filled bank. -/
theorem fill_all {α : Type} {n : Nat} {P : α → Prop} {start : Bank α n} (container : Document)
    {read : Nat → Document → α} (hstart : start.All P) (hread : ∀ i d, P (read i d)) :
    Bank.All P (fill start container read) := by
  rw [fill_eq_place]
  refine foldl_place_all ?_ _ hstart
  intro i d a ha
  cases ha
  exact hread i d

end Stored

open Stored

/-! ## Steps -/

/-- A ratchet that is stored in no valid form is read as the plain one. -/
theorem Ratchet.ofMembers_valid (m : Members) (names : List String) :
    (Ratchet.ofMembers m names).Valid := by
  unfold Ratchet.ofMembers
  split
  · rename_i r hr
    rcases Option.map_eq_some_iff.1 hr with ⟨i, -, hi⟩
    exact Ratchet.ofIndex_valid hi
  · decide

/-- The members of a step are read as a well-formed step, field by field. -/
theorem Step.ofMembers_wellFormed (m : Members) : (Step.ofMembers m).WellFormed where
  chord := Chord.ofLists_wellFormed _ _ _
  gate := intIn?_getD_le (Nat.zero_le 100)
  cc1 := optional?_of_resolve fun n _ h => moved_le 127 n h
  cc2 := optional?_of_resolve fun n _ h => moved_le 127 n h
  probability := clamped_getD_range _ 1 100 100 (by decide) (by decide)
  ratchet := Ratchet.ofMembers_valid m _
  length := clamped_getD_range _ 1 64 1 (by decide) (by decide)
  jump := optional?_of_resolve fun _ _ h => Nat.lt_succ_of_le (upTo_le h)
  offset := by
    simp only [Step.ofMembers]
    cases int? m ["offset", "of"] with
    | none => decide
    | some v =>
      simp only [Option.map_some, Option.getD_some]
      omega
  arpPlaySteps := optional?_of_resolve fun n _ h => upTo_range 1 255 n h
  arpPlayStart := optional?_of_resolve fun _ _ => upTo_le

/-- Anything that is no object is read as an empty step. -/
theorem Step.ofDocument_wellFormed (d : Document) : (Step.ofDocument d).WellFormed := by
  unfold Step.ofDocument
  split
  · exact Step.ofMembers_wellFormed _
  · exact Step.wellFormed_default

/-! ## Patterns and tracks -/

/-- Whatever a document holds, it is read as a well-formed pattern. -/
theorem Pattern.ofDocument_wellFormed (d : Document) : (Pattern.ofDocument d).WellFormed := by
  unfold Pattern.ofDocument
  split
  · exact Pattern.wellFormed_default
  · -- The loop is checked where it is made, so the steps are left.
    apply fill_all _ (Bank.all_replicate Step.wellFormed_default)
    exact fun _ => Step.ofDocument_wellFormed

/-- A stored pattern number stands for a pattern of the bank or for none. -/
theorem Track.currentOf_lt (v : Int) : ∀ p ∈ Track.currentOf v, p < 16 := by
  intro p hp
  unfold Track.currentOf at hp
  split at hp
  · cases hp
  · split at hp
    · cases hp
      omega
    · cases hp
      decide

/-- The members of a track are read as a well-formed track, with a fresh one for what is missing. -/
theorem Track.ofMembers_wellFormed (index : Nat) (m : Members) :
    (Track.ofMembers index m).WellFormed := by
  have hfresh := Track.wellFormed_fresh index
  constructor
  · exact fill_all _ hfresh.patterns fun _ => Pattern.ofDocument_wellFormed
  · simp only [Track.ofMembers]
    cases int? m ["currentPattern", "cp"] with
    | none => exact hfresh.current
    | some v => exact Track.currentOf_lt v
  · exact intIn?_getD_le hfresh.channel
  · exact intIn?_getD_le hfresh.swing
  · exact intIn?_getD_range hfresh.length
  · exact intIn?_getD_le hfresh.resetLength
  · exact intIn?_getD_range hfresh.gate
  · exact intIn?_getD_range hfresh.arpPlaySteps
  · exact intIn?_getD_le hfresh.arpPlayStart
  · exact intIn?_getD_le hfresh.cc1
  · exact intIn?_getD_le hfresh.cc2

theorem Track.ofDocument_wellFormed (index : Nat) (d : Document) :
    (Track.ofDocument index d).WellFormed := by
  unfold Track.ofDocument
  split
  · exact Track.ofMembers_wellFormed index _
  · exact Track.wellFormed_fresh index

/-- Whatever a container holds, sixteen well-formed tracks are read from it. -/
theorem Song.tracksOf_wellFormed (container : Document) :
    (Song.tracksOf container).All Track.WellFormed :=
  fill_all container (Bank.all_ofFn fun i => Track.wellFormed_fresh i) Track.ofDocument_wellFormed

/-! ## The transpose sequence -/

/-- The jumps of a stored step are cut to the sequence only once it is complete. -/
theorem TransposeSequence.boundJumps_wellFormed {q : TransposeSequence}
    (hfew : q.length ≤ TransposeSequence.capacity)
    (hsteps : ∀ s ∈ q.steps, (-24 ≤ s.transpose ∧ s.transpose ≤ 24) ∧
      (1 ≤ s.duration ∧ s.duration ≤ 64)) : q.boundJumps.WellFormed := by
  have hlen : q.boundJumps.length = q.length := by
    simp [TransposeSequence.boundJumps, TransposeSequence.length]
  refine ⟨hlen ▸ hfew, ?_⟩
  -- Cutting the jumps touches nothing else of a step.
  intro s hs
  rcases List.mem_map.1 hs with ⟨old, hold, rfl⟩
  refine ⟨(hsteps old hold).1, (hsteps old hold).2, ?_⟩
  intro j hj
  have hlt := (Option.filter_eq_some_iff.1 (Option.mem_def.1 hj)).2
  rw [hlen]
  exact of_decide_eq_true hlt

/-- Whatever a document holds, it is read as a well-formed transpose sequence. -/
theorem TransposeSequence.ofDocument_wellFormed (d : Document) :
    (TransposeSequence.ofDocument d).WellFormed := by
  apply boundJumps_wellFormed
  · exact List.length_take_le _ _
  · intro s hs
    rcases List.mem_map.1 (List.mem_of_mem_take hs) with ⟨m, -, rfl⟩
    exact ⟨TransposeStep.clampTranspose_range _, TransposeStep.clampDuration_range _⟩

/-! ## Songs -/

/-- A snapshot names patterns that there are, since other numbers stand for none or the first one.
-/
theorem Snapshot.ofDocument?_wellFormed {d : Document} {s : Snapshot}
    (h : Snapshot.ofDocument? d = some s) : Snapshot.WellFormed s := by
  rcases Option.map_eq_some_iff.1 h with ⟨items, -, rfl⟩
  apply Bank.all_ofFn
  intro t
  split
  · exact Track.currentOf_lt _
  · rintro p ⟨⟩
    decide

/-- Snapshots are read like every other container, where an entry that is no snapshot is passed
over. -/
theorem Song.snapshotsOf_eq_place (container : Document) :
    Song.snapshotsOf container =
      (entries 16 container).foldl (place fun _ d => (Snapshot.ofDocument? d).map some)
        (Vector.replicate 16 none) := by
  unfold Song.snapshotsOf
  congr 1
  funext slots entry
  simp only [place]
  cases Snapshot.ofDocument? entry.2 <;> rfl

/-- Whatever a container holds, well-formed snapshots are read from it. -/
theorem Song.snapshotsOf_wellFormed (container : Document) :
    (Song.snapshotsOf container).All fun slot => ∀ s ∈ slot, Snapshot.WellFormed s := by
  rw [Song.snapshotsOf_eq_place]
  apply foldl_place_all
  · intro i d slot hslot s hs
    rcases Option.map_eq_some_iff.1 (Option.mem_def.1 hslot) with ⟨s', hs', rfl⟩
    cases hs
    exact Snapshot.ofDocument?_wellFormed hs'
  · apply Bank.all_replicate
    intro s hs
    exact absurd hs (Option.not_mem_none s)

/-- The members of a song are read as a well-formed song. -/
theorem Song.ofMembers_wellFormed (m : Members) : (Song.ofMembers m).WellFormed where
  tracks := Song.tracksOf_wellFormed _
  bpm := Song.clampBpm_range _
  transposes := TransposeSequence.ofDocument_wellFormed _
  sequencerType := intIn?_getD_le (Nat.zero_le 255)
  snapshots := Song.snapshotsOf_wellFormed _
  activeSnapshot := fun _ h => Nat.lt_succ_of_le (@intIn?_range m _ 0 15 _ h).2
  masterReset := intIn?_getD_le (Nat.zero_le 256)
  color := fun _ h => (@intIn?_range m _ 0 255 _ h).2

/-- Every document reads as a well-formed song. -/
theorem Song.ofDocument_wellFormed (d : Document) : (Song.ofDocument d).WellFormed := by
  unfold Song.ofDocument
  split
  · exact { Song.wellFormed_default with tracks := Song.tracksOf_wellFormed _ }
  · exact Song.ofMembers_wellFormed _
  · exact Song.wellFormed_default

/-- Every set of a library loads as a well-formed song, whatever its file holds. -/
theorem Library.load_wellFormed (l : Library) (i : Nat) : (l.load i).WellFormed := by
  unfold Library.load
  split
  · unfold Library.songOf
    split
    · exact Song.ofDocument_wellFormed _
    · exact Song.wellFormed_default
  · exact Song.wellFormed_default

end Groovebox
