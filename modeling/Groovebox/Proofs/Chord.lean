import Mathlib.Tactic
import Groovebox.Chord
/-! # Chords made from lists

A chord that is made from a list of notes holds the first seven different notes in range, in the
order of the list, and each with the velocity at the place where the list first has it. Notes that
are passed over, because they are out of range or held already, do not move the velocities of the
notes behind them.

* `Chord.notes_ofLists`: which notes the chord holds.
* `Chord.velocities_ofLists`: how hard each is struck.
-/

namespace Groovebox.Chord

/-- Removing repetitions keeps the last item of a list if the items before it do not have it. -/
theorem eraseDups_concat {α : Type} [BEq α] [LawfulBEq α] (l : List α) (a : α) :
    (l ++ [a]).eraseDups = if a ∈ l then l.eraseDups else l.eraseDups ++ [a] := by
  rw [List.eraseDups_append]
  by_cases h : a ∈ l
  · simp [h, List.removeAll]
  · simp [h, List.removeAll, List.eraseDups_cons]

/-! ## One note after the other -/

/-- Notes may be offered in two parts, where the second part goes on in the velocities. -/
theorem addAll_append (notes more : List Nat) (fallback : Nat) :
    ∀ (c : Chord) (velocities : List Nat),
      c.addAll (notes ++ more) velocities fallback =
        (c.addAll notes velocities fallback).addAll more (velocities.drop notes.length)
          fallback := by
  induction notes with
  | nil =>
    intro c velocities
    rfl
  | cons note notes ih =>
    intro c velocities
    cases velocities with
    | nil => simpa [addAll] using ih (c.add note fallback) []
    | cons v velocities => exact ih (c.add note v) velocities

/-- The last note of a list comes last, with the velocity at its own place. -/
theorem ofLists_concat (notes : List Nat) (note : Nat) (velocities : List Nat) (fallback : Nat) :
    ofLists (notes ++ [note]) velocities fallback =
      (ofLists notes velocities fallback).add note (velocities[notes.length]?.getD fallback) := by
  rw [ofLists, addAll_append, ← List.head?_drop]
  cases velocities.drop notes.length with
  | nil => rfl
  | cons v rest => rfl

/-- Whether a chord with some notes turns a further one away. -/
def Refuses (notes : List Nat) (note : Nat) : Prop :=
  127 < note ∨ note ∈ notes ∨ capacity ≤ notes.length

/-- A note that is refused changes nothing. -/
theorem add_of_refuses {c : Chord} {note : Nat} (h : Refuses c.notes note) (velocity : Nat) :
    c.add note velocity = c := by
  unfold Refuses at h
  rw [add, add?, if_pos h]
  rfl

/-- Any other note is appended with its velocity. -/
theorem add_of_not_refuses {c : Chord} {note : Nat} (h : ¬ Refuses c.notes note)
    (velocity : Nat) :
    c.add note velocity =
      { notes := c.notes ++ [note], velocities := c.velocities ++ [clampVelocity velocity] } := by
  unfold Refuses at h
  rw [add, add?, if_neg h]
  rfl

/-! ## Lists of notes -/

/-- The notes that a chord takes from a list. -/
def taken (notes : List Nat) : List Nat :=
  (notes.filter (· ≤ 127)).eraseDups.take capacity

/-- Only notes that were offered and are in range are taken. -/
theorem mem_of_mem_taken {notes : List Nat} {note : Nat} (h : note ∈ taken notes) :
    note ∈ notes ∧ note ≤ 127 := by
  have hfiltered := List.mem_eraseDups.1 (List.mem_of_mem_take h)
  simpa using hfiltered

/-- One more note that is refused is not taken. -/
theorem taken_concat_of_refuses {notes : List Nat} {note : Nat} (h : Refuses (taken notes) note) :
    taken (notes ++ [note]) = taken notes := by
  by_cases hrange : note ≤ 127
  · have hfilter : (notes ++ [note]).filter (· ≤ 127) = notes.filter (· ≤ 127) ++ [note] := by
      simp [List.filter_append, hrange]
    rw [taken, hfilter, eraseDups_concat]
    split
    · rfl
    · -- The note is new, so that it is the room that is missing.
      rename_i hnew
      have hfull : capacity ≤ (taken notes).length := by
        rcases h with hhigh | hheld | hfull
        · omega
        · exact absurd (List.mem_eraseDups.1 (List.mem_of_mem_take hheld)) hnew
        · exact hfull
      rw [taken, List.length_take] at hfull
      exact List.take_append_of_le_length (by omega)
  · have hfilter : (notes ++ [note]).filter (· ≤ 127) = notes.filter (· ≤ 127) := by
      simp [List.filter_append, hrange]
    rw [taken, hfilter, taken]

/-- While there is room, every different note in range is taken. -/
theorem taken_of_room {notes : List Nat} (h : (taken notes).length < capacity) :
    taken notes = (notes.filter (· ≤ 127)).eraseDups := by
  rw [taken, List.length_take] at h
  exact List.take_of_length_le (by omega)

/-- A note that is not refused was not offered before. -/
theorem not_mem_of_not_refuses {notes : List Nat} {note : Nat}
    (h : ¬ Refuses (taken notes) note) : note ∉ notes := by
  simp only [Refuses, not_or, Nat.not_lt, Nat.not_le] at h
  rcases h with ⟨hrange, hnew, hroom⟩
  rw [taken_of_room hroom, List.mem_eraseDups] at hnew
  simpa [hrange] using hnew

/-- One more note that is not refused is taken last. -/
theorem taken_concat_of_not_refuses {notes : List Nat} {note : Nat}
    (h : ¬ Refuses (taken notes) note) : taken (notes ++ [note]) = taken notes ++ [note] := by
  have hnew : note ∉ notes.filter (· ≤ 127) := fun hmem =>
    not_mem_of_not_refuses h (List.mem_of_mem_filter hmem)
  simp only [Refuses, not_or, Nat.not_lt, Nat.not_le] at h
  rcases h with ⟨hrange, -, hroom⟩
  have hfilter : (notes ++ [note]).filter (· ≤ 127) = notes.filter (· ≤ 127) ++ [note] := by
    simp [List.filter_append, hrange]
  have hall := taken_of_room hroom
  rw [hall] at hroom ⊢
  rw [taken, hfilter, eraseDups_concat, if_neg hnew]
  apply List.take_of_length_le
  rw [List.length_append, List.length_singleton]
  omega

/-- The notes of a chord made from a list. -/
theorem notes_ofLists (notes velocities : List Nat) (fallback : Nat) :
    (ofLists notes velocities fallback).notes = taken notes := by
  induction notes using List.reverseRecOn with
  | nil => rfl
  | append_singleton notes note ih =>
    rw [ofLists_concat]
    by_cases h : Refuses (taken notes) note
    · rw [add_of_refuses (ih ▸ h), taken_concat_of_refuses h, ih]
    · rw [add_of_not_refuses (ih ▸ h), taken_concat_of_not_refuses h, ih]

/-- The velocity that lists of notes and velocities give a note: the one at the place where the
notes first have it, or the fallback where the velocities end before. -/
def velocityOf (notes velocities : List Nat) (fallback note : Nat) : Nat :=
  clampVelocity (velocities[notes.idxOf note]?.getD fallback)

/-- Each note of a chord made from lists keeps its own velocity. -/
theorem velocities_ofLists (notes velocities : List Nat) (fallback : Nat) :
    (ofLists notes velocities fallback).velocities =
      (taken notes).map (velocityOf notes velocities fallback) := by
  induction notes using List.reverseRecOn with
  | nil => rfl
  | append_singleton notes note ih =>
    -- The notes that are held have the same first places in the longer list.
    have hheld : (taken notes).map (velocityOf (notes ++ [note]) velocities fallback) =
        (taken notes).map (velocityOf notes velocities fallback) := by
      apply List.map_congr_left
      intro n hn
      rw [velocityOf, velocityOf, List.idxOf_append_of_mem (mem_of_mem_taken hn).1]
    have hnotes := notes_ofLists notes velocities fallback
    rw [ofLists_concat]
    by_cases h : Refuses (taken notes) note
    · rw [add_of_refuses (hnotes ▸ h), taken_concat_of_refuses h, hheld, ih]
    · have hnew : note ∉ notes := not_mem_of_not_refuses h
      rw [add_of_not_refuses (hnotes ▸ h), taken_concat_of_not_refuses h, List.map_append, hheld,
        ih]
      simp [velocityOf, List.idxOf_append_of_notMem hnew]

end Groovebox.Chord
