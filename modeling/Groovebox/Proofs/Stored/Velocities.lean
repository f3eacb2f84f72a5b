import Mathlib.Tactic
import Groovebox.Proofs.Chord
import Groovebox.Proofs.Stored.Ranges
/-! # Velocities of stored notes

A stored step has an array of notes and an array of velocities beside it. The entries that are no
notes are left out before the arrays are paired, so that every such entry moves the velocities of
the notes behind it by one place.

* `Chord.ofMembers_velocities`: which velocity each note gets, and when it is its own.
* `Chord.ofMembers_displaced`: an object where it is not.
-/

namespace Groovebox

open Stored

/-! ## Entries -/

/-- The note that an entry of an array stands for: a whole number from 0 to 127. -/
def Document.note? (d : Document) : Option Nat :=
  (d.int64?.filter fun n => 0 ≤ n ∧ n ≤ 127).map Int.toNat

/-- The velocity that an entry of an array stands for: a whole number is moved into the range from 1
to 127, and for anything else there is one velocity for all. -/
def Document.velocity (scalar : Nat) (d : Document) : Nat :=
  match d.int64? with
  | some v => (min (max v 1) 127).toNat
  | none => scalar

/-- The velocity that an array has at a place; past its end there is one velocity for all. -/
def velocityAt (velocities : List Document) (scalar place : Nat) : Nat :=
  (velocities[place]?.map (Document.velocity scalar)).getD scalar

/-- The first place at which an array holds a note. -/
structure FirstAt (items : List Document) (note place : Nat) : Prop where
  holds : items[place]?.bind Document.note? = some note
  first : ∀ i < place, items[i]?.bind Document.note? ≠ some note

/-- The number of notes before a place of an array. -/
def notesBefore (items : List Document) (place : Nat) : Nat :=
  (items.take place).countP fun d => d.note?.isSome

/-- What is read as a note is one. -/
theorem Document.note?_le {d : Document} {note : Nat} (h : d.note? = some note) : note ≤ 127 := by
  rcases Option.map_eq_some_iff.1 h with ⟨n, hn, rfl⟩
  have hrange := (Option.filter_eq_some_iff.1 hn).2
  simp only [decide_eq_true_eq] at hrange
  omega

/-- A note has one first place at most. -/
theorem FirstAt.unique {items : List Document} {note place place' : Nat}
    (h : FirstAt items note place) (h' : FirstAt items note place') : place = place' := by
  rcases Nat.lt_trichotomy place place' with hlt | heq | hgt
  · exact absurd h.holds (h'.first place hlt)
  · exact heq
  · exact absurd h'.holds (h.first place' hgt)

/-- Before its first place a note is not read. -/
theorem not_mem_notes_take {items : List Document} {note place : Nat}
    (h : ∀ i < place, items[i]?.bind Document.note? ≠ some note) :
    note ∉ (items.take place).filterMap Document.note? := by
  intro hmem
  rcases List.mem_filterMap.1 hmem with ⟨d, hd, hnote⟩
  rcases List.getElem?_of_mem hd with ⟨i, hi⟩
  have hlt : i < place := by
    have hlength := (List.getElem?_eq_some_iff.1 hi).1
    rw [List.length_take] at hlength
    omega
  rw [List.getElem?_take_of_lt hlt] at hi
  apply h i hlt
  rw [hi]
  exact hnote

/-- Among the notes of an array, a note comes first after as many as stand before its first
place. -/
theorem FirstAt.idxOf {items : List Document} {note place : Nat} (h : FirstAt items note place) :
    (items.filterMap Document.note?).idxOf note = notesBefore items place := by
  rcases Option.bind_eq_some_iff.1 h.holds with ⟨d, hd, hnote⟩
  rcases List.getElem?_eq_some_iff.1 hd with ⟨hplace, rfl⟩
  -- The array is what stands before the place, the note, and what stands behind it.
  have hsplit : items = items.take place ++ items[place] :: items.drop (place + 1) := by
    rw [List.getElem_cons_drop, List.take_append_drop]
  have hnotes : items.filterMap Document.note? = (items.take place).filterMap Document.note? ++
      note :: (items.drop (place + 1)).filterMap Document.note? := by
    conv_lhs => rw [hsplit, List.filterMap_append, List.filterMap_cons_some hnote]
  rw [hnotes, List.idxOf_append_of_notMem (not_mem_notes_take h.first), List.idxOf_cons_self,
    Nat.add_zero, List.length_filterMap_eq_countP, notesBefore]

/-- A note that is read has a first place. -/
theorem exists_firstAt {items : List Document} {note : Nat}
    (h : note ∈ items.filterMap Document.note?) : ∃ place, FirstAt items note place := by
  rcases List.mem_filterMap.1 h with ⟨d, hd, hnote⟩
  rcases List.getElem?_of_mem hd with ⟨i, hi⟩
  have hsome : ∃ place : Nat, items[place]?.bind Document.note? = some note := by
    refine ⟨i, ?_⟩
    rw [hi]
    exact hnote
  -- The least place where the note stands is its first.
  exact ⟨Nat.find hsome, Nat.find_spec hsome, fun _ => Nat.find_min hsome⟩

/-- Where only notes stand before a place, nothing is left out before it. -/
theorem FirstAt.notesBefore_eq {items : List Document} {note place : Nat}
    (h : FirstAt items note place) (hnotes : ∀ d ∈ items.take place, d.note?.isSome) :
    notesBefore items place = place := by
  rcases Option.bind_eq_some_iff.1 h.holds with ⟨d, hd, -⟩
  have hplace : place < items.length := (List.getElem?_eq_some_iff.1 hd).1
  rw [notesBefore, List.countP_eq_length.2 hnotes, List.length_take]
  omega

/-! ## Steps -/

/-- The entries of the notes of an object. -/
def noteItems (m : Members) : List Document :=
  (first? m ["notes", "n"] Document.items?).getD []

/-- The entries of the velocities of an object. -/
def velocityItems (m : Members) : List Document :=
  (first? m ["velocities", "v"] Document.items?).getD []

/-- The one velocity of an object, for notes that have none of their own. -/
def scalarVelocity (m : Members) : Nat :=
  (intIn? m ["velocity"] 1 127).getD 100

/-- Each note of a chord has the velocity that the object has at a place that is found from the
first place of the note. -/
def VelocitiesFrom (m : Members) (c : Chord) (source : Nat → Nat) : Prop :=
  ∀ (k note : Nat), c.notes[k]? = some note → ∃ place, FirstAt (noteItems m) note place ∧
    c.velocities[k]? = some (velocityAt (velocityItems m) (scalarVelocity m) (source place))

/-- The chord of a step is made from the notes that are left and from all velocities. -/
theorem Chord.ofMembers_eq_ofLists (m : Members) :
    Chord.ofMembers m =
      Chord.ofLists ((noteItems m).filterMap Document.note?)
        ((velocityItems m).map (Document.velocity (scalarVelocity m))) (scalarVelocity m) := rfl

/-- The notes of a chord that is read are the first seven different ones. -/
theorem Chord.ofMembers_notes (m : Members) :
    (Chord.ofMembers m).notes = ((noteItems m).filterMap Document.note?).eraseDups.take 7 := by
  -- Whatever is read as a note is in range, so the chord refuses none for that.
  have hall : ((noteItems m).filterMap Document.note?).filter (· ≤ 127) =
      (noteItems m).filterMap Document.note? := by
    rw [List.filter_eq_self]
    intro note hnote
    rcases List.mem_filterMap.1 hnote with ⟨d, -, hd⟩
    exact decide_eq_true (Document.note?_le hd)
  rw [Chord.ofMembers_eq_ofLists, Chord.notes_ofLists, Chord.taken, hall]
  rfl

/-- The velocity of a place is in range already. -/
theorem clampVelocity_velocityAt (m : Members) (place : Nat) :
    Chord.clampVelocity (velocityAt (velocityItems m) (scalarVelocity m) place) =
      velocityAt (velocityItems m) (scalarVelocity m) place := by
  have hscalar : 1 ≤ scalarVelocity m ∧ scalarVelocity m ≤ 127 := intIn?_getD_range (by decide)
  have hrange : 1 ≤ velocityAt (velocityItems m) (scalarVelocity m) place ∧
      velocityAt (velocityItems m) (scalarVelocity m) place ≤ 127 := by
    unfold velocityAt
    cases (velocityItems m)[place]? with
    | none => exact hscalar
    | some d =>
      simp only [Option.map_some, Option.getD_some, Document.velocity]
      split
      · omega
      · exact hscalar
  unfold Chord.clampVelocity
  omega

/-- A note gets the velocity behind as many as there are notes before its first place, because only
the notes of the array are paired with the velocities. -/
theorem Chord.ofMembers_velocitiesFrom (m : Members) :
    VelocitiesFrom m (Chord.ofMembers m) (notesBefore (noteItems m)) := by
  intro k note hnote
  have hmem : note ∈ (noteItems m).filterMap Document.note? := by
    rw [Chord.ofMembers_notes] at hnote
    exact List.mem_eraseDups.1 (List.mem_of_mem_take (List.mem_of_getElem? hnote))
  rcases exists_firstAt hmem with ⟨place, hplace⟩
  refine ⟨place, hplace, ?_⟩
  -- The chord pairs the note with the velocity at its place among the notes that are left.
  rw [Chord.ofMembers_eq_ofLists, Chord.notes_ofLists] at hnote
  rw [Chord.ofMembers_eq_ofLists, Chord.velocities_ofLists, List.getElem?_map, hnote,
    Option.map_some, Chord.velocityOf, hplace.idxOf, List.getElem?_map, ← velocityAt,
    clampVelocity_velocityAt]

/-- Each note has its own velocity exactly if the place it is read from holds the same. -/
theorem Chord.ofMembers_velocitiesFrom_id_iff (m : Members) :
    VelocitiesFrom m (Chord.ofMembers m) id ↔
      ∀ note ∈ (Chord.ofMembers m).notes, ∀ place, FirstAt (noteItems m) note place →
        velocityAt (velocityItems m) (scalarVelocity m) (notesBefore (noteItems m) place) =
          velocityAt (velocityItems m) (scalarVelocity m) place := by
  have hfrom := Chord.ofMembers_velocitiesFrom m
  constructor
  · intro hown note hnote place hplace
    rcases List.getElem?_of_mem hnote with ⟨k, hk⟩
    rcases hfrom k note hk with ⟨place', hplace', hread⟩
    rcases hown k note hk with ⟨place'', hplace'', hwritten⟩
    rw [hplace'.unique hplace] at hread
    rw [hplace''.unique hplace] at hwritten
    exact Option.some_inj.1 (hread.symm.trans hwritten)
  · intro hsame k note hk
    rcases hfrom k note hk with ⟨place, hplace, hread⟩
    have hvelocity := hsame note (List.mem_of_getElem? hk) place hplace
    exact ⟨place, hplace, hread.trans (congrArg some hvelocity)⟩

/-- The notes of a stored step are the first seven different ones of its array of notes. Each gets
the velocity that stands behind as many as there are notes before its first place. That is the
velocity at this place, as it should be, exactly if the two places hold the same; so it is if all
entries are notes. -/
theorem Chord.ofMembers_velocities (m : Members) :
    let c := (Step.ofDocument (.obj m)).chord
    c.notes = ((noteItems m).filterMap Document.note?).eraseDups.take 7 ∧
      c.velocities.length = c.notes.length ∧
      VelocitiesFrom m c (notesBefore (noteItems m)) ∧
      (VelocitiesFrom m c id ↔ ∀ note ∈ c.notes, ∀ place, FirstAt (noteItems m) note place →
        velocityAt (velocityItems m) (scalarVelocity m) (notesBefore (noteItems m) place) =
          velocityAt (velocityItems m) (scalarVelocity m) place) ∧
      ((∀ d ∈ noteItems m, d.note?.isSome) → VelocitiesFrom m c id) := by
  intro c
  have hparallel : c.velocities.length = c.notes.length :=
    (Step.ofMembers_wellFormed m).chord.parallel
  have hown := Chord.ofMembers_velocitiesFrom_id_iff m
  refine ⟨Chord.ofMembers_notes m, hparallel, Chord.ofMembers_velocitiesFrom m, hown, ?_⟩
  intro hnotes
  refine hown.2 ?_
  -- Where all entries are notes, a place has as many notes before it as entries.
  intro note _ place hplace
  rw [hplace.notesBefore_eq fun d hd => hnotes d (List.mem_of_mem_take hd)]

/-- An object with an entry before its only note that is none. -/
def displaced : Members :=
  [("notes", .arr [.int 200, .int 60]), ("velocities", .arr [.int 10, .int 20])]

/-- The note gets the velocity of the entry before it. -/
theorem Chord.ofMembers_displaced :
    (Step.ofDocument (.obj displaced)).chord = { notes := [60], velocities := [10] } ∧
      FirstAt (noteItems displaced) 60 1 ∧
      velocityAt (velocityItems displaced) (scalarVelocity displaced) 1 = 20 ∧
      ¬ VelocitiesFrom displaced (Step.ofDocument (.obj displaced)).chord id := by
  have hchord : (Step.ofDocument (.obj displaced)).chord =
      { notes := [60], velocities := [10] } := by decide +kernel
  have hfirst : FirstAt (noteItems displaced) 60 1 := by
    refine ⟨by decide +kernel, ?_⟩
    intro i hi
    interval_cases i
    decide +kernel
  have hwritten : velocityAt (velocityItems displaced) (scalarVelocity displaced) 1 = 20 := by
    decide +kernel
  refine ⟨hchord, hfirst, hwritten, ?_⟩
  intro hown
  rcases hown 0 60 (by rw [hchord]; rfl) with ⟨place, hplace, hread⟩
  rw [hplace.unique hfirst, id, hwritten, hchord] at hread
  cases hread

end Groovebox
