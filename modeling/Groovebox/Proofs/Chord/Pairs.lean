import Mathlib.Tactic
import Groovebox.Proofs.Chord
import Groovebox.Proofs.Stored.Ranges
/-! # Chords as pairs

A chord keeps its notes and their velocities in two lists. `Pairs` keeps the same in one list of
pairs of a note and its velocity, in the order in which the notes came in. Each call that changes
the notes of a step does to the chord what its counterpart does to the pairs (`Follows.perform`), so
that no velocity ever gets to another note.

* `Step.chord_follows_pairs`: what any calls leave, and what each of them answers.
-/

namespace Groovebox

/-- What can be done to the notes of a step. Velocities are changed by the place of their note. -/
inductive NoteCall
  | add (note velocity : Nat)
  | remove (note : Nat)
  | toggle (note velocity : Nat)
  | setChord (notes velocities : List Nat) (fallback : Nat)
  | setVelocity (place velocity : Nat)
  | clear
deriving DecidableEq, Repr

namespace NoteCall

/-- What comes of a call that may be refused: whether it was accepted, and what there is then. -/
def outcome {α : Type} (old : α) (new? : Option α) : Option Bool × α :=
  (some new?.isSome, new?.getD old)

end NoteCall

open NoteCall (outcome)

/-! ## Steps -/

namespace Step

/-- What a call makes of a step. It says whether it was accepted if it can be refused. -/
def perform (s : Step) : NoteCall → Option Bool × Step
  | .add note velocity => outcome s (s.addNote? note velocity)
  | .remove note => outcome s (s.removeNote? note)
  | .toggle note velocity => outcome s (s.toggleNote? note velocity)
  | .setChord notes velocities fallback => (none, s.setChord notes velocities fallback)
  | .setVelocity place velocity => (none, s.setVelocity place velocity)
  | .clear => (none, s.clearNotes)

/-- What calls in turn make of a step. -/
def performAll (s : Step) (calls : List NoteCall) : Step :=
  calls.foldl (fun s call => (s.perform call).2) s

end Step

/-! ## Pairs -/

/-- A chord as one list of notes with their velocities, in the order in which they came in. -/
abbrev Pairs := List (Nat × Nat)

namespace Pairs

/-- The notes of the pairs. -/
def notes (m : Pairs) : List Nat :=
  m.map Prod.fst

/-- The velocities of the pairs. -/
def velocities (m : Pairs) : List Nat :=
  m.map Prod.snd

/-- The nearest number from 1 to 127. -/
def sounding (velocity : Nat) : Nat :=
  max 1 (min velocity 127)

/-- Appends a pair if its note is in range and new and fewer than seven pairs are held. -/
def add? (m : Pairs) (note velocity : Nat) : Option Pairs :=
  if note ≤ 127 ∧ note ∉ m.notes ∧ m.length < 7 then some (m ++ [(note, sounding velocity)])
  else none

/-- Takes the pair of a note out. -/
def remove? (m : Pairs) (note : Nat) : Option Pairs :=
  if note ∈ m.notes then some (m.filter fun p => p.1 ≠ note) else none

/-- Takes the pair of a note out if there is one, and adds one otherwise. -/
def toggle? (m : Pairs) (note velocity : Nat) : Option Pairs :=
  if note ∈ m.notes then m.remove? note else m.add? note velocity

/-- Adds the notes of a list in turn, each with the velocity at its own place or, where there is
none, with the fallback. -/
def ofLists (notes velocities : List Nat) (fallback : Nat) : Pairs :=
  notes.zipIdx.foldl
    (fun m (note, place) => (m.add? note (velocities[place]?.getD fallback)).getD m) []

/-- Changes the velocity of the pair at a place if there is one. -/
def setVelocity (m : Pairs) (place velocity : Nat) : Pairs :=
  match m[place]? with
  | some p => m.set place (p.1, sounding velocity)
  | none => m

/-- What a call makes of pairs. It says whether it was accepted if it can be refused. -/
def perform (m : Pairs) : NoteCall → Option Bool × Pairs
  | .add note velocity => outcome m (m.add? note velocity)
  | .remove note => outcome m (m.remove? note)
  | .toggle note velocity => outcome m (m.toggle? note velocity)
  | .setChord notes velocities fallback => (none, ofLists notes velocities fallback)
  | .setVelocity place velocity => (none, m.setVelocity place velocity)
  | .clear => (none, [])

/-- What calls in turn make of pairs. -/
def performAll (m : Pairs) (calls : List NoteCall) : Pairs :=
  calls.foldl (fun m call => (m.perform call).2) m

/-- The two lists of a chord. -/
def toChord (m : Pairs) : Chord :=
  { notes := m.notes, velocities := m.velocities }

/-- The notes of a chord with the velocities at the same places. -/
def ofChord (c : Chord) : Pairs :=
  c.notes.zip c.velocities

/-- A chord and its pairs are the same thing, as it has as many velocities as notes. -/
theorem toChord_ofChord {c : Chord} (h : c.WellFormed) : (ofChord c).toChord = c := by
  have hnotes : (ofChord c).notes = c.notes := List.map_fst_zip h.parallel.ge
  have hvelocities : (ofChord c).velocities = c.velocities := List.map_snd_zip h.parallel.le
  rw [toChord, hnotes, hvelocities]

/-! ## The same on both sides -/

/-- Both sides move velocities into range in the same way. -/
theorem clampVelocity_eq_sounding (velocity : Nat) :
    Chord.clampVelocity velocity = sounding velocity := by
  unfold Chord.clampVelocity sounding
  omega

/-- Both sides admit the same notes, and append them. -/
theorem toChord_add? (m : Pairs) (note velocity : Nat) :
    m.toChord.add? note velocity = (m.add? note velocity).map toChord := by
  have hlength : m.notes.length = m.length := List.length_map _
  by_cases h : note ≤ 127 ∧ note ∉ m.notes ∧ m.length < 7
  · have hadmitted : ¬ (127 < note ∨ note ∈ m.toChord.notes ∨
        Chord.capacity ≤ m.toChord.notes.length) := by
      simp only [toChord, hlength, Chord.capacity, not_or, Nat.not_lt, Nat.not_le]
      exact h
    rw [Chord.add?, if_neg hadmitted, add?, if_pos h, clampVelocity_eq_sounding]
    simp [toChord, notes, velocities]
  · have hrefused : 127 < note ∨ note ∈ m.toChord.notes ∨
        Chord.capacity ≤ m.toChord.notes.length := by
      simp only [toChord, hlength, Chord.capacity]
      by_contra hnone
      simp only [not_or, Nat.not_lt, Nat.not_le] at hnone
      exact h hnone
    rw [Chord.add?, if_pos hrefused, add?, if_neg h]
    rfl

/-- Both sides pass over the notes that they do not admit. -/
theorem toChord_add (m : Pairs) (note velocity : Nat) :
    m.toChord.add note velocity = ((m.add? note velocity).getD m).toChord := by
  rw [Chord.add, toChord_add?]
  cases m.add? note velocity <;> rfl

/-- The first place of a note is that of its pair, as no two pairs have the same note. -/
theorem eraseIdx_idxOf {m : Pairs} {note : Nat} (hdistinct : m.notes.Nodup)
    (hheld : note ∈ m.notes) :
    m.eraseIdx (m.notes.idxOf note) = m.filter fun p => p.1 ≠ note := by
  induction m with
  | nil => exact absurd hheld List.not_mem_nil
  | cons p m ih =>
    have hnotes : notes (p :: m) = p.1 :: notes m := rfl
    rw [hnotes, List.nodup_cons] at hdistinct
    rw [hnotes, List.mem_cons] at hheld
    rw [hnotes]
    by_cases hp : p.1 = note
    · -- The notes behind are others.
      have hrest : m.filter (fun q => q.1 ≠ note) = m := by
        rw [List.filter_eq_self]
        intro q hq
        have hne : q.1 ≠ note := by
          rintro rfl
          exact hdistinct.1 (hp ▸ List.mem_map_of_mem hq)
        simpa using hne
      rw [List.filter_cons, if_neg (by simp [hp]), hrest, hp, List.idxOf_cons_self,
        List.eraseIdx_cons_zero]
    · have hbehind : note ∈ notes m := hheld.resolve_left (Ne.symm hp)
      rw [List.filter_cons, if_pos (by simp [hp]), List.idxOf_cons_ne _ hp,
        List.eraseIdx_cons_succ, ih hdistinct.2 hbehind]

/-- Both sides take out the same note, with its velocity. -/
theorem toChord_remove? {m : Pairs} (hdistinct : m.notes.Nodup) (note : Nat) :
    m.toChord.remove? note = (m.remove? note).map toChord := by
  by_cases hheld : note ∈ m.notes
  · -- The chord takes out a place in both lists, the pairs take out all pairs of the note.
    have herase := eraseIdx_idxOf hdistinct hheld
    have hchord : note ∈ m.toChord.notes := hheld
    rw [Chord.remove?, if_pos hchord, remove?, if_pos hheld, Option.map_some, ← herase]
    simp only [toChord, notes, velocities, List.eraseIdx_map]
  · have hchord : note ∉ m.toChord.notes := hheld
    rw [Chord.remove?, if_neg hchord, remove?, if_neg hheld]
    rfl

/-- Both sides toggle a note in the same way. -/
theorem toChord_toggle? {m : Pairs} (hdistinct : m.notes.Nodup) (note velocity : Nat) :
    m.toChord.toggle? note velocity = (m.toggle? note velocity).map toChord := by
  rw [Chord.toggle?, toChord_remove? hdistinct, toChord_add?, toggle?, remove?]
  split
  · rfl
  · cases m.add? note velocity <;> rfl

/-- A chord that is made from lists is made from the pairs at the same places. -/
theorem toChord_ofLists (notes velocities : List Nat) (fallback : Nat) :
    Chord.ofLists notes velocities fallback = (ofLists notes velocities fallback).toChord := by
  -- Both sides are built up from the front, so the induction takes the last note off.
  induction notes using List.reverseRecOn with
  | nil => rfl
  | append_singleton notes note ih =>
    rw [Chord.ofLists_concat, ih, toChord_add, ofLists, ofLists, List.zipIdx_append,
      List.foldl_append, Nat.zero_add]
    rfl

/-- Both sides change the velocity at a place. -/
theorem toChord_setVelocity (m : Pairs) (place velocity : Nat) :
    m.toChord.setVelocity place velocity = (m.setVelocity place velocity).toChord := by
  rw [Chord.setVelocity, clampVelocity_eq_sounding, setVelocity]
  cases hp : m[place]? with
  | none =>
    -- There is no such place on either side.
    have hend : m.velocities.length ≤ place := by
      rw [velocities, List.length_map]
      exact List.getElem?_eq_none_iff.1 hp
    simp only [toChord, List.set_eq_of_length_le hend]
  | some p =>
    -- The note at the place is put back.
    have hsame : m.notes.set place p.1 = m.notes := by
      rcases List.getElem?_eq_some_iff.1 hp with ⟨hplace, rfl⟩
      rw [notes, ← List.map_set, List.set_getElem_self]
    simp only [toChord, notes, velocities, List.map_set] at hsame ⊢
    rw [hsame]

end Pairs

/-! ## Calls -/

/-- A step goes with pairs: it is a step as it was before, with the pairs for its chord. -/
structure Follows (start s : Step) (m : Pairs) : Prop where
  eq : s = { start with chord := m.toChord }
  wellFormed : m.toChord.WellFormed

namespace Follows

variable {start s : Step} {m : Pairs}

/-- A step goes with the pairs of its own chord. -/
theorem ofStep (h : start.chord.WellFormed) : Follows start start (Pairs.ofChord start.chord) := by
  have hchord := Pairs.toChord_ofChord h
  refine ⟨?_, hchord.symm ▸ h⟩
  rw [hchord]

theorem chord (h : Follows start s m) : s.chord = m.toChord :=
  congrArg Step.chord h.eq

theorem distinct (h : Follows start s m) : m.notes.Nodup :=
  h.wellFormed.distinct

/-- Other pairs may take the place of those that a step goes with. -/
theorem replace (h : Follows start s m) {m' : Pairs} (hm' : m'.toChord.WellFormed) :
    Follows start { s with chord := m'.toChord } m' := by
  refine ⟨?_, hm'⟩
  rw [h.eq]

/-- If chord and pairs come to the same, or are both refused, step and pairs still go together. -/
theorem outcome (h : Follows start s m) {chord? : Option Chord} {new? : Option Pairs}
    (hsame : chord? = new?.map Pairs.toChord) (hnew : ∀ c ∈ chord?, c.WellFormed) :
    (NoteCall.outcome s (chord?.map fun chord => { s with chord })).1 =
        (NoteCall.outcome m new?).1 ∧
      Follows start (NoteCall.outcome s (chord?.map fun chord => { s with chord })).2
        (NoteCall.outcome m new?).2 := by
  subst hsame
  cases new? with
  | none => exact ⟨rfl, h⟩
  | some m' => exact ⟨rfl, h.replace (hnew m'.toChord rfl)⟩

/-- A call answers the same for a step and for its pairs, and afterwards they still go together. -/
theorem perform (h : Follows start s m) (call : NoteCall) :
    (s.perform call).1 = (m.perform call).1 ∧
      Follows start (s.perform call).2 (m.perform call).2 := by
  have hchord := h.chord
  have hwf : s.chord.WellFormed := hchord ▸ h.wellFormed
  cases call with
  | add note velocity =>
    apply h.outcome
    · rw [hchord, Pairs.toChord_add?]
    · exact fun c hc => Chord.add?_wellFormed hwf hc
  | remove note =>
    apply h.outcome
    · rw [hchord, Pairs.toChord_remove? h.distinct]
    · exact fun c hc => Chord.remove?_wellFormed hwf hc
  | toggle note velocity =>
    apply h.outcome
    · rw [hchord, Pairs.toChord_toggle? h.distinct]
    · exact fun c hc => Chord.toggle?_wellFormed hwf hc
  | setChord notes velocities fallback =>
    have hlists := Pairs.toChord_ofLists notes velocities fallback
    refine ⟨rfl, ?_⟩
    simp only [Step.perform, Step.setChord, hlists]
    exact h.replace (hlists ▸ Chord.ofLists_wellFormed notes velocities fallback)
  | setVelocity place velocity =>
    have hset := Pairs.toChord_setVelocity m place velocity
    refine ⟨rfl, ?_⟩
    simp only [Step.perform, Step.setVelocity, hchord, hset]
    exact h.replace (hset ▸ Chord.setVelocity_wellFormed h.wellFormed place velocity)
  | clear =>
    have hempty : (Pairs.toChord []).WellFormed := Chord.wellFormed_empty
    exact ⟨rfl, h.replace hempty⟩

/-- Whatever calls come, step and pairs go together afterwards. -/
theorem performAll (calls : List NoteCall) :
    ∀ {s : Step} {m : Pairs}, Follows start s m →
      Follows start (s.performAll calls) (m.performAll calls) := by
  induction calls with
  | nil => exact fun h => h
  | cons call calls ih => exact fun h => ih (h.perform call).2

end Follows

/-! ## Accepted calls -/

namespace Chord

variable {c c' : Chord} {note velocity : Nat}

/-- A chord that takes up a note has one more. -/
theorem length_notes_of_add? (h : c.add? note velocity = some c') :
    c'.notes.length = c.notes.length + 1 := by
  unfold add? at h
  split at h
  · cases h
  · cases h
    exact List.length_append

/-- A chord that gives up a note has one less. -/
theorem length_notes_of_remove? (h : c.remove? note = some c') :
    c'.notes.length + 1 = c.notes.length := by
  unfold remove? at h
  split at h
  · rename_i hheld
    have hplace : c.notes.idxOf note < c.notes.length := List.idxOf_lt_length_of_mem hheld
    cases h
    rw [List.length_eraseIdx_of_lt hplace]
    omega
  · cases h

/-- Toggling a note changes how many there are. -/
theorem length_notes_of_toggle? (h : c.toggle? note velocity = some c') :
    c'.notes.length ≠ c.notes.length := by
  unfold toggle? at h
  cases hremove : c.remove? note with
  | none =>
    rw [hremove] at h
    have hadd := length_notes_of_add? h
    omega
  | some c'' =>
    rw [hremove] at h
    cases h
    have hless := length_notes_of_remove? hremove
    omega

end Chord

namespace Step

/-- A call that may be refused is accepted just if it changes the chord, where a chord that would
replace it has another number of notes. -/
theorem accepted_iff_of_length {s : Step} {chord? : Option Chord} {accepted : Bool}
    (hnew : ∀ c, chord? = some c → c.notes.length ≠ s.chord.notes.length)
    (h : (outcome s (chord?.map fun chord => { s with chord })).1 = some accepted) :
    accepted = true ↔
      (outcome s (chord?.map fun chord => { s with chord })).2.chord ≠ s.chord := by
  cases chord? with
  | none =>
    cases h
    simp [outcome]
  | some c =>
    cases h
    have hne : c ≠ s.chord := fun heq => hnew c rfl (congrArg (·.notes.length) heq)
    simpa [outcome] using hne

/-- A call that may be refused is accepted just if it changes the chord. -/
theorem accepted_iff (s : Step) (call : NoteCall) {accepted : Bool}
    (h : (s.perform call).1 = some accepted) :
    accepted = true ↔ (s.perform call).2.chord ≠ s.chord := by
  cases call with
  | add note velocity =>
    apply accepted_iff_of_length _ h
    intro c hc
    have hlength := Chord.length_notes_of_add? hc
    omega
  | remove note =>
    apply accepted_iff_of_length _ h
    intro c hc
    have hlength := Chord.length_notes_of_remove? hc
    omega
  | toggle note velocity =>
    exact accepted_iff_of_length (fun c hc => Chord.length_notes_of_toggle? hc) h
  | setChord notes velocities fallback => cases h
  | setVelocity place velocity => cases h
  | clear => cases h

/-- Whatever calls come, the notes and velocities of a step, which is new or was read from a
document, are those of the pairs to which the same is done; nothing else of the step is touched.
There are as many velocities as notes, seven at most, and all are in range. The next call answers
what it answers for the pairs, and it is accepted just if it changes the chord. -/
theorem chord_follows_pairs {start : Step} (hstart : start = {} ∨ ∃ d, start = Step.ofDocument d)
    (calls : List NoteCall) :
    let s := start.performAll calls
    let m := (Pairs.ofChord start.chord).performAll calls
    (s.chord.notes = m.notes ∧ s.chord.velocities = m.velocities) ∧
      s.chord.WellFormed ∧
      s = { start with chord := s.chord } ∧
      ∀ call, (s.perform call).1 = (m.perform call).1 ∧
        ∀ accepted, (s.perform call).1 = some accepted →
          (accepted = true ↔ (s.perform call).2.chord ≠ s.chord) := by
  intro s m
  have hwf : start.chord.WellFormed := by
    rcases hstart with rfl | ⟨d, rfl⟩
    · exact Chord.wellFormed_empty
    · exact (Step.ofDocument_wellFormed d).chord
  have hfollows : Follows start s m := (Follows.ofStep hwf).performAll calls
  have hchord : s.chord = m.toChord := hfollows.chord
  refine ⟨?_, hchord ▸ hfollows.wellFormed, hchord ▸ hfollows.eq, ?_⟩
  · rw [hchord]
    exact ⟨rfl, rfl⟩
  · intro call
    exact ⟨(hfollows.perform call).1, fun _ => s.accepted_iff call⟩

/-- A stored step whose second note is out of range. -/
def outOfRange : Document :=
  .obj [("n", .arr [.int 60, .int 300, .int 64]), ("v", .arr [.int 10, .int 200, .int 0])]

/-- One note goes and comes back behind the others. A call that is refused for its range moves no
velocity. -/
theorem chord_follows_pairs_stored :
    let start := Step.ofDocument outOfRange
    let s := start.performAll
      [.toggle 60 1, .add 67 0, .add 128 5, .setVelocity 1 200, .setVelocity 2 9, .toggle 60 90]
    (start = {} ∨ ∃ d, start = Step.ofDocument d) ∧ s.chord.notes = [64, 67, 60] ∧
      s.chord.velocities = [127, 127, 90] ∧ (s.perform (.remove 67)).1 = some true ∧
      (s.perform (.add 67 1)).1 = some false := by
  intro start s
  have hstart : start = {} ∨ ∃ d, start = Step.ofDocument d := .inr ⟨_, rfl⟩
  have hpairs : (Pairs.ofChord start.chord).performAll
      [.toggle 60 1, .add 67 0, .add 128 5, .setVelocity 1 200, .setVelocity 2 9, .toggle 60 90] =
        [(64, 127), (67, 127), (60, 90)] := by decide +kernel
  have hfollows := chord_follows_pairs hstart
    [.toggle 60 1, .add 67 0, .add 128 5, .setVelocity 1 200, .setVelocity 2 9, .toggle 60 90]
  rw [hpairs] at hfollows
  exact ⟨hstart, hfollows.1.1, hfollows.1.2, (hfollows.2.2.2 _).1, (hfollows.2.2.2 _).1⟩

end Step

end Groovebox
