import Mathlib.Tactic
import Groovebox.Generator.Audition
import Groovebox.Proofs.Editing
import Groovebox.Proofs.Generator.Notes
import Groovebox.Proofs.Stored.RoundTrip
/-! # Generated patterns

The steps of a generated pattern, for any settings, style, hint and state of the random generator.

* `Generator.Filled`: what a step is that the generator has filled.
* `Generator.fillSlots_steps`: the chosen slots are filled and the others left alone.
* `Generator.countP_sounding`: as many slots sound as were chosen.
* `Generator.steps_musical`: all of it for a whole pattern.
-/

namespace Groovebox.Generator

/-! ## One step -/

/-- A step that the generator has filled: its notes are picked from the scale, or are the note of
last resort if the scale has none, each has a velocity, and nothing else is set. -/
structure Filled (voices : Nat) (valid : List Nat) (s : Step) : Prop where
  picked : valid ≠ [] → Picked voices valid s.chord.notes
  fallback : valid = [] → s.chord.notes = [fallbackNote]
  parallel : s.chord.velocities.length = s.chord.notes.length
  velocities : ∀ v ∈ s.chord.velocities, 1 ≤ v ∧ v ≤ 127
  plain : s = { chord := s.chord }

/-- The notes and velocities that are drawn for a step make a chord as they are. -/
theorem filled_of_drawn {voices : Nat} {valid notes velocities : List Nat} (hvoices : voices ≤ 7)
    (hvalid : ∀ n ∈ valid, n ≤ 127) (hpicked : valid ≠ [] → Picked voices valid notes)
    (hfallback : valid = [] → notes = [fallbackNote])
    (hlength : velocities.length = notes.length) (hrange : ∀ v ∈ velocities, 1 ≤ v ∧ v ≤ 127) :
    Filled voices valid (({} : Step).setChord notes velocities baseVelocity) := by
  have hwell : ({ notes, velocities } : Chord).WellFormed := by
    by_cases hnone : valid = []
    · rw [hfallback hnone] at hlength ⊢
      refine ⟨hlength, ?_, List.nodup_singleton fallbackNote, ?_, hrange⟩
      · show 1 ≤ Chord.capacity
        decide
      · intro n hn
        have hlast : n = fallbackNote := List.mem_singleton.1 hn
        rw [hlast]
        decide
    · have hnotes := hpicked hnone
      refine ⟨hlength, ?_, ?_, ?_, hrange⟩
      · show notes.length ≤ 7
        rw [hnotes.length_eq]
        omega
      · exact hnotes.ascending.imp fun hlt => hlt.ne
      · exact fun n hn => hvalid n (hnotes.mem n hn)
  have hchord : Chord.ofLists notes velocities baseVelocity = { notes, velocities } :=
    Chord.ofLists_self hwell baseVelocity
  rw [Step.setChord, hchord]
  exact ⟨hpicked, hfallback, hlength, hrange, rfl⟩

/-- A step that was filled sounds, as it has a note of the scale or the one of last resort. -/
theorem Filled.sounding {voices : Nat} {valid : List Nat} {s : Step} (h : Filled voices valid s)
    (hvoices : 1 ≤ voices) : s.chord.isEmpty = false := by
  have hpos : 0 < s.chord.notes.length := by
    by_cases hnone : valid = []
    · rw [h.fallback hnone]
      decide
    · have hvalid : 0 < valid.length := List.length_pos_iff.2 hnone
      rw [(h.picked hnone).length_eq]
      omega
  rw [Chord.isEmpty, List.isEmpty_eq_false_iff]
  exact List.length_pos_iff.1 hpos

/-! ## All slots -/

/-- Every chosen slot is filled, and what is at the others stays. -/
theorem fillSlots_steps {p : GeneratorParams} (hvoices : p.voices ≤ 7) (style : Style)
    {valid : List Nat} (hascending : valid.Pairwise (· < ·)) (hvalid : ∀ n ∈ valid, n ≤ 127)
    (slots : List Nat) :
    ∀ (steps : Bank Step 64) (g : Random), slots.Nodup → ∀ i : Fin 64,
      (i.val ∈ slots → Filled p.voices valid
        (Bank.get (fillSlots p style valid slots steps g).1 i)) ∧
      (i.val ∉ slots → Bank.get (fillSlots p style valid slots steps g).1 i = steps.get i) := by
  induction slots with
  | nil =>
    intro steps g _ i
    exact ⟨fun hi => absurd hi List.not_mem_nil, fun _ => rfl⟩
  | cons slot rest ih =>
    intro steps g hdistinct i
    rcases List.nodup_cons.1 hdistinct with ⟨hfresh, hrest⟩
    rw [fillSlots]
    rcases notesFor_picked hascending slot p.length p.voices style p.variation g with
      ⟨hfallback, hpicked⟩
    rcases velocitiesFor_range (notesFor slot p.length p.voices valid style p.variation g).1.length
      slot p.length style p.variation (notesFor slot p.length p.voices valid style p.variation g).2
      with ⟨hlength, hrange⟩
    have hfilled := filled_of_drawn hvoices hvalid hpicked hfallback hlength hrange
    constructor
    · intro hi
      rcases List.mem_cons.1 hi with hslot | hlater
      · -- The slot is filled now, and no later slot is the same.
        subst hslot
        rw [(ih _ _ hrest i).2 hfresh, Bank.get]
        simp only [Vector.getElem_setIfInBounds_self]
        exact hfilled
      · exact (ih _ _ hrest i).1 hlater
    · intro hi
      rw [List.mem_cons, not_or] at hi
      rw [(ih _ _ hrest i).2 hi.2, Bank.get, Bank.get]
      exact Vector.getElem_setIfInBounds_ne i.isLt (Ne.symm hi.1)

/-- As many steps sound as there are slots, if those are the ones that sound. -/
theorem countP_sounding {steps : Bank Step 64} {slots : List Nat} (hdistinct : slots.Nodup)
    (hlt : ∀ i ∈ slots, i < 64)
    (hsounds : ∀ i : Fin 64, (steps.get i).chord.isEmpty = false ↔ i.val ∈ slots) :
    steps.toList.countP (fun s => !s.chord.isEmpty) = slots.length := by
  have hplaces : steps.toList = (List.finRange 64).map steps.get := by
    apply List.ext_getElem
    · simp
    · intro i _ _
      simp [Bank.get]
  have hsounding : List.Perm (((List.finRange 64).filter fun i =>
      !(steps.get i).chord.isEmpty).map Fin.val) slots := by
    rw [List.perm_ext_iff_of_nodup _ hdistinct]
    · intro i
      simp only [List.mem_map, List.mem_filter, List.mem_finRange, true_and, Bool.not_eq_true',
        hsounds]
      constructor
      · rintro ⟨j, hj, rfl⟩
        exact hj
      · intro hi
        exact ⟨⟨i, hlt i hi⟩, hi, rfl⟩
    · exact ((List.nodup_finRange 64).filter _).map Fin.val_injective
  rw [hplaces, List.countP_map, List.countP_eq_length_filter, ← hsounding.length_eq,
    List.length_map]
  rfl

/-! ## The whole pattern -/

/-- A generated pattern, whatever the settings, the style, the hint and the draws are.

No step from the chosen length on is touched. Of the others as many sound as density and length ask
for; clusters may run out of slots, but fill one at least. A step that sounds has as many different
notes of the scale and the octaves as there are voices, in ascending order, each with a velocity. -/
theorem steps_musical (params : GeneratorParams) (style : Style) (hint : Option Scale)
    (g : Random) :
    let p := params.clamped
    let root := p.resolveRoot hint
    let intervals := p.scale.intervals hint
    let valid := validNotes intervals root p.octave p.range
    let steps := (Generator.steps params style hint g).1
    let sounding := steps.toList.countP fun s => !s.chord.isEmpty
    let most := min (noteCount p.length p.density) p.length
    (∀ i : Fin 64, p.length ≤ i → steps.get i = {}) ∧
      (∀ i : Fin 64, steps.get i = {} ∨
        (steps.get i).chord.isEmpty = false ∧ Filled p.voices valid (steps.get i)) ∧
      (style ≠ .clustered → sounding = most) ∧
      (1 ≤ sounding ∧ sounding ≤ most) ∧
      ∀ n, n ∈ valid ↔
        ((p.octave + 1) * 12 + root ≤ n ∧ n < (p.octave + 1) * 12 + root + p.range * 12) ∧
          n ≤ 127 ∧ (n - root) % 12 ∈ intervals := by
  intro p root intervals valid steps sounding most
  have hlength : 1 ≤ p.length ∧ p.length ≤ 64 := params.clamped_length
  have hvoices : 1 ≤ p.voices ∧ p.voices ≤ 7 := params.clamped_voices
  have hvalid (n : Nat) (hn : n ∈ valid) : n ≤ 127 := (mem_validNotes_iff.1 hn).2.1
  obtain ⟨hchosen, hexact, hpos, hfew⟩ :=
    slots_chosen hlength.1 p.density style p.variation g
  generalize hdrawn : slots p.length p.density style p.variation g = drawn at *
  -- The slots are drawn within the length, so none of them is cut off.
  have hall : drawn.1.filter (· < p.length) = drawn.1 := by
    rw [List.filter_eq_self]
    intro i hi
    exact decide_eq_true (hchosen.lt i hi)
  have hdistinct : drawn.1.Nodup := hchosen.ascending.imp fun hlt => hlt.ne
  have hrun : steps = (fillSlots p style valid drawn.1 (Vector.replicate 64 {}) drawn.2).1 := by
    show (Generator.steps params style hint g).1 = _
    rw [Generator.steps]
    simp only [p] at hdrawn hall
    simp only [hdrawn, hall]
    rfl
  -- What was drawn is filled, and all else is as in an empty pattern.
  have hsteps (i : Fin 64) : (i.val ∈ drawn.1 → Filled p.voices valid (steps.get i)) ∧
      (i.val ∉ drawn.1 → steps.get i = {}) := by
    rcases fillSlots_steps hvoices.2 style (validNotes_ascending _ _ _ _) hvalid drawn.1
      (Vector.replicate 64 {}) drawn.2 hdistinct i with ⟨hin, hout⟩
    rw [hrun]
    refine ⟨hin, ?_⟩
    intro hi
    rw [hout hi, Bank.get]
    exact Vector.getElem_replicate i.isLt
  -- So a step sounds just if it was drawn, and the drawn ones can be counted.
  have hsounds (i : Fin 64) : (steps.get i).chord.isEmpty = false ↔ i.val ∈ drawn.1 := by
    constructor
    · intro hsound
      by_contra hi
      rw [(hsteps i).2 hi] at hsound
      cases hsound
    · exact fun hi => ((hsteps i).1 hi).sounding hvoices.1
  have hcount : sounding = drawn.1.length := by
    apply countP_sounding hdistinct _ hsounds
    intro i hi
    have hlt := hchosen.lt i hi
    omega
  rw [hcount]
  refine ⟨?_, ?_, hexact, ⟨hpos, hfew⟩, fun n => mem_validNotes_iff⟩
  · intro i hi
    apply (hsteps i).2
    intro hmem
    have hlt := hchosen.lt i hmem
    omega
  · intro i
    by_cases hi : i.val ∈ drawn.1
    · exact .inr ⟨(hsounds i).2 hi, (hsteps i).1 hi⟩
    · exact .inl ((hsteps i).2 hi)

end Groovebox.Generator
