import Mathlib.Tactic
import Groovebox.Generator.Notes
import Groovebox.Proofs.Generator.Slots
/-! # The notes of a generated step

A step gets as many different notes of the scale as it has voices, or all of the scale if there are
fewer, wherever the style puts the centre and however far each pick is shifted from it.

* `Generator.mem_validNotes_iff`: the notes to pick from are those of the scale in the octaves.
* `Generator.exists_nearestFree?`: while not all places are taken, the search outward ends at a free
  one.
* `Generator.pickPlaces_picked`: so no pick is lost.
* `Generator.notesFor_picked`, `Generator.velocitiesFor_range`: the notes of a step and how hard
  they are struck.
-/

namespace Groovebox.Generator

/-! ## Notes to pick from -/

theorem validNotes_ascending (intervals : List Nat) (root octave range : Nat) :
    (validNotes intervals root octave range).Pairwise (· < ·) :=
  (List.pairwise_lt_range' 1).filter _

/-- The notes to pick from are those of the scale, within the range, that can be played. -/
theorem mem_validNotes_iff {intervals : List Nat} {root octave range n : Nat} :
    n ∈ validNotes intervals root octave range ↔
      ((octave + 1) * 12 + root ≤ n ∧ n < (octave + 1) * 12 + root + range * 12) ∧ n ≤ 127 ∧
        (n - root) % 12 ∈ intervals := by
  unfold validNotes
  simp only [List.mem_filter, List.mem_range'_1, List.contains_iff_mem]
  constructor
  · rintro ⟨hoctaves, hscale⟩
    refine ⟨?_, ?_, hscale⟩
    · omega
    · omega
  · rintro ⟨hoctaves, hnote, hscale⟩
    refine ⟨?_, hscale⟩
    omega

/-! ## The search for a free place -/

/-- A place is free if it is one of the places and was not taken. -/
theorem isFree_iff {taken : List Nat} {last : Nat} {place : Int} :
    isFree taken last place = true ↔
      (0 ≤ place ∧ place ≤ last) ∧ place.toNat ∉ taken := by
  unfold isFree
  simp [and_assoc]

/-- Where fewer places are taken than there are, one is free. -/
theorem exists_free {taken : List Nat} {last : Nat} (hroom : taken.length ≤ last) :
    ∃ p ≤ last, p ∉ taken := by
  by_contra hnone
  have hall : List.range (last + 1) ⊆ taken := by
    intro p hp
    by_contra hfree
    rw [List.mem_range] at hp
    exact hnone ⟨p, Nat.le_of_lt_succ hp, hfree⟩
  have hlength := (List.nodup_range.subperm hall).length_le
  rw [List.length_range] at hlength
  omega

/-- The place that the search ends at is free. -/
theorem nearestFree?_free {taken : List Nat} {last : Nat} {start : Int} {p : Nat}
    (h : nearestFree? taken last start = some p) : p ≤ last ∧ p ∉ taken := by
  unfold nearestFree? at h
  rcases List.exists_of_findSome?_eq_some h with ⟨distance, -, hfound⟩
  split at hfound
  · rename_i hup
    cases hfound
    rw [isFree_iff] at hup
    refine ⟨?_, hup.2⟩
    omega
  · split at hfound
    · rename_i hdown
      cases hfound
      rw [isFree_iff] at hdown
      refine ⟨?_, hdown.2⟩
      omega
    · cases hfound

/-- The search reaches every place from every start, so it finds one while one is free. -/
theorem exists_nearestFree? {taken : List Nat} {last : Nat} {start : Int}
    (hroom : taken.length ≤ last) (hlow : 0 ≤ start) (hhigh : start ≤ last) :
    ∃ p, nearestFree? taken last start = some p := by
  rcases exists_free hroom with ⟨p, hp, hfree⟩
  rw [← Option.isSome_iff_exists, nearestFree?, List.findSome?_isSome_iff]
  -- The free place lies above or below the start, at a distance that is tried.
  by_cases hside : start ≤ p
  · refine ⟨((p : Int) - start).toNat, List.mem_range.2 (by omega), ?_⟩
    have hplace : start + (((p : Int) - start).toNat : Int) = p := by omega
    have hup : isFree taken last p = true := by
      rw [isFree_iff]
      refine ⟨by omega, ?_⟩
      simpa using hfree
    rw [hplace, if_pos hup]
    rfl
  · refine ⟨(start - (p : Int)).toNat, List.mem_range.2 (by omega), ?_⟩
    have hplace : start - ((start - (p : Int)).toNat : Int) = p := by omega
    have hdown : isFree taken last p = true := by
      rw [isFree_iff]
      refine ⟨by omega, ?_⟩
      simpa using hfree
    rw [hplace, if_pos hdown]
    split <;> rfl

/-! ## Picking -/

/-- Different places between 0 and `last`, as many as asked for or all that there are. -/
structure Places (last count : Nat) (places : List Nat) : Prop where
  distinct : places.Nodup
  le : ∀ p ∈ places, p ≤ last
  length_eq : places.length = min count (last + 1)

/-- Each turn takes one more place, different from all before it, until all are taken. -/
theorem pickPlaces_picked {last : Nat} (centre : Int) (count : Nat) :
    ∀ {taken : List Nat} (g : Random), Places last taken.length taken →
      Places last (taken.length + count) (pickPlaces last centre taken count g).1 := by
  induction count with
  | zero => exact fun g h => h
  | succ count ih =>
    intro taken g h
    rw [pickPlaces]
    split
    · -- All places are taken already.
      rename_i hfull
      have hlength := h.length_eq
      refine ⟨h.distinct, h.le, ?_⟩
      show taken.length = _
      omega
    · rename_i hroom
      have hlow : 0 ≤ min (max (centre + (jitter g).1) 0) (last : Int) := by omega
      have hhigh : min (max (centre + (jitter g).1) 0) (last : Int) ≤ last := by omega
      rcases exists_nearestFree? (Nat.le_of_not_lt hroom) hlow hhigh with ⟨p, hp⟩
      rcases nearestFree?_free hp with ⟨hle, hfree⟩
      have hnext : Places last (p :: taken).length (p :: taken) := by
        refine ⟨List.nodup_cons.2 ⟨hfree, h.distinct⟩, ?_, ?_⟩
        · intro q hq
          rcases List.mem_cons.1 hq with rfl | hq
          · exact hle
          · exact h.le q hq
        · rw [List.length_cons]
          omega
      simp only [hp]
      have hrest := ih (jitter g).2 hnext
      rw [List.length_cons] at hrest
      have hcount : taken.length + 1 + count = taken.length + (count + 1) := by omega
      exact hcount ▸ hrest

/-- Different notes of a scale in ascending order, as many as there are voices or all of the
scale. -/
structure Picked (voices : Nat) (valid notes : List Nat) : Prop where
  length_eq : notes.length = min voices valid.length
  ascending : notes.Pairwise (· < ·)
  mem : ∀ n ∈ notes, n ∈ valid

/-- Notes at different places of an ascending scale are different. -/
theorem nodup_filterMap_places {valid places : List Nat} (hvalid : valid.Pairwise (· < ·))
    (h : places.Nodup) : (places.filterMap (valid[·]?)).Nodup := by
  have hdistinct : valid.Nodup := hvalid.imp fun hlt => hlt.ne
  refine h.filterMap ?_
  intro p q n hp hq
  rcases List.getElem?_eq_some_iff.1 (Option.mem_def.1 hp) with ⟨hpl, hpn⟩
  rcases List.getElem?_eq_some_iff.1 (Option.mem_def.1 hq) with ⟨hql, hqn⟩
  exact (List.Nodup.getElem_inj_iff hdistinct).1 (hpn.trans hqn.symm)

/-- Every place of the scale has a note. -/
theorem length_filterMap_places {valid places : List Nat} (h : ∀ p ∈ places, p < valid.length) :
    (places.filterMap (valid[·]?)).length = places.length := by
  rw [List.length_filterMap_eq_countP, List.countP_eq_length]
  intro p hp
  simp [h p hp]

/-- Notes near a centre are picked from the valid ones, in order and without repetition. -/
theorem notesNear_picked {valid : List Nat} (hvalid : valid.Pairwise (· < ·)) (hne : valid ≠ [])
    (centre voices : Nat) (g : Random) :
    Picked voices valid (notesNear valid centre voices g).1 := by
  have hpos : 0 < valid.length := List.length_pos_iff.2 hne
  have hplaces : Places (valid.length - 1) voices
      (pickPlaces (valid.length - 1) (min centre (valid.length - 1) : Nat) [] voices g).1 := by
    have hstart : Places (valid.length - 1) ([] : List Nat).length [] := by
      refine ⟨List.nodup_nil, ?_, ?_⟩
      · simp
      · simp
    have hpicked := pickPlaces_picked (min centre (valid.length - 1) : Nat) voices g hstart
    rwa [List.length_nil, Nat.zero_add] at hpicked
  have hwithin : ∀ p ∈ (pickPlaces (valid.length - 1) (min centre (valid.length - 1) : Nat) []
      voices g).1, p < valid.length := by
    intro p hp
    have hle := hplaces.le p hp
    omega
  rw [notesNear, if_neg (by simpa using hne)]
  constructor
  · show (List.mergeSort _ _).length = _
    rw [List.length_mergeSort, length_filterMap_places hwithin, hplaces.length_eq]
    omega
  · exact sort_ascending (nodup_filterMap_places hvalid hplaces.distinct)
  · intro n hn
    have hmem := (List.mergeSort_perm _ _).mem_iff.1 hn
    rcases List.mem_filterMap.1 hmem with ⟨p, -, hget⟩
    exact List.mem_of_getElem? hget

/-! ## Notes and velocities of a step -/

/-- The notes of a step come from the scale, or are the one note of last resort for a scale that has
none in range. -/
theorem notesFor_picked {valid : List Nat} (hvalid : valid.Pairwise (· < ·))
    (step length voices : Nat) (style : Style) (variation : Nat) (g : Random) :
    (valid = [] → (notesFor step length voices valid style variation g).1 = [fallbackNote]) ∧
      (valid ≠ [] → Picked voices valid (notesFor step length voices valid style variation g).1) := by
  unfold notesFor
  constructor
  · intro hnone
    rw [hnone]
    rfl
  · intro hne
    rw [if_neg (by simpa using hne)]
    exact notesNear_picked hvalid hne _ voices _

/-- Every generated velocity is from 1 to 127. -/
theorem velocity_range (step length : Nat) (style : Style) (variation : Nat) (g : Random) :
    1 ≤ (velocity step length style variation g).1 ∧
      (velocity step length style variation g).1 ≤ 127 := by
  have hmoved (n : Int) : 1 ≤ (min (max n 1) 127).toNat ∧ (min (max n 1) 127).toNat ≤ 127 := by
    omega
  exact hmoved _

/-- Each note gets a velocity of its own. -/
theorem velocitiesFor_range (count step length : Nat) (style : Style) (variation : Nat) :
    ∀ g : Random, (velocitiesFor count step length style variation g).1.length = count ∧
      ∀ v ∈ (velocitiesFor count step length style variation g).1, 1 ≤ v ∧ v ≤ 127 := by
  induction count with
  | zero =>
    intro g
    refine ⟨rfl, ?_⟩
    intro v hv
    exact absurd hv List.not_mem_nil
  | succ count ih =>
    intro g
    rcases ih (velocity step length style variation g).2 with ⟨hlength, hrange⟩
    refine ⟨?_, ?_⟩
    · exact congrArg Nat.succ hlength
    · intro v hv
      rcases List.mem_cons.1 hv with rfl | hv
      · exact velocity_range step length style variation g
      · exact hrange v hv

end Groovebox.Generator
