import Mathlib.Tactic
import Groovebox.Generator.Slots
import Groovebox.Proofs.Rhythm
/-! # The slots of a generated pattern

Whatever the style and whatever is drawn, the sounding slots are different slots of the pattern in
ascending order, and for all styles but one there are exactly as many as density and length ask for.

* `Random.shuffle_perm`: shuffling only changes the order.
* `Generator.ranked_chosen`, `Generator.scattered_chosen`, `Generator.euclidean_chosen`: these ways
  of placing choose as many slots as asked for, or all.
* `Generator.clusters_clustered`: clusters have one slot at least and not more than asked for.
* `Generator.slots_chosen`: all of them together.
-/

namespace Groovebox

/-! ## Shuffling -/

namespace Random

/-- Swapping two places keeps what is there. -/
theorem swapIfInBounds_perm (xs : Array Nat) (i j : Nat) : (xs.swapIfInBounds i j).Perm xs := by
  unfold Array.swapIfInBounds
  split
  · split
    · exact Array.swap_perm _ _
    · exact Array.Perm.rfl
  · exact Array.Perm.rfl

/-- A shuffle is a sequence of swaps, whatever the draws are. -/
theorem shuffleFrom_perm (todo : Nat) : ∀ (g : Random) (i left chunk : Nat) (xs : Array Nat),
    (g.shuffleFrom todo i left chunk xs).1.Perm xs := by
  induction todo with
  | zero => exact fun _ _ _ _ _ => Array.Perm.rfl
  | succ todo ih =>
    intro g i left chunk xs
    rw [shuffleFrom]
    exact (ih _ _ _ _ _).trans (swapIfInBounds_perm _ _ _)

/-- Shuffling changes the order and nothing else. -/
theorem shuffle_perm (g : Random) (xs : List Nat) : (g.shuffle xs).1.Perm xs := by
  unfold shuffle
  split
  · exact List.Perm.refl xs
  · exact (shuffleFrom_perm _ _ _ _ _ _).toList

end Random

namespace Generator

/-! ## Choices of slots -/

/-- Different slots among the first `length`, in ascending order. -/
structure Chosen (length : Nat) (slots : List Nat) : Prop where
  ascending : slots.Pairwise (· < ·)
  lt : ∀ i ∈ slots, i < length

/-- Different numbers are in strictly ascending order once they are sorted. -/
theorem sort_ascending {numbers : List Nat} (h : numbers.Nodup) :
    (numbers.mergeSort fun i j => decide (i ≤ j)).Pairwise (· < ·) := by
  have hsorted : (numbers.mergeSort fun i j => decide (i ≤ j)).Pairwise (· ≤ ·) :=
    List.sortedLE_mergeSort.pairwise
  have hdistinct : (numbers.mergeSort fun i j => decide (i ≤ j)).Pairwise (· ≠ ·) :=
    (List.mergeSort_perm numbers _).nodup_iff.2 h
  exact (hsorted.and hdistinct).imp fun ⟨hle, hne⟩ => lt_of_le_of_ne hle hne

/-- The first so many slots of the pattern in any order, sorted, are a choice of so many slots. -/
theorem chosen_of_perm {length : Nat} {slots : List Nat} (h : slots.Perm (List.range length))
    (count : Nat) :
    Chosen length ((slots.take count).mergeSort fun i j => decide (i ≤ j)) ∧
      ((slots.take count).mergeSort fun i j => decide (i ≤ j)).length = min count length := by
  have hdistinct : slots.Nodup := h.nodup_iff.2 List.nodup_range
  have hlength : slots.length = length := by
    rw [h.length_eq, List.length_range]
  refine ⟨⟨?_, ?_⟩, ?_⟩
  · exact sort_ascending (hdistinct.sublist (List.take_sublist count slots))
  · intro i hi
    have htaken : i ∈ slots.take count := (List.mergeSort_perm _ _).mem_iff.1 hi
    have hrange : i ∈ List.range length := h.mem_iff.1 (List.mem_of_mem_take htaken)
    exact List.mem_range.1 hrange
  · rw [List.length_mergeSort, List.length_take, hlength]

/-! ## The ways of placing -/

/-- The best slots are as many as asked for, or as there are. -/
theorem ranked_chosen (length count : Nat) (rank : Nat → Nat) :
    Chosen length (ranked length count rank) ∧
      (ranked length count rank).length = min count length :=
  chosen_of_perm (List.mergeSort_perm _ _) count

/-- Slots in random places are as many as asked for, or as there are. -/
theorem scattered_chosen (length count : Nat) (g : Random) :
    Chosen length (scattered length count g).1 ∧
      (scattered length count g).1.length = min count length :=
  chosen_of_perm (g.shuffle_perm (List.range length)) count

/-- The hits of an even rhythm are as many as asked for, or as there are. -/
theorem euclidean_chosen (length count : Nat) (offset : Int) :
    Chosen length (Rhythm.hits (Rhythm.rotate (Rhythm.euclidean count length) offset)) ∧
      (Rhythm.hits (Rhythm.rotate (Rhythm.euclidean count length) offset)).length =
        min count length := by
  have hperm := Rhythm.rotate_perm (Rhythm.euclidean count length) offset
  refine ⟨⟨Rhythm.hits_ascending _, ?_⟩, ?_⟩
  · intro i hi
    have hget := Rhythm.mem_hits_iff.1 hi
    have hlt := (List.getElem?_eq_some_iff.1 hget).1
    rw [hperm.length_eq, Rhythm.length_euclidean] at hlt
    exact hlt
  · rw [Rhythm.length_hits, hperm.count_eq, Rhythm.count_euclidean]

/-- A choice of slots has no more of them than there are. -/
theorem Chosen.length_le {length : Nat} {slots : List Nat} (h : Chosen length slots) :
    slots.length ≤ length := by
  have hdistinct : slots.Nodup := h.ascending.imp fun hlt => hlt.ne
  have hamong : slots ⊆ List.range length := fun i hi => List.mem_range.2 (h.lt i hi)
  have hle := (hdistinct.subperm hamong).length_le
  rwa [List.length_range] at hle

/-- Clusters lie behind the place where they begin, one slot at least is in them, and not more than
asked for. -/
structure Clustered (length todo position : Nat) (slots : List Nat) : Prop where
  chosen : Chosen length slots
  behind : ∀ i ∈ slots, position ≤ i
  few : slots.length ≤ todo
  sounding : 0 < todo → position < length → 0 < slots.length

theorem clusters_clustered (length most todo position : Nat) (g : Random) :
    Clustered length todo position (clusters length most todo position g).1 := by
  fun_induction clusters length most todo position g with
  | case1 todo position g hover =>
    refine ⟨⟨List.Pairwise.nil, ?_⟩, ?_, Nat.zero_le _, ?_⟩
    · simp
    · simp
    · omega
  | case2 todo position g hopen size g₁ hsize run gap g₂ hgap rest g₃ hrest ih =>
    rw [hrest] at ih
    -- A run has one slot at least, since two are drawn, one is asked for and one is left.
    have htwo : 2 ≤ size := by
      have hdrawn : (g.between 2 most).1 = 2 + (g.below (most + 1 - 2)).1 := rfl
      rw [hsize] at hdrawn
      omega
    have hrun : 1 ≤ run ∧ run ≤ todo ∧ position + run ≤ length := by omega
    have hbehind : ∀ i ∈ rest, position + run ≤ i := by
      intro i hi
      have hfar := ih.behind i hi
      omega
    refine ⟨⟨?_, ?_⟩, ?_, ?_, ?_⟩
    · rw [List.pairwise_append]
      refine ⟨List.pairwise_lt_range' 1, ih.chosen.ascending, ?_⟩
      intro i hi j hj
      have hlater := hbehind j hj
      rw [List.mem_range'_1] at hi
      omega
    · intro i hi
      rcases List.mem_append.1 hi with hi | hi
      · rw [List.mem_range'_1] at hi
        omega
      · exact ih.chosen.lt i hi
    · intro i hi
      rcases List.mem_append.1 hi with hi | hi
      · rw [List.mem_range'_1] at hi
        omega
      · have hlater := hbehind i hi
        omega
    · have hfew : rest.length ≤ todo - run := ih.few
      rw [List.length_append, List.length_range']
      omega
    · intro _ _
      rw [List.length_append, List.length_range']
      omega

/-! ## All styles -/

/-- There is one note at least, however low the density is. -/
theorem noteCount_pos (length density : Nat) : 0 < noteCount length density := by
  have hbound : 0 < Word.count64 - 1 := by decide
  exact lt_min (Nat.lt_of_lt_of_le Nat.one_pos (Nat.le_max_right _ 1)) hbound

/-- Of any pattern one slot at least sounds. All styles but the clustered one place as many notes as
asked for, or one on every slot; clusters may run out of slots before. -/
theorem slots_chosen {length : Nat} (hlength : 0 < length) (density : Nat) (style : Style)
    (variation : Nat) (g : Random) :
    Chosen length (slots length density style variation g).1 ∧
      (style ≠ .clustered → (slots length density style variation g).1.length =
        min (noteCount length density) length) ∧
      0 < (slots length density style variation g).1.length ∧
      (slots length density style variation g).1.length ≤
        min (noteCount length density) length := by
  have hcount := noteCount_pos length density
  have hexact {slots : List Nat} (h : Chosen length slots ∧
      slots.length = min (noteCount length density) length) :
      Chosen length slots ∧
        (style ≠ .clustered → slots.length = min (noteCount length density) length) ∧
        0 < slots.length ∧ slots.length ≤ min (noteCount length density) length := by
    refine ⟨h.1, fun _ => h.2, ?_, h.2.le⟩
    rw [h.2]
    omega
  unfold slots
  cases style with
  | euclidean => exact hexact (euclidean_chosen length _ _)
  | pulse => exact hexact (ranked_chosen length _ _)
  | offbeat => exact hexact (ranked_chosen length _ _)
  | clustered =>
    have hclustered := clusters_clustered length (clusterMax variation)
      (noteCount length density) 0 g
    refine ⟨hclustered.chosen, fun hne => absurd rfl hne, ?_, ?_⟩
    · exact hclustered.sounding hcount hlength
    · exact le_min hclustered.few hclustered.chosen.length_le
  | random => exact hexact (scattered_chosen length _ g)
  | rising => exact hexact (scattered_chosen length _ g)
  | falling => exact hexact (scattered_chosen length _ g)
  | arc => exact hexact (scattered_chosen length _ g)

end Generator
end Groovebox
