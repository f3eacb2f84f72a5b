import Mathlib.Tactic
import Groovebox.Proofs.Generator.Slots
import Groovebox.Proofs.Sorting
/-! # Slots by rank

The pulse and the offbeat style take the best slots by rank, of equal ones those further left. What
is taken stands before what is left out, in the order of ranks and places, and asking for more slots
only adds some.

* `Generator.byRank_pairwise`: sorting by rank alone sorts by rank and place.
* `Generator.ranked_best`, `Generator.ranked_subset`: what any rank takes.
* `Generator.pulse_offbeat_best`: what the two styles take.
-/

namespace Groovebox.Generator

/-- One slot comes before another if its rank is better, or as good and the slot further left. -/
def Before (rank : Nat → Nat) (i j : Nat) : Prop :=
  rank i < rank j ∨ rank i = rank j ∧ i < j

/-- The best `count` of the first `length` slots by rank, or all of them if there are fewer, in
ascending order. -/
structure Best (rank : Nat → Nat) (length count : Nat) (slots : List Nat) : Prop where
  chosen : Chosen length slots
  length_eq : slots.length = min count length
  before : ∀ i ∈ slots, ∀ j < length, j ∉ slots → Before rank i j

variable {length count : Nat} {rank : Nat → Nat}

/-! ## Sorting by rank -/

/-- The slots of a pattern, sorted by rank. -/
def byRank (length : Nat) (rank : Nat → Nat) : List Nat :=
  (List.range length).mergeSort fun i j => decide (rank i ≤ rank j)

theorem mem_byRank {i : Nat} : i ∈ byRank length rank ↔ i < length := by
  rw [byRank, List.mem_mergeSort, List.mem_range]

/-- The sort is stable, so slots of one rank stay in their order. -/
theorem byRank_pairwise (length : Nat) (rank : Nat → Nat) :
    (byRank length rank).Pairwise (Before rank) :=
  Sorting.pairwise_mergeSort_key rank List.pairwise_lt_range

/-! ## Taking the best -/

theorem mem_ranked {i : Nat} :
    i ∈ ranked length count rank ↔ i ∈ (byRank length rank).take count :=
  List.mem_mergeSort

theorem ranked_best (length count : Nat) (rank : Nat → Nat) :
    Best rank length count (ranked length count rank) := by
  rcases ranked_chosen length count rank with ⟨hchosen, hlength⟩
  refine ⟨hchosen, hlength, ?_⟩
  intro i hi j hj hout
  have hsorted := byRank_pairwise length rank
  have hmem : j ∈ byRank length rank := mem_byRank.2 hj
  -- What is not taken stands behind all that is.
  rw [mem_ranked] at hi hout
  rw [← List.take_append_drop count (byRank length rank)] at hsorted hmem
  have hbehind := (List.mem_append.1 hmem).resolve_left hout
  exact (List.pairwise_append.1 hsorted).2.2 i hi j hbehind

/-- Who asks for more slots gets those that fewer would have been, and others. -/
theorem ranked_subset {more : Nat} (h : count ≤ more) (rank : Nat → Nat) :
    ranked length count rank ⊆ ranked length more rank := by
  intro i hi
  rw [mem_ranked] at hi ⊢
  exact List.take_subset_take_left _ h hi

/-! ## The styles -/

/-- The pulse style takes the best slots by its rank and the offbeat style those by its own,
whatever the length and the number of slots; more slots take in fewer. That number follows from
length and density when a pattern is generated. -/
theorem pulse_offbeat_best (length count : Nat) :
    (Best pulseRank length count (ranked length count pulseRank) ∧
      Best offbeatRank length count (ranked length count offbeatRank)) ∧
      (∀ more, count ≤ more →
        ranked length count pulseRank ⊆ ranked length more pulseRank ∧
          ranked length count offbeatRank ⊆ ranked length more offbeatRank) ∧
      ∀ density variation g, noteCount length density = count →
        slots length density .pulse variation g = (ranked length count pulseRank, g) ∧
          slots length density .offbeat variation g = (ranked length count offbeatRank, g) := by
  refine ⟨⟨ranked_best _ _ _, ranked_best _ _ _⟩, ?_, ?_⟩
  · intro more hmore
    exact ⟨ranked_subset hmore _, ranked_subset hmore _⟩
  · intro density variation g hcount
    subst hcount
    exact ⟨rfl, rfl⟩

/-- Of eight slots the five best take the first of the four odd ones, and the six best keep them. -/
theorem pulse_offbeat_best_odd :
    5 ≤ 6 ∧ ranked 8 5 pulseRank = [0, 1, 2, 4, 6] ∧ Before pulseRank 1 3 ∧
      ranked 8 5 pulseRank ⊆ ranked 8 6 pulseRank := by
  have hle : 5 ≤ 6 := by decide
  have hbest := pulse_offbeat_best 8 5
  have hranked : ranked 8 5 pulseRank = [0, 1, 2, 4, 6] := by cbv
  have hbefore : Before pulseRank 1 3 := by
    apply hbest.1.1.before 1 _ 3 (by decide)
    · rw [hranked]
      decide
    · rw [hranked]
      decide
  exact ⟨hle, hranked, hbefore, (hbest.2.1 6 hle).1⟩

end Groovebox.Generator
