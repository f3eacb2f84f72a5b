import Mathlib.Data.Bool.Count
import Mathlib.Tactic
import Groovebox.Rhythm
/-! # Hits of even rhythms

Spreading hits over slots and turning the result neither loses a hit nor makes one.

* `Rhythm.count_euclidean`, `Rhythm.length_euclidean`: a rhythm has as many hits and slots as it was
  asked for.
* `Rhythm.rotate_perm`: turning it only moves its slots.
* `Rhythm.length_hits`, `Rhythm.hits_ascending`, `Rhythm.mem_hits_iff`: the hits are listed once
  each, in order.
-/

namespace Groovebox.Rhythm

/-! ## Spreading -/

/-- Copies of a word have all its slots as often as there are copies. -/
theorem count_copies (n : Nat) (word : List Bool) (b : Bool) :
    (copies n word).count b = n * word.count b := by
  rw [copies, List.count_flatten, List.map_replicate, List.sum_replicate, smul_eq_mul]

/-- Each round uses the newer word as often as the divisor says, and the older one as often as the
remainder says. -/
theorem count_weave (b : Bool) (divisor remainder : Nat) (older newer : List Bool) :
    (weave divisor remainder older newer).count b =
      divisor * newer.count b + remainder * older.count b := by
  fun_induction weave divisor remainder older newer with
  | case1 divisor remainder older newer hmore ih =>
    -- The quotient goes into the next word, and what remains of the division into the next round.
    have hdivision := Nat.div_add_mod divisor remainder
    rw [ih, List.count_append, count_copies]
    calc remainder * (divisor / remainder * newer.count b + older.count b) +
          divisor % remainder * newer.count b
        = (remainder * (divisor / remainder) + divisor % remainder) * newer.count b +
            remainder * older.count b := by ring
      _ = divisor * newer.count b + remainder * older.count b := by rw [hdivision]
  | case2 divisor remainder older newer hlast =>
    rw [List.count_append, count_copies]
    have hremainder : remainder = 0 ∨ remainder = 1 := by omega
    rcases hremainder with rfl | rfl
    · simp
    · simp

/-- A rhythm has as many hits as it was asked for, or as fit. -/
theorem count_euclidean (pulses steps : Nat) :
    (euclidean pulses steps).count true = min pulses steps := by
  unfold euclidean
  split
  · rw [List.count_replicate_self]
    omega
  · split
    · rename_i hnone
      rw [List.count_replicate, hnone]
      simp
    · -- Weaving starts with one hit for each pulse and one rest for each of the other slots.
      rw [count_weave]
      simp
      omega

/-- A rhythm has as many slots as it was asked for. -/
theorem length_euclidean (pulses steps : Nat) : (euclidean pulses steps).length = steps := by
  unfold euclidean
  split
  · rw [List.length_replicate]
  · split
    · rw [List.length_replicate]
    · -- The length is the number of rests and hits together.
      have hrests := count_weave false (steps - pulses) pulses [true] [false]
      have hhits := count_weave true (steps - pulses) pulses [true] [false]
      rw [← List.count_false_add_count_true, hrests, hhits]
      simp
      omega

/-! ## Turning -/

/-- Turning a rhythm only moves its slots. -/
theorem rotate_perm (pattern : List Bool) (offset : Int) :
    (rotate pattern offset).Perm pattern := by
  unfold rotate
  exact List.perm_append_comm.trans (List.Perm.of_eq (List.take_append_drop _ pattern))

/-! ## Hits -/

/-- The hits are the places of the slots that are hits. -/
theorem mem_hits_iff {pattern : List Bool} {i : Nat} :
    i ∈ hits pattern ↔ pattern[i]? = some true := by
  unfold hits
  rw [List.mem_filterMap]
  constructor
  · rintro ⟨⟨hit, j⟩, hj, hsome⟩
    have hget : pattern[j]? = some hit := List.mk_mem_zipIdx_iff_getElem?.1 hj
    cases hit with
    | false => cases hsome
    | true =>
      cases hsome
      exact hget
  · intro hget
    exact ⟨(true, i), List.mk_mem_zipIdx_iff_getElem?.2 hget, rfl⟩

theorem length_hits (pattern : List Bool) : (hits pattern).length = pattern.count true := by
  have hfst : pattern.zipIdx.map Prod.fst = pattern := List.zipIdx_map_fst 0 pattern
  have hcount : (pattern.zipIdx.map Prod.fst).count true = pattern.count true := by rw [hfst]
  rw [hits, List.length_filterMap_eq_countP, ← hcount, List.count, List.countP_map]
  apply List.countP_congr
  rintro ⟨hit, i⟩ -
  cases hit <;> simp

/-- The hits are listed in order, and each of them once. -/
theorem hits_ascending (pattern : List Bool) : (hits pattern).Pairwise (· < ·) := by
  have hplaces : (pattern.zipIdx.map Prod.snd).Pairwise (· < ·) := by
    rw [List.zipIdx_map_snd]
    exact List.pairwise_lt_range' 1
  rw [List.pairwise_map] at hplaces
  refine hplaces.filterMap _ ?_
  rintro ⟨hit, i⟩ ⟨hit', j⟩ hij a ha b hb
  cases hit <;> cases hit' <;> simp_all

end Groovebox.Rhythm
