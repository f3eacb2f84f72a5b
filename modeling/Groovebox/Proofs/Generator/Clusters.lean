import Mathlib.Data.Rat.Floor
import Mathlib.Tactic
import Groovebox.Proofs.Generator.Slots
/-! # Clusters keep their limits

Whatever is drawn, the slots of the clustered style fall into runs of two slots up to the most that
the variation allows, with gaps of two to six slots between them. Only the last run may be shorter,
where the slots asked for or the pattern come to an end.

* `Random.below_lt`, `Random.between_range`: a draw stays within its bounds.
* `Generator.runs`: the runs that a list of slots falls into.
* `Generator.Spaced`: what holds of the runs of clusters.
* `Generator.clusters_spaced`: clusters from any position on are spaced so.
* `Generator.clustered_spaced`: the same for the slots of a pattern.
-/

namespace Groovebox

/-! ## Draws -/

namespace Random

/-- The upper half of the product of a word and a number is less than the number. -/
theorem upper_lt {word n : Nat} (hword : word < Word.count32) (hn : 0 < n) :
    word * n / Word.count32 < n := by
  rw [Nat.div_lt_iff_lt_mul (by decide), Nat.mul_comm n]
  exact (Nat.mul_lt_mul_right hn).2 hword

/-- A number drawn below a limit is below it. -/
theorem below_lt (g : Random) {n : Nat} (hn : 0 < n) : (g.below n).1 < n := by
  have hfirst : g.next32.1.toNat < Word.count32 := UInt32.toNat_lt _
  have hsecond : g.next32.2.next32.1.toNat < Word.count32 := UInt32.toNat_lt _
  simp only [below]
  generalize g.next32.1.toNat = first at *
  generalize g.next32.2.next32.1.toNat = second at *
  split
  · split
    · -- The lower half and what is carried into it make a whole, but both products together are
      -- less than `n` wholes.
      rename_i hcarry
      have hupper := upper_lt hsecond hn
      have hproduct := Nat.div_add_mod (first * n) Word.count32
      have hless : first * n ≤ (Word.count32 - 1) * n :=
        Nat.mul_le_mul_right n (Nat.le_sub_one_of_lt hfirst)
      simp only [Word.count32] at *
      omega
    · exact upper_lt hfirst hn
  · exact upper_lt hfirst hn

/-- A number drawn between two others is one of them or between them. -/
theorem between_range (g : Random) {lo hi : Nat} (h : lo ≤ hi) :
    lo ≤ (g.between lo hi).1 ∧ (g.between lo hi).1 ≤ hi := by
  have hbelow := g.below_lt (n := hi + 1 - lo) (by omega)
  have hdrawn : (g.between lo hi).1 = lo + (g.below (hi + 1 - lo)).1 := rfl
  omega

end Random

namespace Generator

/-! ## Runs -/

/-- Slots side by side. -/
structure Run where
  /-- The first slot. -/
  start : Nat
  /-- The number of slots. -/
  size : Nat
deriving DecidableEq, Repr

/-- The slot behind the last one. -/
def Run.stop (r : Run) : Nat := r.start + r.size

/-- The slots of a run. -/
def Run.slots (r : Run) : List Nat := List.range' r.start r.size

/-- The runs of slots with one more slot in front of them. -/
def prepend (i : Nat) : List Run → List Run
  | [] => [⟨i, 1⟩]
  | r :: later => if r.start = i + 1 then ⟨i, r.size + 1⟩ :: later else ⟨i, 1⟩ :: r :: later

/-- The runs that an ascending list of slots falls into, each as long as it can be. -/
def runs : List Nat → List Run
  | [] => []
  | i :: rest => prepend i (runs rest)

/-- A slot right before a run makes the run longer. -/
theorem prepend_next (i size : Nat) (later : List Run) :
    prepend i (⟨i + 1, size⟩ :: later) = ⟨i, size + 1⟩ :: later :=
  if_pos rfl

/-- A slot apart from the next run is a run of its own. -/
theorem prepend_apart {i : Nat} {behind : List Run} (h : ∀ r ∈ behind.head?, r.start ≠ i + 1) :
    prepend i behind = ⟨i, 1⟩ :: behind := by
  cases behind with
  | nil => rfl
  | cons r later => exact if_neg (h r rfl)

theorem flatMap_prepend (i : Nat) (behind : List Run) :
    (prepend i behind).flatMap Run.slots = i :: behind.flatMap Run.slots := by
  cases behind with
  | nil => rfl
  | cons r later =>
    by_cases hnext : r.start = i + 1
    · rw [prepend, if_pos hnext, List.flatMap_cons, List.flatMap_cons, Run.slots, Run.slots,
        List.range'_succ, hnext, List.cons_append]
    · rw [prepend, if_neg hnext]
      rfl

/-- No slot is lost or made up. -/
theorem flatMap_runs (slots : List Nat) : (runs slots).flatMap Run.slots = slots := by
  induction slots with
  | nil => rfl
  | cons i rest ih => rw [runs, flatMap_prepend, ih]

/-- The first run begins at the first slot. -/
theorem start_head?_runs (slots : List Nat) : (runs slots).head?.map Run.start = slots.head? := by
  cases slots with
  | nil => rfl
  | cons i rest =>
    rw [runs]
    cases runs rest with
    | nil => rfl
    | cons r later =>
      rw [prepend]
      split
      · rfl
      · rfl

/-- Slots side by side are one run if the slot behind them is left out. -/
theorem runs_append {size : Nat} (hsize : 0 < size) {start : Nat} {rest : List Nat}
    (hrest : ∀ i ∈ rest.head?, i ≠ start + size) :
    runs (List.range' start size ++ rest) = ⟨start, size⟩ :: runs rest := by
  induction size generalizing start with
  | zero => exact absurd hsize (Nat.lt_irrefl 0)
  | succ size ih =>
    rw [List.range'_succ, List.cons_append, runs]
    by_cases hone : size = 0
    · subst hone
      rw [List.range'_zero, List.nil_append]
      apply prepend_apart
      intro r hr
      apply hrest
      rw [← start_head?_runs, hr]
      rfl
    · have hmore : ∀ i ∈ rest.head?, i ≠ start + 1 + size := by
        intro i hi
        have hapart := hrest i hi
        omega
      rw [ih (Nat.pos_of_ne_zero hone) hmore, prepend_next]

/-! ## Spacing -/

/-- How the slots of clusters are spaced in a pattern of `length` slots, if `todo` of them are asked
for and up to `most` may lie side by side. -/
structure Spaced (length most todo : Nat) (slots : List Nat) : Prop where
  /-- Every run but the last has two slots at least. -/
  full : ∀ r ∈ (runs slots).dropLast, 2 ≤ r.size ∧ r.size ≤ most
  /-- The last run has a single slot only if no more are asked for or the pattern ends. -/
  last : ∀ r ∈ (runs slots).getLast?,
    r.size ≤ most ∧ (r.size = 1 → slots.length = todo ∨ r.stop = length)
  /-- Between two runs two to six slots are left out. -/
  gaps : (runs slots).IsChain fun r s => 2 ≤ s.start - r.stop ∧ s.start - r.stop ≤ 6
  /-- Behind the last slot six at most are left out, if more are asked for. -/
  tail : slots.length < todo → ∀ i ∈ slots.getLast?, length - (i + 1) ≤ 6

variable {length most todo position size gap : Nat} {rest : List Nat}

theorem spaced_nil : Spaced length most todo [] := by
  refine ⟨?_, ?_, List.IsChain.nil, ?_⟩
  · simp [runs]
  · simp [runs]
  · simp

/-- A run behind which nothing is placed. -/
theorem spaced_single (hpos : 0 < size) (hmost : size ≤ most)
    (hone : size = 1 → size = todo ∨ position + size = length)
    (hend : size < todo → length ≤ position + size + 6) :
    Spaced length most todo (List.range' position size) := by
  have hruns : runs (List.range' position size) = [⟨position, size⟩] := by
    have hsplit : runs (List.range' position size ++ []) = ⟨position, size⟩ :: runs [] :=
      runs_append hpos (by simp)
    rwa [List.append_nil] at hsplit
  refine ⟨?_, ?_, ?_, ?_⟩
  · simp [hruns]
  · intro r hr
    rw [hruns] at hr
    cases hr
    rw [List.length_range']
    exact ⟨hmost, hone⟩
  · rw [hruns]
    exact List.IsChain.singleton _
  · intro hfew i hi
    rw [List.length_range'] at hfew
    have hlast := hend hfew
    rw [List.getLast?_range', if_neg (by omega)] at hi
    cases hi
    omega

/-- A run and a gap before slots that are spaced. -/
theorem Spaced.cons (h : Spaced length most (todo - size) rest)
    (hhead : rest.head? = some (position + size + gap)) (hsize : 2 ≤ size ∧ size ≤ most)
    (hgap : 2 ≤ gap ∧ gap ≤ 6) (htodo : size ≤ todo) :
    Spaced length most todo (List.range' position size ++ rest) := by
  have hne : rest ≠ [] := by
    rintro rfl
    cases hhead
  have hfirst := start_head?_runs rest
  rw [hhead] at hfirst
  rcases Option.map_eq_some_iff.1 hfirst with ⟨r, hr, hstart⟩
  rcases List.head?_eq_some_iff.1 hr with ⟨later, hlater⟩
  have hruns : runs (List.range' position size ++ rest) = ⟨position, size⟩ :: r :: later := by
    rw [runs_append (by omega), hlater]
    intro i hi
    rw [hhead] at hi
    cases hi
    omega
  have hlength : (List.range' position size ++ rest).length = size + rest.length := by
    rw [List.length_append, List.length_range']
  have hfull := h.full
  have hlast := h.last
  have hgaps := h.gaps
  rw [hlater] at hfull hlast hgaps
  refine ⟨?_, ?_, ?_, ?_⟩
  · intro s hs
    rw [hruns, List.dropLast_cons_cons] at hs
    rcases List.mem_cons.1 hs with rfl | hs
    · exact hsize
    · exact hfull s hs
  · intro s hs
    rw [hruns, List.getLast?_cons_cons] at hs
    rcases hlast s hs with ⟨hmost, hone⟩
    refine ⟨hmost, ?_⟩
    intro hsingle
    rcases hone hsingle with hcount | hstop
    · left
      omega
    · exact .inr hstop
  · rw [hruns, List.isChain_cons_cons]
    refine ⟨?_, hgaps⟩
    rw [Run.stop, hstart]
    simp only
    omega
  · intro hfew i hi
    rw [List.getLast?_append_of_ne_nil _ hne] at hi
    exact h.tail (by omega) i hi

/-! ## Clusters -/

theorem clusters_of_done (hdone : todo = 0 ∨ length ≤ position) (g : Random) :
    clusters length most todo position g = ([], g) := by
  rw [clusters, if_pos hdone]

/-- The first cluster begins at once. -/
theorem head?_clusters (hmost : 2 ≤ most) (hopen : ¬ (todo = 0 ∨ length ≤ position)) (g : Random) :
    (clusters length most todo position g).1.head? = some position := by
  have hsize := g.between_range hmost
  have hrun : min (min (g.between 2 most).1 todo) (length - position) ≠ 0 := by omega
  rw [clusters, if_neg hopen]
  simp only
  rw [List.head?_append, List.head?_range', if_neg hrun]
  rfl

/-- Every cluster has as many slots as were drawn, unless no more are asked for or the pattern ends;
then it is the last one. -/
theorem clusters_spaced (hmost : 2 ≤ most) (todo position : Nat) (g : Random) :
    Spaced length most todo (clusters length most todo position g).1 := by
  fun_induction clusters length most todo position g with
  | case1 todo position g hdone => exact spaced_nil
  | case2 todo position g hopen size g₁ hsize run gap g₂ hgap rest g₃ hrest ih =>
    have hsizes : 2 ≤ size ∧ size ≤ most := by
      have hdrawn := g.between_range hmost
      rwa [hsize] at hdrawn
    have hgaps : gap < 5 := by
      have hdrawn := g₁.below_lt (n := 5) (by decide)
      rwa [hgap] at hdrawn
    have hrun : 1 ≤ run ∧ run ≤ size ∧ run ≤ todo ∧ position + run ≤ length := by omega
    rw [hrest] at ih
    by_cases hdone : todo - run = 0 ∨ length ≤ position + run + (2 + gap)
    · rw [clusters_of_done hdone] at hrest
      cases hrest
      rw [List.append_nil]
      apply spaced_single
      · omega
      · omega
      · omega
      · omega
    · have hhead := head?_clusters hmost hdone g₂
      rw [hrest] at hhead
      apply ih.cons hhead
      · omega
      · omega
      · omega

/-! ## The clustered style -/

/-- The most slots of a cluster, as a rounded fraction. -/
theorem clusterMax_eq (variation : Nat) :
    (clusterMax variation : Int) = 2 + round ((6 * variation : ℚ) / 127) := by
  have hhalf : (6 * variation : ℚ) / 127 + 1 / 2 =
      ((12 * variation + 127 : Nat) : Int) / (254 : Nat) := by
    push_cast
    ring
  rw [round_eq, hhalf, Rat.floor_intCast_div_natCast, clusterMax]
  push_cast
  rfl

/-- The slots of the clustered style, whatever the length, the density and the variation are and
whatever is drawn.

There is one slot at least, and not more than asked for; all are slots of the pattern, in ascending
order. They fall into runs of two slots up to the most for the variation, with gaps of two to six
slots between them. Only the last run may have a single slot, where no more are asked for or the
pattern ends, and only where no more are asked for may more than six slots follow it. -/
theorem clustered_spaced {length : Nat} (hlength : 0 < length) (density variation : Nat)
    (g : Random) :
    let count := noteCount length density
    let most := clusterMax variation
    let placed := (slots length density .clustered variation g).1
    (most : Int) = 2 + round ((6 * variation : ℚ) / 127) ∧
      (placed ≠ [] ∧ Chosen length placed ∧ placed.length ≤ count) ∧
      (runs placed).flatMap Run.slots = placed ∧ Spaced length most count placed := by
  intro count most placed
  have hclustered := clusters_clustered length most count 0 g
  have hmost : 2 ≤ most := Nat.le_add_right 2 _
  have hsounding : placed ≠ [] :=
    List.length_pos_iff.1 (hclustered.sounding (noteCount_pos length density) hlength)
  refine ⟨clusterMax_eq variation, ⟨hsounding, hclustered.chosen, hclustered.few⟩, ?_, ?_⟩
  · exact flatMap_runs placed
  · exact clusters_spaced hmost count 0 g

/-- Eight slots are asked for, but the gap behind the third pair reaches the end of the pattern. -/
theorem clustered_spaced_three_pairs :
    0 < 16 ∧ (slots 16 50 .clustered 0 (Random.ofSeed 7)).1 = [0, 1, 4, 5, 12, 13] ∧
      Spaced 16 2 8 [0, 1, 4, 5, 12, 13] := by
  have hlength : 0 < 16 := by decide
  have hcount : noteCount 16 50 = 8 := by decide +kernel
  have hplaced : (slots 16 50 .clustered 0 (Random.ofSeed 7)).1 = [0, 1, 4, 5, 12, 13] := by
    decide +kernel
  have hspaced := (clustered_spaced hlength 50 0 (Random.ofSeed 7)).2.2.2
  rw [hcount, hplaced] at hspaced
  exact ⟨hlength, hplaced, hspaced⟩

end Generator
end Groovebox
