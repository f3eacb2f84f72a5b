import Mathlib.Data.Nat.Periodic
import Mathlib.Tactic
import Groovebox.Trigger.Condition
/-! # Conditions divide the loops among them

The plain conditions of one cycle length take turns: on every loop one of them lets its step sound,
and each does so once in a cycle, wherever the cycle is taken to begin. The second half of the table
holds their opposites.

* `Cycle.mem_all_iff`, `Condition.eq_of_cycle`: the table holds every loop of every length, once.
* `Condition.cycle?_opposite`: what stands in the second half of the table.
* `Condition.fires_divides`: all of it.
-/

namespace Groovebox

/-! ## The table -/

namespace Cycle

/-- The cycle that lets a step sound on all loops but one. -/
def inverted (c : Cycle) : Cycle :=
  { c with invert := true }

variable {c : Cycle} {n iteration : Nat}

theorem mem_half_iff {invert : Bool} :
    c ∈ half invert ↔ c.n ∈ lengths ∧ (1 ≤ c.m ∧ c.m ≤ c.n) ∧ c.invert = invert := by
  simp only [half, List.mem_flatMap, List.mem_map, List.mem_range]
  constructor
  · rintro ⟨n, hn, m, hm, rfl⟩
    exact ⟨hn, ⟨Nat.le_add_left 1 m, hm⟩, rfl⟩
  · rintro ⟨hn, ⟨hm, hmn⟩, rfl⟩
    refine ⟨c.n, hn, c.m - 1, by omega, ?_⟩
    rw [Nat.sub_add_cancel hm]

theorem mem_all_iff : c ∈ all ↔ c.n ∈ lengths ∧ 1 ≤ c.m ∧ c.m ≤ c.n := by
  rw [all, List.mem_append, mem_half_iff, mem_half_iff]
  cases c.invert <;> simp

theorem nodup_all : all.Nodup := by decide

theorem length_half (invert : Bool) : (half invert).length = 28 := by
  cases invert <;> rfl

/-- The second half of the table repeats the first, inverted. -/
theorem half_true : half true = (half false).map inverted := by
  simp only [half, List.map_flatMap, List.map_map]
  rfl

/-- Positions of the first half hold plain cycles; the inverted ones stand 28 positions later. -/
theorem getElem?_all_of_lt {i : Nat} (h : i < 28) :
    all[i]? = (half false)[i]? ∧ all[i + 28]? = (half false)[i]?.map inverted := by
  constructor
  · rw [all, List.getElem?_append_left (by rwa [length_half])]
  · rw [all, List.getElem?_append_right (by rw [length_half]; omega), length_half,
      Nat.add_sub_cancel, half_true, List.getElem?_map]

/-! ## When cycles sound -/

theorem fires_iff (h : c.invert = false) : c.fires iteration = true ↔ iteration % c.n = c.m - 1 := by
  simp [fires, h]

theorem fires_inverted (h : c.invert = false) : c.inverted.fires iteration = !c.fires iteration := by
  have hplain : c.fires iteration = decide (iteration % c.n = c.m - 1) := by
    rw [fires, h, Bool.bne_false]
  rw [hplain]
  exact Bool.bne_true _

end Cycle

/-! ## Conditions -/

namespace Condition

variable {c c' : Condition} {cycle : Cycle} {n : Nat}

/-- A condition that lets a step sound on one loop of every `n`. -/
def IsPlain (n : Nat) (c : Condition) : Prop :=
  ∃ cycle ∈ c.cycle?, cycle.n = n ∧ cycle.invert = false

instance (n : Nat) (c : Condition) : Decidable (c.IsPlain n) :=
  inferInstanceAs (Decidable (∃ cycle ∈ c.cycle?, cycle.n = n ∧ cycle.invert = false))

theorem isNone_iff : c.isNone = true ↔ c.index = 0 := by
  rw [isNone, beq_iff_eq, index, Fin.ext_iff]
  rfl

theorem cycle?_eq_some_iff :
    c.cycle? = some cycle ↔ c.index ≠ 0 ∧ Cycle.all[c.index - 1]? = some cycle := by
  unfold cycle?
  split
  · rename_i h
    simp [isNone_iff.1 h]
  · rename_i h
    simp [mt isNone_iff.2 h]

/-- All positions but the first have a cycle. -/
theorem cycle?_eq_none_iff : c.cycle? = none ↔ c.index = 0 := by
  have hlt : c.index - 1 < Cycle.all.length := by
    have := c.position.isLt
    show c.position.val - 1 < 56
    omega
  constructor
  · intro hnone
    by_contra hne
    have hcycle := cycle?_eq_some_iff.2 ⟨hne, List.getElem?_eq_getElem hlt⟩
    rw [hnone] at hcycle
    cases hcycle
  · intro hzero
    rw [cycle?, if_pos (isNone_iff.2 hzero)]

theorem exists_cycle (h : c.isNone = false) : ∃ cycle, c.cycle? = some cycle := by
  apply Option.ne_none_iff_exists'.1
  intro hnone
  rw [isNone_iff.2 (cycle?_eq_none_iff.1 hnone)] at h
  cases h

/-- No cycle stands in the table twice. -/
theorem eq_of_cycle (h : c.cycle? = some cycle) (h' : c'.cycle? = some cycle) : c = c' := by
  rcases cycle?_eq_some_iff.1 h with ⟨hne, hget⟩
  rcases cycle?_eq_some_iff.1 h' with ⟨hne', hget'⟩
  have hlt : c.index - 1 < Cycle.all.length := (List.getElem?_eq_some_iff.1 hget).1
  have hplace := (List.getElem?_inj hlt Cycle.nodup_all).1 (hget.trans hget'.symm)
  rcases c with ⟨position⟩
  rcases c' with ⟨position'⟩
  have hindex : position.val = position'.val := by
    simp only [index] at hplace hne hne'
    omega
  rw [Fin.ext hindex]

/-- Every cycle of the table has a condition. -/
theorem exists_of_mem (h : cycle ∈ Cycle.all) : ∃ c : Condition, c.cycle? = some cycle := by
  rcases List.getElem?_of_mem h with ⟨i, hi⟩
  have hlt : i < 56 := (List.getElem?_eq_some_iff.1 hi).1
  exact ⟨⟨⟨i + 1, by omega⟩⟩, cycle?_eq_some_iff.2 ⟨Nat.succ_ne_zero i, hi⟩⟩

theorem mem_all_of_cycle (h : c.cycle? = some cycle) : cycle ∈ Cycle.all :=
  List.mem_of_getElem? (cycle?_eq_some_iff.1 h).2

theorem fires_of_cycle (h : c.cycle? = some cycle) (iteration : Nat) :
    c.fires iteration = cycle.fires iteration := by
  rw [fires, h]

/-- The plain conditions stand in the first half of the table. -/
theorem index_le_of_isPlain (h : c.IsPlain n) : c.index ≤ 28 := by
  rcases h with ⟨cycle, hcycle, -, hplain⟩
  have hget := (cycle?_eq_some_iff.1 hcycle).2
  by_contra hlarge
  have hpast : (Cycle.half false).length ≤ c.index - 1 := by
    rw [Cycle.length_half]
    omega
  rw [Cycle.all, List.getElem?_append_right hpast] at hget
  have hinverted := (Cycle.mem_half_iff.1 (List.mem_of_getElem? hget)).2.2
  rw [hplain] at hinverted
  cases hinverted

/-- Every plain condition has its opposite 28 positions later. -/
theorem cycle?_opposite (h : c.IsPlain n) (hc' : c'.index = c.index + 28) :
    c'.cycle? = c.cycle?.map Cycle.inverted := by
  have hle := index_le_of_isPlain h
  rcases h with ⟨cycle, hcycle, -, -⟩
  have hcycle : c.cycle? = some cycle := hcycle
  rcases cycle?_eq_some_iff.1 hcycle with ⟨hne, hget⟩
  have hlt : c.index - 1 < 28 := by omega
  rw [hcycle, Option.map_some, cycle?_eq_some_iff, hc']
  refine ⟨Nat.succ_ne_zero _, ?_⟩
  have hplace : c.index + 28 - 1 = c.index - 1 + 28 := by omega
  rw [hplace, (Cycle.getElem?_all_of_lt hlt).2, ← (Cycle.getElem?_all_of_lt hlt).1, hget]
  rfl

/-! ## Turns -/

/-- On every loop, just one of the plain conditions of a length lets its step sound: the one of the
place that the loop has in its cycle. -/
theorem existsUnique_fires (hn : n ∈ Cycle.lengths) (iteration : Nat) :
    ∃! c : Condition, c.IsPlain n ∧ c.fires iteration = true := by
  have hpos : 0 < n := by
    revert n
    decide
  have hlt : iteration % n < n := Nat.mod_lt _ hpos
  have hmem : { n, m := iteration % n + 1, invert := false } ∈ Cycle.all :=
    Cycle.mem_all_iff.2 ⟨hn, Nat.le_add_left 1 _, hlt⟩
  rcases exists_of_mem hmem with ⟨c, hc⟩
  refine ⟨c, ⟨⟨_, hc, rfl, rfl⟩, ?_⟩, ?_⟩
  · rw [fires_of_cycle hc]
    exact (Cycle.fires_iff rfl).2 rfl
  · rintro c' ⟨⟨cycle, hcycle, rfl, hplain⟩, hfires⟩
    rw [fires_of_cycle hcycle, Cycle.fires_iff hplain] at hfires
    have hm := (Cycle.mem_all_iff.1 (mem_all_of_cycle hcycle)).2.1
    -- The loop leaves no choice of the place, and so none of the cycle.
    have hsame : cycle = { n := cycle.n, m := iteration % cycle.n + 1, invert := false } := by
      rw [hfires, Nat.sub_add_cancel hm, ← hplain]
    exact eq_of_cycle (hsame ▸ hcycle) hc

/-- Of as many loops in a row as the cycle has, a plain condition picks one. -/
theorem card_fires (h : c.IsPlain n) (start : Nat) :
    ((Finset.Ico start (start + n)).filter fun iteration => c.fires iteration = true).card = 1 := by
  rcases h with ⟨cycle, hcycle, rfl, hplain⟩
  have hmem := (Cycle.mem_all_iff.1 (mem_all_of_cycle hcycle)).2
  have hlt : cycle.m - 1 < cycle.n := by omega
  have hiff (iteration : Nat) :
      c.fires iteration = true ↔ iteration % cycle.n = cycle.m - 1 := by
    rw [fires_of_cycle hcycle]
    exact Cycle.fires_iff hplain
  have hperiodic : Function.Periodic (fun iteration => iteration % cycle.n = cycle.m - 1) cycle.n :=
    fun iteration => by simp
  have hfirst : (Finset.range cycle.n).filter (fun iteration => iteration % cycle.n = cycle.m - 1) =
      {cycle.m - 1} := by
    ext iteration
    rw [Finset.mem_filter, Finset.mem_range, Finset.mem_singleton]
    constructor
    · rintro ⟨hin, hplace⟩
      rwa [Nat.mod_eq_of_lt hin] at hplace
    · rintro rfl
      exact ⟨hlt, Nat.mod_eq_of_lt hlt⟩
  -- A window counts as the first cycle does.
  rw [Finset.filter_congr fun iteration _ => hiff iteration,
    Nat.filter_Ico_card_eq_of_periodic start cycle.n _ hperiodic, Nat.count_eq_card_filter_range,
    hfirst, Finset.card_singleton]

/-- Of every cycle length there are as many plain conditions as a cycle has loops. On every loop
just one of them lets its step sound, and each of them does on just one of so many loops in a row.
A plain condition has its opposite 28 positions later in the table. A condition without a cycle
stands at the first position, and lets a step sound on every loop. -/
theorem fires_divides :
    (∀ n ∈ Cycle.lengths,
      (Finset.univ.filter fun position : Fin 57 => IsPlain n ⟨position⟩).card = n ∧
      (∀ iteration, ∃! c : Condition, c.IsPlain n ∧ c.fires iteration = true) ∧
      ∀ c : Condition, c.IsPlain n → ∀ start,
        ((Finset.Ico start (start + n)).filter fun iteration => c.fires iteration = true).card =
          1) ∧
    (∀ (n : Nat) (c : Condition), c.IsPlain n → ∃ c' : Condition,
      c'.index = c.index + 28 ∧ c'.cycle? = c.cycle?.map Cycle.inverted ∧
        ∀ iteration, c'.fires iteration = !c.fires iteration) ∧
    ∀ c : Condition, (c.cycle? = none ↔ c.index = 0) ∧
      (c.index = 0 → ∀ iteration, c.fires iteration = true) := by
  refine ⟨?_, ?_, ?_⟩
  · intro n hn
    have hcard : ∀ n ∈ Cycle.lengths,
        (Finset.univ.filter fun position : Fin 57 => IsPlain n ⟨position⟩).card = n := by decide
    exact ⟨hcard n hn, existsUnique_fires hn, fun c hc => card_fires hc⟩
  · intro n c hc
    have hle := index_le_of_isPlain hc
    let c' : Condition := ⟨⟨c.index + 28, by omega⟩⟩
    have hopposite : c'.cycle? = c.cycle?.map Cycle.inverted := cycle?_opposite hc rfl
    refine ⟨c', rfl, hopposite, ?_⟩
    rcases hc with ⟨cycle, hcycle, -, hplain⟩
    have hcycle : c.cycle? = some cycle := hcycle
    intro iteration
    rw [hcycle, Option.map_some] at hopposite
    rw [fires_of_cycle hopposite, fires_of_cycle hcycle, Cycle.fires_inverted hplain]
  · intro c
    refine ⟨cycle?_eq_none_iff, ?_⟩
    intro hzero iteration
    rw [fires, cycle?_eq_none_iff.2 hzero]

/-- Of loops 5, 6 and 7, the second of every three is picked once; its opposite is condition 32. -/
theorem fires_divides_thirds :
    3 ∈ Cycle.lengths ∧ IsPlain 3 ⟨4⟩ ∧
      (∃! c : Condition, c.IsPlain 3 ∧ c.fires 7 = true) ∧
      ((Finset.Ico 5 (5 + 3)).filter fun iteration => (⟨4⟩ : Condition).fires iteration).card = 1 ∧
      ∃ c' : Condition, c'.index = 32 ∧ ∀ iteration, c'.fires iteration = !fires ⟨4⟩ iteration := by
  have hlength : 3 ∈ Cycle.lengths := by decide
  have hplain : IsPlain 3 ⟨4⟩ := by decide
  rcases fires_divides.1 3 hlength with ⟨-, hturn, honce⟩
  rcases fires_divides.2.1 3 ⟨4⟩ hplain with ⟨c', hindex, -, hopposite⟩
  exact ⟨hlength, hplain, hturn 7, honce ⟨4⟩ hplain 5, c', hindex, hopposite⟩

end Condition
end Groovebox
