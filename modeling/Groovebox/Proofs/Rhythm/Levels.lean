import Mathlib.Data.Int.ModEq
import Mathlib.Data.List.Rotate
import Mathlib.Tactic
import Groovebox.Proofs.Rhythm
import Groovebox.Rhythm.Levels
/-! # Even rhythms have the hits they are asked for

A rhythm built from the tables of its division is the rhythm that is woven round by round: the
division ends, and no level is looked up that the tables do not have. Turning a rhythm moves each
slot by the offset, around the end.

* `Rhythm.Division.Reached`: what the tables hold when a level is reached.
* `Rhythm.byLevels?_eq`: the division ends and the building finds all levels.
* `Rhythm.getElem?_rotate`: where a slot is moved.
* `Rhythm.euclidean_exact`: both, with the slots and hits of the rhythm.
-/

namespace Groovebox.Rhythm

/-! ## Tables -/

namespace Division

variable {d e : Division} {remainder : Nat} {older newer : List Bool}

/-- The tables go on where those of an earlier state end. -/
structure Extends (d e : Division) : Prop where
  counts : d.counts <+: e.counts
  remainders : d.remainders <+: e.remainders

/-- The state when a level is reached: what remains there is written down, and the words of the two
levels below are built whatever rounds follow. -/
structure Reached (d : Division) (remainder : Nat) (older newer : List Bool) : Prop where
  counts_length : d.counts.length = d.level
  remainders_length : d.remainders.length = d.level + 1
  remainder_eq : d.remainders[d.level]? = some remainder
  newer_eq : ∀ e, d.Extends e → e.word? (d.level - 1) = some newer
  older_eq : ∀ e, d.Extends e → e.word? (d.level - 2) = some older

theorem word?_of_tables {level count : Nat} (hcount : d.counts[level]? = some count)
    (hremainder : d.remainders[level]? = some remainder)
    (hnewer : d.word? (level - 1) = some newer) (holder : d.word? (level - 2) = some older) :
    d.word? level =
      some (copies count newer ++ if remainder = 0 then [] else older) := by
  rw [← Int.ofNat_eq_natCast, word?]
  simp only [hcount, hnewer, hremainder, holder, Option.bind_eq_bind, Option.bind_some]
  split
  · rw [List.append_nil]
  · rfl

theorem Reached.start (pulses steps : Nat) :
    (start pulses steps).Reached pulses [true] [false] := by
  refine ⟨rfl, rfl, rfl, ?_, ?_⟩
  · intro e _
    show e.word? (-1) = _
    rw [word?]
  · intro e _
    show e.word? (-2) = _
    rw [word?]

/-- The word of the level reached, once its count is written down. -/
theorem Reached.word? (h : d.Reached remainder older newer) (hextends : d.Extends e) {count : Nat}
    (hcount : e.counts[d.level]? = some count) :
    e.word? d.level = some (copies count newer ++ if remainder = 0 then [] else older) := by
  have hremainder : e.remainders[d.level]? = some remainder := by
    rcases hextends.remainders with ⟨rest, hrest⟩
    have hlevel : d.level < d.remainders.length := by
      rw [h.remainders_length]
      exact Nat.lt_succ_self _
    rw [← hrest, List.getElem?_append_left hlevel]
    exact h.remainder_eq
  exact word?_of_tables hcount hremainder (h.newer_eq e hextends) (h.older_eq e hextends)

/-- One round of the division is one round of the weaving. -/
theorem Reached.next (h : d.Reached remainder older newer) (hmore : 1 < remainder) :
    (d.next remainder).Reached (d.divisor % remainder) newer
      (copies (d.divisor / remainder) newer ++ older) := by
  have hcounts := h.counts_length
  have hremainders := h.remainders_length
  have hback {e : Division} (he : (d.next remainder).Extends e) : d.Extends e :=
    ⟨(List.prefix_append _ _).trans he.counts, (List.prefix_append _ _).trans he.remainders⟩
  refine ⟨?_, ?_, ?_, ?_, ?_⟩
  · simp [Division.next, hcounts]
  · simp [Division.next, hremainders]
  · simp [Division.next, ← hremainders]
  · intro e he
    have hcount : e.counts[d.level]? = some (d.divisor / remainder) := by
      rcases he.counts with ⟨rest, hrest⟩
      simp [← hrest, Division.next, ← hcounts]
    have hlevel : ((d.next remainder).level : Int) - 1 = d.level := by
      simp [Division.next]
    rw [hlevel, h.word? (hback he) hcount, if_neg (by omega)]
  · intro e he
    have hlevel : ((d.next remainder).level : Int) - 2 = d.level - 1 := by
      simp [Division.next]
      omega
    rw [hlevel]
    exact h.newer_eq e (hback he)

/-- The division ends, since ever less remains, and the last level spells the woven word. -/
theorem Reached.finish? {divisor : Nat} (h : d.Reached remainder older newer)
    (hdivisor : d.divisor = divisor) :
    ∃ turns ≤ max 1 remainder, ∃ e, d.finish? turns = some e ∧
      e.word? e.level = some (weave divisor remainder older newer) := by
  fun_induction weave divisor remainder older newer generalizing d with
  | case1 divisor remainder older newer hmore ih =>
    subst hdivisor
    rcases ih (h.next hmore) rfl with ⟨turns, hturns, e, hfinish, hword⟩
    have hless : d.divisor % remainder < remainder := Nat.mod_lt _ (by omega)
    refine ⟨turns + 1, by omega, e, ?_, hword⟩
    rw [Division.finish?, h.remainder_eq, Option.bind_eq_bind, Option.bind_some, if_pos hmore]
    exact hfinish
  | case2 divisor remainder older newer hlast =>
    subst hdivisor
    have hextends : d.Extends d.close := ⟨List.prefix_append _ _, List.prefix_refl _⟩
    have hcount : d.close.counts[d.level]? = some d.divisor := by
      simp [close, ← h.counts_length]
    refine ⟨1, le_max_left 1 _, d.close, ?_, h.word? hextends hcount⟩
    rw [Division.finish?, h.remainder_eq, Option.bind_eq_bind, Option.bind_some, if_neg hlast]

end Division

theorem byLevels?_eq (pulses steps : Nat) :
    ∃ turns ≤ pulses, byLevels? turns pulses steps = some (euclidean pulses steps) := by
  by_cases hall : steps ≤ pulses
  · refine ⟨0, Nat.zero_le _, ?_⟩
    rw [byLevels?, euclidean, if_pos hall, if_pos hall]
  · by_cases hnone : pulses = 0
    · refine ⟨0, Nat.zero_le _, ?_⟩
      rw [byLevels?, euclidean, if_neg hall, if_neg hall, if_pos hnone, if_pos hnone]
    · rcases (Division.Reached.start pulses steps).finish? rfl with
        ⟨turns, hturns, d, hfinish, hword⟩
      refine ⟨turns, by omega, ?_⟩
      rw [byLevels?, euclidean, if_neg hall, if_neg hall, if_neg hnone, if_neg hnone, hfinish]
      exact hword

/-! ## Turning -/

/-- A slot moves by the offset, and around the end of the rhythm. -/
theorem getElem?_rotate (pattern : List Bool) (offset : Int) {i : Nat} (hi : i < pattern.length) :
    (rotate pattern offset)[((i + offset) % pattern.length).toNat]? = pattern[i]? := by
  have hpos : (0 : Int) < pattern.length := by omega
  have hcut := Int.emod_nonneg offset hpos.ne'
  have hplace := Int.emod_nonneg (i + offset) hpos.ne'
  have hplace_lt := Int.emod_lt_of_pos (i + offset) hpos
  have hcut_lt := Int.emod_lt_of_pos offset hpos
  -- The place that is moved to is as far behind the cut as the slot was behind the beginning.
  have hback : (((i + offset) % pattern.length).toNat +
      (pattern.length - (offset % pattern.length).toNat)) % pattern.length = i := by
    have hmoved : ((i + offset) % pattern.length + (pattern.length - offset % pattern.length)) ≡
        (i + offset) + (0 - offset) [ZMOD pattern.length] :=
      (Int.mod_modEq _ _).add ((Int.modEq_zero_iff_dvd.2 dvd_rfl).sub (Int.mod_modEq _ _))
    have hsum : ((i : Int) + offset) + (0 - offset) = i := by ring
    rw [hsum] at hmoved
    have hmod := hmoved.eq
    rw [Int.emod_eq_of_lt (Int.natCast_nonneg i) (by omega)] at hmod
    zify
    rw [Int.toNat_of_nonneg hplace, Nat.cast_sub (by omega), Int.toNat_of_nonneg hcut]
    exact hmod
  rw [rotate, ← List.rotate_eq_drop_append_take (Nat.sub_le _ _),
    List.getElem?_rotate (by omega), hback]

/-! ## Exact rhythms -/

/-- A rhythm of `pulses` hits over `steps` slots, for any two numbers.

Its division ends within `pulses` turns, and the building looks up no level that the tables do not
have. The rhythm has as many slots as asked for, and as many hits, or one on every slot if there are
fewer. Turned by any offset it still has them, with each slot moved by the offset around the end. -/
theorem euclidean_exact (pulses steps : Nat) :
    let rhythm := euclidean pulses steps
    (∃ turns ≤ pulses, byLevels? turns pulses steps = some rhythm) ∧
      (rhythm.length = steps ∧ rhythm.count true = min pulses steps) ∧
      ∀ offset : Int,
        ((rotate rhythm offset).length = steps ∧
          (rotate rhythm offset).count true = min pulses steps) ∧
        ∀ i < steps, (rotate rhythm offset)[((i + offset) % steps).toNat]? = rhythm[i]? := by
  intro rhythm
  have hlength : rhythm.length = steps := length_euclidean pulses steps
  have hcount : rhythm.count true = min pulses steps := count_euclidean pulses steps
  refine ⟨byLevels?_eq pulses steps, ⟨hlength, hcount⟩, ?_⟩
  intro offset
  have hperm := rotate_perm rhythm offset
  refine ⟨⟨hperm.length_eq.trans hlength, (hperm.count_eq true).trans hcount⟩, ?_⟩
  intro i hi
  have hmoved := getElem?_rotate rhythm offset (hlength.symm ▸ hi)
  rwa [hlength] at hmoved

/-- Of five hits over thirteen slots the first one, turned back by two, is the last one. -/
theorem euclidean_exact_turned_back :
    1 < 13 ∧ (euclidean 5 13)[1]? = some true ∧
      (rotate (euclidean 5 13) (-2))[12]? = some true := by
  have hi : 1 < 13 := by decide
  have hhit : (euclidean 5 13)[1]? = some true := by decide +kernel
  have hmoved := ((euclidean_exact 5 13).2.2 (-2)).2 1 hi
  exact ⟨hi, hhit, hmoved.trans hhit⟩

end Groovebox.Rhythm
