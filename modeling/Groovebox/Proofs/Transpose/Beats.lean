import Mathlib.Data.Nat.Periodic
import Mathlib.Tactic
import Groovebox.Transpose
/-! # The beats of a transpose sequence

A transpose sequence whose steps all last divides every loop among them: one step after the other
covers as many beats as it lasts, and no two cover the same beat.

* `TransposeSequence.covering?_eq_some_iff`: which step covers a beat of the loop.
* `TransposeSequence.stepAtBeat?_partitions`: which step sounds at a beat, and for how many.
-/

namespace Groovebox.TransposeSequence

/-- Every step lasts for a beat at least. -/
def Lasting (q : TransposeSequence) : Prop :=
  ∀ s ∈ q.steps, 1 ≤ s.duration

instance (q : TransposeSequence) : Decidable q.Lasting :=
  inferInstanceAs (Decidable (∀ s ∈ q.steps, 1 ≤ s.duration))

/-- How many beats steps last together. -/
def beats (steps : List TransposeStep) : Nat :=
  (steps.map TransposeStep.duration).sum

/-- A beat of the loop is behind the steps before a place, and not behind the step at the place. -/
def Covers (q : TransposeSequence) (i beat : Nat) : Prop :=
  i < q.length ∧ beats (q.steps.take i) ≤ beat ∧ beat < beats (q.steps.take (i + 1))

variable {q : TransposeSequence} {s : TransposeStep} {steps : List TransposeStep}

@[simp] theorem beats_nil : beats [] = 0 := rfl

@[simp] theorem beats_cons (s : TransposeStep) (steps : List TransposeStep) :
    beats (s :: steps) = s.duration + beats steps := rfl

/-- The beats of two parts add up. -/
theorem beats_append (steps more : List TransposeStep) :
    beats (steps ++ more) = beats steps + beats more := by
  rw [beats, List.map_append, List.sum_append]
  rfl

/-- The length of a sequence is the sum of the lengths of its steps. -/
theorem totalDuration_eq (q : TransposeSequence) : q.totalDuration = beats q.steps := by
  rw [totalDuration, beats, List.sum, List.foldr_map]

/-! ## One loop -/

/-- The step that covers a beat has all steps before it behind the beat, and not itself. -/
theorem covering?_eq_some_iff (steps : List TransposeStep) :
    ∀ {beat i : Nat}, covering? beat steps = some i ↔
      i < steps.length ∧ beats (steps.take i) ≤ beat ∧ beat < beats (steps.take (i + 1)) := by
  induction steps with
  | nil => simp [covering?]
  | cons s steps ih =>
    intro beat i
    rw [covering?]
    split
    · -- The first step covers the beat, so that no later one does.
      rename_i hbeat
      cases i with
      | zero => simpa using hbeat
      | succ i =>
        simp only [Option.some_inj, List.take_succ_cons, beats_cons]
        omega
    · rename_i hbeat
      cases i with
      | zero => simpa using hbeat
      | succ i =>
        simp only [Option.map_eq_some_iff, Nat.add_right_cancel_iff, exists_eq_right, ih,
          List.length_cons, List.take_succ_cons, beats_cons]
        omega

/-- Every beat of the loop is covered. -/
theorem exists_covering? (steps : List TransposeStep) :
    ∀ {beat : Nat}, beat < beats steps → ∃ i, covering? beat steps = some i := by
  induction steps with
  | nil => exact fun h => absurd h (Nat.not_lt_zero _)
  | cons s steps ih =>
    intro beat hbeat
    rw [covering?]
    split
    · exact ⟨0, rfl⟩
    · rw [beats_cons] at hbeat
      have hrest : beat - s.duration < beats steps := by omega
      rcases ih hrest with ⟨i, hi⟩
      rw [hi]
      exact ⟨i + 1, rfl⟩

/-- One step after the other covers as many beats as it lasts, where the steps are counted from a
number on. -/
theorem map_covering?_range (steps : List TransposeStep) :
    ∀ first : Nat,
      (List.range (beats steps)).map (fun beat => (covering? beat steps).map (· + first)) =
        (steps.zipIdx first).flatMap fun (s, i) => List.replicate s.duration (some i) := by
  induction steps with
  | nil => exact fun _ => rfl
  | cons s steps ih =>
    intro first
    have hfirst : (List.range s.duration).map
        (fun beat => (covering? beat (s :: steps)).map (· + first)) =
          List.replicate s.duration (some first) := by
      rw [List.eq_replicate_iff]
      refine ⟨by simp, ?_⟩
      intro step hstep
      rcases List.mem_map.1 hstep with ⟨beat, hbeat, rfl⟩
      rw [covering?, if_pos (List.mem_range.1 hbeat), Option.map_some, Nat.zero_add]
    have hlater (beat : Nat) : (covering? (s.duration + beat) (s :: steps)).map (· + first) =
        (covering? beat steps).map (· + (first + 1)) := by
      rw [covering?, if_neg (by omega), Nat.add_sub_cancel_left, Option.map_map]
      congr 1
      funext i
      simp only [Function.comp_apply]
      omega
    rw [beats_cons, List.range_add, List.map_append, hfirst, List.map_map, List.zipIdx_cons,
      List.flatMap_cons, ← ih (first + 1)]
    congr 1
    apply List.map_congr_left
    intro beat _
    exact hlater beat

/-! ## Loop after loop -/

/-- The first steps of a sequence are no longer than all of it. -/
theorem beats_take_le (steps : List TransposeStep) (i : Nat) :
    beats (steps.take i) ≤ beats steps := by
  calc beats (steps.take i)
    _ ≤ beats (steps.take i) + beats (steps.drop i) := Nat.le_add_right _ _
    _ = beats steps := by rw [← beats_append, List.take_append_drop]

/-- Each step ends by its length after the steps before it. -/
theorem beats_take_succ {i : Nat} (h : steps[i]? = some s) :
    beats (steps.take (i + 1)) = beats (steps.take i) + s.duration := by
  rw [List.take_add_one, h, beats_append]
  rfl

/-- A sequence with any step lasts. -/
theorem Lasting.totalDuration_pos (hq : q.Lasting) (h : q.steps ≠ []) : 0 < q.totalDuration := by
  rw [totalDuration_eq]
  rcases List.exists_cons_of_ne_nil h with ⟨s, steps, hsteps⟩
  have hs : 1 ≤ s.duration := hq s (by simp [hsteps])
  rw [hsteps, beats_cons]
  omega

/-- The step at a beat is the one that covers what remains of the beat within one turn. -/
theorem stepAtBeat?_eq_some_iff {beat i : Nat} :
    q.stepAtBeat? beat = some i ↔ q.Covers i (beat % q.totalDuration) := by
  unfold stepAtBeat? Covers
  split
  · -- Nothing is covered where the steps do not last.
    rename_i hzero
    rw [totalDuration_eq] at hzero
    have hnone : beats (q.steps.take (i + 1)) = 0 :=
      Nat.le_zero.1 (hzero ▸ beats_take_le q.steps (i + 1))
    simp [hnone]
  · exact covering?_eq_some_iff q.steps

/-- In a sequence that lasts there is a step at every beat. -/
theorem Lasting.exists_stepAtBeat? (hq : q.Lasting) (h : q.steps ≠ []) (beat : Nat) :
    ∃ i, q.stepAtBeat? beat = some i := by
  have hpos := hq.totalDuration_pos h
  rw [stepAtBeat?, if_neg hpos.ne']
  apply exists_covering?
  rw [← totalDuration_eq]
  exact Nat.mod_lt beat hpos

/-- Only an empty sequence has no step at a beat. -/
theorem Lasting.stepAtBeat?_eq_none_iff (hq : q.Lasting) {beat : Nat} :
    q.stepAtBeat? beat = none ↔ q.steps = [] := by
  constructor
  · intro hnone
    by_contra h
    rcases hq.exists_stepAtBeat? h beat with ⟨i, hi⟩
    rw [hnone] at hi
    cases hi
  · intro hempty
    have hzero : q.totalDuration = 0 := by rw [totalDuration_eq, hempty, beats_nil]
    rw [stepAtBeat?, if_pos hzero]

/-- No two steps cover the same beat of a turn. -/
theorem Lasting.covers_unique (hq : q.Lasting) (h : q.steps ≠ []) (beat : Nat) :
    ∃! i, q.Covers i (beat % q.totalDuration) := by
  rcases hq.exists_stepAtBeat? h beat with ⟨i, hi⟩
  refine ⟨i, stepAtBeat?_eq_some_iff.1 hi, ?_⟩
  intro j hj
  have hsame := stepAtBeat?_eq_some_iff.2 hj
  rw [hi] at hsame
  exact (Option.some_inj.1 hsame).symm

/-- A loop later the same step sounds. -/
theorem stepAtBeat?_add (q : TransposeSequence) (beat : Nat) :
    q.stepAtBeat? (beat + q.totalDuration) = q.stepAtBeat? beat := by
  rw [stepAtBeat?, stepAtBeat?, Nat.add_mod_right]

/-- Among as many beats in a row as a loop has, wherever they begin, a step sounds on as many as it
lasts. -/
theorem card_stepAtBeat? {i : Nat} (h : q.steps[i]? = some s) (start : Nat) :
    {beat ∈ Finset.Ico start (start + q.totalDuration) | q.stepAtBeat? beat = some i}.card =
      s.duration := by
  have hperiodic : Function.Periodic (fun beat => q.stepAtBeat? beat = some i)
      q.totalDuration := by
    intro beat
    simp only [stepAtBeat?_add]
  have hlength : i < q.length := (List.getElem?_eq_some_iff.1 h).1
  have hend : beats (q.steps.take (i + 1)) ≤ q.totalDuration := by
    rw [totalDuration_eq]
    exact beats_take_le q.steps (i + 1)
  -- In the first loop the beats of a step are an interval.
  have hinterval : {beat ∈ Finset.range q.totalDuration | q.stepAtBeat? beat = some i} =
      Finset.Ico (beats (q.steps.take i)) (beats (q.steps.take (i + 1))) := by
    ext beat
    rw [Finset.mem_filter, Finset.mem_range, Finset.mem_Ico, stepAtBeat?_eq_some_iff, Covers]
    constructor
    · rintro ⟨hbeat, -, hcovers⟩
      rwa [Nat.mod_eq_of_lt hbeat] at hcovers
    · rintro ⟨hlow, hhigh⟩
      have hbeat : beat < q.totalDuration := hhigh.trans_le hend
      rw [Nat.mod_eq_of_lt hbeat]
      exact ⟨hbeat, hlength, hlow, hhigh⟩
  rw [Nat.filter_Ico_card_eq_of_periodic start q.totalDuration _ hperiodic,
    Nat.count_eq_card_filter_range, hinterval, Nat.card_Ico, beats_take_succ h]
  omega

/-- From the start of a loop on, the steps sound in their order, each for as many beats as it
lasts. -/
theorem map_stepAtBeat?_loop (q : TransposeSequence) (turn : Nat) :
    (List.range q.totalDuration).map (fun beat => q.stepAtBeat? (turn * q.totalDuration + beat)) =
      q.steps.zipIdx.flatMap fun (s, i) => List.replicate s.duration (some i) := by
  rw [← map_covering?_range q.steps 0, ← totalDuration_eq]
  apply List.map_congr_left
  intro beat hbeat
  have hlt : beat < q.totalDuration := List.mem_range.1 hbeat
  have hmod : (turn * q.totalDuration + beat) % q.totalDuration = beat := by
    rw [Nat.mul_comm, Nat.mul_add_mod, Nat.mod_eq_of_lt hlt]
  rw [stepAtBeat?, if_neg (by omega), hmod]
  simp

/-- The interval at a beat is that of the step there. -/
theorem transposeAtBeat_eq {beat i : Nat} (h : q.stepAtBeat? beat = some i) :
    ∃ s, q.steps[i]? = some s ∧ q.transposeAtBeat beat = s.transpose := by
  have hlength : i < q.length := (stepAtBeat?_eq_some_iff.1 h).1
  have hstep : q.steps[i]? = some q.steps[i] := List.getElem?_eq_getElem hlength
  refine ⟨_, hstep, ?_⟩
  rw [transposeAtBeat, h, Option.bind_some, hstep]

/-- Where every step lasts, a beat has no step just if there are none. Otherwise the step that
sounds is the only one whose beats the beat falls on, counted within its loop; the steps sound in
their order from the start of each loop, and each for as many beats as it lasts, wherever one begins
to count. The interval is that of the step. -/
theorem stepAtBeat?_partitions (hq : q.Lasting) :
    (∀ beat, q.stepAtBeat? beat = none ↔ q.steps = []) ∧
      (q.steps ≠ [] → ∀ beat, ∃! i, q.Covers i (beat % q.totalDuration)) ∧
      (∀ beat i, q.stepAtBeat? beat = some i ↔ q.Covers i (beat % q.totalDuration)) ∧
      (∀ (i : Nat) (s : TransposeStep), q.steps[i]? = some s → ∀ start,
        {beat ∈ Finset.Ico start (start + q.totalDuration) | q.stepAtBeat? beat = some i}.card =
          s.duration) ∧
      (∀ turn, (List.range q.totalDuration).map
          (fun beat => q.stepAtBeat? (turn * q.totalDuration + beat)) =
        q.steps.zipIdx.flatMap fun (s, i) => List.replicate s.duration (some i)) ∧
      (∀ beat, q.stepAtBeat? (beat + q.totalDuration) = q.stepAtBeat? beat) ∧
      ∀ beat i, q.stepAtBeat? beat = some i →
        ∃ s, q.steps[i]? = some s ∧ q.transposeAtBeat beat = s.transpose :=
  ⟨fun _ => hq.stepAtBeat?_eq_none_iff, hq.covers_unique, fun _ _ => stepAtBeat?_eq_some_iff,
    fun _ _ => card_stepAtBeat?, q.map_stepAtBeat?_loop, q.stepAtBeat?_add,
    fun _ _ => transposeAtBeat_eq⟩

/-- Steps of four, one and two beats. -/
def uneven : TransposeSequence :=
  { steps := [{ duration := 4 }, { transpose := 5, duration := 1 },
      { transpose := -3, duration := 2 }] }

/-- In the second loop the second step sounds at its only beat. In the seven beats from the sixth on
the first step sounds on four. -/
theorem stepAtBeat?_partitions_uneven :
    uneven.Lasting ∧ uneven.stepAtBeat? 11 = some 1 ∧ uneven.transposeAtBeat 11 = 5 ∧
      {beat ∈ Finset.Ico 5 12 | uneven.stepAtBeat? beat = some 0}.card = 4 := by
  have hlasting : uneven.Lasting := by decide
  rcases stepAtBeat?_partitions hlasting with ⟨-, -, hcovers, hshare, -, -, htranspose⟩
  have hstep : uneven.stepAtBeat? 11 = some 1 := (hcovers 11 1).2 (by unfold Covers; decide)
  rcases htranspose 11 1 hstep with ⟨s, hs, hinterval⟩
  cases hs
  exact ⟨hlasting, hstep, hinterval, hshare 0 _ rfl 5⟩

end Groovebox.TransposeSequence
