import Mathlib.Data.Nat.Count
import Mathlib.Tactic
import Groovebox.Proofs.Rhythm
/-! # Even rhythms are even

A rhythm is walked slot by slot: each rest climbs by as much as there are hits, and each hit falls
by as much as there are rests, so that every turn ends at the height at which it began. The walk
along a woven rhythm stays in a band as wide as the rhythm is long, because each round of Euclid's
algorithm puts longer words for the rests and hits of the round after it and keeps the walk in such
a band.

* `Rhythm.weave_stays`: the walk along a woven word stays in a band.
* `Rhythm.windowHits_bounds`: the hits of a window are less than one away from their exact share.
* `Rhythm.euclidean_even`: windows of one length differ by one hit at most, and neighbouring hits
  have the distance that an even division gives, rounded down or up.
-/

namespace Groovebox.Rhythm

/-! ## Weaving by substitution -/

/-- What stands in the word of one round for a rest and for a hit of the round after it. -/
def refine (quotient : Nat) : Bool → List Bool
  | false => List.replicate quotient false ++ [true]
  | true => [false]

theorem copies_flatMap (n : Nat) (word : List Bool) (g : Bool → List Bool) :
    copies n (word.flatMap g) = (copies n word).flatMap g := by
  induction n with
  | zero => rfl
  | succ n ih =>
    rw [copies, copies] at ih ⊢
    rw [List.replicate_succ, List.replicate_succ, List.flatten_cons, List.flatten_cons,
      List.flatMap_append, ih]

/-- Weaving substituted words is substituting in the woven word. -/
theorem weave_flatMap (g : Bool → List Bool) (divisor remainder : Nat) (older newer : List Bool) :
    weave divisor remainder (older.flatMap g) (newer.flatMap g) =
      (weave divisor remainder older newer).flatMap g := by
  fun_induction weave divisor remainder older newer with
  | case1 divisor remainder older newer hmore ih =>
    rw [weave, if_pos hmore, copies_flatMap, ← List.flatMap_append, ih]
  | case2 divisor remainder older newer hlast =>
    rw [weave, if_neg hlast, copies_flatMap, List.flatMap_append]
    split
    · rfl
    · rfl

/-- One round of the division, seen from the rounds after it. -/
theorem weave_eq_refine {divisor remainder : Nat} (hmore : 1 < remainder) :
    weave divisor remainder [true] [false] =
      (weave remainder (divisor % remainder) [true] [false]).flatMap
        (refine (divisor / remainder)) := by
  have hrest : copies (divisor / remainder) [false] ++ [true] =
      [false].flatMap (refine (divisor / remainder)) := by
    simp [copies, refine, List.flatten_replicate_singleton]
  have hhit : [false] = [true].flatMap (refine (divisor / remainder)) := rfl
  rw [weave, if_pos hmore, hrest]
  conv_lhs => rw [hhit]
  exact weave_flatMap _ _ _ _ _

/-! ## Walks -/

/-- The change of height at a slot. -/
def climb (rise fall : Nat) (hit : Bool) : Int :=
  if hit then -fall else rise

/-- The walk along a word from a height on never leaves the band of `rise + fall` heights from `low`
up. -/
def Stays (rise fall : Nat) (low : Int) : Int → List Bool → Prop
  | height, [] => low ≤ height ∧ height < low + rise + fall
  | height, hit :: word =>
    (low ≤ height ∧ height < low + rise + fall) ∧
      Stays rise fall low (height + climb rise fall hit) word

variable {rise fall : Nat} {low height : Int} {word : List Bool}

@[simp] theorem climb_rest : climb rise fall false = rise := rfl

@[simp] theorem climb_hit : climb rise fall true = -fall := rfl

theorem Stays.here (h : Stays rise fall low height word) :
    low ≤ height ∧ height < low + rise + fall := by
  cases word with
  | nil => exact h
  | cons hit word => exact h.1

/-- A run of rests stays in the band if its end does. -/
theorem Stays.of_rests {rest : List Bool} (n : Nat) (hlow : low ≤ height)
    (hrest : Stays rise fall low (height + n * rise) rest) :
    Stays rise fall low height (List.replicate n false ++ rest) := by
  induction n generalizing height with
  | zero => simpa using hrest
  | succ n ih =>
    have hhigh := hrest.here.2
    have hclimbed : height + rise ≤ height + ((n + 1 : Nat) : Int) * rise := by
      push_cast
      nlinarith
    have hnext : low ≤ height + climb rise fall false := by
      rw [climb_rest]
      omega
    refine ⟨⟨hlow, by omega⟩, ih hnext ?_⟩
    have hend : height + climb rise fall false + n * rise =
        height + ((n + 1 : Nat) : Int) * rise := by
      rw [climb_rest]
      push_cast
      ring
    rw [hend]
    exact hrest

/-- A round of the division turns the walk upside down and widens the band. -/
theorem Stays.flatMap_refine {divisor remainder : Nat}
    (h : Stays (divisor % remainder) remainder low height word) :
    Stays remainder divisor (-low - remainder - (divisor % remainder : Nat) + 1) (-height)
      (word.flatMap (refine (divisor / remainder))) := by
  have hdivision : (divisor / remainder : Nat) * (remainder : Int) + (divisor % remainder : Nat) =
      divisor := by
    exact_mod_cast Nat.div_add_mod' divisor remainder
  have hless : divisor % remainder ≤ divisor := Nat.mod_le _ _
  induction word generalizing height with
  | nil =>
    have hhere := h.here
    constructor
    · omega
    · omega
  | cons hit word ih =>
    have hhere := h.here
    have hnext := h.2.here
    have htail := ih h.2
    cases hit with
    | false =>
      -- All rests of the new word are climbed first; the hit behind them comes down again.
      rw [climb_rest] at hnext htail
      have htop : -height + (divisor / remainder : Nat) * (remainder : Int) +
          climb remainder divisor true = -(height + (divisor % remainder : Nat)) := by
        rw [climb_hit]
        omega
      have hword : (false :: word).flatMap (refine (divisor / remainder)) =
          List.replicate (divisor / remainder) false ++
            (true :: word.flatMap (refine (divisor / remainder))) := by
        simp [refine]
      rw [hword]
      apply Stays.of_rests _ (by omega)
      refine ⟨⟨?_, ?_⟩, ?_⟩
      · omega
      · omega
      · rw [htop]
        exact htail
    | true =>
      rw [climb_hit] at hnext htail
      refine ⟨⟨by omega, by omega⟩, ?_⟩
      have hstep : -height + climb remainder divisor false = -(height + -(remainder : Int)) := by
        rw [climb_rest]
        omega
      rw [hstep]
      exact htail

/-- The walk along a woven word, from its first slot on, stays in a band as wide as the word is
long. -/
theorem weave_stays (remainder : Nat) :
    ∀ divisor, 0 < divisor →
      ∃ low, Stays remainder divisor low 0 (weave divisor remainder [true] [false]) := by
  induction remainder using Nat.strong_induction_on with
  | _ remainder ih =>
    intro divisor hdivisor
    by_cases hmore : 1 < remainder
    · have hless : divisor % remainder < remainder := Nat.mod_lt _ (by omega)
      rcases ih _ hless remainder (by omega) with ⟨low, hstays⟩
      rw [weave_eq_refine hmore]
      exact ⟨_, by simpa using hstays.flatMap_refine⟩
    · -- The word of the last round is a run of rests with one hit behind it, or none.
      refine ⟨0, ?_⟩
      rw [weave, if_neg hmore, copies, List.flatten_replicate_singleton]
      apply Stays.of_rests _ le_rfl
      by_cases hnone : remainder = 0
      · subst hnone
        simp [Stays, hdivisor]
      · have hone : remainder = 1 := by omega
        subst hone
        rw [if_neg hnone]
        simp only [Stays, climb_hit]
        omega

/-- The heights of the walk, by the hits that have been passed. -/
theorem Stays.take (h : Stays rise fall low height word) {i : Nat} (hi : i ≤ word.length) :
    low ≤ height + rise * i - (rise + fall) * (word.take i).count true ∧
      height + rise * i - (rise + fall) * (word.take i).count true < low + rise + fall := by
  induction word generalizing height i with
  | nil =>
    have hzero : i = 0 := by simpa using hi
    subst hzero
    simpa using h.here
  | cons hit word ih =>
    cases i with
    | zero => simpa using h.here
    | succ i =>
      have hrest := ih h.2 (Nat.le_of_succ_le_succ hi)
      have hheight : height + climb rise fall hit + rise * i -
            (rise + fall) * (word.take i).count true =
          height + rise * ((i + 1 : Nat) : Int) -
            (rise + fall) * ((hit :: word).take (i + 1)).count true := by
        cases hit with
        | false =>
          simp
          ring
        | true =>
          simp
          ring
      rw [hheight] at hrest
      exact hrest

/-! ## Windows -/

/-- Whether a rhythm that is repeated for ever has a hit at a place. -/
def SoundsAt (rhythm : List Bool) (place : Nat) : Prop :=
  rhythm[place % rhythm.length]? = some true

instance (rhythm : List Bool) : DecidablePred (SoundsAt rhythm) :=
  fun place => inferInstanceAs (Decidable (rhythm[place % rhythm.length]? = some true))

/-- The number of hits in so many slots from a place on, where the end of the rhythm is followed by
its beginning. -/
def windowHits (rhythm : List Bool) (start length : Nat) : Nat :=
  Nat.count (fun k => SoundsAt rhythm (start + k)) length

/-- One hit follows another, with none between them. -/
structure Neighbours (rhythm : List Bool) (i j : Nat) : Prop where
  lt : i < j
  left : SoundsAt rhythm i
  right : SoundsAt rhythm j
  between : ∀ k, i < k → k < j → ¬ SoundsAt rhythm k

variable {rhythm : List Bool}

theorem SoundsAt.length_pos {place : Nat} (h : SoundsAt rhythm place) : 0 < rhythm.length := by
  rcases List.getElem?_eq_some_iff.1 h with ⟨hplace, -⟩
  omega

theorem count_soundsAt_take {i : Nat} (hi : i ≤ rhythm.length) :
    Nat.count (SoundsAt rhythm) i = (rhythm.take i).count true := by
  induction i with
  | zero => simp
  | succ i ih =>
    have hget : rhythm[i]? = some rhythm[i] := List.getElem?_eq_getElem hi
    have hsounds : SoundsAt rhythm i ↔ rhythm[i] = true := by
      rw [SoundsAt, Nat.mod_eq_of_lt hi, hget, Option.some_inj]
    rw [Nat.count_succ, ih (by omega), List.take_add_one, hget, List.count_append]
    cases hhit : rhythm[i] <;> simp [hsounds, hhit]

theorem soundsAt_add_length (rhythm : List Bool) (place : Nat) :
    SoundsAt rhythm (rhythm.length + place) ↔ SoundsAt rhythm place := by
  rw [SoundsAt, Nat.add_mod_left]
  rfl

/-- Every turn has the same hits. -/
theorem count_soundsAt_turns (rhythm : List Bool) (turns i : Nat) :
    Nat.count (SoundsAt rhythm) (turns * rhythm.length + i) =
      turns * rhythm.count true + Nat.count (SoundsAt rhythm) i := by
  induction turns with
  | zero => simp
  | succ turns ih =>
    have hplaces : (turns + 1) * rhythm.length + i =
        rhythm.length + (turns * rhythm.length + i) := by ring
    have hturn : Nat.count (SoundsAt rhythm) rhythm.length = rhythm.count true := by
      rw [count_soundsAt_take le_rfl, List.take_length]
    have hshift : Nat.count (fun k => SoundsAt rhythm (rhythm.length + k))
          (turns * rhythm.length + i) =
        Nat.count (SoundsAt rhythm) (turns * rhythm.length + i) := by
      simp only [soundsAt_add_length]
    rw [hplaces, Nat.count_add, hturn, hshift, ih]
    ring

theorem count_soundsAt_add (rhythm : List Bool) (start length : Nat) :
    Nat.count (SoundsAt rhythm) (start + length) =
      Nat.count (SoundsAt rhythm) start + windowHits rhythm start length :=
  Nat.count_add _ start length

/-- The heights of a walk that goes on for ever along a rhythm that ends where it began. -/
theorem Stays.forever (h : Stays rise fall low 0 rhythm) (hlength : rhythm.length = rise + fall)
    (hcount : rhythm.count true = rise) (i : Nat) :
    low ≤ rise * (i : Int) - (rise + fall) * Nat.count (SoundsAt rhythm) i ∧
      rise * (i : Int) - (rise + fall) * Nat.count (SoundsAt rhythm) i < low + rise + fall := by
  have hpos : 0 < rhythm.length := by
    have hhere := h.here
    omega
  -- Whole turns change nothing, so that it is enough to look at the first one.
  have hi : i / rhythm.length * rhythm.length + i % rhythm.length = i := Nat.div_add_mod' i _
  have hturn := h.take (Nat.mod_lt i hpos).le
  rw [← count_soundsAt_take (Nat.mod_lt i hpos).le] at hturn
  have hheight : rise * (i : Int) - (rise + fall) * Nat.count (SoundsAt rhythm) i =
      0 + rise * ((i % rhythm.length : Nat) : Int) -
        (rise + fall) * Nat.count (SoundsAt rhythm) (i % rhythm.length) := by
    conv_lhs => rw [← hi, count_soundsAt_turns, hcount]
    rw [hlength]
    push_cast
    ring
  rw [hheight]
  exact hturn

/-- The hits of a window times the length of a turn are less than a turn away from the hits of a
turn times the length of the window. -/
theorem Stays.windowHits_bounds (h : Stays rise fall low 0 rhythm)
    (hlength : rhythm.length = rise + fall) (hcount : rhythm.count true = rise)
    (start length : Nat) :
    length * rise < (rise + fall) * (windowHits rhythm start length + 1) ∧
      (rise + fall) * windowHits rhythm start length < length * rise + (rise + fall) := by
  have hstart := h.forever hlength hcount start
  have hstop := h.forever hlength hcount (start + length)
  rw [count_soundsAt_add] at hstop
  push_cast at hstop
  constructor
  · zify
    linarith [hstart.1, hstop.2]
  · zify
    linarith [hstart.2, hstop.1]

/-! ## Even rhythms -/

/-- Nothing climbs or falls where all slots are hits. -/
theorem stays_replicate_true (hrise : 0 < rise) (n : Nat) :
    Stays rise 0 0 0 (List.replicate n true) := by
  induction n with
  | zero => simp [Stays, hrise]
  | succ n ih => exact ⟨by simp [hrise], by simpa using ih⟩

theorem euclidean_stays {pulses steps : Nat} (hsteps : 0 < steps) (hpulses : pulses ≤ steps) :
    ∃ low, Stays pulses (steps - pulses) low 0 (euclidean pulses steps) := by
  unfold euclidean
  split
  · have hall : pulses = steps := by omega
    rw [hall, Nat.sub_self]
    exact ⟨0, stays_replicate_true hsteps steps⟩
  · split
    · rename_i hnone
      subst hnone
      refine ⟨0, ?_⟩
      rw [← List.append_nil (List.replicate steps false)]
      apply Stays.of_rests _ le_rfl
      simp [Stays, hsteps]
    · exact weave_stays pulses (steps - pulses) (by omega)

/-- Every window of a rhythm has its exact share of the hits, rounded down or up. -/
theorem windowHits_bounds {pulses steps : Nat} (hsteps : 0 < steps) (hpulses : pulses ≤ steps)
    (start length : Nat) :
    length * pulses < steps * (windowHits (euclidean pulses steps) start length + 1) ∧
      steps * windowHits (euclidean pulses steps) start length < length * pulses + steps := by
  rcases euclidean_stays hsteps hpulses with ⟨low, hstays⟩
  have hlength : (euclidean pulses steps).length = pulses + (steps - pulses) := by
    rw [length_euclidean]
    omega
  have hcount : (euclidean pulses steps).count true = pulses := by
    rw [count_euclidean]
    omega
  have hbounds := hstays.windowHits_bounds hlength hcount start length
  have hsum : pulses + (steps - pulses) = steps := by omega
  rw [hsum] at hbounds
  exact hbounds

theorem windowHits_succ (rhythm : List Bool) (start length : Nat) :
    windowHits rhythm start (length + 1) =
      windowHits rhythm start length + if SoundsAt rhythm (start + length) then 1 else 0 :=
  Nat.count_succ _ length

theorem windowHits_succ_left (rhythm : List Bool) (start length : Nat) :
    windowHits rhythm start (length + 1) =
      windowHits rhythm (start + 1) length + if SoundsAt rhythm start then 1 else 0 := by
  have hmoved := Nat.count_succ' (fun k => SoundsAt rhythm (start + k)) length
  simp only [Nat.add_zero, Nat.add_comm _ 1, ← Nat.add_assoc] at hmoved ⊢
  exact hmoved

/-- Nothing sounds between neighbouring hits. -/
theorem Neighbours.windowHits_between {i gap : Nat} (h : Neighbours rhythm i (i + gap + 1)) :
    windowHits rhythm (i + 1) gap = 0 := by
  rw [windowHits, Nat.count_iff_forall_not]
  intro k hk
  exact h.between _ (by omega) (by omega)

/-- From a hit to the next one the window holds just these two. -/
theorem Neighbours.windowHits_both {i gap : Nat} (h : Neighbours rhythm i (i + gap + 1)) :
    windowHits rhythm i (gap + 1 + 1) = 2 := by
  have hright : SoundsAt rhythm (i + 1 + gap) := by
    have hplace : i + 1 + gap = i + gap + 1 := by omega
    exact hplace ▸ h.right
  rw [windowHits_succ_left, windowHits_succ, h.windowHits_between, if_pos h.left, if_pos hright]

/-- The distance of neighbouring hits is the length of a turn shared out evenly, rounded down or
up. -/
theorem Neighbours.distance {pulses steps i j : Nat} (hpulses : pulses ≤ steps)
    (h : Neighbours (euclidean pulses steps) i j) :
    j - i = steps / pulses ∨ j - i = (steps + pulses - 1) / pulses := by
  have hlt := h.lt
  obtain ⟨gap, rfl⟩ : ∃ gap, j = i + gap + 1 := ⟨j - i - 1, by omega⟩
  have hsteps : 0 < steps := by
    have hpos := h.left.length_pos
    rwa [length_euclidean] at hpos
  have hshort := (windowHits_bounds hsteps hpulses (i + 1) gap).1
  rw [h.windowHits_between] at hshort
  have hlong := (windowHits_bounds hsteps hpulses i (gap + 1 + 1)).2
  rw [h.windowHits_both] at hlong
  have hsome : 0 < pulses := by
    by_contra hnone
    have hzero : pulses = 0 := by omega
    subst hzero
    omega
  have hfloor : steps / pulses < gap + 1 + 1 := by
    rw [Nat.div_lt_iff_lt_mul hsome]
    omega
  have hceil : gap ≤ (steps - 1) / pulses := by
    rw [Nat.le_div_iff_mul_le hsome]
    omega
  have hup : (steps + pulses - 1) / pulses = (steps - 1) / pulses + 1 := by
    rw [Nat.sub_add_comm hsteps, Nat.add_div_right _ hsome]
  have hnext : (steps - 1) / pulses ≤ steps / pulses := Nat.div_le_div_right (Nat.sub_le _ _)
  omega

/-- In a rhythm of `pulses` hits over `steps` slots, gone round for ever, windows of one length
differ by one hit at most, and neighbouring hits are as far apart as an even division says, rounded
down or up. -/
theorem euclidean_even {pulses steps : Nat} (hpulses : pulses ≤ steps) :
    let rhythm := euclidean pulses steps
    (rhythm.length = steps ∧ rhythm.count true = pulses) ∧
      (∀ i j length, windowHits rhythm i length ≤ windowHits rhythm j length + 1) ∧
      ∀ i j, Neighbours rhythm i j →
        j - i = steps / pulses ∨ j - i = (steps + pulses - 1) / pulses := by
  intro rhythm
  have hlength : rhythm.length = steps := length_euclidean pulses steps
  have hcount : rhythm.count true = pulses := by
    rw [count_euclidean]
    omega
  refine ⟨⟨hlength, hcount⟩, ?_, fun i j h => h.distance hpulses⟩
  intro i j length
  by_cases hsteps : 0 < steps
  · -- Both windows are less than one hit away from the same share.
    have hi := (windowHits_bounds hsteps hpulses i length).2
    have hj := (windowHits_bounds hsteps hpulses j length).1
    have hclose :
        steps * windowHits rhythm i length < steps * (windowHits rhythm j length + 2) := by
      linarith
    have hless := Nat.lt_of_mul_lt_mul_left hclose
    omega
  · -- Without slots there are no hits.
    have hnone : windowHits rhythm i length = 0 := by
      rw [windowHits, Nat.count_iff_forall_not]
      intro k _ hsounds
      have hpos := hsounds.length_pos
      omega
    omega

/-- Of five hits over thirteen slots, the last one and the first one of the next turn are three
slots apart. -/
theorem euclidean_even_five_of_thirteen :
    5 ≤ 13 ∧ Neighbours (euclidean 5 13) 11 14 ∧
      (14 - 11 = 13 / 5 ∨ 14 - 11 = (13 + 5 - 1) / 5) ∧
      windowHits (euclidean 5 13) 9 6 ≤ windowHits (euclidean 5 13) 11 6 + 1 := by
  have hle : 5 ≤ 13 := by decide
  have hword : euclidean 5 13 = [false, true, false, false, true, false, true, false, false, true,
      false, true, false] := by decide +kernel
  have hneighbours : Neighbours (euclidean 5 13) 11 14 := by
    rw [hword]
    refine ⟨by decide, rfl, rfl, ?_⟩
    intro k hleft hright
    interval_cases k <;> decide
  have heven := euclidean_even hle
  exact ⟨hle, hneighbours, heven.2.2 11 14 hneighbours, heven.2.1 9 11 6⟩

end Groovebox.Rhythm
