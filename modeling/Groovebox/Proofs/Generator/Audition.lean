import Mathlib.Tactic
import Groovebox.Generator.Audition
import Groovebox.Proofs.Bank
/-! # Generating spares what the user has

A pattern with music in it is written over only if it was generated by the press before, on the same
track and without leaving the generator in between, or if no pattern of the track is empty. This
holds along every run of presses, whatever becomes of the tracks between them.

* `Track.hasContent_of_emptyTarget`: the pattern that is looked for is empty if any is.
* `Audition.Continues`: when a press goes on with the pattern of the press before.
* `Audition.continues_or_empty`: the two ways in which a pattern is chosen.
* `Audition.press_spares`: what a press writes over, and what it leaves as it was.
-/

namespace Groovebox

/-! ## Looking for an empty pattern -/

theorem Track.hasContent_of_emptyTarget {t : Track}
    (h : (t.patterns.get t.emptyTarget).hasContent = true) (i : Fin 16) :
    (t.patterns.get i).hasContent = true := by
  unfold emptyTarget at h
  cases hfound : ((List.range 16).map (Bank.onward t.playingIndex)).find?
      fun i => !(t.patterns.get i).hasContent with
  | some j =>
    -- What is found is empty.
    have hempty := List.find?_some hfound
    simp only [hfound, Option.getD_some] at h
    simp [h] at hempty
  | none =>
    rcases Bank.exists_onward t.playingIndex i with ⟨distance, hlt, rfl⟩
    have hfull := List.find?_eq_none.1 hfound (Bank.onward t.playingIndex distance)
      (List.mem_map_of_mem (List.mem_range.2 hlt))
    simpa using hfull

theorem Track.generationTarget_some (t : Track) (i : Fin 16) :
    t.generationTarget (some i) = i := by
  rw [generationTarget, dif_pos i.isLt]

/-! ## Runs of presses -/

/-- All that a press reads: the track it goes to, as it is by then, and the settings. -/
structure Press where
  /-- The place of the track in the song. -/
  index : Nat
  /-- The track. -/
  track : Track
  /-- The generator's knobs. -/
  params : GeneratorParams
  /-- The generator's style. -/
  style : Style
  /-- The scale hinted at. -/
  hint : Option Scale
  /-- The random generator. -/
  random : Random

namespace Audition

/-- What can be done with the generator: generate, or leave it. -/
inductive Act
  | press (p : Press)
  | finish

/-- What a press brings about. -/
def press (a : Audition) (p : Press) : Outcome :=
  a.generate p.index p.track p.params p.style p.hint p.random

/-- Does one thing. -/
def step (a : Audition) : Act → Audition
  | .press p => (a.press p).audition
  | .finish => a.finish

/-- Does one thing after the other, from the beginning. -/
def run (acts : List Act) : Audition :=
  acts.foldl step {}

theorem run_concat (acts : List Act) (act : Act) : run (acts ++ [act]) = (run acts).step act := by
  rw [run, List.foldl_append]
  rfl

/-- After a press the generator remembers its track and its pattern. -/
theorem lastOn_press (a : Audition) (q : Press) (index : Nat) :
    (a.press q).audition.lastOn index =
      if q.index = index then some (a.press q).target.val else none := rfl

/-! ## Where a press goes -/

/-- The act before a press was a press on the same track, and it went into the pattern. -/
def Continues (acts : List Act) (p : Press) (target : Fin 16) : Prop :=
  ∃ earlier q, acts = earlier ++ [.press q] ∧ q.index = p.index ∧
    ((run earlier).press q).target = target

/-- A press goes on with the pattern of the act before, or looks for an empty one. -/
theorem continues_or_empty (acts : List Act) (p : Press) :
    Continues acts p ((run acts).press p).target ∨
      ((run acts).press p).target = p.track.emptyTarget := by
  rcases List.eq_nil_or_concat' acts with rfl | ⟨earlier, act, rfl⟩
  · exact .inr rfl
  · rw [run_concat]
    cases act with
    | finish => exact .inr rfl
    | press q =>
      have htarget : (((run earlier).step (.press q)).press p).target =
          p.track.generationTarget (((run earlier).press q).audition.lastOn p.index) := rfl
      rw [htarget, lastOn_press]
      by_cases hindex : q.index = p.index
      · rw [if_pos hindex, Track.generationTarget_some]
        exact .inl ⟨earlier, q, rfl, hindex, rfl⟩
      · rw [if_neg hindex]
        exact .inr rfl

/-- A press after any acts, whatever the tracks, the settings and the random generators were.

The pattern that it goes into had music in it only if the act before was a press on the same track
that went into the same pattern, or if all patterns of the track had music in them. The other
patterns stay as they are, and so do the loop window of the pattern and all settings of the track
but two: the track plays the pattern, and has the length that was asked for, moved into its
range. -/
theorem press_spares (acts : List Act) (p : Press) :
    let o := (run acts).press p
    ((p.track.patterns.get o.target).hasContent = true →
        Continues acts p o.target ∨ ∀ i, (p.track.patterns.get i).hasContent = true) ∧
      (∀ i, i ≠ o.target → o.track.patterns.get i = p.track.patterns.get i) ∧
      (o.track.patterns.get o.target).loop = (p.track.patterns.get o.target).loop ∧
      o.track = { p.track with
        patterns := o.track.patterns
        length := p.params.clamped.length
        current := some o.target } := by
  intro o
  refine ⟨?_, ?_, ?_, rfl⟩
  · intro hmusic
    rcases continues_or_empty acts p with hcontinues | hempty
    · exact .inl hcontinues
    · right
      apply Track.hasContent_of_emptyTarget
      rw [← hempty]
      exact hmusic
  · intro i hi
    exact Bank.get_put_of_ne p.track.patterns _ hi.symm
  · have hput : o.track.patterns.get o.target =
        { p.track.patterns.get o.target with
          steps := (Generator.steps p.params p.style p.hint p.random).1 } :=
      Bank.get_put_self p.track.patterns _ _
    rw [hput]

/-- A press on the third track of a song, of which the first so many patterns have a note. -/
def sketched (count : Nat) : Press where
  index := 2
  track := {
    patterns := Vector.ofFn fun i =>
      if i < count then Pattern.ofSteps [({} : Step).setChord [60] [100] 90] else {} }
  params := {}
  style := .pulse
  hint := none
  random := default

/-- The second press in a row goes into the pattern of the first, although there is music by then
and other patterns are empty. -/
theorem press_spares_in_a_row :
    ((sketched 2).track.patterns.get
        ((run [.press (sketched 1)]).press (sketched 2)).target).hasContent = true ∧
      Continues [.press (sketched 1)] (sketched 2)
        ((run [.press (sketched 1)]).press (sketched 2)).target := by
  have hmusic : ((sketched 2).track.patterns.get
      ((run [.press (sketched 1)]).press (sketched 2)).target).hasContent = true := by
    decide +kernel
  have hempty : ((sketched 2).track.patterns.get 2).hasContent = false := by decide +kernel
  refine ⟨hmusic, ((press_spares [.press (sketched 1)] (sketched 2)).1 hmusic).resolve_right ?_⟩
  intro hall
  exact Bool.false_ne_true (hempty.symm.trans (hall 2))

end Audition
end Groovebox
