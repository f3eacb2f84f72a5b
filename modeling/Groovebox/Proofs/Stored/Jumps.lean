import Mathlib.Tactic
import Groovebox.Proofs.Stored.Ranges
/-! # Jumps of stored transpose steps

A stored transpose sequence is an array whose objects become the steps; all else is left out, and so
is every object after the sixteenth. A stored jump is the place of its target in the array. What is
read is the same number, unless it is past the last step: it is not moved along with the steps.

* `TransposeSequence.ofDocument_jumps`: what is read, and when every jump leads to the step it did.
* `TransposeSequence.ofDocument_astray`: a sequence where a jump leads elsewhere.
-/

namespace Groovebox

open Stored

/-! ## Objects of an array -/

/-- The objects of an array with their places, where the array begins at a place. -/
def objectsFrom (start : Nat) (items : List Document) : List (Nat × Members) :=
  (items.zipIdx start).filterMap fun (d, i) => d.members?.map fun m => (i, m)

theorem objectsFrom_cons (start : Nat) (d : Document) (items : List Document) :
    objectsFrom start (d :: items) =
      (d.members?.map fun m => (start, m)).toList ++ objectsFrom (start + 1) items := by
  cases hd : d.members? with
  | none => simp [objectsFrom, List.zipIdx_cons, hd]
  | some m => simp [objectsFrom, List.zipIdx_cons, hd]

theorem map_snd_objectsFrom (items : List Document) :
    ∀ start, (objectsFrom start items).map Prod.snd = items.filterMap Document.members? := by
  induction items with
  | nil => exact fun _ => rfl
  | cons d items ih =>
    intro start
    rw [objectsFrom_cons, List.map_append, ih, List.filterMap_cons]
    cases d.members? with
    | none => rfl
    | some m => rfl

/-- An object is not before its number among the objects, and just there if nothing was left out up
to it. -/
theorem place_of_objectsFrom (items : List Document) :
    ∀ {start k : Nat} {e : Nat × Members}, (objectsFrom start items)[k]? = some e →
      start + k ≤ e.1 ∧
        (e.1 = start + k ↔ ∀ d ∈ items.take (k + 1), d.members?.isSome = true) := by
  induction items with
  | nil =>
    intro start k e he
    cases he
  | cons d items ih =>
    intro start k e he
    rw [objectsFrom_cons] at he
    cases hd : d.members? with
    | none =>
      -- What comes behind is one place further on than its number says.
      rw [hd] at he
      have hbehind := (ih he).1
      constructor
      · omega
      · constructor
        · intro hplace
          omega
        · intro hall
          have hobject := hall d (by simp)
          rw [hd] at hobject
          cases hobject
    | some m =>
      rw [hd] at he
      cases k with
      | zero =>
        cases he
        simp [hd]
      | succ k =>
        rcases ih he with ⟨hle, hiff⟩
        have hplace : start + (k + 1) = start + 1 + k := by omega
        rw [hplace, List.take_succ_cons, List.forall_mem_cons, hd]
        exact ⟨hle, hiff.trans (by simp)⟩

theorem nodup_objectsFrom (start : Nat) (items : List Document) :
    ((objectsFrom start items).map Prod.fst).Nodup := by
  have hplaces : (items.zipIdx start).Pairwise fun a b => a.2 ≠ b.2 := by
    rw [← List.pairwise_map (f := Prod.snd), List.zipIdx_map_snd]
    exact List.nodup_range' _
  rw [List.Nodup, List.pairwise_map, objectsFrom, List.pairwise_filterMap]
  apply hplaces.imp
  rintro ⟨d, i⟩ ⟨d', j⟩ hij x hx y hy
  rcases Option.map_eq_some_iff.1 hx with ⟨m, -, rfl⟩
  rcases Option.map_eq_some_iff.1 hy with ⟨m', -, rfl⟩
  exact hij

/-! ## Transpose steps -/

namespace TransposeSequence

/-- The objects of an array that become steps, with their places. -/
def kept (items : List Document) : List (Nat × Members) :=
  (objectsFrom 0 items).take capacity

/-- The place that an object names as the target of its jump. -/
def storedJump (m : Members) : Option Nat :=
  optional? m ["jump"] some

/-- A jump leads to a step just if the step is the object at the place that was stored. -/
def LeadsToStored (items : List Document) (stored jump : Option Nat) : Prop :=
  ∀ target, jump = some target ↔
    ∃ place, stored = some place ∧ (kept items)[target]?.map Prod.fst = some place

/-- A sequence has the steps of an array, and their jumps lead to the same steps as there. -/
def KeepsTargets (items : List Document) (q : TransposeSequence) : Prop :=
  q.length = (kept items).length ∧ ∀ (k : Nat) (e : Nat × Members), (kept items)[k]? = some e →
    ∃ jump, q.steps[k]? = some { TransposeStep.ofMembers e.2 with jump } ∧
      LeadsToStored items (storedJump e.2) jump

variable {items : List Document}

theorem length_kept_le (items : List Document) : (kept items).length ≤ capacity := by
  rw [kept, List.length_take]
  exact Nat.min_le_left _ _

/-- A step is at the place of its own number just if nothing was left out up to it. -/
theorem place_of_kept {k : Nat} {e : Nat × Members} (h : (kept items)[k]? = some e) :
    e.1 = k ↔ ∀ d ∈ items.take (k + 1), d.members?.isSome = true := by
  have hobject : (objectsFrom 0 items)[k]? = some e := by
    rw [kept, List.getElem?_take] at h
    split at h
    · exact h
    · cases h
  have hplace := (place_of_objectsFrom items hobject).2
  rwa [Nat.zero_add] at hplace

/-- Different steps were at different places. -/
theorem kept_inj {k k' place : Nat} (h : (kept items)[k]?.map Prod.fst = some place)
    (h' : (kept items)[k']?.map Prod.fst = some place) : k = k' := by
  have hnodup : ((kept items).map Prod.fst).Nodup := by
    rw [kept, List.map_take]
    exact (nodup_objectsFrom 0 items).sublist (List.take_sublist _ _)
  rw [← List.getElem?_map] at h h'
  exact (List.getElem?_inj (List.getElem?_eq_some_iff.1 h).1 hnodup).1 (h.trans h'.symm)

/-! ## Reading -/

/-- No stored jump that is in range is too large for a byte. -/
theorem jump_ofMembers (m : Members) {n : Nat} (hn : n ≤ 256) :
    (TransposeStep.ofMembers m).jump.filter (· < n) = (storedJump m).filter (· < n) := by
  have hbyte : (TransposeStep.ofMembers m).jump = (storedJump m).bind (upTo 255) := by
    simp only [TransposeStep.ofMembers, storedJump, optional?, Option.bind_assoc, Option.bind_some]
  rw [hbyte]
  cases storedJump m with
  | none => rfl
  | some place =>
    rw [Option.bind_some, upTo]
    split
    · rfl
    · have hpast : ¬ place < n := by omega
      simp [Option.filter, hpast]

/-- What is read of an array: the steps of its objects, with the jumps that were stored as far as
they are not past the end. -/
theorem steps_ofDocument (items : List Document) :
    (ofDocument (.arr items)).steps = (kept items).map fun e =>
      { TransposeStep.ofMembers e.2 with
        jump := (storedJump e.2).filter (· < (kept items).length) } := by
  have hobjects : items.filterMap Document.members? = (objectsFrom 0 items).map Prod.snd :=
    (map_snd_objectsFrom items 0).symm
  have hsteps : (ofSteps ((items.filterMap Document.members?).map TransposeStep.ofMembers)).steps =
      (kept items).map fun e => TransposeStep.ofMembers e.2 := by
    rw [ofSteps, hobjects, List.map_map, ← List.map_take]
    rfl
  have hlength : (ofSteps ((items.filterMap Document.members?).map
      TransposeStep.ofMembers)).length = (kept items).length := by
    rw [length, hsteps, List.length_map]
  have hread : (ofDocument (.arr items)).steps =
      (ofSteps ((items.filterMap Document.members?).map TransposeStep.ofMembers)).steps.map
        fun s => { s with jump := s.jump.filter (· < (kept items).length) } := by
    rw [← hlength]
    rfl
  rw [hread, hsteps, List.map_map]
  apply List.map_congr_left
  intro e _
  have hbound : (kept items).length ≤ 256 := (length_kept_le items).trans (by decide)
  rw [Function.comp_apply, jump_ofMembers e.2 hbound]

/-! ## Targets -/

/-- A jump that keeps its number leads to its target if the step with that number was at that
place. -/
theorem leadsToStored_self_iff {place : Nat} :
    LeadsToStored items (some place) (some place) ↔
      (kept items)[place]?.map Prod.fst = some place := by
  constructor
  · intro h
    rcases (h place).1 rfl with ⟨place', hplace', htarget⟩
    cases hplace'
    exact htarget
  · intro h target
    constructor
    · rintro ⟨⟩
      exact ⟨place, rfl, h⟩
    · rintro ⟨place', hplace', htarget⟩
      cases hplace'
      rw [kept_inj h htarget]

/-- A jump is rightly dropped if no step was at its target. -/
theorem leadsToStored_none_iff {place : Nat} :
    LeadsToStored items (some place) none ↔ ∀ e ∈ kept items, e.1 ≠ place := by
  constructor
  · intro h e he heq
    rcases List.getElem?_of_mem he with ⟨target, htarget⟩
    have hnone := (h target).2 ⟨place, rfl, by rw [htarget, Option.map_some, heq]⟩
    cases hnone
  · intro h target
    constructor
    · rintro ⟨⟩
    · rintro ⟨place', hplace', htarget⟩
      cases hplace'
      rcases Option.map_eq_some_iff.1 htarget with ⟨e, he, heq⟩
      exact absurd heq (h e (List.mem_of_getElem? he))

/-- Whether the number of a stored jump is right for the steps too: nothing was left out up to its
target, or the target is past the last step and none of the steps was there. -/
def Unmoved (items : List Document) (place : Nat) : Prop :=
  if place < (kept items).length then ∀ d ∈ items.take (place + 1), d.members?.isSome = true
  else ∀ e ∈ kept items, e.1 ≠ place

theorem leadsToStored_iff (stored : Option Nat) :
    LeadsToStored items stored (stored.filter (· < (kept items).length)) ↔
      ∀ place, stored = some place → Unmoved items place := by
  cases stored with
  | none => simp [LeadsToStored]
  | some place =>
    simp only [Option.some_inj, forall_eq', Unmoved]
    by_cases hrange : place < (kept items).length
    · have hget : (kept items)[place]? = some (kept items)[place] := List.getElem?_eq_getElem hrange
      have hfilter : (some place).filter (· < (kept items).length) = some place := by
        simp [Option.filter, hrange]
      rw [hfilter, leadsToStored_self_iff, if_pos hrange, ← place_of_kept hget, hget,
        Option.map_some, Option.some_inj]
    · have hfilter : (some place).filter (· < (kept items).length) = none := by
        simp [Option.filter, hrange]
      rw [hfilter, leadsToStored_none_iff, if_neg hrange]

/-- An array is read as the steps of its objects, the first sixteen of them, where a stored jump
stays the number it was if there is a step with that number. All jumps lead to the steps that they
led to in the array exactly if every jump that was stored is right for the steps too. -/
theorem ofDocument_jumps (items : List Document) :
    let q := ofDocument (.arr items)
    q.steps = (kept items).map (fun e =>
        { TransposeStep.ofMembers e.2 with
          jump := (storedJump e.2).filter (· < (kept items).length) }) ∧
      (KeepsTargets items q ↔
        ∀ e ∈ kept items, ∀ place, storedJump e.2 = some place → Unmoved items place) := by
  intro q
  have hsteps : q.steps = _ := steps_ofDocument items
  have hstep : ∀ (k : Nat) (e : Nat × Members), (kept items)[k]? = some e →
      q.steps[k]? = some { TransposeStep.ofMembers e.2 with
        jump := (storedJump e.2).filter (· < (kept items).length) } := by
    intro k e he
    rw [hsteps, List.getElem?_map, he, Option.map_some]
  refine ⟨hsteps, ?_, ?_⟩
  · intro hkeeps e he
    rcases List.getElem?_of_mem he with ⟨k, hk⟩
    rcases hkeeps.2 k e hk with ⟨jump, hjump, hleads⟩
    have hsame : jump = (storedJump e.2).filter (· < (kept items).length) := by
      rw [hstep k e hk] at hjump
      exact (congrArg TransposeStep.jump (Option.some_inj.1 hjump)).symm
    rw [hsame] at hleads
    exact (leadsToStored_iff _).1 hleads
  · intro hunmoved
    refine ⟨by rw [length, hsteps, List.length_map], ?_⟩
    intro k e hk
    exact ⟨_, hstep k e hk, (leadsToStored_iff _).2 (hunmoved e (List.mem_of_getElem? hk))⟩

/-- Three steps with a hole before the second, which the third jumps to. -/
def holed : List Document :=
  [.obj [], .null, .obj [], .obj [("jump", .int 2)]]

/-- The third step jumps to itself after the hole is gone. -/
theorem ofDocument_astray :
    (ofDocument (.arr holed)).steps = [{}, {}, { jump := some 2 }] ∧
      (kept holed).map Prod.fst = [0, 2, 3] ∧ ¬ KeepsTargets holed (ofDocument (.arr holed)) := by
  have hsteps : (ofDocument (.arr holed)).steps = [{}, {}, { jump := some 2 }] := by
    decide +kernel
  have hkept : (kept holed).map Prod.fst = [0, 2, 3] := by rfl
  refine ⟨hsteps, hkept, ?_⟩
  intro hkeeps
  rcases hkeeps.2 2 (3, [("jump", .int 2)]) rfl with ⟨jump, hjump, hleads⟩
  have hself : jump = some 2 := by
    rw [hsteps] at hjump
    exact (congrArg TransposeStep.jump (Option.some_inj.1 hjump)).symm
  have hstored : storedJump [("jump", .int 2)] = some 2 := by rfl
  rw [hself, hstored, leadsToStored_self_iff] at hleads
  cases hleads

end TransposeSequence

end Groovebox
