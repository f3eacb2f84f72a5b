import Mathlib.Tactic
import Groovebox.Transpose
/-! # Removing transpose steps

When a step of a transpose sequence goes, the later steps move down by one and every jump to a step
that stays leads to the same step as before, under its new number. What one removal does is said in
`LosesStep`. What is left after many is said in `Keeps`, by the places that the remaining steps had
at first.

* `TransposeSequence.removeStep?_retargets`: one removal and any number of them.
-/

namespace Groovebox.TransposeSequence

/-- Every jump leads to a step of the sequence. -/
def JumpsInside (q : TransposeSequence) : Prop :=
  ∀ s ∈ q.steps, ∀ j ∈ s.jump, j < q.length

instance (q : TransposeSequence) : Decidable q.JumpsInside :=
  inferInstanceAs (Decidable (∀ s ∈ q.steps, ∀ j ∈ s.jump, j < q.length))

/-- The place that the step at a place had before the step at `removed` went. -/
def former (removed i : Nat) : Nat :=
  if i < removed then i else i + 1

/-- One sequence is another without the step at `removed`. The other steps are the same in the same
order, and a jump leads to the step it led to, or nowhere if it led nowhere or to the step that is
gone. -/
structure LosesStep (removed : Nat) (q q' : TransposeSequence) : Prop where
  length : q'.length + 1 = q.length
  steps : ∀ (i : Nat) (s : TransposeStep), q.steps[former removed i]? = some s →
    ∃ jump, q'.steps[i]? = some { s with jump } ∧
      (∀ target, jump = some target ↔ s.jump = some (former removed target)) ∧
      (jump = none ↔ s.jump = none ∨ s.jump = some removed)

/-- One sequence holds what is left of another: the steps at some places, in their order. A jump
leads to the step it led to, or nowhere if it led nowhere or to a step that is gone. -/
structure Keeps (places : List Nat) (q q' : TransposeSequence) : Prop where
  length : q'.length = places.length
  ascending : places.Pairwise (· < ·)
  steps : ∀ i place : Nat, places[i]? = some place → ∃ s jump, q.steps[place]? = some s ∧
    q'.steps[i]? = some { s with jump } ∧
      (∀ target, jump = some target ↔
        ∃ there, s.jump = some there ∧ places[target]? = some there) ∧
      (jump = none ↔ s.jump = none ∨ ∃ there, s.jump = some there ∧ there ∉ places)

/-- Removes steps in turn, where those that are not there are passed over. -/
def removeAll (q : TransposeSequence) (removed : List Nat) : TransposeSequence :=
  removed.foldl (fun q i => (q.removeStep? i).getD q) q

/-- The places at first of the steps that are left when steps are removed in turn. -/
def survivors (count : Nat) (removed : List Nat) : List Nat :=
  removed.foldl List.eraseIdx (List.range count)

variable {q q' q'' : TransposeSequence} {removed : Nat}

/-! ## One removal -/

/-- A jump leads to a step that stays just if it led there before. -/
theorem retarget_eq_some_iff {jump : Option Nat} {target : Nat} :
    retarget removed jump = some target ↔ jump = some (former removed target) := by
  unfold retarget former
  cases jump with
  | none => simp
  | some j =>
    simp only [Option.bind_some, Option.some_inj]
    -- A target is the one dropped, one behind it, or one before it.
    split
    · split <;> simp only [reduceCtorEq, false_iff] <;> omega
    · split <;> split <;> simp only [Option.some_inj] <;> omega

/-- A jump leads nowhere just if it did so before or led to the step that is gone. -/
theorem retarget_eq_none_iff {jump : Option Nat} :
    retarget removed jump = none ↔ jump = none ∨ jump = some removed := by
  unfold retarget
  cases jump with
  | none => simp
  | some j =>
    simp only [Option.bind_some, reduceCtorEq, false_or, Option.some_inj]
    split
    · rename_i hj
      simp [hj]
    · rename_i hj
      split <;> simp [hj]

/-- A step that is not there cannot be removed. -/
theorem removeStep?_eq_none (h : q.length ≤ removed) : q.removeStep? removed = none :=
  if_neg (Nat.not_lt.2 h)

/-- Any step that is there can be removed, and this step alone is lost. -/
theorem removeStep?_loses (h : removed < q.length) :
    ∃ q', q.removeStep? removed = some q' ∧ LosesStep removed q q' := by
  refine ⟨_, if_pos h, ?_, ?_⟩
  · have herase : (q.steps.eraseIdx removed).length = q.steps.length - 1 :=
      List.length_eraseIdx_of_lt h
    unfold TransposeSequence.length at h ⊢
    rw [List.length_map, herase]
    omega
  · intro i s hs
    -- Without the removed step, the later ones are one place further down.
    have hplace : (q.steps.eraseIdx removed)[i]? = some s := by
      rw [List.getElem?_eraseIdx]
      unfold former at hs
      split <;> rename_i hi
      · rwa [if_pos hi] at hs
      · rwa [if_neg hi] at hs
    refine ⟨retarget removed s.jump, ?_, fun _ => retarget_eq_some_iff, retarget_eq_none_iff⟩
    rw [List.getElem?_map, hplace, Option.map_some]

/-- Places of the shorter sequence come from places of the longer one. -/
theorem former_lt_iff {i count : Nat} (h : removed < count + 1) :
    former removed i < count + 1 ↔ i < count := by
  unfold former
  split <;> omega

/-- A step that is left was at its former place. -/
theorem LosesStep.step_of_mem (h : LosesStep removed q q') (hremoved : removed < q.length)
    {s' : TransposeStep} (hs' : s' ∈ q'.steps) :
    ∃ s ∈ q.steps, ∀ target, s'.jump = some target ↔ s.jump = some (former removed target) := by
  rcases List.getElem?_of_mem hs' with ⟨i, hi⟩
  have hlt : i < q'.length := (List.getElem?_eq_some_iff.1 hi).1
  have hformer : former removed i < q.length := by
    rw [← h.length] at hremoved ⊢
    exact (former_lt_iff hremoved).2 hlt
  have hget : q.steps[former removed i]? = some q.steps[former removed i] :=
    List.getElem?_eq_getElem hformer
  rcases h.steps i _ hget with ⟨jump, hjump, htarget, -⟩
  refine ⟨_, List.getElem_mem hformer, ?_⟩
  rw [hi] at hjump
  rw [Option.some_inj.1 hjump]
  exact htarget

/-- If all jumps were inside, they are so after a removal. -/
theorem LosesStep.jumpsInside (h : LosesStep removed q q') (hremoved : removed < q.length)
    (hq : q.JumpsInside) : q'.JumpsInside := by
  intro s' hs' target htarget
  rcases h.step_of_mem hremoved hs' with ⟨s, hs, hjump⟩
  have hformer : former removed target < q.length := hq s hs _ ((hjump target).1 htarget)
  rw [← h.length] at hformer hremoved
  exact (former_lt_iff hremoved).1 hformer

/-! ## Any number of removals -/

/-- A jump that leads nowhere has no target among the places. -/
theorem none_iff_of_some_iff {places : List Nat} {jump before : Option Nat}
    (h : ∀ target : Nat, jump = some target ↔
      ∃ there, before = some there ∧ places[target]? = some there) :
    jump = none ↔ before = none ∨ ∃ there, before = some there ∧ there ∉ places := by
  cases before with
  | none =>
    simp only [reduceCtorEq, false_and, exists_false, iff_false, or_false, iff_true] at h ⊢
    exact Option.eq_none_iff_forall_ne_some.2 h
  | some there =>
    simp only [Option.some_inj, exists_eq_left', reduceCtorEq, false_or] at h ⊢
    rw [Option.eq_none_iff_forall_ne_some]
    constructor
    · intro hnone hmem
      rcases List.getElem?_of_mem hmem with ⟨target, htarget⟩
      exact hnone target ((h target).2 htarget)
    · intro hgone target hjump
      exact hgone (List.mem_of_getElem? ((h target).1 hjump))

/-- Nothing has gone yet. -/
theorem Keeps.refl (hq : q.JumpsInside) : Keeps (List.range q.length) q q := by
  refine ⟨List.length_range.symm, List.pairwise_lt_range, ?_⟩
  intro i place hplace
  rcases List.getElem?_eq_some_iff.1 hplace with ⟨hi, rfl⟩
  rw [List.length_range] at hi
  have hget : q.steps[i]? = some q.steps[i] := List.getElem?_eq_getElem hi
  have hjump : ∀ target : Nat, q.steps[i].jump = some target ↔
      ∃ there, q.steps[i].jump = some there ∧
        (List.range q.length)[target]? = some there := by
    intro target
    constructor
    · intro htarget
      have hinside : target < q.length := hq _ (List.getElem_mem hi) target htarget
      exact ⟨target, htarget, List.getElem?_range hinside⟩
    · rintro ⟨there, hthere, hplace⟩
      rcases List.getElem?_eq_some_iff.1 hplace with ⟨hlt, hsame⟩
      rw [List.getElem_range] at hsame
      rwa [hsame]
  rw [List.getElem_range]
  exact ⟨_, _, hget, hget, hjump, none_iff_of_some_iff hjump⟩

/-- What is left after one more removal is what was left before, less one place. -/
theorem Keeps.lose {places : List Nat} (h : Keeps places q q') (hloses : LosesStep removed q' q'')
    (hremoved : removed < q'.length) : Keeps (places.eraseIdx removed) q q'' := by
  -- The places that are left move down as the steps do.
  have hshift (i : Nat) : (places.eraseIdx removed)[i]? = places[former removed i]? := by
    rw [List.getElem?_eraseIdx]
    unfold former
    split <;> rfl
  refine ⟨?_, h.ascending.sublist (List.eraseIdx_sublist _ _), ?_⟩
  · have hlength := hloses.length
    rw [h.length] at hremoved hlength
    rw [List.length_eraseIdx_of_lt hremoved]
    omega
  · intro i place hplace
    rw [hshift] at hplace
    rcases h.steps _ place hplace with ⟨s, jump, hs, hs', htarget, -⟩
    rcases hloses.steps i _ hs' with ⟨jump', hs'', htarget', -⟩
    -- A jump is followed back through the last removal and then through those before it.
    have hjump : ∀ target, jump' = some target ↔
        ∃ there, s.jump = some there ∧ (places.eraseIdx removed)[target]? = some there := by
      intro target
      rw [htarget', htarget, hshift]
    exact ⟨s, jump', hs, hs'', hjump, none_iff_of_some_iff hjump⟩

/-- The places that are left after any removals are the ones whose steps are kept. -/
theorem Keeps.removeAll (removed : List Nat) :
    ∀ {places : List Nat} {q' : TransposeSequence}, Keeps places q q' →
      Keeps (removed.foldl List.eraseIdx places) q (q'.removeAll removed) := by
  induction removed with
  | nil => exact fun h => h
  | cons i removed ih =>
    intro places q' h
    rw [TransposeSequence.removeAll, List.foldl_cons, List.foldl_cons]
    apply ih
    rcases Nat.lt_or_ge i q'.length with hi | hi
    · rcases removeStep?_loses hi with ⟨q'', hq'', hloses⟩
      rw [hq'']
      exact h.lose hloses hi
    · -- What is not there cannot be removed, from the places either.
      rw [removeStep?_eq_none hi, List.eraseIdx_of_length_le (h.length ▸ hi)]
      exact h

/-- All jumps of what is left are inside. -/
theorem Keeps.jumpsInside {places : List Nat} (h : Keeps places q q') : q'.JumpsInside := by
  intro s' hs' target htarget
  rcases List.getElem?_of_mem hs' with ⟨i, hi⟩
  have hlt : i < places.length := h.length ▸ (List.getElem?_eq_some_iff.1 hi).1
  rcases h.steps i _ (List.getElem?_eq_getElem hlt) with ⟨s, jump, -, hjump, hsome, -⟩
  rw [hi] at hjump
  rw [Option.some_inj.1 hjump] at htarget
  rcases (hsome target).1 htarget with ⟨there, -, hplace⟩
  exact h.length ▸ (List.getElem?_eq_some_iff.1 hplace).1

/-- Of a sequence whose jumps are all inside, a step that is not there cannot be removed, and trying
to changes nothing. Any other step can: the rest keeps its order and its settings, each jump follows
the step it leads to and only those to the step that went are dropped, and all are inside again. So
it stays when steps are removed in turn. -/
theorem removeStep?_retargets (hq : q.JumpsInside) :
    (∀ i, q.length ≤ i → q.removeStep? i = none ∧ q.removeAll [i] = q) ∧
      (∀ i, i < q.length →
        ∃ q', q.removeStep? i = some q' ∧ LosesStep i q q' ∧ q'.JumpsInside) ∧
      ∀ removed, Keeps (survivors q.length removed) q (q.removeAll removed) ∧
        (q.removeAll removed).JumpsInside := by
  refine ⟨?_, ?_, ?_⟩
  · intro i hi
    have hnone := removeStep?_eq_none hi
    exact ⟨hnone, congrArg (·.getD q) hnone⟩
  · intro i hi
    rcases removeStep?_loses hi with ⟨q', hq', hloses⟩
    exact ⟨q', hq', hloses, hloses.jumpsInside hi hq⟩
  · intro removed
    have hkeeps := (Keeps.refl hq).removeAll removed
    exact ⟨hkeeps, hkeeps.jumpsInside⟩

/-- Five steps, one of which jumps to itself. -/
def chained : TransposeSequence :=
  { steps := [{ jump := some 3 }, { jump := some 1 }, { jump := some 0 }, { jump := some 2 },
      { jump := some 1 }] }

/-- When the second and then the first step have gone, the fourth still jumps to the third, and the
jumps to the two that went are dropped. -/
theorem removeStep?_retargets_chained :
    chained.JumpsInside ∧ survivors 5 [1, 9, 0] = [2, 3, 4] ∧
      Keeps [2, 3, 4] chained (chained.removeAll [1, 9, 0]) ∧
      (chained.removeAll [1, 9, 0]).steps.map TransposeStep.jump = [none, some 0, none] ∧
      chained.removeStep? 5 = none := by
  have hinside : chained.JumpsInside := by decide
  have hretargets := removeStep?_retargets hinside
  have hgone : chained.removeStep? 5 = none := (hretargets.1 5 (by decide)).1
  exact ⟨hinside, by decide, (hretargets.2.2 [1, 9, 0]).1, by decide, hgone⟩

end Groovebox.TransposeSequence
