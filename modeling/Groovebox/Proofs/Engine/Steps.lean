import Mathlib.Tactic
import Groovebox.Proofs.Engine.Orders
import Groovebox.Proofs.Stored.RoundTrip
import Groovebox.Proofs.Trigger.Condition
/-! # What the calls for a step tell

A step is sent as a few calls, where a setting without a call is at its default. Sorted by
parameters, the calls are `Step.told`, and each setting can be told from what its parameter is
sent: a setting that is skipped has one value only, and different values have different texts. The
main statement is `Export.step_faithful`. -/

namespace Groovebox

open Stored (index_inj)

/-! ## What each parameter is told -/

/-- The text of one of the numbers of a cycle. -/
def Cycle.part (c : Cycle) : CyclePart → String
  | .n => toString c.n
  | .m => toString c.m
  | .invert => Export.flag c.invert

/-- What one of the parameters of a condition is told. -/
def Condition.told (c : Condition) (part : CyclePart) : List String :=
  if c.isNone then [] else [(c.cycle?.getD { n := 0, m := 0, invert := false }).part part]

/-- What the parameter of a ratchet is told. -/
def Ratchet.told (r : Ratchet) : List String :=
  if r.isSingle then [] else (r.encode.toOption.map toString).toList

/-- What a parameter of a step is told, in order. -/
def Step.told (s : Step) : StepParam → List String
  | .clear => ["1"]
  | .addNote => (s.chord.notes.zip s.chord.velocities).map fun (note, velocity) =>
      toString note ++ "," ++ toString velocity
  | .gate => if s.gate != 0 then [toString s.gate] else []
  | .cc1 => (s.cc1.map toString).toList
  | .cc2 => (s.cc2.map toString).toList
  | .probability => if s.probability < 100 then [toString s.probability] else []
  | .ratchet => s.ratchet.told
  | .length => if 1 < s.length then [toString s.length] else []
  | .offset => if s.offset != 0 then [toString s.offset] else []
  | .condition part => s.condition.told part
  | .paramSpark part => s.paramSpark.told part
  | .compSpark part => s.compSpark.told part
  | .jump => (s.jump.map toString).toList
  | .arpMode => ((s.arpMode.map Table.index).map toString).toList
  | .arpSpeed => ((s.arpSpeed.map Table.index).map toString).toList
  | .arpOctave => ((s.arpOctave.map Table.index).map toString).toList
  | .arpLayer => if s.arpLayer != .layer then [toString (Table.index s.arpLayer)] else []
  | .arpPlaySteps => (s.arpPlaySteps.map toString).toList
  | .arpPlayStart => (s.arpPlayStart.map toString).toList

namespace Export

theorem only_eq (test : Bool) (p : Param) (v : String) :
    only test p v = (if test then [v] else []).map p.call := by
  cases test <;> rfl

theorem optional_eq (p : Param) (value : Option Nat) :
    optional p value = (value.map toString).toList.map p.call := by
  cases value <;> rfl

theorem ratchet_eq (p : Param) (r : Ratchet) : ratchet p r = r.told.map p.call := by
  unfold ratchet Ratchet.told
  split
  · rfl
  · cases r.encode <;> rfl

theorem someCondition_eq (p : CyclePart → Param) (c : Condition) :
    someCondition p c = (c.told .n).map (p .n).call ++ ((c.told .m).map (p .m).call ++
      (c.told .invert).map (p .invert).call) := by
  unfold someCondition Condition.told
  split <;> rfl

/-- The parameters of a step are told in turn. -/
theorem step_eq_flatMap (t i : Nat) (s : Step) :
    step t i s = StepParam.all.flatMap fun x => (s.told x).map (Param.step t i x).call := by
  delta step
  simp only [only_eq, optional_eq, ratchet_eq, someCondition_eq, List.append_assoc,
    StepParam.all, List.flatMap_cons, List.flatMap_nil, List.append_nil, Step.told, List.map_map,
    decide_eq_true_eq]
  rfl

theorem nodup_stepParams : StepParam.all.Nodup := by decide

theorem mem_stepParams (x : StepParam) : x ∈ StepParam.all := by
  cases x with
  | condition part => cases part <;> decide
  | paramSpark part => cases part <;> decide
  | compSpark part => cases part <;> decide
  | _ => decide

/-- The calls for a step, sorted by parameters. -/
theorem valuesFor_step (t i : Nat) (s : Step) (x : StepParam) :
    Call.valuesFor (Param.step t i x).key (step t i s) = s.told x := by
  have hothers (y : StepParam) (hy : y ≠ x) :
      ((s.told y).map (Param.step t i y).call).filter (·.key = (Param.step t i x).key) = [] := by
    apply List.filter_eq_nil_iff.2
    intro c hc hkey
    rcases List.mem_map.1 hc with ⟨v, -, rfl⟩
    have hparam : Param.step t i y = Param.step t i x :=
      Param.key_injective (of_decide_eq_true hkey)
    exact hy (Param.step.inj hparam).2.2
  have hown : ((s.told x).map (Param.step t i x).call).filter
      (·.key = (Param.step t i x).key) = (s.told x).map (Param.step t i x).call := by
    apply List.filter_eq_self.2
    intro c hc
    rcases List.mem_map.1 hc with ⟨v, -, rfl⟩
    exact decide_eq_true rfl
  rw [Call.valuesFor, step_eq_flatMap, List.filter_flatMap,
    EngineState.flatMap_eq_single nodup_stepParams (mem_stepParams x) fun y _ => hothers y, hown,
    List.map_map]
  exact List.map_id _

/-- The same calls tell every parameter the same. -/
theorem told_congr {t i : Nat} {s s' : Step} (h : step t i s = step t i s') (x : StepParam) :
    s.told x = s'.told x := by
  rw [← valuesFor_step t i, h, valuesFor_step]

end Export

/-! ## What is known from it -/

/-- A setting that is skipped for one value only is known from what is told. -/
theorem eq_of_told_skipped {α : Type} {a b : α} (test : α → Prop) [DecidablePred test]
    (text : α → String) (default : α) (ha : ¬test a → a = default) (hb : ¬test b → b = default)
    (htext : text a = text b → a = b)
    (h : (if test a then [text a] else []) = if test b then [text b] else []) : a = b := by
  by_cases hta : test a
  · by_cases htb : test b
    · rw [if_pos hta, if_pos htb] at h
      exact htext (List.singleton_inj.1 h)
    · rw [if_pos hta, if_neg htb] at h
      cases h
  · by_cases htb : test b
    · rw [if_neg hta, if_pos htb] at h
      cases h
    · rw [ha hta, hb htb]

/-- A setting that may be absent is known from what is told. -/
theorem eq_of_told_optional {a b : Option Nat}
    (h : (a.map toString).toList = (b.map toString).toList) : a = b := by
  cases a with
  | none =>
    cases b with
    | none => rfl
    | some n => cases h
  | some m =>
    cases b with
    | none => cases h
    | some n => rw [Decimal.toString_injective (List.singleton_inj.1 h)]

theorem eq_of_told_table {α : Type} [DecidableEq α] [Table α] {a b : Option α}
    (h : ((a.map Table.index).map toString).toList = ((b.map Table.index).map toString).toList) :
    a = b :=
  Option.map_injective (fun _ _ => index_inj) (eq_of_told_optional h)

/-- The two numbers of a note are known from their text, which has one comma. -/
theorem pair_injective {m n v w : Nat}
    (h : toString m ++ "," ++ toString v = toString n ++ "," ++ toString w) : m = n ∧ v = w := by
  have hcomma (k : Nat) : ',' ∉ (toString k).toList := fun hmem =>
    absurd (Decimal.isDigit_of_mem hmem) (by decide)
  have hchars (k l : Nat) : (toString k ++ "," ++ toString l).toList =
      (toString k).toList ++ ',' :: (toString l).toList := by
    simp [String.toList_append]
  rw [← String.toList_inj, hchars, hchars,
    List.append_cons_inj_of_notMem (hcomma m) (hcomma v)] at h
  exact ⟨Decimal.toString_injective (String.toList_inj.1 h.1),
    Decimal.toString_injective (String.toList_inj.1 h.2.2)⟩

/-- A chord is known from its notes, each with its velocity. -/
theorem Chord.eq_of_told {c c' : Chord} (h : c.WellFormed) (h' : c'.WellFormed)
    (htold : (c.notes.zip c.velocities).map (fun (note, velocity) =>
        toString note ++ "," ++ toString velocity) =
      (c'.notes.zip c'.velocities).map fun (note, velocity) =>
        toString note ++ "," ++ toString velocity) : c = c' := by
  have hzip : c.notes.zip c.velocities = c'.notes.zip c'.velocities := by
    apply List.map_injective_iff.2 _ htold
    rintro ⟨m, v⟩ ⟨n, w⟩ hpair
    rcases pair_injective hpair with ⟨rfl, rfl⟩
    rfl
  -- There are as many velocities as notes, so nothing is cut off in pairing them.
  have hnotes : c.notes = c'.notes := by
    rw [← List.map_fst_zip h.parallel.ge, hzip, List.map_fst_zip h'.parallel.ge]
  have hvelocities : c.velocities = c'.velocities := by
    rw [← List.map_snd_zip h.parallel.le, hzip, List.map_snd_zip h'.parallel.le]
  cases c
  cases c'
  simp only at hnotes hvelocities
  rw [hnotes, hvelocities]

/-- The bands of numbers that the modes of a ratchet have do not overlap. -/
theorem Ratchet.code_injective {r r' : Ratchet} (h : r.Valid) (h' : r'.Valid)
    (hcode : r.count + band r.mode = r'.count + band r'.mode) : r = r' := by
  rcases r with ⟨mode, count⟩
  rcases r' with ⟨mode', count'⟩
  rcases h with ⟨hlo, hhi⟩
  rcases h' with ⟨hlo', hhi'⟩
  -- Within a band the numbers tell the counts; between bands they are apart.
  cases mode <;> cases mode' <;> simp only [fewest, band] at hlo hhi hlo' hhi' hcode
  case regular.regular | rampUp.rampUp | rampDown.rampDown =>
    have hcount : count = count' := by omega
    rw [hcount]
  all_goals omega

theorem Ratchet.told_of_valid {r : Ratchet} (h : r.Valid) :
    r.told = if r ≠ {} then [toString (r.count + band r.mode)] else [] := by
  have hsingle : r.isSingle = true ↔ r = {} := beq_iff_eq
  unfold told encode
  rw [if_pos h]
  by_cases hr : r = {}
  · rw [if_pos (hsingle.2 hr), if_neg (not_not.2 hr)]
  · rw [if_neg fun hs => hr (hsingle.1 hs), if_pos hr]
    rfl

/-- A valid ratchet is known from its engine value, and a single hit has none. -/
theorem Ratchet.eq_of_told {r r' : Ratchet} (h : r.Valid) (h' : r'.Valid)
    (htold : r.told = r'.told) : r = r' := by
  rw [told_of_valid h, told_of_valid h'] at htold
  exact eq_of_told_skipped (· ≠ {}) (fun r => toString (r.count + band r.mode)) {} not_not.1
    not_not.1 (fun htext => code_injective h h' (Decimal.toString_injective htext)) htold

theorem Condition.isEmpty_told (c : Condition) (x : CyclePart) : (c.told x).isEmpty = c.isNone := by
  unfold told
  cases c.isNone <;> rfl

theorem Condition.told_of_cycle {c : Condition} {cycle : Cycle} (h : c.isNone = false)
    (hcycle : c.cycle? = some cycle) (x : CyclePart) : c.told x = [cycle.part x] := by
  rw [told, if_neg (by rw [h]; decide), hcycle]
  rfl

theorem Cycle.eq_of_parts {c c' : Cycle} (h : ∀ x, c.part x = c'.part x) : c = c' := by
  have hn : c.n = c'.n := Decimal.toString_injective (h .n)
  have hm : c.m = c'.m := Decimal.toString_injective (h .m)
  have hinvert : c.invert = c'.invert := by
    have hflag : Export.flag c.invert = Export.flag c'.invert := h .invert
    revert hflag
    cases c.invert <;> cases c'.invert <;> decide
  cases c
  cases c'
  simp only at hn hm hinvert
  rw [hn, hm, hinvert]

theorem Condition.eq_always {c : Condition} (h : c.isNone = true) : c = .always := by
  rcases c with ⟨position⟩
  have hposition : position = 0 := eq_of_beq h
  rw [hposition]
  rfl

/-- A condition is known from its cycle, and the one that is not told has none. -/
theorem Condition.eq_of_told {c c' : Condition} (h : ∀ x, c.told x = c'.told x) : c = c' := by
  have hnone : c'.isNone = c.isNone := by
    rw [← c.isEmpty_told .n, h, isEmpty_told]
  cases hc : c.isNone with
  | true => rw [eq_always hc, eq_always (hnone.trans hc)]
  | false =>
    have hc' := hnone.trans hc
    rcases exists_cycle hc with ⟨cycle, hcycle⟩
    rcases exists_cycle hc' with ⟨cycle', hcycle'⟩
    have hsame : cycle = cycle' := by
      apply Cycle.eq_of_parts
      intro x
      have hx := h x
      rw [told_of_cycle hc hcycle, told_of_cycle hc' hcycle'] at hx
      exact List.singleton_inj.1 hx
    exact eq_of_cycle hcycle (hsame ▸ hcycle')

/-- A well-formed step is known from what its parameters are told. -/
theorem Step.eq_of_told {s s' : Step} (h : s.WellFormed) (h' : s'.WellFormed)
    (htold : ∀ x, s.told x = s'.told x) : s = s' := by
  apply Step.ext
  case chord => exact Chord.eq_of_told h.chord h'.chord (htold .addNote)
  case gate =>
    exact eq_of_told_skipped (fun n => n != 0) toString 0 (by simp) (by simp)
      Decimal.toString_injective (htold .gate)
  case cc1 => exact eq_of_told_optional (htold .cc1)
  case cc2 => exact eq_of_told_optional (htold .cc2)
  case probability =>
    have hs := h.probability
    have hs' := h'.probability
    exact eq_of_told_skipped (· < 100) toString 100 (by omega) (by omega)
      Decimal.toString_injective (htold .probability)
  case condition => exact Condition.eq_of_told fun part => htold (.condition part)
  case ratchet => exact Ratchet.eq_of_told h.ratchet h'.ratchet (htold .ratchet)
  case length =>
    have hs := h.length
    have hs' := h'.length
    exact eq_of_told_skipped (1 < ·) toString 1 (by omega) (by omega)
      Decimal.toString_injective (htold .length)
  case paramSpark => exact Condition.eq_of_told fun part => htold (.paramSpark part)
  case compSpark => exact Condition.eq_of_told fun part => htold (.compSpark part)
  case jump => exact eq_of_told_optional (htold .jump)
  case offset =>
    exact eq_of_told_skipped (fun n => n != 0) toString 0 (by simp) (by simp)
      Decimal.int_toString_injective (htold .offset)
  case arpMode => exact eq_of_told_table (htold .arpMode)
  case arpSpeed => exact eq_of_told_table (htold .arpSpeed)
  case arpOctave => exact eq_of_told_table (htold .arpOctave)
  case arpLayer =>
    exact eq_of_told_skipped (fun l => l != .layer) (fun l => toString (Table.index l)) .layer
      (by simp) (by simp) (fun htext => index_inj (Decimal.toString_injective htext))
      (htold .arpLayer)
  case arpPlaySteps => exact eq_of_told_optional (htold .arpPlaySteps)
  case arpPlayStart => exact eq_of_told_optional (htold .arpPlayStart)

/-- The calls for a step begin with the one that clears it, and tell everything about it. -/
theorem Export.step_faithful (t i : Nat) :
    (∀ s : Step, (step t i s).head? = some ((Param.step t i .clear).call "1")) ∧
    ∀ s s' : Step, s.WellFormed → s'.WellFormed → step t i s = step t i s' → s = s' := by
  constructor
  · intro s
    rcases step_eq_cons t i s with ⟨rest, hrest⟩
    rw [hrest]
    rfl
  · intro s s' hs hs' hcalls
    exact Step.eq_of_told hs hs' (told_congr hcalls)

/-- A step that is moved too far is sent as the one that is moved as far as it can be. -/
theorem Export.step_faithful_offset :
    (({} : Step).setOffset 30).WellFormed ∧ ({ offset := 24 } : Step).WellFormed ∧
      step 2 7 (({} : Step).setOffset 30) = step 2 7 { offset := 24 } ∧
      ({} : Step).setOffset 30 = { offset := 24 } :=
  ⟨by decide, by decide, by decide, (step_faithful 2 7).2 _ _ (by decide) (by decide) (by decide)⟩

end Groovebox
