import Mathlib.Tactic
import Groovebox.Engine.Param
import Groovebox.Proofs.Decimal
/-! # The keys of parameters

A key is made of words with underscores between them, and the words tell the parameter: no two
parameters share a key (`Param.key_injective`), and a key begins like the keys of a step only if it
is one of them (`Param.stepKey_isPrefix_iff`). -/

namespace Groovebox

/-! ## Words -/

/-- The words of a key. -/
def keyWords (key : String) : List (List Char) :=
  key.toList.splitOn '_'

/-- A key is known by its words. -/
theorem keyWords_injective {a b : String} (h : keyWords a = keyWords b) : a = b := by
  have hjoin (key : String) : List.intercalate ['_'] (keyWords key) = key.toList :=
    List.intercalate_splitOn '_'
  apply String.toList_inj.1
  rw [← hjoin a, ← hjoin b, h]

/-- An underscore separates the words before it from those behind it. -/
theorem keyWords_append (a b : String) : keyWords (a ++ "_" ++ b) = keyWords a ++ keyWords b := by
  have hchars : (a ++ "_" ++ b).toList = a.toList ++ '_' :: b.toList := by
    simp [String.toList_append]
  rw [keyWords, hchars]
  exact List.splitOn_append_cons_self _ _

/-- A number is one word. -/
theorem keyWords_toString (n : Nat) : keyWords (toString n) = [(toString n).toList] := by
  apply List.splitOn_eq_singleton
  intro h
  exact absurd (Decimal.isDigit_of_mem h) (by decide)

/-! ## Settings -/

/-- Where each thing is the first one in a list with its key, the key tells it. -/
theorem eq_of_find {α : Type} {key : α → String} (all : List α)
    (hfind : ∀ x, all.find? (fun y => key y = key x) = some x) {x y : α} (h : key x = key y) :
    x = y := by
  have hx := hfind x
  rw [h, hfind y] at hx
  exact (Option.some.inj hx).symm

namespace TrackParam

/-- All settings of a track. -/
def all : List TrackParam :=
  [channel, mute, speed, swing, pattern, chordFollow, arpMode, arpSpeed, arpOctave, arpContinuous,
    arpPlaySteps, arpPlayStart, cc1, cc2, length, reset, gate]

theorem key_injective {x y : TrackParam} (h : x.key = y.key) : x = y := by
  apply eq_of_find all _ h
  intro x
  cases x <;> rfl

/-- The keys of steps go on with a word that no setting of a track begins with. -/
theorem head_keyWords (x : TrackParam) : (keyWords x.key).head? ≠ some "step".toList := by
  cases x <;> decide

end TrackParam

namespace StepParam

/-- All settings of a step. -/
def all : List StepParam :=
  [clear, addNote, gate, cc1, cc2, probability, ratchet, length, offset, condition .n, condition .m,
    condition .invert, paramSpark .n, paramSpark .m, paramSpark .invert, compSpark .n, compSpark .m,
    compSpark .invert, jump, arpMode, arpSpeed, arpOctave, arpLayer, arpPlaySteps, arpPlayStart]

theorem key_injective {x y : StepParam} (h : x.key = y.key) : x = y := by
  apply eq_of_find all _ h
  intro x
  cases x with
  | condition part => cases part <;> rfl
  | paramSpark part => cases part <;> rfl
  | compSpark part => cases part <;> rfl
  | _ => rfl

end StepParam

namespace TransposeParam

/-- All settings of a transpose step. -/
def all : List TransposeParam :=
  [transpose, duration, jump, condition .n, condition .m, condition .invert]

theorem key_injective {x y : TransposeParam} (h : x.key = y.key) : x = y := by
  apply eq_of_find all _ h
  intro x
  cases x with
  | condition part => cases part <;> rfl
  | _ => rfl

theorem keyWords_ne_nil (x : TransposeParam) : keyWords x.key ≠ [] :=
  List.splitOn_ne_nil _ _

end TransposeParam

/-! ## Parameters -/

namespace Param

/-- The words of a track's key: its number and its setting. -/
theorem keyWords_track (t : Nat) (x : TrackParam) :
    keyWords (track t x).key = "track".toList :: (toString t).toList :: keyWords x.key := by
  have hkey : (track t x).key = "track" ++ "_" ++ (toString t ++ "_" ++ x.key) := by
    show "track_" ++ toString t ++ "_" ++ x.key = _
    apply String.toList_inj.1
    simp [String.toList_append]
  rw [hkey, keyWords_append, keyWords_append, keyWords_toString]
  rfl

/-- What begins like the keys of a step has the words of these keys. -/
theorem keyWords_stepKey (t s : Nat) (rest : String) :
    keyWords (stepKey t s ++ rest) = "track".toList :: (toString t).toList :: "step".toList ::
      (toString s).toList :: keyWords rest := by
  have hkey : stepKey t s ++ rest =
      "track" ++ "_" ++ (toString t ++ "_" ++ ("step" ++ "_" ++ (toString s ++ "_" ++ rest))) := by
    show "track_" ++ toString t ++ "_" ++ "step_" ++ toString s ++ "_" ++ rest = _
    apply String.toList_inj.1
    simp [String.toList_append]
  rw [hkey, keyWords_append, keyWords_append, keyWords_append, keyWords_append, keyWords_toString,
    keyWords_toString]
  rfl

/-- The words of a transpose step's key: its number and its part. -/
theorem keyWords_transposeStep (i : Nat) (x : TransposeParam) :
    keyWords (transposeStep i x).key =
      "transpose".toList :: "step".toList :: (toString i).toList :: keyWords x.key := by
  have hkey : (transposeStep i x).key =
      "transpose" ++ "_" ++ ("step" ++ "_" ++ (toString i ++ "_" ++ x.key)) := by
    show "transpose_step_" ++ toString i ++ "_" ++ x.key = _
    apply String.toList_inj.1
    simp [String.toList_append]
  rw [hkey, keyWords_append, keyWords_append, keyWords_append, keyWords_toString]
  rfl

/-- The words of a step's key: the numbers of track and step, and the parameter. -/
theorem keyWords_step (t s : Nat) (x : StepParam) :
    keyWords (step t s x).key = "track".toList :: (toString t).toList :: "step".toList ::
      (toString s).toList :: keyWords x.key :=
  keyWords_stepKey t s x.key

/-- The first word of a key. -/
def firstWord : Param → String
  | bpm => "bpm"
  | masterReset => "master"
  | track .. | step .. => "track"
  | transposeClear | transposeStep .. | transposeCount => "transpose"

theorem head_keyWords (q : Param) : (keyWords q.key).head? = some q.firstWord.toList := by
  cases q with
  | track t x => rw [keyWords_track]; rfl
  | step t s x => rw [keyWords_step]; rfl
  | transposeStep i x => rw [keyWords_transposeStep]; rfl
  | _ => rfl

/-- The first word of a key tells its kind, as far as it goes. -/
theorem firstWord_of_keyWords {q : Param} {word : String} {rest : List (List Char)}
    (h : keyWords q.key = word.toList :: rest) : q.firstWord = word := by
  have hhead := head_keyWords q
  rw [h] at hhead
  exact String.toList_inj.1 (Option.some.inj hhead).symm

/-- Only keys of a step have the word `step` in the third place behind `track`. -/
theorem eq_step_of_keyWords {q : Param} {t s : Nat} {rest : List (List Char)}
    (h : keyWords q.key = "track".toList :: (toString t).toList :: "step".toList ::
      (toString s).toList :: rest) : ∃ x, q = step t s x ∧ keyWords x.key = rest := by
  have hfirst := firstWord_of_keyWords h
  -- Settings of a track begin with the same word, and all others with another one.
  cases q with
  | step t' s' x =>
    rw [keyWords_step] at h
    obtain ⟨-, ht, -, hs, hrest⟩ : _ ∧ _ ∧ _ ∧ _ ∧ _ := by
      simpa only [List.cons.injEq] using h
    rw [Decimal.toString_injective (String.toList_inj.1 ht),
      Decimal.toString_injective (String.toList_inj.1 hs)]
    exact ⟨x, rfl, hrest⟩
  | track t' x =>
    rw [keyWords_track] at h
    have hx := (List.cons.inj (List.cons.inj h).2).2
    exact absurd (congrArg List.head? hx) x.head_keyWords
  | _ => simp [firstWord] at hfirst

/-- Only keys of transpose steps, and the key of their number, begin with these two words. -/
theorem eq_transpose_of_keyWords {q : Param} {rest : List (List Char)}
    (h : keyWords q.key = "transpose".toList :: "step".toList :: rest) :
    (∃ i x, q = transposeStep i x ∧ rest = (toString i).toList :: keyWords x.key) ∨
      q = transposeCount ∧ rest = ["count".toList] := by
  have hfirst := firstWord_of_keyWords h
  cases q with
  | transposeStep i x =>
    rw [keyWords_transposeStep] at h
    exact Or.inl ⟨i, x, rfl, (List.cons.inj (List.cons.inj h).2).2.symm⟩
  | transposeCount => exact Or.inr ⟨rfl, (List.cons.inj (List.cons.inj h).2).2.symm⟩
  | transposeClear => exact absurd (List.cons.inj (List.cons.inj h).2).1 (by decide)
  | _ => simp [firstWord] at hfirst

/-- No key of another kind has the words of a track's setting. -/
theorem eq_track_of_keyWords {q : Param} {t : Nat} {x : TrackParam}
    (h : keyWords q.key = keyWords (track t x).key) : q = track t x := by
  rw [keyWords_track] at h
  have hfirst := firstWord_of_keyWords h
  cases q with
  | track t' x' =>
    rw [keyWords_track] at h
    obtain ⟨-, ht, hx⟩ : _ ∧ _ ∧ _ := by simpa only [List.cons.injEq] using h
    rw [Decimal.toString_injective (String.toList_inj.1 ht),
      TrackParam.key_injective (keyWords_injective hx)]
  | step t' s x' =>
    rw [keyWords_step] at h
    have hx := (List.cons.inj (List.cons.inj h).2).2
    exact absurd (congrArg List.head? hx.symm) x.head_keyWords
  | _ => simp [firstWord] at hfirst

/-- Different parameters have different keys. -/
theorem key_injective {p q : Param} (h : p.key = q.key) : p = q := by
  have hw : keyWords q.key = keyWords p.key := congrArg keyWords h.symm
  -- The words of `p` say of which form `q` is; numbers and settings are compared one by one.
  cases p with
  | step t s x =>
    rw [keyWords_step] at hw
    rcases eq_step_of_keyWords hw with ⟨y, rfl, hy⟩
    rw [StepParam.key_injective (keyWords_injective hy)]
  | track t x => exact (eq_track_of_keyWords hw).symm
  | transposeStep i x =>
    rw [keyWords_transposeStep] at hw
    rcases eq_transpose_of_keyWords hw with ⟨j, y, rfl, hrest⟩ | ⟨rfl, hrest⟩
    · rcases List.cons.inj hrest with ⟨hi, hx⟩
      rw [Decimal.toString_injective (String.toList_inj.1 hi),
        TransposeParam.key_injective (keyWords_injective hx)]
    · exact absurd (List.cons.inj hrest).2 x.keyWords_ne_nil
  | transposeCount =>
    rcases eq_transpose_of_keyWords hw with ⟨j, y, rfl, hrest⟩ | ⟨rfl, -⟩
    · exact absurd (List.cons.inj hrest).2.symm y.keyWords_ne_nil
    · rfl
  | bpm =>
    have hfirst : q.firstWord = "bpm" := firstWord_of_keyWords hw
    cases q with
    | bpm => rfl
    | _ => simp [firstWord] at hfirst
  | masterReset =>
    have hfirst : q.firstWord = "master" := firstWord_of_keyWords hw
    cases q with
    | masterReset => rfl
    | _ => simp [firstWord] at hfirst
  | transposeClear =>
    have hfirst : q.firstWord = "transpose" := firstWord_of_keyWords hw
    cases q with
    | transposeClear => rfl
    | transposeCount => exact absurd hw (by decide)
    | transposeStep i x =>
      rw [keyWords_transposeStep] at hw
      exact absurd (List.cons.inj (List.cons.inj hw).2).1 (by decide)
    | _ => simp [firstWord] at hfirst

/-! ## Beginnings -/

/-- What begins like the keys of a step. -/
theorem keyWords_of_stepKey_isPrefix {t s : Nat} {key : String}
    (h : (stepKey t s).toList <+: key.toList) :
    ∃ rest : String, keyWords key = "track".toList :: (toString t).toList :: "step".toList ::
      (toString s).toList :: keyWords rest := by
  rcases h with ⟨rest, hrest⟩
  have hkey : key = stepKey t s ++ String.ofList rest := by
    apply String.toList_inj.1
    rw [String.toList_append, String.toList_ofList]
    exact hrest.symm
  exact ⟨String.ofList rest, by rw [hkey, keyWords_stepKey]⟩

/-- The keys that begin like the keys of a step are the keys of this step. -/
theorem stepKey_isPrefix_iff {t s : Nat} {q : Param} :
    (stepKey t s).toList <+: q.key.toList ↔ ∃ x, q = step t s x := by
  constructor
  · intro h
    rcases keyWords_of_stepKey_isPrefix h with ⟨rest, hwords⟩
    rcases eq_step_of_keyWords hwords with ⟨x, hx, -⟩
    exact ⟨x, hx⟩
  · rintro ⟨x, rfl⟩
    show (stepKey t s).toList <+: (stepKey t s ++ x.key).toList
    rw [String.toList_append]
    exact List.prefix_append _ _

/-- Different steps have keys that begin differently. -/
theorem stepKey_injective {t s t' s' : Nat} (h : stepKey t s = stepKey t' s') :
    t = t' ∧ s = s' := by
  have hstep : step t s .clear = step t' s' .clear := by
    apply key_injective
    show stepKey t s ++ _ = stepKey t' s' ++ _
    rw [h]
  cases hstep
  exact ⟨rfl, rfl⟩

/-- The keys that begin like those of transpose steps. -/
theorem transposeKey_isPrefix_iff {q : Param} :
    "transpose_step_".toList <+: q.key.toList ↔
      (∃ i x, q = transposeStep i x) ∨ q = transposeCount := by
  constructor
  · rintro ⟨rest, hrest⟩
    have hkey : q.key = "transpose" ++ "_" ++ ("step" ++ "_" ++ String.ofList rest) := by
      apply String.toList_inj.1
      rw [← hrest]
      simp [String.toList_append]
    have hwords : keyWords q.key = "transpose".toList :: "step".toList ::
        keyWords (String.ofList rest) := by
      rw [hkey, keyWords_append, keyWords_append]
      rfl
    rcases eq_transpose_of_keyWords hwords with ⟨i, x, rfl, -⟩ | ⟨rfl, -⟩
    · exact Or.inl ⟨i, x, rfl⟩
    · exact Or.inr rfl
  · rintro (⟨i, x, rfl⟩ | rfl)
    · show "transpose_step_".toList <+: ("transpose_step_" ++ toString i ++ "_" ++ x.key).toList
      rw [String.append_assoc, String.append_assoc, String.toList_append]
      exact List.prefix_append _ _
    · exact ⟨"count".toList, rfl⟩

end Param
end Groovebox
