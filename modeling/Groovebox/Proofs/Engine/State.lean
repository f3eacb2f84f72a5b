import Mathlib.Tactic
import Groovebox.Proofs.Engine.Keys
/-! # What the engine plays

`EngineState` is what the engine holds after the calls it received: a value for each key and the
notes of each step. Calls fall into blocks, the groups of parameters that settle one another, and
`EngineState.run_sameOn` says that what the engine holds for a block depends on the calls of this
block only. -/

namespace Groovebox

/-- What the engine holds. -/
structure EngineState where
  /-- The value of each key that has one. -/
  values : String → Option String
  /-- The notes of each step, under the beginning of the step's keys. -/
  notes : String → List String

namespace EngineState

/-! ## Receiving calls -/

/-- The engine before any call. -/
def silent : EngineState where
  values _ := none
  notes _ := []

/-- The beginning and the end of a key of the form `track_<t>_step_<s>_<end>`. -/
def stepKey? (key : String) : Option (String × String) :=
  match keyWords key with
  | track :: t :: step :: s :: rest =>
    if track = "track".toList ∧ step = "step".toList then
      some ("track_" ++ String.ofList t ++ "_step_" ++ String.ofList s ++ "_",
        String.ofList (List.intercalate ['_'] rest))
    else none
  | _ => none

/-- Drops the values of all keys with a beginning. -/
def forget (e : EngineState) (start : String) : EngineState :=
  { e with values := fun k => if start.toList <+: k.toList then none else e.values k }

/-- Gives a key a value. -/
def setValue (e : EngineState) (key value : String) : EngineState :=
  { e with values := fun k => if k = key then some value else e.values k }

/-- Gives a step its notes. -/
def setNotes (e : EngineState) (start : String) (notes : List String) : EngineState :=
  { e with notes := fun k => if k = start then notes else e.notes k }

/-- One call: a step is cleared, a note is added to it, the transpose steps are cleared, or a key
takes a value. -/
def receive (e : EngineState) (c : Call) : EngineState :=
  if c.key = "transpose_clear" then e.forget "transpose_step_"
  else
    match stepKey? c.key with
    | some (start, last) =>
      if last = "clear" then (e.forget start).setNotes start []
      else if last = "add_note" then e.setNotes start (e.notes start ++ [c.value])
      else e.setValue c.key c.value
    | none => e.setValue c.key c.value

/-- Calls in turn, none of them a bulk call. -/
def run (e : EngineState) (calls : List Call) : EngineState :=
  calls.foldl receive e

/-- What the engine holds after some calls, where bulk calls stand for the pairs they carry. -/
def after (calls : List Call) : EngineState :=
  silent.run (calls.flatMap Call.expand)

end EngineState

/-! ## Blocks -/

/-- A group of parameters that settle one another. -/
inductive Block
  | bpm
  | masterReset
  | setting (track : Nat) (setting : TrackParam)
  | step (track step : Nat)
  | transposes
deriving DecidableEq

/-- The block of a parameter. -/
def Param.block : Param → Block
  | bpm => .bpm
  | masterReset => .masterReset
  | track t x => .setting t x
  | step t s _ => .step t s
  | transposeClear | transposeStep .. | transposeCount => .transposes

/-- Whether a parameter keeps the value it is given, unlike the ones that clear or add. -/
def Param.holdsValue : Param → Bool
  | transposeClear | step _ _ .clear | step _ _ .addNote => false
  | _ => true

/-- Whether a parameter drops what its block holds. -/
def Param.clears : Param → Bool
  | transposeClear | step _ _ .clear => true
  | _ => false

/-- A parameter that clears its block takes no value. -/
theorem Param.holdsValue_of_clears {p : Param} (h : p.clears = true) : p.holdsValue = false := by
  cases p with
  | step t s x => cases x <;> first | rfl | cases h
  | transposeClear => rfl
  | _ => cases h

/-- A call that gives a parameter of a block a value. -/
def Block.Owns (b : Block) (c : Call) : Prop :=
  ∃ p v, p.block = b ∧ c = Param.call p v

noncomputable instance (b : Block) : DecidablePred b.Owns :=
  Classical.decPred _

/-- A call belongs to the block of its parameter, since the key tells the parameter. -/
theorem Block.owns_call {b : Block} {p : Param} {v : String} :
    b.Owns (p.call v) ↔ p.block = b := by
  constructor
  · rintro ⟨q, w, hq, hcall⟩
    rw [Param.key_injective (congrArg Call.key hcall)]
    exact hq
  · exact fun h => ⟨p, v, h, rfl⟩

namespace EngineState

variable {e e' : EngineState}

/-! ## Single calls -/

/-- The key of a step's parameter is taken apart into the step and the parameter. -/
theorem stepKey?_step (t s : Nat) (x : StepParam) :
    stepKey? (Param.step t s x).key = some (Param.stepKey t s, x.key) := by
  have hstart : "track_" ++ String.ofList (toString t).toList ++ "_step_" ++
      String.ofList (toString s).toList ++ "_" = Param.stepKey t s := by
    show _ = "track_" ++ toString t ++ "_" ++ "step_" ++ toString s ++ "_"
    apply String.toList_inj.1
    simp [String.toList_append]
  have hlast : String.ofList (List.intercalate ['_'] (keyWords x.key)) = x.key := by
    apply String.toList_inj.1
    rw [String.toList_ofList, keyWords, List.intercalate_splitOn]
  unfold stepKey?
  rw [Param.keyWords_step]
  simp only [and_self, if_true, hstart, hlast]

/-- No other key is taken for one of a step. -/
theorem stepKey?_of_block {p : Param} (h : ∀ t s, p.block ≠ .step t s) :
    stepKey? p.key = none := by
  unfold stepKey?
  split
  · -- With the words `track` and `step` in their places the key would be one of a step.
    rename_i track t step s rest hwords
    apply if_neg
    rintro ⟨rfl, rfl⟩
    have hfirst := Param.firstWord_of_keyWords hwords
    cases p with
    | step t' s' x => exact h t' s' rfl
    | track t' x =>
      rw [Param.keyWords_track] at hwords
      have hx := (List.cons.inj (List.cons.inj hwords).2).2
      exact absurd (congrArg List.head? hx) x.head_keyWords
    | _ => simp [Param.firstWord] at hfirst
  · rfl

/-- One parameter alone clears the transpose sequence. -/
theorem key_ne_transposeClear {p : Param} (h : p ≠ .transposeClear) : p.key ≠ "transpose_clear" :=
  fun hkey => h (Param.key_injective (q := .transposeClear) hkey)

/-- Clearing the transpose sequence drops the values of all its steps. -/
theorem receive_transposeClear (e : EngineState) (v : String) :
    e.receive (Param.transposeClear.call v) = e.forget "transpose_step_" :=
  if_pos rfl

/-- Clearing a step drops its values and its notes. -/
theorem receive_clear (e : EngineState) (t s : Nat) (v : String) :
    e.receive ((Param.step t s .clear).call v) =
      (e.forget (Param.stepKey t s)).setNotes (Param.stepKey t s) [] := by
  unfold receive Param.call
  rw [if_neg (key_ne_transposeClear (by simp)), stepKey?_step]
  rfl

/-- A note goes behind the notes that the step has. -/
theorem receive_addNote (e : EngineState) (t s : Nat) (v : String) :
    e.receive ((Param.step t s .addNote).call v) =
      e.setNotes (Param.stepKey t s) (e.notes (Param.stepKey t s) ++ [v]) := by
  unfold receive Param.call
  rw [if_neg (key_ne_transposeClear (by simp)), stepKey?_step]
  rfl

/-- A parameter that holds a value takes it. -/
theorem receive_value (e : EngineState) {p : Param} (hp : p.holdsValue = true) (v : String) :
    e.receive (p.call v) = e.setValue p.key v := by
  have hclear : p ≠ .transposeClear := by
    rintro rfl
    cases hp
  unfold receive Param.call
  rw [if_neg (key_ne_transposeClear hclear)]
  cases p with
  | step t s x =>
    -- The two settings of a step that are no values have other names.
    have hlast (y : StepParam) (hy : (Param.step t s y).holdsValue = false) : x.key ≠ y.key := by
      intro hkey
      rw [StepParam.key_injective hkey, hy] at hp
      cases hp
    have hclear : x.key ≠ "clear" := hlast .clear rfl
    have hadd : x.key ≠ "add_note" := hlast .addNote rfl
    rw [stepKey?_step]
    simp only [if_neg hclear, if_neg hadd]
  | _ => rw [stepKey?_of_block (by simp [Param.block])]

/-! ## Blocks -/

/-- Two states hold the same for a block. -/
structure SameOn (b : Block) (e e' : EngineState) : Prop where
  values : ∀ p : Param, p.block = b → p ≠ .transposeClear → e.values p.key = e'.values p.key
  notes : ∀ t s, b = .step t s → e.notes (Param.stepKey t s) = e'.notes (Param.stepKey t s)

theorem SameOn.refl (b : Block) (e : EngineState) : SameOn b e e :=
  ⟨fun _ _ _ => rfl, fun _ _ _ => rfl⟩

theorem SameOn.symm {b : Block} (h : SameOn b e e') : SameOn b e' e :=
  ⟨fun p hp hc => (h.values p hp hc).symm, fun t s hb => (h.notes t s hb).symm⟩

theorem SameOn.trans {b : Block} {e'' : EngineState} (h : SameOn b e e') (h' : SameOn b e' e'') :
    SameOn b e e'' :=
  ⟨fun p hp hc => (h.values p hp hc).trans (h'.values p hp hc),
    fun t s hb => (h.notes t s hb).trans (h'.notes t s hb)⟩

/-- A value is held for the parameter that was set, and for no other. -/
theorem values_setValue (e : EngineState) (p q : Param) (v : String) :
    (e.setValue p.key v).values q.key = if q = p then some v else e.values q.key := by
  by_cases h : q = p
  · rw [if_pos h, h]
    exact if_pos rfl
  · rw [if_neg h]
    exact if_neg fun hkey => h (Param.key_injective hkey)

/-- Of a step that is cleared, no parameter has a value; all others keep theirs. -/
theorem values_forget_step (e : EngineState) (t s : Nat) (q : Param) :
    (e.forget (Param.stepKey t s)).values q.key =
      if q.block = .step t s then none else e.values q.key := by
  -- The keys that begin like those of the step are its own.
  have hiff : (Param.stepKey t s).toList <+: q.key.toList ↔ q.block = .step t s := by
    rw [Param.stepKey_isPrefix_iff]
    constructor
    · rintro ⟨x, rfl⟩
      rfl
    · intro h
      cases q with
      | step t' s' x =>
        cases h
        exact ⟨x, rfl⟩
      | _ => cases h
  simp only [forget, hiff]

/-- Of the transpose sequence, once cleared, no parameter has a value; all others keep theirs. -/
theorem values_forget_transposes (e : EngineState) {q : Param} (hq : q ≠ .transposeClear) :
    (e.forget "transpose_step_").values q.key =
      if q.block = .transposes then none else e.values q.key := by
  -- The number of transpose steps has a key of the same beginning.
  have hiff : "transpose_step_".toList <+: q.key.toList ↔ q.block = .transposes := by
    rw [Param.transposeKey_isPrefix_iff]
    constructor
    · rintro (⟨i, x, rfl⟩ | rfl) <;> rfl
    · intro h
      cases q with
      | transposeStep i x => exact Or.inl ⟨i, x, rfl⟩
      | transposeCount => exact Or.inr rfl
      | transposeClear => exact absurd rfl hq
      | _ => cases h
  simp only [forget, hiff]

/-- Notes are given to one step, and the others keep theirs. -/
theorem notes_setNotes (e : EngineState) (t s t' s' : Nat) (notes : List String) :
    (e.setNotes (Param.stepKey t s) notes).notes (Param.stepKey t' s') =
      if Block.step t' s' = .step t s then notes else e.notes (Param.stepKey t' s') := by
  by_cases h : Block.step t' s' = .step t s
  · rw [if_pos h]
    cases h
    exact if_pos rfl
  · rw [if_neg h]
    apply if_neg
    intro hkey
    rcases Param.stepKey_injective hkey with ⟨rfl, rfl⟩
    exact h rfl

/-- The value of a parameter after a call. -/
theorem values_receive (e : EngineState) (p : Param) (v : String) {q : Param}
    (hq : q ≠ .transposeClear) :
    (e.receive (p.call v)).values q.key =
      if p.holdsValue ∧ q = p then some v
      else if p.clears ∧ q.block = p.block then none
      else e.values q.key := by
  -- A value is set for one parameter only; of the calls without one, two drop their block.
  by_cases hp : p.holdsValue = true
  · rw [receive_value e hp, values_setValue]
    have hclears : p.clears = false := by
      rw [Bool.eq_false_iff]
      intro h
      rw [Param.holdsValue_of_clears h] at hp
      cases hp
    simp [hp, hclears]
  · rw [if_neg fun h => hp h.1]
    cases p with
    | transposeClear =>
      have hblock : Param.transposeClear.block = .transposes := rfl
      have hclears : Param.transposeClear.clears = true := rfl
      rw [receive_transposeClear, values_forget_transposes e hq, hblock]
      simp only [hclears, true_and]
    | step t s x =>
      cases x with
      | clear =>
        have hblock : (Param.step t s .clear).block = .step t s := rfl
        have hclears : (Param.step t s .clear).clears = true := rfl
        rw [receive_clear, hblock]
        show (e.forget (Param.stepKey t s)).values q.key = _
        rw [values_forget_step]
        simp only [hclears, true_and]
      | addNote =>
        rw [receive_addNote]
        rfl
      | _ => exact absurd rfl hp
    | _ => exact absurd rfl hp

/-- The notes of a step after a call. -/
theorem notes_receive (e : EngineState) (p : Param) (v : String) (t s : Nat) :
    (e.receive (p.call v)).notes (Param.stepKey t s) =
      if p = .step t s .clear then []
      else if p = .step t s .addNote then e.notes (Param.stepKey t s) ++ [v]
      else e.notes (Param.stepKey t s) := by
  by_cases hp : p.holdsValue = true
  · rw [receive_value e hp]
    rw [if_neg (by rintro rfl; cases hp), if_neg (by rintro rfl; cases hp)]
    rfl
  · cases p with
    | transposeClear =>
      rw [receive_transposeClear]
      rfl
    | step t' s' x =>
      cases x with
      | clear =>
        rw [receive_clear, notes_setNotes]
        by_cases h : Block.step t s = .step t' s'
        · cases h
          simp
        · rw [if_neg h, if_neg, if_neg (by simp)]
          · rfl
          · intro hstep
            cases hstep
            exact h rfl
      | addNote =>
        rw [receive_addNote, notes_setNotes]
        by_cases h : Block.step t s = .step t' s'
        · cases h
          simp
        · rw [if_neg h, if_neg (by simp), if_neg]
          intro hstep
          cases hstep
          exact h rfl
      | _ => exact absurd rfl hp
    | _ => exact absurd rfl hp

/-- What the engine holds for a block after a call depends on what it held for this block. -/
theorem SameOn.receive {b : Block} (h : SameOn b e e') (p : Param) (v : String) :
    SameOn b (e.receive (p.call v)) (e'.receive (p.call v)) := by
  constructor
  · intro q hq hclear
    rw [values_receive e p v hclear, values_receive e' p v hclear, h.values q hq hclear]
  · intro t s hb
    rw [notes_receive, notes_receive, h.notes t s hb]

/-- A call for another block changes nothing. -/
theorem sameOn_receive {b : Block} {p : Param} (hp : p.block ≠ b) (e : EngineState) (v : String) :
    SameOn b (e.receive (p.call v)) e := by
  constructor
  · rintro q rfl hclear
    rw [values_receive e p v hclear, if_neg, if_neg]
    · exact fun h => hp h.2.symm
    · rintro ⟨-, rfl⟩
      exact hp rfl
  · rintro t s rfl
    rw [notes_receive, if_neg, if_neg]
    · rintro rfl
      exact hp rfl
    · rintro rfl
      exact hp rfl

/-- After the first call of a block that clears it, or that gives the only value it holds, it does
not matter what the engine held for the block. -/
theorem sameOn_of_clears {p : Param} (hp : p.clears = true) (e e' : EngineState) (v : String) :
    SameOn p.block (e.receive (p.call v)) (e'.receive (p.call v)) := by
  have hvalue : ¬p.holdsValue = true := by
    rw [Param.holdsValue_of_clears hp]
    exact Bool.noConfusion
  constructor
  · intro q hq hclear
    rw [values_receive e p v hclear, values_receive e' p v hclear, if_neg fun h => hvalue h.1,
      if_pos ⟨hp, hq⟩, if_neg fun h => hvalue h.1, if_pos ⟨hp, hq⟩]
  · intro t s hb
    have hstep : p = .step t s .clear := by
      cases p with
      | step t' s' x =>
        cases hb
        cases x <;> first | rfl | cases hp
      | _ => cases hb
    rw [notes_receive, notes_receive, if_pos hstep, if_pos hstep]

/-- The same for a block of a single value. -/
theorem sameOn_of_only {p : Param} (hp : p.holdsValue = true)
    (honly : ∀ q, q.block = p.block → q = p) (e e' : EngineState) (v : String) :
    SameOn p.block (e.receive (p.call v)) (e'.receive (p.call v)) := by
  constructor
  · intro q hq hclear
    rw [values_receive e p v hclear, values_receive e' p v hclear, if_pos ⟨hp, honly q hq⟩,
      if_pos ⟨hp, honly q hq⟩]
  · -- Steps have more than one parameter, so the block is none of a step.
    intro t s hb
    have hclear := honly (.step t s .clear) hb.symm
    have hadd := honly (.step t s .addNote) hb.symm
    rw [← hadd] at hclear
    cases hclear

/-! ## Runs -/

/-- A call of some block. -/
def IsOrder (c : Call) : Prop :=
  ∃ p v, c = Param.call p v

/-- The calls of a block, in order. -/
noncomputable def ofBlock (b : Block) (calls : List Call) : List Call :=
  calls.filter fun c => b.Owns c

/-- What the engine holds for a block depends on the calls of this block only. -/
theorem run_sameOn {b : Block} {calls : List Call} (horders : ∀ c ∈ calls, IsOrder c) :
    ∀ {e e' : EngineState}, SameOn b e e' → SameOn b (e.run calls) (e'.run (ofBlock b calls)) := by
  induction calls with
  | nil => exact id
  | cons c calls ih =>
    -- The second run waits while the first one receives calls of other blocks.
    intro e e' h
    have hrest := fun d hd => horders d (List.mem_cons_of_mem c hd)
    rcases horders c List.mem_cons_self with ⟨p, v, rfl⟩
    by_cases hp : p.block = b
    · have hcons : ofBlock b (p.call v :: calls) = p.call v :: ofBlock b calls := by
        simp [ofBlock, Block.owns_call, hp]
      rw [hcons]
      exact ih hrest (h.receive p v)
    · have hcons : ofBlock b (p.call v :: calls) = ofBlock b calls := by
        simp [ofBlock, Block.owns_call, hp]
      rw [hcons]
      exact ih hrest ((sameOn_receive hp e v).trans h)

/-- Calls after which it does not matter what the engine held for a block before. -/
def Settles (b : Block) (calls : List Call) : Prop :=
  ∀ e e' : EngineState, SameOn b (e.run calls) (e'.run calls)

/-- What settles a block does so whatever follows. -/
theorem settles_cons {b : Block} {c : Call} {calls : List Call}
    (h : ∀ e e' : EngineState, SameOn b (e.receive c) (e'.receive c))
    (horders : ∀ d ∈ calls, IsOrder d) : Settles b (c :: calls) := by
  intro e e'
  have hleft := run_sameOn horders (h e e')
  have hright := run_sameOn horders (SameOn.refl b (e'.receive c))
  exact hleft.trans hright.symm

/-! ## Whole states -/

/-- Nothing is held but values of parameters and notes of steps. -/
structure Orderly (e : EngineState) : Prop where
  values : ∀ k, (∀ p : Param, p ≠ .transposeClear → p.key ≠ k) → e.values k = none
  notes : ∀ k, (∀ t s, Param.stepKey t s ≠ k) → e.notes k = []

theorem silent_orderly : silent.Orderly :=
  ⟨fun _ _ => rfl, fun _ _ => rfl⟩

/-- Where values are dropped, nothing is added. -/
theorem Orderly.forget (h : e.Orderly) (start : String) : (e.forget start).Orderly := by
  refine ⟨?_, h.notes⟩
  intro k hk
  unfold EngineState.forget
  simp only
  split
  · rfl
  · exact h.values k hk

/-- Notes that are given to a step are the notes of a step. -/
theorem Orderly.setNotes (h : e.Orderly) (t s : Nat) (notes : List String) :
    (e.setNotes (Param.stepKey t s) notes).Orderly := by
  refine ⟨h.values, ?_⟩
  intro k hk
  unfold EngineState.setNotes
  simp only
  rw [if_neg (hk t s).symm]
  exact h.notes k hk

/-- A call of a block adds nothing but values of parameters and notes of steps. -/
theorem Orderly.receive (h : e.Orderly) (p : Param) (v : String) :
    (e.receive (p.call v)).Orderly := by
  by_cases hp : p.holdsValue = true
  · rw [receive_value e hp]
    refine ⟨?_, h.notes⟩
    intro k hk
    have hclear : p ≠ .transposeClear := by
      rintro rfl
      cases hp
    unfold setValue
    simp only
    rw [if_neg (hk p hclear).symm]
    exact h.values k hk
  · cases p with
    | transposeClear =>
      rw [receive_transposeClear]
      exact h.forget _
    | step t s x =>
      cases x with
      | clear =>
        rw [receive_clear]
        exact (h.forget _).setNotes t s []
      | addNote =>
        rw [receive_addNote]
        exact h.setNotes t s _
      | _ => exact absurd rfl hp
    | _ => exact absurd rfl hp

/-- After calls of blocks, nothing is held but values of parameters and notes of steps. -/
theorem Orderly.run {calls : List Call} (horders : ∀ c ∈ calls, IsOrder c) :
    ∀ {e : EngineState}, e.Orderly → (e.run calls).Orderly := by
  induction calls with
  | nil => exact id
  | cons c calls ih =>
    intro e h
    rcases horders c List.mem_cons_self with ⟨p, v, rfl⟩
    exact ih (fun d hd => horders d (List.mem_cons_of_mem _ hd)) (h.receive p v)

/-- States that hold the same for every block are the same. -/
theorem eq_of_sameOn (he : e.Orderly) (he' : e'.Orderly) (h : ∀ b, SameOn b e e') : e = e' := by
  have hvalues : e.values = e'.values := by
    funext k
    -- A key is one of a parameter, and then of a block, or it has no value in either state.
    by_cases hk : ∃ p : Param, p ≠ .transposeClear ∧ p.key = k
    · rcases hk with ⟨p, hp, rfl⟩
      exact (h p.block).values p rfl hp
    · have hnone : ∀ p : Param, p ≠ .transposeClear → p.key ≠ k := fun p hp hkey =>
        hk ⟨p, hp, hkey⟩
      rw [he.values k hnone, he'.values k hnone]
  have hnotes : e.notes = e'.notes := by
    funext k
    by_cases hk : ∃ t s, Param.stepKey t s = k
    · rcases hk with ⟨t, s, rfl⟩
      exact (h (.step t s)).notes t s rfl
    · have hnone : ∀ t s, Param.stepKey t s ≠ k := fun t s hkey => hk ⟨t, s, hkey⟩
      rw [he.notes k hnone, he'.notes k hnone]
  cases e
  cases e'
  simp only at hvalues hnotes
  rw [hvalues, hnotes]

end EngineState
end Groovebox
