import Mathlib.Tactic
import Groovebox.Engine.Export
import Groovebox.Proofs.Bank
import Groovebox.Proofs.Engine.Packing
import Groovebox.Proofs.Engine.State
/-! # The orders of a song

What is sent for a song, sorted by blocks. Every call of an export gives a parameter of a known
block a value that fits on a line; `ofBlock_songPairs` says which calls of a whole song belong to
each block, and `orders_settle` that these calls settle it. -/

namespace Groovebox

/-! ## Texts without line breaks -/

namespace Text

/-- A text without line feeds and carriage returns. -/
def NoBreak (s : String) : Prop :=
  ∀ c ∈ s.toList, c ≠ '\n' ∧ c ≠ '\r'

instance (s : String) : Decidable (NoBreak s) :=
  List.decidableBAll (fun c => c ≠ '\n' ∧ c ≠ '\r') s.toList

/-- A text without line breaks is one line. -/
theorem NoBreak.isLine {s : String} (h : NoBreak s) : IsLine s := by
  constructor
  · exact fun hc => (h _ hc).1 rfl
  · exact fun hc => (h _ (List.mem_of_getLast? hc)).2 rfl

/-- Texts without line breaks may be put together. -/
theorem NoBreak.append {s t : String} (hs : NoBreak s) (ht : NoBreak t) : NoBreak (s ++ t) := by
  intro c hc
  rw [String.toList_append] at hc
  rcases List.mem_append.1 hc with hc | hc
  · exact hs c hc
  · exact ht c hc

/-- A natural number is written in digits alone. -/
theorem noBreak_nat (n : Nat) : NoBreak (toString n) := by
  intro c hc
  have hdigit := Decimal.isDigit_of_mem hc
  constructor <;> rintro rfl <;> exact absurd hdigit (by decide)

/-- A negative number has a minus sign as well. -/
theorem noBreak_int (n : Int) : NoBreak (toString n) := by
  cases n with
  | ofNat n => exact noBreak_nat n
  | negSucc n =>
    have hminus : NoBreak "-" := by decide
    exact hminus.append (noBreak_nat (n + 1))

end Text

open Text (NoBreak)

/-- Keys are made of words and numbers, so each is one line. -/
theorem Param.key_noBreak (p : Param) : NoBreak p.key := by
  have htrack (t : Nat) : NoBreak (trackKey t) :=
    ((by decide : NoBreak "track_").append (Text.noBreak_nat t)).append (by decide)
  -- Each key is a fixed text, or one with the numbers of its track, step or transpose step in it.
  cases p with
  | track t x => exact (htrack t).append (by cases x <;> decide)
  | step t s x =>
    have hkey : NoBreak (stepKey t s) :=
      ((htrack t).append (by decide : NoBreak "step_")).append (Text.noBreak_nat s)
        |>.append (by decide)
    refine hkey.append ?_
    cases x with
    | condition part => cases part <;> decide
    | paramSpark part => cases part <;> decide
    | compSpark part => cases part <;> decide
    | _ => decide
  | transposeStep i x =>
    have hkey : NoBreak ("transpose_step_" ++ toString i ++ "_") :=
      ((by decide : NoBreak "transpose_step_").append (Text.noBreak_nat i)).append (by decide)
    refine hkey.append ?_
    cases x with
    | condition part => cases part <;> decide
    | _ => decide
  | _ => decide

/-- No parameter has the key that batches are sent under. -/
theorem Param.key_ne_bulkKey (p : Param) : p.key ≠ Call.bulkKey := by
  intro h
  have hwords : keyWords p.key = "bulk".toList :: ["set".toList] := by
    rw [h]
    rfl
  -- The first word of a key tells the parameters from the batches.
  have hfirst := Param.firstWord_of_keyWords hwords
  cases p <;> simp [firstWord] at hfirst

/-! ## What exports send -/

/-- A call that gives a parameter of a block a value without line breaks. -/
def Block.Sends (b : Block) (c : Call) : Prop :=
  ∃ p v, p.block = b ∧ NoBreak v ∧ c = Param.call p v

namespace Block

variable {b : Block} {calls more : List Call}

theorem Sends.owns {c : Call} (h : b.Sends c) : b.Owns c := by
  rcases h with ⟨p, v, hp, -, hc⟩
  exact ⟨p, v, hp, hc⟩

/-- Key and value of a call that is sent are one line each. -/
theorem Sends.isLines {c : Call} (h : b.Sends c) : c.IsLines := by
  rcases h with ⟨p, v, -, hv, rfl⟩
  exact ⟨p.key_noBreak.isLine, hv.isLine⟩

theorem Sends.isOrder {c : Call} (h : b.Sends c) : EngineState.IsOrder c := by
  rcases h with ⟨p, v, -, -, hc⟩
  exact ⟨p, v, hc⟩

theorem Sends.key_ne_bulkKey {c : Call} (h : b.Sends c) : c.key ≠ Call.bulkKey := by
  rcases h with ⟨p, v, -, -, rfl⟩
  exact p.key_ne_bulkKey

/-- Parts of an export that belong to a block may be put together. -/
theorem sends_append (h : ∀ c ∈ calls, b.Sends c) (h' : ∀ c ∈ more, b.Sends c) :
    ∀ c ∈ calls ++ more, b.Sends c := by
  intro c hc
  rcases List.mem_append.1 hc with hc | hc
  · exact h c hc
  · exact h' c hc

theorem sends_singleton {p : Param} {v : String} (hp : p.block = b) (hv : NoBreak v) :
    ∀ c ∈ [p.call v], b.Sends c := by
  intro c hc
  exact ⟨p, v, hp, hv, List.mem_singleton.1 hc⟩

/-- What is left out belongs to any block. -/
theorem sends_only {p : Param} {v : String} (test : Bool) (hp : p.block = b) (hv : NoBreak v) :
    ∀ c ∈ Export.only test p v, b.Sends c := by
  unfold Export.only
  split
  · exact sends_singleton hp hv
  · exact fun c hc => absurd hc List.not_mem_nil

/-- An optional value is a number, so it can be sent. -/
theorem sends_optional {p : Param} (value : Option Nat) (hp : p.block = b) :
    ∀ c ∈ Export.optional p value, b.Sends c := by
  cases value with
  | none => exact fun c hc => absurd hc List.not_mem_nil
  | some n => exact sends_singleton hp (Text.noBreak_nat n)

theorem noBreak_flag (f : Bool) : NoBreak (Export.flag f) := by
  cases f <;> decide

theorem noBreak_place (o : Option Nat) : NoBreak (Export.place o) := by
  cases o with
  | none => decide
  | some n => exact Text.noBreak_nat n

/-- A condition is sent in three parts, all of one block. -/
theorem sends_condition {p : CyclePart → Param} (c : Condition) (hp : ∀ part, (p part).block = b) :
    ∀ call ∈ Export.condition p c, b.Sends call :=
  sends_append (sends_singleton (hp .n) (Text.noBreak_nat _))
    (sends_append (sends_singleton (hp .m) (Text.noBreak_nat _))
      (sends_singleton (hp .invert) (noBreak_flag _)))

theorem sends_someCondition {p : CyclePart → Param} (c : Condition)
    (hp : ∀ part, (p part).block = b) : ∀ call ∈ Export.someCondition p c, b.Sends call := by
  unfold Export.someCondition
  split
  · exact fun c hc => absurd hc List.not_mem_nil
  · exact sends_condition c hp

/-- A ratchet is sent as one value, or not at all. -/
theorem sends_ratchet {p : Param} (r : Ratchet) (hp : p.block = b) :
    ∀ c ∈ Export.ratchet p r, b.Sends c := by
  unfold Export.ratchet
  split
  · exact fun c hc => absurd hc List.not_mem_nil
  · split
    · exact sends_singleton hp (Text.noBreak_nat _)
    · exact fun c hc => absurd hc List.not_mem_nil

end Block

namespace Export

open Block

/-- A step is sent as calls of its block. -/
theorem step_sends (t i : Nat) (s : Step) : ∀ c ∈ step t i s, (Block.step t i).Sends c := by
  delta step
  repeat' apply sends_append
  · exact sends_singleton rfl (by decide)
  · intro c hc
    -- A note goes with its velocity in one value.
    rcases List.mem_map.1 hc with ⟨⟨note, velocity⟩, -, rfl⟩
    have hpair : NoBreak (toString note ++ "," ++ toString velocity) :=
      ((Text.noBreak_nat note).append (by decide)).append (Text.noBreak_nat velocity)
    exact ⟨_, _, rfl, hpair, rfl⟩
  · exact sends_only _ rfl (Text.noBreak_nat _)
  · exact sends_optional _ rfl
  · exact sends_optional _ rfl
  · exact sends_only _ rfl (Text.noBreak_nat _)
  · exact sends_ratchet _ rfl
  · exact sends_only _ rfl (Text.noBreak_nat _)
  · exact sends_only _ rfl (Text.noBreak_int _)
  · exact sends_someCondition _ fun _ => rfl
  · exact sends_someCondition _ fun _ => rfl
  · exact sends_someCondition _ fun _ => rfl
  · exact sends_optional _ rfl
  · exact sends_optional _ rfl
  · exact sends_optional _ rfl
  · exact sends_optional _ rfl
  · exact sends_only _ rfl (Text.noBreak_nat _)
  · exact sends_optional _ rfl
  · exact sends_optional _ rfl

/-- The first call of a step clears it. -/
theorem step_eq_cons (t i : Nat) (s : Step) :
    ∃ rest, step t i s = (Param.step t i .clear).call "1" :: rest := by
  delta step
  simp only [List.append_assoc, List.singleton_append]
  exact ⟨_, rfl⟩

/-- The value that a setting of a track is sent with. -/
def settingValue (t : Track) (follow : Bool) : TrackParam → String
  | .channel => toString t.channel
  | .mute => flag t.muted
  | .speed => t.speed.multiplier
  | .swing => toString t.swing
  | .pattern => place t.current
  | .chordFollow => flag follow
  | .arpMode => toString (Table.index t.arpMode)
  | .arpSpeed => toString (Table.index t.arpSpeed)
  | .arpOctave => toString (Table.index t.arpOctave)
  | .arpContinuous => flag t.arpContinuous
  | .arpPlaySteps => toString t.arpPlaySteps
  | .arpPlayStart => toString t.arpPlayStart
  | .cc1 => toString t.cc1
  | .cc2 => toString t.cc2
  | .length => toString t.length
  | .reset => toString t.resetLength
  | .gate => toString t.gate

/-- The settings of a track are sent in turn, each once. -/
theorem settings_eq_map (index : Nat) (t : Track) (follow : Bool) :
    settings index t follow =
      TrackParam.all.map fun x => (Param.track index x).call (settingValue t follow x) := rfl

/-- The value of a setting is a number, a flag, a place or the name of a speed. -/
theorem settingValue_noBreak (t : Track) (follow : Bool) (x : TrackParam) :
    NoBreak (settingValue t follow x) := by
  cases x with
  | mute | chordFollow | arpContinuous => exact noBreak_flag _
  | pattern => exact noBreak_place _
  | speed =>
    show NoBreak t.speed.multiplier
    cases t.speed <;> decide
  | _ => exact Text.noBreak_nat _

/-- Each setting of a track is a block of its own. -/
theorem settings_sends (index : Nat) (t : Track) (follow : Bool) :
    ∀ c ∈ settings index t follow, ∃ x, (Block.setting index x).Sends c := by
  intro c hc
  rw [settings_eq_map] at hc
  rcases List.mem_map.1 hc with ⟨x, -, rfl⟩
  exact ⟨x, _, _, rfl, settingValue_noBreak t follow x, rfl⟩

/-- The tempo is a block of its own. -/
theorem bpm_sends (s : Song) : ∀ c ∈ bpm s, Block.bpm.Sends c :=
  sends_singleton rfl (Text.noBreak_nat _)

/-- A transpose step is sent in parts, all of the block of the whole sequence. -/
theorem transposeStep_sends (count i : Nat) (s : TransposeStep) :
    ∀ c ∈ transposeStep count i s, Block.transposes.Sends c := by
  apply sends_append
  · apply sends_append (sends_singleton rfl (Text.noBreak_int _))
    apply sends_append (sends_singleton rfl (Text.noBreak_nat _))
    exact sends_singleton rfl (noBreak_place _)
  · exact sends_condition _ fun _ => rfl

/-- The transpose sequence is sent as one block: what clears it, its steps, and its length. -/
theorem transposes_sends (q : TransposeSequence) :
    ∀ c ∈ transposes q, Block.transposes.Sends c := by
  apply sends_append
  · apply sends_append
    · exact sends_singleton rfl (by decide)
    · intro c hc
      rcases List.mem_flatMap.1 hc with ⟨⟨s, i⟩, -, hstep⟩
      exact transposeStep_sends q.length i s c hstep
  · exact sends_singleton rfl (Text.noBreak_nat _)

theorem masterReset_sends (s : Song) :
    ∀ c ∈ [Param.masterReset.call (toString s.masterReset)], Block.masterReset.Sends c :=
  sends_singleton rfl (Text.noBreak_nat _)

end Export

/-! ## Sorting calls by blocks -/

/-- The track of a block, for those that are part of one. -/
def Block.track? : Block → Option Nat
  | setting t _ | step t _ => some t
  | bpm | masterReset | transposes => none

/-- The blocks that songs have. -/
def Block.InSong : Block → Prop
  | setting t _ => t < 16
  | step t i => t < 16 ∧ i < 64
  | bpm | masterReset | transposes => True

/-- The tracks that the blocks of a song are part of are the sixteen. -/
theorem Block.InSong.track_lt {b : Block} {t : Nat} (h : b.InSong) (hb : b.track? = some t) :
    t < 16 := by
  cases b with
  | setting t' x =>
    cases hb
    exact h
  | step t' i =>
    cases hb
    exact h.1
  | _ => cases hb

/-- A call belongs to one block at most. -/
theorem Block.Owns.unique {b b' : Block} {c : Call} (h : b.Owns c) (h' : b'.Owns c) : b = b' := by
  -- The key of a call tells its parameter, and the parameter tells the block.
  rcases h with ⟨p, v, rfl, rfl⟩
  exact Block.owns_call.1 h'

namespace EngineState

variable {b : Block} {calls more : List Call}

theorem ofBlock_append (b : Block) (calls more : List Call) :
    ofBlock b (calls ++ more) = ofBlock b calls ++ ofBlock b more :=
  List.filter_append calls more

/-- All calls of a block are among its calls. -/
theorem ofBlock_of_owns (h : ∀ c ∈ calls, b.Owns c) : ofBlock b calls = calls :=
  List.filter_eq_self.2 fun c hc => decide_eq_true (h c hc)

/-- Calls of other blocks are none of this one. -/
theorem ofBlock_of_others (h : ∀ c ∈ calls, ∃ b', b' ≠ b ∧ b'.Owns c) : ofBlock b calls = [] := by
  apply List.filter_eq_nil_iff.2
  intro c hc hb
  rcases h c hc with ⟨b', hne, hb'⟩
  exact hne (hb'.unique (of_decide_eq_true hb))

/-- Calls of one block, looked at from another one or the same. -/
theorem ofBlock_of_sends {b' : Block} (h : ∀ c ∈ calls, b'.Sends c) :
    ofBlock b calls = if b' = b then calls else [] := by
  split
  · rename_i hb
    exact ofBlock_of_owns fun c hc => hb ▸ (h c hc).owns
  · rename_i hb
    exact ofBlock_of_others fun c hc => ⟨b', hb, (h c hc).owns⟩

/-- Where only one part of a list has calls of a block, these are all. -/
theorem flatMap_eq_single {α β : Type} {f : α → List β} {l : List α} {a : α} (hnodup : l.Nodup)
    (ha : a ∈ l) (h : ∀ a' ∈ l, a' ≠ a → f a' = []) : l.flatMap f = f a := by
  -- The induction is on the list that the part is found in.
  induction l with
  | nil => exact absurd ha List.not_mem_nil
  | cons x l ih =>
    rcases List.nodup_cons.1 hnodup with ⟨hx, hnodup⟩
    rw [List.flatMap_cons]
    -- Either the part is the first one and nothing follows, or it is among the others.
    rcases List.mem_cons.1 ha with rfl | ha
    · have hrest : l.flatMap f = [] := by
        apply List.flatMap_eq_nil_iff.2
        intro a' ha'
        exact h a' (List.mem_cons_of_mem _ ha') fun he => hx (he ▸ ha')
      rw [hrest, List.append_nil]
    · have hne : x ≠ a := fun he => hx (he ▸ ha)
      rw [h x List.mem_cons_self hne, List.nil_append]
      exact ih hnodup ha fun a' ha' => h a' (List.mem_cons_of_mem _ ha')

/-- The calls of a block are those of the only part that has any. -/
theorem ofBlock_flatMap_single {α : Type} {f : α → List Call} {l : List α} {a : α}
    (hnodup : l.Nodup) (ha : a ∈ l)
    (hothers : ∀ a' ∈ l, a' ≠ a → ∀ c ∈ f a', ∃ b', b' ≠ b ∧ b'.Owns c) :
    ofBlock b (l.flatMap f) = ofBlock b (f a) := by
  rw [ofBlock, List.filter_flatMap]
  exact flatMap_eq_single hnodup ha fun a' ha' hne => ofBlock_of_others (hothers a' ha' hne)

end EngineState

/-- The entries of a bank with their positions. -/
theorem Bank.zipIdx_toList {α : Type} {n : Nat} (b : Bank α n) :
    b.toList.zipIdx = (List.finRange n).map fun i => (b.get i, i.val) := by
  apply List.ext_getElem
  · simp
  · intro i h h'
    simp [Bank.get]

namespace Export

open EngineState

/-! ## Tracks -/

/-- The calls for all steps that a track plays. -/
theorem track_eq (index : Nat) (t : Track) (follow : Bool) :
    track index t follow = settings index t follow ++
      (List.finRange 64).flatMap fun i : Fin 64 => step index i (t.playing.steps.get i) := by
  rw [track, Bank.zipIdx_toList, List.flatMap_map]

/-- The calls of a block among the settings of a track: one for a setting of this track, else none.
-/
theorem ofBlock_settings (b : Block) (index : Nat) (t : Track) (follow : Bool) :
    ofBlock b (settings index t follow) =
      match b with
      | .setting i x =>
        if index = i then [(Param.track i x).call (settingValue t follow x)] else []
      | _ => [] := by
  -- A block of any other kind owns none of the settings.
  have hothers (h : ∀ x, Block.setting index x ≠ b) : ofBlock b (settings index t follow) = [] := by
    apply ofBlock_of_others
    intro c hc
    rcases settings_sends index t follow c hc with ⟨x, hx⟩
    exact ⟨_, h x, hx.owns⟩
  cases b with
  | setting i x =>
    simp only
    split
    · rename_i hi
      -- Each setting is sent once.
      have hone : TrackParam.all.filter (fun y => y = x) = [x] := by cases x <;> rfl
      have howns (y : TrackParam) : (Block.setting i x).Owns
          ((Param.track i y).call (settingValue t follow y)) ↔ y = x := by
        rw [Block.owns_call]
        exact ⟨fun h => (Block.setting.inj h).2, fun h => by rw [h]; rfl⟩
      rw [hi, settings_eq_map, ofBlock, List.filter_map]
      simp only [Function.comp_def, howns, hone, List.map_cons, List.map_nil]
    · rename_i hi
      apply hothers
      intro y he
      exact hi (Block.setting.inj he).1
  | _ => exact hothers fun x he => by cases he

/-- The calls of a block among the steps that a track plays: those of one step, or none. -/
theorem ofBlock_steps (b : Block) (index : Nat) (t : Track) :
    ofBlock b ((List.finRange 64).flatMap fun i : Fin 64 =>
        step index i (t.playing.steps.get i)) =
      match b with
      | .step i j =>
        if h : index = i ∧ j < 64 then step i j (t.playing.steps.get ⟨j, h.2⟩) else []
      | _ => [] := by
  -- A block of any other kind owns no call of a step.
  have hothers (h : ∀ i : Fin 64, Block.step index i ≠ b) : ofBlock b
      ((List.finRange 64).flatMap fun i : Fin 64 => step index i (t.playing.steps.get i)) = [] := by
    apply ofBlock_of_others
    intro c hc
    rcases List.mem_flatMap.1 hc with ⟨i, -, hstep⟩
    exact ⟨_, h i, (step_sends index i _ c hstep).owns⟩
  cases b with
  | step i j =>
    simp only
    split
    · rename_i h
      rcases h with ⟨rfl, hj⟩
      -- The step is sent once, among the calls for its own place.
      have hsingle := ofBlock_flatMap_single (b := .step index j)
        (f := fun i : Fin 64 => step index i (t.playing.steps.get i))
        (List.nodup_finRange 64) (List.mem_finRange ⟨j, hj⟩) (by
          intro k _ hk c hc
          refine ⟨_, ?_, (step_sends _ _ _ c hc).owns⟩
          intro he
          exact hk (Fin.ext (Block.step.inj he).2))
      rw [hsingle]
      exact ofBlock_of_owns fun c hc => (step_sends _ _ _ c hc).owns
    · rename_i h
      apply hothers
      intro k he
      rcases Block.step.inj he with ⟨hi, hk⟩
      exact h ⟨hi, hk ▸ k.isLt⟩
  | _ => exact hothers fun i he => by cases he

/-- The calls of a block among those for a track. -/
theorem ofBlock_track (b : Block) (index : Nat) (t : Track) (follow : Bool) :
    ofBlock b (track index t follow) =
      match b with
      | .setting i x =>
        if index = i then [(Param.track i x).call (settingValue t follow x)] else []
      | .step i j =>
        if h : index = i ∧ j < 64 then step i j (t.playing.steps.get ⟨j, h.2⟩) else []
      | _ => [] := by
  rw [track_eq, ofBlock_append, ofBlock_settings, ofBlock_steps]
  cases b <;> simp

/-! ## Songs -/

/-- The calls for some tracks of a song, before they are packed. -/
def trackCalls (s : Song) (indices : List (Fin 16)) : List Call :=
  indices.flatMap fun i : Fin 16 => track i (s.tracks.get i) (s.chordFollow.get i)

/-- The calls that a song has for a block. -/
def orders (s : Song) : Block → List Call
  | .bpm => bpm s
  | .masterReset => [Param.masterReset.call (toString s.masterReset)]
  | .setting t x =>
    if h : t < 16 then
      [(Param.track t x).call (settingValue (s.tracks.get ⟨t, h⟩) (s.chordFollow.get ⟨t, h⟩) x)]
    else []
  | .step t i =>
    if h : t < 16 ∧ i < 64 then
      step t i ((s.tracks.get ⟨t, h.1⟩).playing.steps.get ⟨i, h.2⟩)
    else []
  | .transposes => transposes s.transposes

/-- A song is sent as its tempo, its tracks, its transpose sequence and its length, in this order.
-/
theorem songPairs_eq (s : Song) : songPairs s =
    bpm s ++ trackCalls s (List.finRange 16) ++ transposes s.transposes ++
      [Param.masterReset.call (toString s.masterReset)] := by
  have hget (i : Fin 16) : Bank.get (s.tracks.zip s.chordFollow) i =
      (s.tracks.get i, s.chordFollow.get i) := by
    simp [Bank.get]
  rw [songPairs, Bank.zipIdx_toList, List.flatMap_map]
  simp only [hget]
  rfl

/-- A track is sent as calls of its own blocks. -/
theorem track_sends (index : Nat) (t : Track) (follow : Bool) :
    ∀ c ∈ track index t follow, ∃ b : Block, b.track? = some index ∧ b.Sends c := by
  intro c hc
  rw [track_eq] at hc
  rcases List.mem_append.1 hc with hc | hc
  · rcases settings_sends index t follow c hc with ⟨x, hx⟩
    exact ⟨_, rfl, hx⟩
  · rcases List.mem_flatMap.1 hc with ⟨i, -, hstep⟩
    exact ⟨_, rfl, step_sends index i _ c hstep⟩

/-- Tracks are sent as calls of blocks. -/
theorem trackCalls_sends (s : Song) (indices : List (Fin 16)) :
    ∀ c ∈ trackCalls s indices, ∃ b : Block, b.Sends c := by
  intro c hc
  rcases List.mem_flatMap.1 hc with ⟨i, -, htrack⟩
  rcases track_sends _ _ _ c htrack with ⟨b, -, hb⟩
  exact ⟨b, hb⟩

/-- A song is sent as calls of blocks. -/
theorem songPairs_sends (s : Song) : ∀ c ∈ songPairs s, ∃ b : Block, b.Sends c := by
  intro c hc
  rw [songPairs_eq] at hc
  rcases List.mem_append.1 hc with hc | hc
  · rcases List.mem_append.1 hc with hc | hc
    · rcases List.mem_append.1 hc with hc | hc
      · exact ⟨_, bpm_sends s c hc⟩
      · exact trackCalls_sends s _ c hc
    · exact ⟨_, transposes_sends _ c hc⟩
  · exact ⟨_, masterReset_sends s c hc⟩

/-- The calls of a block among those for some tracks, each of which is sent once. -/
theorem ofBlock_trackCalls (b : Block) (s : Song) {indices : List (Fin 16)}
    (hnodup : indices.Nodup) :
    ofBlock b (trackCalls s indices) =
      if ∃ i ∈ indices, b.track? = some i.val then orders s b else [] := by
  -- The calls of a track belong to its own blocks, so at most one track has any for the block.
  have hothers (i : Fin 16) (hi : b.track? ≠ some i.val) :
      ∀ c ∈ track i (s.tracks.get i) (s.chordFollow.get i), ∃ b', b' ≠ b ∧ b'.Owns c := by
    intro c hc
    rcases track_sends _ _ _ c hc with ⟨b', htrack, hsends⟩
    refine ⟨b', ?_, hsends.owns⟩
    rintro rfl
    exact hi htrack
  split
  · rename_i h
    rcases h with ⟨i, hi, hb⟩
    have hsingle := ofBlock_flatMap_single (b := b)
      (f := fun i : Fin 16 => track i (s.tracks.get i) (s.chordFollow.get i)) hnodup hi (by
        intro k _ hk
        apply hothers k
        rw [hb]
        intro he
        exact hk (Fin.ext (Option.some.inj he).symm))
    rw [trackCalls, hsingle, ofBlock_track]
    cases b with
    | setting t x =>
      cases hb
      simp [orders]
    | step t j =>
      cases hb
      simp [orders]
    | _ => cases hb
  · rename_i h
    apply ofBlock_of_others
    intro c hc
    rcases List.mem_flatMap.1 hc with ⟨i, hi, htrack⟩
    exact hothers i (fun hb => h ⟨i, hi, hb⟩) c htrack

/-- A setting of one of the tracks has one order. -/
theorem orders_setting (s : Song) {t : Nat} (ht : t < 16) (x : TrackParam) :
    orders s (.setting t x) = [(Param.track t x).call
      (settingValue (s.tracks.get ⟨t, ht⟩) (s.chordFollow.get ⟨t, ht⟩) x)] :=
  dif_pos ht

/-- The orders of a step that a track plays. -/
theorem orders_step (s : Song) {t i : Nat} (h : t < 16 ∧ i < 64) :
    orders s (.step t i) = step t i ((s.tracks.get ⟨t, h.1⟩).playing.steps.get ⟨i, h.2⟩) :=
  dif_pos h

/-- A block that no song has has no orders. -/
theorem orders_of_absent {b : Block} (h : ¬b.InSong) (s : Song) : orders s b = [] := by
  cases b with
  | setting t x => exact dif_neg h
  | step t i => exact dif_neg h
  | _ => exact absurd trivial h

/-- The orders of a block are calls of this block. -/
theorem orders_sends (s : Song) (b : Block) : ∀ c ∈ orders s b, b.Sends c := by
  by_cases h : b.InSong
  · cases b with
    | bpm => exact bpm_sends s
    | masterReset => exact masterReset_sends s
    | transposes => exact transposes_sends s.transposes
    | setting t x =>
      rw [orders_setting s h]
      exact Block.sends_singleton rfl (settingValue_noBreak _ _ x)
    | step t i =>
      rw [orders_step s h]
      exact step_sends t i _
  · rw [orders_of_absent h]
    exact fun c hc => absurd hc List.not_mem_nil

/-- A song is sent as the orders of its blocks. -/
theorem ofBlock_songPairs (s : Song) (b : Block) : ofBlock b (songPairs s) = orders s b := by
  rw [songPairs_eq, ofBlock_append, ofBlock_append, ofBlock_append,
    ofBlock_of_sends (bpm_sends s), ofBlock_trackCalls b s (List.nodup_finRange 16),
    ofBlock_of_sends (transposes_sends _), ofBlock_of_sends (masterReset_sends s)]
  -- A block is part of a track, or it is one of the three parts outside the tracks.
  cases hb : b.track? with
  | none =>
    cases b with
    | bpm | masterReset | transposes => simp [orders]
    | _ => cases hb
  | some t =>
    have hbpm : Block.bpm ≠ b := by
      rintro rfl
      cases hb
    have htransposes : Block.transposes ≠ b := by
      rintro rfl
      cases hb
    have hreset : Block.masterReset ≠ b := by
      rintro rfl
      cases hb
    rw [if_neg hbpm, if_neg htransposes, if_neg hreset, List.nil_append, List.append_nil,
      List.append_nil]
    split
    · rfl
    · rename_i h
      symm
      apply orders_of_absent
      intro hin
      exact h ⟨⟨t, hin.track_lt hb⟩, List.mem_finRange _, rfl⟩

/-! ## Settling -/

/-- A call settles its block where no other parameter has a part in it. -/
theorem settles_of_only {p : Param} (hp : p.holdsValue = true)
    (honly : ∀ q, q.block = p.block → q = p) (v : String) : Settles p.block [p.call v] := by
  intro e e'
  exact sameOn_of_only hp honly e e' v

/-- Calls settle their block if the first one clears it, whatever follows. -/
theorem settles_of_clears {p : Param} (hp : p.clears = true) (v : String)
    {calls : List Call} (horders : ∀ c ∈ calls, IsOrder c) :
    Settles p.block (p.call v :: calls) := by
  apply settles_cons _ horders
  intro e e'
  exact sameOn_of_clears hp e e' v

/-- The orders of a song for a block settle it. -/
theorem orders_settle {b : Block} (h : b.InSong) : ∀ s, Settles b (orders s b) := by
  have htail {s : Song} {c : Call} {calls : List Call} (h : orders s b = c :: calls) :
      ∀ d ∈ calls, IsOrder d := by
    intro d hd
    have hmem : d ∈ orders s b := by
      rw [h]
      exact List.mem_cons_of_mem c hd
    exact (orders_sends s b d hmem).isOrder
  -- A single value settles its block; steps and transpose steps begin with what clears them.
  cases b with
  | bpm =>
    refine fun s => settles_of_only (p := .bpm) rfl ?_ _
    intro q hq
    cases q <;> first | rfl | cases hq
  | masterReset =>
    refine fun s => settles_of_only (p := .masterReset) rfl ?_ _
    intro q hq
    cases q <;> first | rfl | cases hq
  | setting t x =>
    intro s
    rw [orders_setting s h]
    refine settles_of_only (p := .track t x) rfl ?_ _
    intro q hq
    cases q <;> cases hq
    rfl
  | step t i =>
    intro s
    obtain ⟨rest, hrest⟩ := step_eq_cons t i
      ((s.tracks.get ⟨t, h.1⟩).playing.steps.get ⟨i, h.2⟩)
    rw [← orders_step s h] at hrest
    rw [hrest]
    exact settles_of_clears (p := .step t i .clear) rfl _ (htail hrest)
  | transposes =>
    intro s
    have hrest : ∃ rest, orders s .transposes = Param.transposeClear.call "1" :: rest := by
      unfold orders transposes
      simp only [List.singleton_append]
      exact ⟨_, rfl⟩
    rcases hrest with ⟨rest, hrest⟩
    rw [hrest]
    exact settles_of_clears (p := .transposeClear) rfl _ (htail hrest)

end Export
end Groovebox
