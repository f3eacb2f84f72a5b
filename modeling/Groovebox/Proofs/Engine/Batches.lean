import Mathlib.Tactic
import Groovebox.Engine.Batch
import Groovebox.Proofs.Engine.Packing
/-! # Batches deliver every call once

A batch that is closed pair by pair sends the runs that packing cuts (`Batch.close_eq`), none of
them empty and each within the limit or of a single pair. What was sent and what is held back always
make up the calls so far (`Batch.Delivers`). Where batches are opened and closed in turn, all calls
arrive, in order.

* `Batch.sentFor_eq`: what one batch sends, which is how songs and tracks are exported.
* `Batch.run_delivers`: any number of batches, with calls outside of them.
-/

namespace Groovebox

namespace Call

variable {limit : Nat} {c : Call} {pairs run : List Call}

/-! ## Runs within the limit -/

theorem entry_ne_empty (c : Call) : c.entry ≠ "" := by
  simp [entry, String.append_eq_empty_iff]

theorem value_bulk_singleton (c : Call) : (bulk [c]).value = c.entry := by
  show String.join [c.entry] = c.entry
  rw [String.join_cons, String.join_nil, String.append_empty]

theorem value_bulk_append (started : List Call) (c : Call) :
    (bulk (started ++ [c])).value = (bulk started).value ++ c.entry := by
  show String.join ((started ++ [c]).map entry) = _
  rw [List.map_append, String.join_append]
  exact congrArg _ (value_bulk_singleton c)

theorem size_bulk_singleton (c : Call) : (bulk [c]).value.utf8ByteSize = c.size := by
  rw [value_bulk_singleton, size]

theorem size_bulk_append (started : List Call) (c : Call) :
    (bulk (started ++ [c])).value.utf8ByteSize = (bulk started).value.utf8ByteSize + c.size := by
  rw [value_bulk_append, String.utf8ByteSize_append, size]

/-- Only the text of no pairs is empty. -/
theorem value_bulk_eq_empty_iff : (bulk pairs).value = "" ↔ pairs = [] := by
  cases pairs with
  | nil => simp [bulk]
  | cons c pairs =>
    have hvalue : (bulk (c :: pairs)).value = c.entry ++ String.join (pairs.map entry) :=
      String.join_cons
    rw [hvalue, String.append_eq_empty_iff]
    simp [entry_ne_empty]

/-- A run of pairs is not empty, and its text is within the limit unless it is a single pair. -/
structure Fits (limit : Nat) (run : List Call) : Prop where
  ne_nil : run ≠ []
  small : (bulk run).value.utf8ByteSize ≤ limit ∨ ∃ c, run = [c]

theorem fits_singleton (limit : Nat) (c : Call) : Fits limit [c] :=
  ⟨List.cons_ne_nil c [], Or.inr ⟨c, rfl⟩⟩

theorem runsFrom_fits (pairs : List Call) :
    ∀ started : List Call, (started ≠ [] → Fits limit started) →
      ∀ run ∈ runsFrom limit started (bulk started).value.utf8ByteSize pairs, Fits limit run := by
  induction pairs with
  | nil =>
    intro started hstarted run hrun
    unfold runsFrom at hrun
    split at hrun
    · cases hrun
    · rename_i hsome
      rw [List.mem_singleton.1 hrun]
      exact hstarted (by simpa using hsome)
  | cons c pairs ih =>
    intro started hstarted run hrun
    unfold runsFrom at hrun
    split at hrun
    · -- The run that waits is cut off, and the pair begins the next one.
      rename_i hcut
      have hsome : started ≠ [] := by
        rintro rfl
        simp at hcut
      rcases List.mem_cons.1 hrun with rfl | hrun
      · exact hstarted hsome
      · rw [← size_bulk_singleton] at hrun
        exact ih [c] (fun _ => fits_singleton limit c) run hrun
    · -- The pair joins the run: that is empty so far, or there is room.
      rename_i hroom
      rw [← size_bulk_append] at hrun
      refine ih (started ++ [c]) (fun _ => ?_) run hrun
      cases started with
      | nil => exact fits_singleton limit c
      | cons d started =>
        refine ⟨by simp, Or.inl ?_⟩
        rw [size_bulk_append]
        simpa using hroom

theorem runs_fit (limit : Nat) (pairs : List Call) :
    ∀ run ∈ runsFrom limit [] 0 pairs, Fits limit run :=
  runsFrom_fits pairs [] fun hne => absurd rfl hne

end Call

namespace Batch

variable {limit : Nat} {b : Batch} {c : Call} {pairs : List Call} {acts : List Act}

/-! ## Closing -/

/-- Pair by pair, the runs are sent and counted, after the pairs that wait. -/
theorem stream_eq (pairs : List Call) :
    ∀ (b : Batch) (started : List Call) (calls : Nat),
      b.stream (Call.bulk started).value calls pairs =
        let runs := Call.runsFrom b.limit started (Call.bulk started).value.utf8ByteSize pairs
        (calls + runs.length, { b with sent := b.sent ++ runs.map Call.bulk }) := by
  induction pairs with
  | nil =>
    intro b started calls
    unfold stream Call.runsFrom
    cases started with
    | nil => simp [Call.bulk]
    | cons d started =>
      rw [if_neg (by simp [Call.value_bulk_eq_empty_iff])]
      rfl
  | cons c pairs ih =>
    intro b started calls
    have hcut : ((Call.bulk started).value ≠ "" ∧
          b.limit < (Call.bulk started).value.utf8ByteSize + c.size) ↔
        (!started.isEmpty && decide (b.limit < (Call.bulk started).value.utf8ByteSize + c.size)) =
          true := by
      simp [Call.value_bulk_eq_empty_iff]
    unfold stream Call.runsFrom
    by_cases h : (Call.bulk started).value ≠ "" ∧
        b.limit < (Call.bulk started).value.utf8ByteSize + c.size
    · rw [if_pos h, if_pos (hcut.1 h), ← Call.value_bulk_singleton, ih, Call.size_bulk_singleton]
      simp [emit, Call.bulk, Nat.add_assoc, Nat.add_comm 1]
    · rw [if_neg h, if_neg (fun hcut' => h (hcut.2 hcut')), ← Call.value_bulk_append, ih,
        Call.size_bulk_append]

/-- Closing pair by pair sends what is due and answers how many bulk calls that are. -/
theorem close_eq (b : Batch) : b.close = (b.due.length, b.finish) := by
  rcases b with ⟨limit, held, sent⟩
  cases held with
  | none => simp [close, finish, due, Call.pack, Call.runsFrom]
  | some held =>
    have hstream := stream_eq held { limit, sent } [] 0
    rw [Call.value_bulk_eq_empty_iff.2 rfl] at hstream
    show stream { limit, sent } "" 0 held = _
    rw [hstream]
    simp [finish, due, Call.pack]

/-- The answer is the number of bulk calls that are added. -/
theorem close_counts (b : Batch) :
    ∃ calls, b.close.2.sent = b.sent ++ calls ∧ (∀ c ∈ calls, c.key = Call.bulkKey) ∧
      b.close.1 = calls.length := by
  rw [close_eq]
  refine ⟨b.due, rfl, ?_, rfl⟩
  intro c hc
  rcases List.mem_map.1 hc with ⟨run, -, rfl⟩
  rfl

/-! ## What is sent and what is held back -/

/-- A batch delivers calls: what was sent stands for them up to those that are held back, and each
bulk call that was sent carries a run within the limit. -/
structure Delivers (limit : Nat) (pairs : List Call) (b : Batch) : Prop where
  bounded : b.limit = limit
  carried : b.sent.flatMap Call.expand ++ b.held.getD [] = pairs
  lines : ∀ c ∈ pairs, c.IsLines
  fits : ∀ c ∈ b.sent, c.key = Call.bulkKey →
    ∃ run, Call.Fits limit run ∧ (∀ pair ∈ run, pair.IsLines) ∧ c = Call.bulk run

namespace Delivers

theorem fresh (limit : Nat) : Delivers limit [] { limit } :=
  ⟨rfl, rfl, fun _ hc => absurd hc List.not_mem_nil, fun _ hc => absurd hc List.not_mem_nil⟩

theorem held_lines (h : Delivers limit pairs b) : ∀ c ∈ b.held.getD [], c.IsLines :=
  fun c hc => h.lines c (h.carried ▸ List.mem_append_right _ hc)

/-- Opening a batch loses nothing where none is open. -/
theorem start (h : Delivers limit pairs b) (hheld : b.held = none) :
    Delivers limit pairs b.start := by
  refine ⟨h.bounded, ?_, h.lines, h.fits⟩
  have hcarried := h.carried
  rwa [hheld] at hcarried

/-- A call is held back or sent at once. -/
theorem send (h : Delivers limit pairs b) (hlines : c.IsLines) (hkey : c.key ≠ Call.bulkKey) :
    Delivers limit (pairs ++ [c]) (b.send c) := by
  have hall : ∀ d ∈ pairs ++ [c], d.IsLines := by
    intro d hd
    rcases List.mem_append.1 hd with hd | hd
    · exact h.lines d hd
    · exact List.mem_singleton.1 hd ▸ hlines
  have hcarried := h.carried
  unfold Batch.send
  cases hheld : b.held with
  | some held =>
    rw [hheld] at hcarried
    refine ⟨h.bounded, ?_, hall, h.fits⟩
    rw [← hcarried, List.append_assoc]
    rfl
  | none =>
    rw [hheld] at hcarried
    refine ⟨h.bounded, ?_, hall, ?_⟩
    · -- A call that is no bulk call stands for itself.
      have hself : c.expand = [c] := if_neg hkey
      show (b.sent ++ [c]).flatMap Call.expand ++ [] = pairs ++ [c]
      rw [← hcarried, List.flatMap_append, List.flatMap_singleton, hself]
      simp
    · intro d hd hbulk
      rcases List.mem_append.1 hd with hd | hd
      · exact h.fits d hd hbulk
      · rw [List.mem_singleton.1 hd] at hbulk
        exact absurd hbulk hkey

/-- Closing sends the runs of what is held back, and these stand for it. -/
theorem close (h : Delivers limit pairs b) : Delivers limit pairs b.close.2 := by
  rw [close_eq]
  refine ⟨h.bounded, ?_, h.lines, ?_⟩
  · show (b.sent ++ Call.pack b.limit (b.held.getD [])).flatMap Call.expand ++ [] = pairs
    rw [List.append_nil, List.flatMap_append, Call.flatMap_expand_pack b.limit h.held_lines]
    exact h.carried
  · intro c hc hbulk
    rcases List.mem_append.1 hc with hc | hc
    · exact h.fits c hc hbulk
    · rcases List.mem_map.1 hc with ⟨run, hrun, rfl⟩
      refine ⟨run, h.bounded ▸ Call.runs_fit b.limit _ run hrun, ?_, rfl⟩
      intro pair hpair
      apply h.held_lines pair
      rw [← List.nil_append (b.held.getD []), ← Call.flatten_runsFrom b.limit _ [] 0]
      exact List.mem_flatten_of_mem hrun hpair

end Delivers

/-! ## Batches in turn -/

/-- Batches are opened and closed in turn: none is opened while one is open, and none stays open. -/
def InTurn : Bool → List Act → Prop
  | opened, [] => opened = false
  | opened, .start :: acts => opened = false ∧ InTurn true acts
  | opened, .send _ :: acts => InTurn opened acts
  | _, .close :: acts => InTurn false acts

theorem held_send (b : Batch) (c : Call) : (b.send c).held.isSome = b.held.isSome := by
  unfold send
  cases b.held <;> rfl

/-- Along acts in turn, a batch goes on delivering all calls, and at the end it holds none back. -/
theorem Delivers.run :
    ∀ {b : Batch} {pairs : List Call}, Delivers limit pairs b → InTurn b.held.isSome acts →
      (∀ c ∈ made acts, c.IsLines ∧ c.key ≠ Call.bulkKey) →
      Delivers limit (pairs ++ made acts) (b.run acts) ∧ (b.run acts).held = none := by
  induction acts with
  | nil =>
    intro b pairs h hturn _
    refine ⟨?_, Option.not_isSome_iff_eq_none.1 (Bool.eq_false_iff.1 hturn)⟩
    show Delivers limit (pairs ++ []) b
    rwa [List.append_nil]
  | cons act acts ih =>
    intro b pairs h hturn hmade
    cases act with
    | start =>
      have hheld : b.held = none := Option.not_isSome_iff_eq_none.1 (Bool.eq_false_iff.1 hturn.1)
      exact ih (h.start hheld) hturn.2 hmade
    | send c =>
      have hc := hmade c List.mem_cons_self
      have hrest := ih (h.send hc.1 hc.2) (by rw [held_send]; exact hturn)
        fun d hd => hmade d (List.mem_cons_of_mem c hd)
      rwa [List.append_assoc] at hrest
    | close =>
      have hheld : (b.step .close).held = none := by
        rw [step, close_eq]
        rfl
      exact ih h.close (hheld ▸ hturn) hmade

/-- While a batch is open, what is sent is held back. -/
theorem run_sends (limit : Nat) (pairs : List Call) :
    ∀ held, run { limit, held := some held } (pairs.map .send) =
      { limit, held := some (held ++ pairs) } := by
  induction pairs with
  | nil =>
    intro held
    rw [List.append_nil]
    rfl
  | cons c pairs ih =>
    intro held
    have hrest := ih (held ++ [c])
    rwa [List.append_assoc] at hrest

/-- One batch of some pairs sends them packed, which is how a song is exported. -/
theorem sentFor_eq (limit : Nat) (pairs : List Call) :
    sentFor limit pairs = Call.pack limit pairs := by
  show ((run { limit, held := some [] } (pairs.map .send ++ [.close])).sent) = _
  rw [run, List.foldl_append]
  show ((run { limit, held := some [] } (pairs.map .send)).step .close).sent = _
  rw [run_sends, step, close_eq]
  rfl

/-- What a batch of pairs sends stands for these pairs, in order. -/
theorem flatMap_expand_sentFor (limit : Nat) {pairs : List Call} (h : ∀ c ∈ pairs, c.IsLines) :
    (sentFor limit pairs).flatMap Call.expand = pairs := by
  rw [sentFor_eq]
  exact Call.flatMap_expand_pack limit h

/-! ## Main statement -/

/-- Where batches are opened and closed in turn, the calls to the engine stand for exactly the calls
that were made, in order. No bulk call is empty, and each is within the limit or carries a single
pair. Closing answers the number of bulk calls that it sends. -/
theorem run_delivers (limit : Nat) {acts : List Act} (hturn : InTurn false acts)
    (hmade : ∀ c ∈ made acts, c.IsLines ∧ c.key ≠ Call.bulkKey) :
    let b := run { limit } acts
    b.sent.flatMap Call.expand = made acts ∧
      (∀ c ∈ b.sent, c.key = Call.bulkKey →
        c.value ≠ "" ∧ (c.value.utf8ByteSize ≤ limit ∨ ∃ pair, c.expand = [pair])) ∧
      ∀ before after, acts = before ++ .close :: after →
        ∃ calls, (run { limit } (before ++ [.close])).sent = (run { limit } before).sent ++ calls ∧
          (∀ c ∈ calls, c.key = Call.bulkKey) ∧
          (run { limit } before).close.1 = calls.length := by
  rcases (Delivers.fresh limit).run hturn hmade with ⟨hdelivers, hheld⟩
  refine ⟨?_, ?_, ?_⟩
  · have hcarried := hdelivers.carried
    rwa [hheld, Option.getD_none, List.append_nil, List.nil_append] at hcarried
  · intro c hc hbulk
    rcases hdelivers.fits c hc hbulk with ⟨runs, hfits, hlines, rfl⟩
    refine ⟨fun hempty => hfits.ne_nil (Call.value_bulk_eq_empty_iff.1 hempty), ?_⟩
    rcases hfits.small with hsmall | ⟨pair, rfl⟩
    · exact Or.inl hsmall
    · exact Or.inr ⟨pair, Call.expand_bulk hlines⟩
  · intro before after _
    have hclosed : run { limit } (before ++ [.close]) = (run { limit } before).close.2 := by
      simp [run, step]
    rw [hclosed]
    exact close_counts _

/-- A limit that each pair just reaches, with an empty pair and a call outside of any batch. -/
theorem run_delivers_pairs :
    let acts : List Act := [.start, .send ⟨"a", "1"⟩, .send ⟨"", ""⟩, .send ⟨"b", "2"⟩, .close,
      .send ⟨"bpm", "120"⟩]
    (run { limit := 4 } acts).sent.flatMap Call.expand = made acts ∧
      (run { limit := 4 } acts).sent.length = 4 := by
  intro acts
  have hturn : InTurn false acts := ⟨rfl, rfl⟩
  have hmade : ∀ c ∈ made acts, c.IsLines ∧ c.key ≠ Call.bulkKey := by
    simp [acts, made, Call.IsLines, Text.IsLine, Call.bulkKey]
  exact ⟨(run_delivers 4 hturn hmade).1, by decide⟩

end Batch
end Groovebox
