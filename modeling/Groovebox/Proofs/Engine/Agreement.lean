import Mathlib.Tactic
import Groovebox.Proofs.Engine.Batches
import Groovebox.Proofs.Engine.Orders
/-! # Partial and full exports

An edit sends only some blocks of the song that it makes. `Updates` says which calls are enough:
each block is sent as a whole, or else the two songs have the same orders for it. The main statement
is `run_held`: with such calls the engine goes from what it holds for the one song to what it holds
for the other. -/

namespace Groovebox

namespace EngineState

/-- What the engine holds when it received nothing but a whole song. -/
def held (s : Song) : EngineState :=
  silent.run (Export.songPairs s)

theorem run_append (e : EngineState) (calls more : List Call) :
    e.run (calls ++ more) = (e.run calls).run more :=
  List.foldl_append

theorem after_append (calls more : List Call) :
    after (calls ++ more) = (after calls).run (more.flatMap Call.expand) := by
  rw [after, List.flatMap_append, run_append]
  rfl

end EngineState

namespace Export

open EngineState

/-! ## Batches of a song -/

theorem flatMap_expand_song (limit : Nat) (s : Song) :
    (song limit s).flatMap Call.expand = songPairs s := by
  apply Batch.flatMap_expand_sentFor
  intro c hc
  rcases songPairs_sends s c hc with ⟨b, hb⟩
  exact hb.isLines

theorem flatMap_expand_tracks (limit : Nat) (s : Song) (indices : List (Fin 16)) :
    (tracks limit s indices).flatMap Call.expand = trackCalls s indices := by
  apply Batch.flatMap_expand_sentFor
  intro c hc
  rcases trackCalls_sends s indices c hc with ⟨b, hb⟩
  exact hb.isLines

theorem after_song (limit : Nat) (s : Song) : after (song limit s) = held s := by
  rw [after, flatMap_expand_song, held]

/-! ## Updates -/

/-- Pairs that bring the engine from one song to another: what belongs to a block is all that the
new song has for it, or nothing, and then the songs agree on the block. -/
structure Updates (s s' : Song) (pairs : List Call) : Prop where
  isOrder : ∀ c ∈ pairs, IsOrder c
  blocks : ∀ b, ofBlock b pairs = orders s' b ∨ ofBlock b pairs = [] ∧ orders s' b = orders s b

variable {s s' : Song}

/-- A whole song brings the engine there from any other song. -/
theorem updates_song (s s' : Song) (limit : Nat) :
    Updates s s' ((song limit s').flatMap Call.expand) := by
  rw [flatMap_expand_song]
  refine ⟨?_, fun b => Or.inl (ofBlock_songPairs s' b)⟩
  intro c hc
  rcases songPairs_sends s' c hc with ⟨b, hb⟩
  exact hb.isOrder

/-- Songs with the same orders need no calls. -/
theorem updates_nil (h : ∀ b, orders s' b = orders s b) :
    Updates s s' (([] : List Call).flatMap Call.expand) := by
  refine ⟨fun c hc => absurd hc List.not_mem_nil, ?_⟩
  intro b
  exact Or.inr ⟨rfl, h b⟩

/-- The orders of one block are enough where the songs agree on all others. -/
theorem updates_block (b : Block) (h : ∀ b', b' ≠ b → orders s' b' = orders s b') :
    Updates s s' ((orders s' b).flatMap Call.expand) := by
  have hself : (orders s' b).flatMap Call.expand = orders s' b :=
    Call.flatMap_expand_self fun c hc => (orders_sends s' b c hc).key_ne_bulkKey
  rw [hself]
  refine ⟨fun c hc => (orders_sends s' b c hc).isOrder, ?_⟩
  intro b'
  rw [ofBlock_of_sends (orders_sends s' b)]
  by_cases hb : b = b'
  · rw [if_pos hb, hb]
    exact Or.inl rfl
  · rw [if_neg hb]
    exact Or.inr ⟨rfl, h b' (Ne.symm hb)⟩

/-- Some tracks are enough where the songs agree on everything outside them. -/
theorem updates_tracks (limit : Nat) {indices : List (Fin 16)} (hnodup : indices.Nodup)
    (h : ∀ b : Block, (∀ i ∈ indices, b.track? ≠ some i.val) → orders s' b = orders s b) :
    Updates s s' ((tracks limit s' indices).flatMap Call.expand) := by
  rw [flatMap_expand_tracks]
  constructor
  · intro c hc
    rcases trackCalls_sends s' indices c hc with ⟨b, hb⟩
    exact hb.isOrder
  · intro b
    rw [ofBlock_trackCalls b s' hnodup]
    split
    · exact Or.inl rfl
    · rename_i hb
      exact Or.inr ⟨rfl, h b fun i hi hbi => hb ⟨i, hi, hbi⟩⟩

/-- The settings of a track are enough where the songs agree on everything else. -/
theorem updates_settings (t : Fin 16) {new : Track} {follow : Bool}
    (htrack : s'.tracks.get t = new) (hfollow : s'.chordFollow.get t = follow)
    (h : ∀ b, (∀ x, b ≠ .setting t x) → orders s' b = orders s b) :
    Updates s s' ((settings t new follow).flatMap Call.expand) := by
  have hsends := settings_sends t new follow
  have hself : (settings t new follow).flatMap Call.expand = settings t new follow := by
    apply Call.flatMap_expand_self
    intro c hc
    rcases hsends c hc with ⟨x, hx⟩
    exact hx.key_ne_bulkKey
  rw [hself]
  constructor
  · intro c hc
    rcases hsends c hc with ⟨x, hx⟩
    exact hx.isOrder
  · intro b
    by_cases hb : ∃ x, b = .setting t x
    · rcases hb with ⟨x, rfl⟩
      left
      rw [ofBlock_settings, orders_setting s' t.isLt, htrack, hfollow]
      exact if_pos rfl
    · right
      have hother : ∀ x, b ≠ .setting t x := fun x hx => hb ⟨x, hx⟩
      refine ⟨?_, h b hother⟩
      apply ofBlock_of_others
      intro c hc
      rcases hsends c hc with ⟨x, hx⟩
      exact ⟨_, (hother x).symm, hx.owns⟩

/-! ## Agreement -/

theorem held_orderly (s : Song) : (held s).Orderly := by
  apply silent_orderly.run
  intro c hc
  rcases songPairs_sends s c hc with ⟨b, hb⟩
  exact hb.isOrder

/-- What the engine holds of a song for a block comes from the orders of the block. -/
theorem held_sameOn (s : Song) (b : Block) : SameOn b (held s) (silent.run (orders s b)) := by
  have hpairs : ∀ c ∈ songPairs s, IsOrder c := by
    intro c hc
    rcases songPairs_sends s c hc with ⟨b', hb'⟩
    exact hb'.isOrder
  rw [← ofBlock_songPairs]
  exact run_sameOn hpairs (SameOn.refl b silent)

/-- All orders of a block make the engine hold what it would hold of the song alone, if it came
from another song. -/
theorem run_orders_sameOn (s s' : Song) (b : Block) :
    SameOn b ((held s).run (orders s' b)) (silent.run (orders s' b)) := by
  -- For a block that no song has, nothing is sent and nothing is held.
  by_cases hb : b.InSong
  · exact orders_settle hb s' (held s) silent
  · have hheld := held_sameOn s b
    rw [orders_of_absent hb s] at hheld
    rw [orders_of_absent hb s']
    exact hheld

/-- Calls that update the one song to the other do so in the engine. -/
theorem run_held {pairs : List Call} (h : Updates s s' pairs) : (held s).run pairs = held s' := by
  apply eq_of_sameOn ((held_orderly s).run h.isOrder) (held_orderly s')
  intro b
  have hrun : SameOn b ((held s).run pairs) ((held s).run (ofBlock b pairs)) :=
    run_sameOn h.isOrder (SameOn.refl b (held s))
  have hheld : SameOn b (silent.run (orders s' b)) (held s') := (held_sameOn s' b).symm
  -- Either the block was sent as a whole, or nothing of it was sent and nothing changed in it.
  rcases h.blocks b with hall | ⟨hnone, hsame⟩
  · rw [hall] at hrun
    exact (hrun.trans (run_orders_sameOn s s' b)).trans hheld
  · rw [hnone] at hrun
    rw [hsame] at hheld
    exact (hrun.trans (held_sameOn s b)).trans hheld

end Export
end Groovebox
