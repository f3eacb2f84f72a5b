import Mathlib.Tactic
import Groovebox.Proofs.Document.Text
import Groovebox.Proofs.Stored.RoundTrip
/-! # The text of a song

The document of a well-formed song is plain: its numbers are small, the names of every object are
different, and it nests eight deep. So the text of its file is read as that document, and what is
loaded from the text is the song. The main statement is `Library.songOf_text_of_wellFormed`. -/

namespace Groovebox

open Stored
open Document (Plain)

/-! ## Objects -/

/-- Everything fits where there is more room. -/
theorem Document.Plain.mono {room more : Nat} {d : Document} (h : Plain room d)
    (hle : room ≤ more) : Plain more d := by
  -- Room is used up by one for each bracket, and only there it has to be more than none.
  induction h generalizing more with
  | null => exact .null
  | bool b => exact .bool b
  | int hlo hhi => exact .int hlo hhi
  | str text => exact .str text
  | arr _ ih =>
    rcases Nat.exists_eq_add_of_le' (le_trans (Nat.le_add_left 1 _) hle) with ⟨more, rfl⟩
    exact .arr fun d hd => ih d hd (Nat.le_of_succ_le_succ hle)
  | obj hnames _ ih =>
    rcases Nat.exists_eq_add_of_le' (le_trans (Nat.le_add_left 1 _) hle) with ⟨more, rfl⟩
    exact .obj hnames fun m hm => ih m hm (Nat.le_of_succ_le_succ hle)

namespace Stored

/-- Members whose names come from a list, in its order, and whose values are plain. -/
structure Fields (names : List String) (room : Nat) (m : Members) : Prop where
  names : (m.map Prod.fst).Sublist names
  plain : ∀ x ∈ m, Plain room x.2

variable {names more : List String} {room : Nat} {m m' : Members}

/-- Members with names from a list without repetitions make a plain object. -/
theorem Fields.plain_obj (h : Fields names room m) (hnames : names.Nodup) :
    Plain (room + 1) (.obj m) :=
  .obj (hnames.sublist h.names) h.plain

/-- Members from two lists of names are put together as the lists are. -/
theorem Fields.append (h : Fields names room m) (h' : Fields more room m') :
    Fields (names ++ more) room (m ++ m') := by
  constructor
  · rw [List.map_append]
    exact h.names.append h'.names
  · intro x hx
    rcases List.mem_append.1 hx with hx | hx
    · exact h.plain x hx
    · exact h'.plain x hx

theorem fields_nil : Fields [] room [] :=
  ⟨List.Sublist.refl _, fun _ hx => absurd hx List.not_mem_nil⟩

/-- A member in front takes the name in front. -/
theorem Fields.cons {d : Document} (h : Fields names room m) (name : String) (hd : Plain room d) :
    Fields (name :: names) room ((name, d) :: m) := by
  constructor
  · exact h.names.cons_cons name
  · intro x hx
    rcases List.mem_cons.1 hx with rfl | hx
    · exact hd
    · exact h.plain x hx

/-- Members that are left out take up no names. -/
theorem Fields.left_out : Fields names room [] :=
  ⟨List.nil_sublist _, fun _ hx => absurd hx List.not_mem_nil⟩

/-- A member that may be left out takes up one name at most. -/
theorem fields_member {name : String} {v : Option Document} (hv : ∀ d ∈ v, Plain room d) :
    Fields [name] room (member name v) := by
  cases v with
  | none => exact Fields.left_out
  | some d => exact fields_nil.cons name (hv d rfl)

/-- Numbers up to a thousand, as all of a song are, can be read from any text. -/
theorem plain_nat {n : Nat} (h : n ≤ 1000) : Plain room (nat n) := by
  apply Plain.int
  · exact le_trans (by decide) (Int.natCast_nonneg n)
  · exact lt_of_le_of_lt (Int.ofNat_le.2 h) (by decide)

/-- A number that is written unless it is the default takes up one name at most. -/
theorem fields_number {name : String} {value default : Nat} (h : value ≤ 1000) :
    Fields [name] room (number name value default) := by
  apply fields_member
  intro d hd
  rcases Option.map_eq_some_iff.1 (Option.mem_def.1 hd) with ⟨n, hn, rfl⟩
  rw [changed_eq_some hn]
  exact plain_nat h

theorem fields_optional {name : String} {value : Option Nat} (h : ∀ n ∈ value, n ≤ 1000) :
    Fields [name] room (Stored.optional name value) := by
  apply fields_member
  intro d hd
  rcases Option.map_eq_some_iff.1 (Option.mem_def.1 hd) with ⟨n, hn, rfl⟩
  exact plain_nat (h n hn)

/-- A flag is written if it is set. -/
theorem fields_flag {name : String} {b : Bool} : Fields [name] room (flag name b) := by
  unfold flag
  split
  · exact fields_nil.cons name (.bool true)
  · exact Fields.left_out

theorem fields_table {α : Type} [DecidableEq α] [Table α] {name : String} {value : Option α}
    (h : (Table.all (α := α)).length ≤ 1000) :
    Fields [name] room (Stored.optional name (value.map Table.index)) := by
  apply fields_optional
  intro n hn
  rcases Option.map_eq_some_iff.1 (Option.mem_def.1 hn) with ⟨a, -, rfl⟩
  exact (index_lt a).le.trans h

/-- A list of numbers nests one deep. -/
theorem plain_nats {ns : List Nat} (h : ∀ n ∈ ns, n ≤ 1000) :
    Plain (room + 1) (.arr (ns.map nat)) := by
  apply Plain.arr
  intro d hd
  rcases List.mem_map.1 hd with ⟨n, hn, rfl⟩
  exact plain_nat (h n hn)

/-- Entries that are named by their positions have different names. -/
theorem nodup_positions (docs : List (Option Document)) :
    ((positions docs).map Prod.fst).Nodup := by
  have hindices : docs.zipIdx.Pairwise fun a b => a.2 ≠ b.2 := by
    rw [← List.pairwise_map (f := Prod.snd), List.zipIdx_map_snd]
    exact List.nodup_range' _
  -- Entries that are left out take their numbers with them, and the others keep theirs apart.
  rw [List.Nodup, List.pairwise_map, positions, List.pairwise_filterMap]
  apply hindices.imp
  rintro ⟨o, i⟩ ⟨o', j⟩ hij x hx y hy hxy
  rcases Option.map_eq_some_iff.1 (Option.mem_def.1 hx) with ⟨d, -, rfl⟩
  rcases Option.map_eq_some_iff.1 (Option.mem_def.1 hy) with ⟨d', -, rfl⟩
  exact hij (Decimal.toString_injective hxy)

/-- Entries that are named by their positions nest one deeper than the entries do. -/
theorem plain_positions {docs : List (Option Document)} (h : ∀ o ∈ docs, ∀ d ∈ o, Plain room d) :
    Plain (room + 1) (.obj (positions docs)) := by
  apply Plain.obj (nodup_positions docs)
  intro x hx
  rcases List.mem_filterMap.1 hx with ⟨⟨o, i⟩, hmem, hx⟩
  rcases Option.map_eq_some_iff.1 hx with ⟨d, rfl, rfl⟩
  exact h (some d) (List.fst_mem_of_mem_zipIdx hmem) d rfl

end Stored

/-! ## Steps, patterns and tracks -/

/-- Notes and velocities are written together or not at all. -/
theorem Chord.fields {c : Chord} (h : c.WellFormed) {room : Nat} :
    Fields ["n", "v"] (room + 1) (if c.isEmpty then []
      else [("n", .arr (c.notes.map nat)), ("v", .arr (c.velocities.map nat))]) := by
  split
  · exact Fields.left_out
  · have hnotes : Plain (room + 1) (.arr (c.notes.map nat)) :=
      plain_nats fun n hn => (h.notes n hn).trans (by decide)
    have hvelocities : Plain (room + 1) (.arr (c.velocities.map nat)) :=
      plain_nats fun v hv => (h.velocities v hv).2.trans (by decide)
    exact (fields_nil.cons "v" hvelocities).cons "n" hnotes

theorem Condition.index_le (c : Condition) : c.index ≤ 1000 :=
  (Nat.le_of_lt_succ c.position.isLt).trans (by decide)

/-- The document of a step nests two deep: its notes are a list. -/
theorem Step.toDocument?_plain {s : Step} (h : s.WellFormed) {d : Document}
    (hd : s.toDocument? = some d) : Plain 2 d := by
  unfold toDocument? at hd
  split at hd
  · cases hd
  · cases hd
    apply Fields.plain_obj
    · -- The members are in the order of their names, so each is checked against its own name.
      delta toMembers
      repeat' apply Fields.append
      · exact Chord.fields h.chord
      · exact fields_number (h.gate.trans (by decide))
      · exact fields_optional fun n hn => (h.cc1 n hn).trans (by decide)
      · exact fields_optional fun n hn => (h.cc2 n hn).trans (by decide)
      · exact fields_number (h.probability.2.trans (by decide))
      · exact fields_number s.condition.index_le
      · exact fields_number ((Ratchet.index_le h.ratchet).trans (by decide))
      · exact fields_number (h.length.2.trans (by decide))
      · exact fields_number s.paramSpark.index_le
      · exact fields_number s.compSpark.index_le
      · exact fields_optional fun n hn => (h.jump n hn).le.trans (by decide)
      · apply fields_member
        intro d hd
        rcases Option.map_eq_some_iff.1 (Option.mem_def.1 hd) with ⟨n, hn, rfl⟩
        rw [changed_eq_some hn]
        exact .int (le_trans (by decide) h.offset.1) (lt_of_le_of_lt h.offset.2 (by decide))
      · exact fields_table (by decide)
      · exact fields_table (by decide)
      · exact fields_table (by decide)
      · exact fields_number ((index_lt s.arpLayer).le.trans (by decide))
      · exact fields_optional fun n hn => (h.arpPlaySteps n hn).2.trans (by decide)
      · exact fields_optional fun n hn => (h.arpPlayStart n hn).trans (by decide)
    · decide

/-- The document of a pattern nests two deeper than a step does. -/
theorem Pattern.toDocument?_plain {p : Pattern} (h : p.WellFormed) {d : Document}
    (hd : p.toDocument? = some d) : Plain 4 d := by
  have hsteps : Plain 3 (.obj (positions (p.steps.toList.map Step.toDocument?))) := by
    apply plain_positions
    intro o ho d hd
    rcases List.mem_map.1 ho with ⟨s, hs, rfl⟩
    exact Step.toDocument?_plain (Bank.All.of_mem h hs) hd
  have hstart : p.loop.start ≤ 1000 := by
    have := p.loop.start_le_stop
    have := p.loop.stop_lt
    omega
  have hstop : p.loop.stop ≤ 1000 := p.loop.stop_lt.le.trans (by decide)
  unfold toDocument? at hd
  simp only at hd
  split at hd
  · cases hd
  · cases hd
    have hloop : Fields ["ls", "le"] 3
        (number "ls" p.loop.start 0 ++ number "le" p.loop.stop 63) :=
      (fields_number hstart).append (fields_number hstop)
    exact (hloop.cons "s" hsteps).plain_obj (by decide)

/-- A pattern number is written as an integer, also if no pattern is played. -/
theorem plain_patternNumber {current : Option Nat} (h : ∀ p ∈ current, p < 16) {room : Nat} :
    Plain room (patternNumber current) := by
  rcases Track.currentOf_written h with ⟨v, hv, hlo, hhi, -⟩
  rw [hv]
  exact .int (le_trans (by decide) hlo) (lt_of_le_of_lt hhi (by decide))

/-- The document of a track nests two deeper than a pattern does. -/
theorem Track.toDocument?_plain {index : Nat} {t : Track} (h : t.WellFormed) {d : Document}
    (hd : t.toDocument? index = some d) : Plain 6 d := by
  have hpatterns : Plain 5 (.obj (positions (t.patterns.toList.map Pattern.toDocument?))) := by
    apply plain_positions
    intro o ho d hd
    rcases List.mem_map.1 ho with ⟨p, hp, rfl⟩
    exact Pattern.toDocument?_plain (h.patterns.of_mem hp) hd
  unfold toDocument? at hd
  simp only at hd
  split at hd
  · cases hd
  · cases hd
    apply Fields.plain_obj
    · delta toMembers
      repeat' apply Fields.append
      · apply fields_member
        intro d hd
        rcases Option.map_eq_some_iff.1 (Option.mem_def.1 hd) with ⟨c, hc, rfl⟩
        rw [changed_eq_some hc]
        exact plain_patternNumber h.current
      · exact fields_flag
      · exact fields_number (h.channel.trans (by decide))
      · exact fields_number ((index_lt t.speed).le.trans (by decide))
      · exact fields_number (h.swing.trans (by decide))
      · exact fields_number (h.length.2.trans (by decide))
      · exact fields_number (h.resetLength.trans (by decide))
      · exact fields_number (h.gate.2.trans (by decide))
      · exact fields_number ((index_lt t.arpMode).le.trans (by decide))
      · exact fields_number ((index_lt t.arpSpeed).le.trans (by decide))
      · exact fields_number ((index_lt t.arpOctave).le.trans (by decide))
      · exact fields_flag
      · exact fields_number (h.arpPlaySteps.2.trans (by decide))
      · exact fields_number (h.arpPlayStart.trans (by decide))
      · exact fields_number (h.cc1.trans (by decide))
      · exact fields_number (h.cc2.trans (by decide))
      · apply fields_member
        intro d hd
        split at hd
        · cases hd
        · -- Patterns are written unless all of them are empty.
          exact Option.mem_some.1 hd ▸ hpatterns
    · decide

/-! ## Songs -/

/-- The document of a transpose step holds numbers alone. -/
theorem TransposeStep.toDocument_plain {count : Nat} {s : TransposeStep} (hcount : count ≤ 256)
    (h : s.WellFormed count) : Plain 1 s.toDocument := by
  have htranspose : Plain 0 (.int s.transpose) :=
    .int (le_trans (by decide) h.transpose.1) (lt_of_le_of_lt h.transpose.2 (by decide))
  have hduration : Plain 0 (nat s.duration) := plain_nat (h.duration.2.trans (by decide))
  apply Fields.plain_obj
  · repeat' apply Fields.append
    · exact (fields_nil.cons "duration" hduration).cons "transpose" htranspose
    · apply fields_optional
      intro n hn
      have := h.jump n hn
      omega
    · exact fields_number s.condition.index_le
  · decide

/-- The document of a well-formed song is plain. -/
theorem Song.toDocument_plain {s : Song} (h : s.WellFormed) : Plain 8 s.toDocument := by
  have htransposes : Plain 7 (.arr (s.transposes.steps.map TransposeStep.toDocument)) := by
    apply Plain.arr
    intro d hd
    rcases List.mem_map.1 hd with ⟨t, ht, rfl⟩
    exact (TransposeStep.toDocument_plain (h.transposes.few.trans (by decide))
      (h.transposes.steps t ht)).mono (by decide)
  have hsnapshots : Plain 7
      (.obj (positions (s.snapshots.toList.map fun slot => slot.map Snapshot.toDocument))) := by
    apply plain_positions
    intro o ho d hd
    rcases List.mem_map.1 ho with ⟨slot, hslot, rfl⟩
    rcases Option.map_eq_some_iff.1 (Option.mem_def.1 hd) with ⟨snapshot, hs, rfl⟩
    have hwell : snapshot.WellFormed := (h.snapshots.of_mem hslot) snapshot hs
    apply Plain.arr
    intro d hd
    rcases List.mem_map.1 hd with ⟨current, hc, rfl⟩
    exact plain_patternNumber (Bank.All.of_mem hwell hc)
  apply Fields.plain_obj
  · delta toMembers
    repeat' apply Fields.append
    · refine (fields_nil.cons "t" ?_).cons "v" (plain_nat (by decide))
      apply plain_positions
      intro o ho d hd
      rcases List.mem_map.1 ho with ⟨⟨t, i⟩, ht, rfl⟩
      exact Track.toDocument?_plain (h.tracks.of_mem (List.fst_mem_of_mem_zipIdx ht)) hd
    · exact fields_number (h.bpm.2.trans (by decide))
    · apply fields_member
      intro d hd
      split at hd
      · cases hd
      · exact Option.mem_some.1 hd ▸ htransposes
    · apply fields_member
      intro d hd
      rcases Option.map_eq_some_iff.1 (Option.mem_def.1 hd) with ⟨flags, -, rfl⟩
      apply Plain.arr
      intro d hd
      rcases List.mem_map.1 hd with ⟨b, -, rfl⟩
      exact .bool b
    · exact fields_number (h.sequencerType.trans (by decide))
    · apply fields_member
      intro d hd
      split at hd
      · cases hd
      · exact Option.mem_some.1 hd ▸ hsnapshots
    · exact fields_optional fun n hn => (h.activeSnapshot n hn).le.trans (by decide)
    · exact fields_number (h.masterReset.trans (by decide))
    · exact fields_optional fun n hn => (h.color n hn).trans (by decide)
  · decide

/-- The text of a well-formed song's file loads as the song. -/
theorem Library.songOf_text_of_wellFormed {s : Song} (h : s.WellFormed) : songOf s.text = s := by
  have hplain : Plain Document.maxDepth s.toDocument :=
    (Song.toDocument_plain h).mono (by decide)
  rw [songOf, Song.text, hplain.parse?_print]
  exact Song.ofMembers_toMembers h

end Groovebox
