import Mathlib.Tactic
import Groovebox.Proofs.Stored.Fields
import Groovebox.Stored.Reading
/-! # Writing and reading a song

The sparse form of a well-formed song reads as the same song. Each section takes one kind of
object: what its members hold under each name comes from `Stored.Holds`, and the objects inside it
come from the sections before. -/

namespace Groovebox

open Stored

attribute [ext] Step Pattern Track TransposeStep Song

namespace Stored

/-- A field is looked up by its long name, which nothing is written under, and then by its short
one. -/
theorem Holds.of_lookup {m : Members} {long short : String} {v : Option Document}
    (hlong : Document.lookup long m = none) (hshort : Document.lookup short m = v) :
    Holds m [long, short] v := by
  intro α read
  simp only [first?, List.findSome?, hlong, hshort, Option.bind_none]
  cases v.bind read <;> rfl

/-- As `Holds.of_lookup`, for fields of which the short name comes first. -/
theorem Holds.of_lookup_short {m : Members} {long short : String} {v : Option Document}
    (hshort : Document.lookup short m = v) (hlong : Document.lookup long m = none) :
    Holds m [short, long] v := by
  intro α read
  simp only [first?, List.findSome?, hlong, hshort, Option.bind_none]
  cases v.bind read <;> rfl

/-- As `Holds.of_lookup`, for fields with one name. -/
theorem Holds.of_lookup_one {m : Members} {name : String} {v : Option Document}
    (h : Document.lookup name m = v) : Holds m [name] v := by
  intro α read
  simp only [first?, List.findSome?, h]
  cases v.bind read <;> rfl

end Stored

/-! ## Steps -/

/-- Notes that are added to a chord that has room for them and holds none of them end up behind
its own, each with its velocity. -/
theorem Chord.addAll_eq (notes : List Nat) :
    ∀ (c : Chord) (velocities : List Nat) (fallback : Nat),
      velocities.length = notes.length → c.notes.length + notes.length ≤ capacity →
      (c.notes ++ notes).Nodup → (∀ n ∈ notes, n ≤ 127) →
      (∀ v ∈ velocities, 1 ≤ v ∧ v ≤ 127) →
      c.addAll notes velocities fallback =
        { notes := c.notes ++ notes, velocities := c.velocities ++ velocities } := by
  induction notes with
  | nil =>
    intro c velocities fallback hlen _ _ _ _
    rw [List.length_eq_zero_iff.1 hlen]
    simp [addAll]
  | cons note notes ih =>
    -- The chord grows along the induction, so room and distinctness are about it and the rest.
    intro c velocities fallback hlen hroom hdistinct hnotes hvelocities
    rcases List.exists_cons_of_length_eq_add_one hlen with ⟨v, velocities, rfl⟩
    -- The first note is admitted with its own velocity.
    have hadd : c.add note v =
        { notes := c.notes ++ [note], velocities := c.velocities ++ [v] } := by
      have hrange : ¬127 < note := Nat.not_lt.2 (hnotes note List.mem_cons_self)
      have hfresh : note ∉ c.notes := fun hn =>
        (List.nodup_append.1 hdistinct).2.2 note hn note List.mem_cons_self rfl
      have hfits : ¬capacity ≤ c.notes.length := by
        rw [List.length_cons] at hroom
        omega
      have hv : clampVelocity v = v := by
        have := hvelocities v List.mem_cons_self
        unfold clampVelocity
        omega
      rw [add, add?, if_neg (by tauto), hv]
      rfl
    rw [addAll, hadd, ih]
    · simp
    · simpa using hlen
    · simp only [List.length_append, List.length_cons, List.length_nil] at hroom ⊢
      omega
    · simpa using hdistinct
    · exact fun n hn => hnotes n (List.mem_cons_of_mem _ hn)
    · exact fun n hn => hvelocities n (List.mem_cons_of_mem _ hn)

theorem Chord.ofLists_self {c : Chord} (h : c.WellFormed) (fallback : Nat) :
    ofLists c.notes c.velocities fallback = c := by
  rw [ofLists, addAll_eq c.notes {} c.velocities fallback h.parallel]
  · rfl
  · exact (Nat.zero_add _).trans_le h.few
  · exact h.distinct
  · exact h.notes
  · exact h.velocities

/-- Whole numbers that 64 bits hold are taken as they are. -/
theorem Stored.int64?_nat {n : Nat} (h : n ≤ 127) : (nat n).int64? = some (n : Int) := by
  have hfits : -(Word.half64 : Int) ≤ n ∧ (n : Int) < Word.half64 := by
    unfold Word.half64
    constructor <;> omega
  unfold nat Document.int64? Word.int64?
  simp only [hfits, and_self, if_true]

/-- The notes and velocities of a chord, both written where it has notes. -/
theorem Chord.ofMembers_eq {m : Members} {c : Chord} (h : c.WellFormed)
    (hnotes : Holds m ["notes", "n"]
      (if c.isEmpty then none else some (.arr (c.notes.map nat))))
    (hvelocities : Holds m ["velocities", "v"]
      (if c.isEmpty then none else some (.arr (c.velocities.map nat)))) :
    Chord.ofMembers m = c := by
  -- Where both lists are left out, both were empty.
  have hempty : c.isEmpty = true → c.notes = [] ∧ c.velocities = [] := by
    intro he
    have hn : c.notes = [] := List.isEmpty_iff.1 he
    exact ⟨hn, List.length_eq_zero_iff.1 (h.parallel.trans (by rw [hn]; rfl))⟩
  have hn : (first? m ["notes", "n"] Document.items?).getD [] = c.notes.map nat := by
    rw [hnotes]
    split
    · rw [(hempty ‹_›).1]
      rfl
    · rfl
  have hv : (first? m ["velocities", "v"] Document.items?).getD [] = c.velocities.map nat := by
    rw [hvelocities]
    split
    · rw [(hempty ‹_›).2]
      rfl
    · rfl
  -- Each number is in range, so none is dropped and none is moved.
  have hns : ((c.notes.map nat).filterMap fun d =>
      (d.int64?.filter fun n => 0 ≤ n ∧ n ≤ 127).map Int.toNat) = c.notes := by
    rw [List.filterMap_map]
    conv_rhs => rw [← List.filterMap_some (l := c.notes)]
    apply List.filterMap_congr
    intro n hmem
    have hle := h.notes n hmem
    rw [Function.comp_apply, int64?_nat hle, Option.filter_some_pos, Option.map_some,
      Int.toNat_natCast]
    exact decide_eq_true (by omega)
  have hvs (f : Document → Nat) (hf : ∀ v ∈ c.velocities, f (nat v) = v) :
      (c.velocities.map nat).map f = c.velocities := by
    rw [List.map_map]
    conv_rhs => rw [← List.map_id c.velocities]
    exact List.map_congr_left hf
  unfold Chord.ofMembers
  simp only [hn, hv, hns]
  rw [hvs]
  · exact ofLists_self h _
  · intro v hmem
    have hrange := h.velocities v hmem
    rw [int64?_nat hrange.2]
    show (min (max (v : Int) 1) 127).toNat = v
    omega

namespace Step

theorem ofMembers_toMembers {s : Step} (h : s.WellFormed) : ofMembers s.toMembers = s := by
  -- The members of a chord stand under one condition; all other members are fields of their own.
  have hchord (name : String) : Document.lookup name
      (if s.chord.isEmpty then []
        else [("n", .arr (s.chord.notes.map nat)), ("v", .arr (s.chord.velocities.map nat))]) =
      if s.chord.isEmpty then none
      else if "n" = name then some (.arr (s.chord.notes.map nat))
      else if "v" = name then some (.arr (s.chord.velocities.map nat)) else none := by
    split <;> rfl
  -- The members are unfolded for looking up a name in them, and nowhere else.
  obtain ⟨m, hm⟩ : ∃ m, m = s.toMembers := ⟨_, rfl⟩
  rw [← hm]
  delta toMembers at hm
  apply Step.ext <;> simp only [ofMembers]
  case chord =>
    exact Chord.ofMembers_eq h.chord
      (Holds.of_lookup (by simp [hm, hchord]) (by simp [hm, hchord]))
      (Holds.of_lookup (by simp [hm, hchord]) (by simp [hm, hchord]))
  case gate =>
    exact Holds.intIn?_number
      (Holds.of_lookup (by simp [hm, hchord]) (by simp [hm, hchord]))
      ⟨Nat.zero_le _, h.gate⟩ (by decide)
  case cc1 =>
    exact Holds.optional?_nat
      (Holds.of_lookup (by simp [hm, hchord]) (by simp [hm, hchord]))
      (fun n hn => (h.cc1 n hn).trans (by decide))
      fun n hn => congrArg some (Nat.min_eq_left (h.cc1 n hn))
  case cc2 =>
    exact Holds.optional?_nat
      (Holds.of_lookup (by simp [hm, hchord]) (by simp [hm, hchord]))
      (fun n hn => (h.cc2 n hn).trans (by decide))
      fun n hn => congrArg some (Nat.min_eq_left (h.cc2 n hn))
  case probability =>
    exact Holds.clamped_number
      (Holds.of_lookup (by simp [hm, hchord]) (by simp [hm, hchord]))
      h.probability (by decide)
  case condition =>
    exact Holds.condition
      (Holds.of_lookup (by simp [hm, hchord]) (by simp [hm, hchord]))
  case ratchet =>
    exact Holds.ratchet
      (Holds.of_lookup (by simp [hm, hchord]) (by simp [hm, hchord]))
      h.ratchet
  case length =>
    exact Holds.clamped_number
      (Holds.of_lookup (by simp [hm, hchord]) (by simp [hm, hchord]))
      h.length (by decide)
  case paramSpark =>
    exact Holds.condition
      (Holds.of_lookup (by simp [hm, hchord]) (by simp [hm, hchord]))
  case compSpark =>
    exact Holds.condition
      (Holds.of_lookup (by simp [hm, hchord]) (by simp [hm, hchord]))
  case jump =>
    exact Holds.optional?_nat
      (Holds.of_lookup (by simp [hm, hchord]) (by simp [hm, hchord]))
      (fun n hn => (h.jump n hn).le.trans (by decide))
      fun n hn => upTo_self (Nat.le_of_lt_succ (h.jump n hn))
  case offset =>
    -- The only number of a step that may be negative.
    have hoffset : int? m ["offset", "of"] = changed s.offset 0 := by
      apply Holds.int? (Holds.of_lookup (by simp [hm, hchord]) (by simp [hm, hchord]))
      intro n hn
      rw [changed_eq_some hn]
      have := h.offset
      omega
    rw [hoffset]
    cases hc : changed s.offset 0 with
    | none => exact (changed_eq_none hc).symm
    | some n =>
      have := h.offset
      rw [changed_eq_some hc]
      simp only [Option.map_some, Option.getD_some]
      omega
  case arpMode =>
    exact Holds.optional?_table
      (Holds.of_lookup (by simp [hm, hchord]) (by simp [hm, hchord]))
      (by decide)
  case arpSpeed =>
    exact Holds.optional?_table
      (Holds.of_lookup (by simp [hm, hchord]) (by simp [hm, hchord]))
      (by decide)
  case arpOctave =>
    exact Holds.optional?_table
      (Holds.of_lookup (by simp [hm, hchord]) (by simp [hm, hchord]))
      (by decide)
  case arpLayer =>
    have hlayer : Table.index ArpLayer.layer = 0 := rfl
    exact Holds.table_number
      (Holds.of_lookup (by simp [hm, hchord]) (by simp [hm, hchord, hlayer])) (by decide)
  case arpPlaySteps =>
    exact Holds.optional?_nat
      (Holds.of_lookup (by simp [hm, hchord]) (by simp [hm, hchord]))
      (fun n hn => (h.arpPlaySteps n hn).2.trans (by decide))
      fun n hn => by rw [if_pos (h.arpPlaySteps n hn).1, upTo_self (h.arpPlaySteps n hn).2]
  case arpPlayStart =>
    exact Holds.optional?_nat
      (Holds.of_lookup (by simp [hm, hchord]) (by simp [hm, hchord]))
      (fun n hn => (h.arpPlayStart n hn).trans (by decide))
      fun n hn => upTo_self (h.arpPlayStart n hn)

/-- A step that differs from the default reads back from its document. -/
theorem ofDocument_of_toDocument? {s : Step} (h : s.WellFormed) {d : Document}
    (hd : s.toDocument? = some d) : ofDocument d = s := by
  unfold toDocument? at hd
  split at hd
  · cases hd
  · cases hd
    exact ofMembers_toMembers h

/-- Only the default step is not written. -/
theorem eq_default_of_toDocument? {s : Step} (h : s.toDocument? = none) : s = {} := by
  unfold toDocument? at h
  split at h
  · exact eq_of_beq ‹_›
  · cases h

end Step

/-! ## Patterns -/

namespace Stored

/-- What is written by position, where it differs from what is there from the start, is filled in
again. -/
theorem fill_positions {α : Type} {n : Nat} {start b : Bank α n} {docs : List (Option Document)}
    (write : Nat → α → Option Document) {read : Nat → Document → α} (hn : n ≤ Word.count64)
    (hlen : docs.length = n) (hdocs : ∀ i : Fin n, docs[i.val]? = some (write i (b.get i)))
    (hnone : ∀ i : Fin n, write i (b.get i) = none → start.get i = b.get i)
    (hsome : ∀ (i : Fin n) (d : Document), write i (b.get i) = some d → read i d = b.get i) :
    fill start (.obj (positions docs)) read = b := by
  rw [fill_eq_place]
  apply foldl_place_positions hn hlen
  intro i
  refine ⟨_, hdocs i, hnone i, ?_⟩
  intro d hd
  exact congrArg some (hsome i d hd)

/-- A container that is left out where it is empty is filled in like the empty one. -/
theorem fill_getD_null {α : Type} {n : Nat} (start : Bank α n) (members : Members)
    (read : Nat → Document → α) :
    fill start ((if members.isEmpty then none else some (.obj members)).getD .null) read =
      fill start (.obj members) read := by
  unfold fill
  rw [entries_getD_null]

theorem getElem?_toList_map {α β : Type} {n : Nat} (b : Bank α n) (f : α → β) (i : Fin n) :
    (b.toList.map f)[i.val]? = some (f (b.get i)) := by
  have hi : i.val < (b.toList.map f).length := by simp
  rw [List.getElem?_eq_getElem hi]
  simp [Bank.get]

/-- A number that is written where it differs from its default. -/
theorem Holds.int?_getD {m : Members} {names : List String} {value default : Nat}
    (h : Holds m names ((changed value default).map nat)) (hv : value ≤ 1000) :
    (Stored.int? m names).getD (default : Int) = value := by
  rw [h.int?_number hv]
  cases hc : changed value default with
  | none => rw [changed_eq_none hc]; rfl
  | some n => rw [changed_eq_some hc]; rfl

end Stored

theorem LoopWindow.ofMembers_eq {m : Members} {w : LoopWindow}
    (hstart : Holds m ["loopStart", "ls"] ((changed w.start 0).map nat))
    (hstop : Holds m ["loopEnd", "le"] ((changed w.stop 63).map nat)) :
    LoopWindow.ofMembers m = w := by
  have hlt := w.stop_lt
  have hle := w.start_le_stop
  have hs : (int? m ["loopStart", "ls"]).getD 0 = (w.start : Int) := hstart.int?_getD (by omega)
  have he : (int? m ["loopEnd", "le"]).getD 63 = (w.stop : Int) := hstop.int?_getD (by omega)
  unfold LoopWindow.ofMembers
  simp only [hs, he, Int.natCast_nonneg, and_self, if_true, Int.toNat_natCast]
  rw [LoopWindow.of?, dif_pos ⟨hle, hlt⟩]
  rfl

namespace Pattern

/-- The object that a pattern is written as reads back, also where it would be left out. -/
theorem ofDocument_object {p : Pattern} (h : p.WellFormed) :
    ofDocument (.obj (("s", .obj (positions (p.steps.toList.map Step.toDocument?))) ::
      (number "ls" p.loop.start 0 ++ number "le" p.loop.stop 63))) = p := by
  obtain ⟨m, hm⟩ : ∃ m, m = ("s", Document.obj (positions (p.steps.toList.map Step.toDocument?))) ::
    (number "ls" p.loop.start 0 ++ number "le" p.loop.stop 63) := ⟨_, rfl⟩
  rw [← hm]
  have hsteps : present? m ["steps", "s"] =
      some (.obj (positions (p.steps.toList.map Step.toDocument?))) :=
    Holds.present? (Holds.of_lookup (by simp [hm, Document.lookup]) (by simp [hm, Document.lookup]))
  apply Pattern.ext <;> simp only [ofDocument, Document.members?]
  case steps =>
    rw [hsteps]
    apply fill_positions (fun _ => Step.toDocument?) (by decide) (by simp)
    · exact getElem?_toList_map p.steps _
    · intro i hi
      rw [Step.eq_default_of_toDocument? hi]
      exact Vector.getElem_replicate i.isLt
    · exact fun i d hi => Step.ofDocument_of_toDocument? (h i) hi
  case loop =>
    apply LoopWindow.ofMembers_eq
    · exact Holds.of_lookup (by simp [hm, Document.lookup]) (by simp [hm, Document.lookup])
    · exact Holds.of_lookup (by simp [hm, Document.lookup]) (by simp [hm, Document.lookup])

theorem ofDocument_of_toDocument? {p : Pattern} (h : p.WellFormed) {d : Document}
    (hd : p.toDocument? = some d) : ofDocument d = p := by
  unfold toDocument? at hd
  simp only at hd
  split at hd
  · cases hd
  · cases hd
    exact ofDocument_object h

/-- Only the default pattern is not written. -/
theorem eq_default_of_toDocument? {p : Pattern} (h : p.WellFormed) (hd : p.toDocument? = none) :
    p = {} := by
  unfold toDocument? at hd
  simp only at hd
  split at hd
  · -- The object would be empty, and what reads back from the empty object is the default.
    rename_i hempty
    rcases Bool.and_eq_true_iff.1 hempty with ⟨hsteps, hloop⟩
    have hread := ofDocument_object h
    rw [List.isEmpty_iff.1 hsteps, List.isEmpty_iff.1 hloop] at hread
    rw [← hread]
    simp [ofDocument, Document.members?, present?, first?, Document.lookup, fill, entries]
    rfl
  · cases hd

end Pattern

/-! ## Tracks -/

/-- Pattern numbers, with -1 for none, stand for what they were written for. -/
theorem Track.currentOf_written {current : Option Nat} (h : ∀ p ∈ current, p < 16) :
    ∃ v : Int, patternNumber current = .int v ∧ -1000 ≤ v ∧ v ≤ 1000 ∧
      Track.currentOf v = current := by
  cases current with
  | none => exact ⟨-1, rfl, by decide, by decide, rfl⟩
  | some p =>
    have hp : p < 16 := h p rfl
    refine ⟨p, rfl, by omega, by omega, ?_⟩
    rw [Track.currentOf, if_neg (by omega), if_pos (by omega), Int.toNat_natCast]

namespace Track

theorem current_read {m : Members} {current : Option Nat} (h : ∀ p ∈ current, p < 16)
    (hm : Holds m ["currentPattern", "cp"] ((changed current (some 0)).map patternNumber)) :
    ((int? m ["currentPattern", "cp"]).map currentOf).getD (some 0) = current := by
  rcases currentOf_written h with ⟨v, hv, hlo, hhi, hback⟩
  cases hc : changed current (some 0) with
  | none =>
    rw [hc] at hm
    rw [changed_eq_none hc, int?, hm]
    rfl
  | some c =>
    rw [hc, changed_eq_some hc, Option.map_some, hv] at hm
    have hint : int? m ["currentPattern", "cp"] = some v := by
      apply Holds.int? hm
      intro n hn
      cases hn
      exact ⟨hlo, hhi⟩
    rw [hint]
    exact hback

/-- The members that a track is written as read back. -/
theorem ofMembers_toMembers (index : Nat) {t : Track} (h : t.WellFormed) :
    ofMembers index (t.toMembers index) = t := by
  -- The defaults that are written one way and read another.
  have hchannel : min (defaultChannel index) 15 = defaultChannel index := by
    unfold defaultChannel
    split <;> omega
  have hmode : Table.index ArpMode.off = 0 := rfl
  have hoctave : Table.index ArpOctave.zero = 0 := rfl
  obtain ⟨m, hm⟩ : ∃ m, m = t.toMembers index := ⟨_, rfl⟩
  rw [← hm]
  delta toMembers at hm
  have hpatterns : Holds m ["patterns", "p"]
      (if (positions (t.patterns.toList.map Pattern.toDocument?)).isEmpty then none
        else some (.obj (positions (t.patterns.toList.map Pattern.toDocument?)))) :=
    Holds.of_lookup (by simp [hm]) (by simp [hm])
  apply Track.ext <;> simp only [ofMembers, fresh, Track.new]
  case patterns =>
    rw [hpatterns.present?, fill_getD_null]
    apply fill_positions (fun _ => Pattern.toDocument?) (by decide) (by simp)
    · exact getElem?_toList_map t.patterns _
    · intro i hi
      rw [Pattern.eq_default_of_toDocument? (h.patterns i) hi]
      exact Vector.getElem_replicate i.isLt
    · exact fun i d hi => Pattern.ofDocument_of_toDocument? (h.patterns i) hi
  case current =>
    exact current_read h.current (Holds.of_lookup (by simp [hm]) (by simp [hm]))
  case channel =>
    rw [hchannel]
    exact Holds.intIn?_number (Holds.of_lookup (by simp [hm]) (by simp [hm]))
      ⟨Nat.zero_le _, h.channel⟩ (by decide)
  case muted =>
    exact Holds.flag?
      (Holds.of_lookup (by simp [hm]) (by simp [hm]))
  case speed =>
    exact Holds.table_number
      (Holds.of_lookup (by simp [hm]) (by simp [hm])) (by decide)
  case swing =>
    exact Holds.intIn?_number
      (Holds.of_lookup (by simp [hm]) (by simp [hm])) ⟨Nat.zero_le _, h.swing⟩ (by decide)
  case length =>
    exact Holds.intIn?_number
      (Holds.of_lookup (by simp [hm]) (by simp [hm])) h.length (by decide)
  case resetLength =>
    exact Holds.intIn?_number
      (Holds.of_lookup (by simp [hm]) (by simp [hm])) ⟨Nat.zero_le _, h.resetLength⟩ (by decide)
  case gate =>
    exact Holds.intIn?_number
      (Holds.of_lookup (by simp [hm]) (by simp [hm])) h.gate (by decide)
  case arpMode =>
    exact Holds.table_number
      (Holds.of_lookup (by simp [hm]) (by simp [hm, hmode])) (by decide)
  case arpSpeed =>
    exact Holds.table_number
      (Holds.of_lookup (by simp [hm]) (by simp [hm])) (by decide)
  case arpOctave =>
    exact Holds.table_number
      (Holds.of_lookup (by simp [hm]) (by simp [hm, hoctave])) (by decide)
  case arpContinuous =>
    exact Holds.flag?
      (Holds.of_lookup (by simp [hm]) (by simp [hm]))
  case arpPlaySteps =>
    exact Holds.intIn?_number
      (Holds.of_lookup (by simp [hm]) (by simp [hm])) h.arpPlaySteps (by decide)
  case arpPlayStart =>
    exact Holds.intIn?_number
      (Holds.of_lookup (by simp [hm]) (by simp [hm])) ⟨Nat.zero_le _, h.arpPlayStart⟩ (by decide)
  case cc1 =>
    exact Holds.intIn?_number
      (Holds.of_lookup (by simp [hm]) (by simp [hm])) ⟨Nat.zero_le _, h.cc1⟩ (by decide)
  case cc2 =>
    exact Holds.intIn?_number
      (Holds.of_lookup (by simp [hm]) (by simp [hm])) ⟨Nat.zero_le _, h.cc2⟩ (by decide)

theorem ofDocument_of_toDocument? {index : Nat} {t : Track} (h : t.WellFormed) {d : Document}
    (hd : t.toDocument? index = some d) : ofDocument index d = t := by
  unfold toDocument? at hd
  simp only at hd
  split at hd
  · cases hd
  · cases hd
    exact ofMembers_toMembers index h

/-- Only a fresh track is not written. -/
theorem eq_fresh_of_toDocument? {index : Nat} {t : Track} (h : t.WellFormed)
    (hd : t.toDocument? index = none) : t = fresh index := by
  unfold toDocument? at hd
  simp only at hd
  split at hd
  · -- As for patterns, with the track that is fresh at this position in place of the default.
    rename_i hempty
    have hread := ofMembers_toMembers index h
    rw [List.isEmpty_iff.1 hempty] at hread
    rw [← hread]
    rfl
  · cases hd

end Track

/-! ## The transpose sequence -/

theorem TransposeStep.ofMembers_toDocument {count : Nat} {s : TransposeStep} (hcount : count ≤ 256)
    (h : s.WellFormed count) : s.toDocument.members?.map ofMembers = some s := by
  obtain ⟨m, hm⟩ : ∃ m, m =
      [("transpose", Document.int s.transpose), ("duration", nat s.duration)] ++
        Stored.optional "jump" s.jump ++ number "condition" s.condition.index 0 := ⟨_, rfl⟩
  have htranspose : int? m ["transpose"] = some s.transpose := by
    apply Holds.int? (Holds.of_lookup_one (by simp [hm, Document.lookup]))
    intro n hn
    cases hn
    have := h.transpose
    omega
  have hduration : int? m ["duration"] = some (s.duration : Int) := by
    apply Holds.int? (Holds.of_lookup_one (by simp [hm, Document.lookup, nat]))
    intro n hn
    cases hn
    have := h.duration
    omega
  rw [TransposeStep.toDocument, ← hm]
  apply congrArg some
  apply TransposeStep.ext <;> simp only [ofMembers, TransposeStep.new]
  case transpose =>
    rw [htranspose]
    have := h.transpose
    simp only [Option.getD_some, clampTranspose]
    omega
  case duration =>
    rw [hduration]
    have := h.duration
    simp only [Option.getD_some, clampDuration]
    omega
  case jump =>
    apply Holds.optional?_nat (Holds.of_lookup_one (by simp [hm, Document.lookup]))
    · intro n hn
      have := h.jump n hn
      omega
    · intro n hn
      have := h.jump n hn
      exact upTo_self (by omega)
  case condition =>
    exact Holds.condition (Holds.of_lookup_one (by simp [hm, Document.lookup]))

/-- Jumps that stay within the sequence are not cut. -/
theorem TransposeSequence.boundJumps_self {q : TransposeSequence} (h : q.WellFormed) :
    q.boundJumps = q := by
  unfold boundJumps
  apply congrArg TransposeSequence.mk
  conv_rhs => rw [← List.map_id q.steps]
  apply List.map_congr_left
  intro s hs
  have hjump : s.jump.filter (· < q.length) = s.jump := by
    cases hj : s.jump with
    | none => rfl
    | some j => exact Option.filter_some_pos (decide_eq_true ((h.steps s hs).jump j hj))
  rw [hjump]
  rfl

theorem TransposeSequence.ofDocument_written {q : TransposeSequence} (h : q.WellFormed) :
    ofDocument ((if (q.steps.map TransposeStep.toDocument).isEmpty then none
      else some (.arr (q.steps.map TransposeStep.toDocument))).getD .null) = q := by
  -- Every step is an object, so none is dropped on reading.
  have hitems : ((if (q.steps.map TransposeStep.toDocument).isEmpty then none
      else some (Document.arr (q.steps.map TransposeStep.toDocument))).getD .null).items?.getD [] =
      q.steps.map TransposeStep.toDocument := by
    cases q.steps <;> rfl
  have hread : ((q.steps.map TransposeStep.toDocument).filterMap Document.members?).map
      TransposeStep.ofMembers = q.steps := by
    rw [List.map_filterMap, List.filterMap_map]
    conv_rhs => rw [← List.filterMap_some (l := q.steps)]
    apply List.filterMap_congr
    intro s hs
    exact TransposeStep.ofMembers_toDocument (h.few.trans (by decide)) (h.steps s hs)
  have hfew : ofSteps q.steps = q := congrArg TransposeSequence.mk (List.take_of_length_le h.few)
  unfold ofDocument
  simp only [hitems, hread, hfew]
  exact boundJumps_self h

/-! ## Songs -/

theorem Song.chordFollowOf_written (flags : Bank Bool 16) :
    chordFollowOf (((changed flags defaultChordFollow).map fun flags =>
      Document.arr (flags.toList.map .bool)).getD .null) = flags := by
  cases hc : changed flags defaultChordFollow with
  | none =>
    rw [changed_eq_none hc]
    rfl
  | some f =>
    rw [changed_eq_some hc]
    have hflags : (flags.toList.map Document.bool).map (fun d =>
        d.bool?.getD ((d.int64?.map (· != 0)).getD false)) = flags.toList := by
      rw [List.map_map]
      exact List.map_id flags.toList
    simp only [chordFollowOf, Option.map_some, Option.getD_some, Document.items?, hflags]
    rw [if_neg (by simp)]
    apply Bank.ext_get
    intro t
    have ht : t.val < flags.toList.length := by simp
    simp only [Bank.get, Vector.getElem_ofFn, List.getD_eq_getElem?_getD,
      List.getElem?_eq_getElem ht, Option.getD_some]
    exact Vector.getElem_toList ht

/-- A snapshot reads back from its document. -/
theorem Snapshot.ofDocument?_toDocument {s : Snapshot} (h : s.WellFormed) :
    Snapshot.ofDocument? s.toDocument = some s := by
  unfold Snapshot.ofDocument? Snapshot.toDocument
  rw [Document.items?, Option.map_some]
  apply congrArg some
  apply Bank.ext_get
  intro t
  rcases Track.currentOf_written (h t) with ⟨v, hv, hlo, hhi, hback⟩
  -- Numbers in snapshots are taken as they are and not rounded.
  have hitem : (s.toList.map patternNumber)[t.val]?.bind Document.int64? = some v := by
    rw [getElem?_toList_map s patternNumber t, hv, Option.bind_some, Document.int64?, Word.int64?]
    apply if_pos
    unfold Word.half64
    constructor <;> omega
  rw [Bank.get, Vector.getElem_ofFn, hitem]
  exact hback

theorem Song.snapshotsOf_written {slots : Bank (Option Snapshot) 16}
    (h : slots.All fun slot => ∀ s ∈ slot, Snapshot.WellFormed s) :
    snapshotsOf (.obj (positions (slots.toList.map fun slot => slot.map Snapshot.toDocument))) =
      slots := by
  rw [snapshotsOf_eq_place]
  apply foldl_place_positions (by decide) (by simp)
  intro i
  refine ⟨_, getElem?_toList_map slots _ i, ?_, ?_⟩
  · intro hnone
    rw [Option.map_eq_none_iff.1 hnone]
    exact Vector.getElem_replicate i.isLt
  · intro d hd
    rcases Option.map_eq_some_iff.1 (Option.mem_def.1 hd) with ⟨s, hs, rfl⟩
    rw [Snapshot.ofDocument?_toDocument (h i s hs), hs]
    rfl

namespace Song

/-- The tracks of a song read back from the object that names them by position. -/
theorem tracksOf_written {tracks : Bank Track 16} (h : tracks.All Track.WellFormed) :
    tracksOf (.obj (positions (tracks.toList.zipIdx.map fun (t, i) => t.toDocument? i))) =
      tracks := by
  apply fill_positions Track.toDocument? (by decide) (by simp)
  · intro i
    have hi : i.val < (tracks.toList.zipIdx.map fun (t, i) => t.toDocument? i).length := by simp
    rw [List.getElem?_eq_getElem hi]
    simp [Bank.get]
  · intro i hi
    rw [Track.eq_fresh_of_toDocument? (h i) hi]
    exact Vector.getElem_ofFn i.isLt
  · exact fun i d hi => Track.ofDocument_of_toDocument? (h i) hi

/-- The members that a well-formed song is written as read back as the song. -/
theorem ofMembers_toMembers {s : Song} (h : s.WellFormed) : ofMembers s.toMembers = s := by
  obtain ⟨m, hm⟩ : ∃ m, m = s.toMembers := ⟨_, rfl⟩
  rw [← hm]
  delta toMembers at hm
  have htracks : Holds m ["t", "tracks"]
      (some (.obj (positions (s.tracks.toList.zipIdx.map fun (t, i) => t.toDocument? i)))) :=
    Holds.of_lookup_short (by simp [hm, Document.lookup]) (by simp [hm, Document.lookup])
  have htransposes : Holds m ["ts", "transposeSequence"]
      (if (s.transposes.steps.map TransposeStep.toDocument).isEmpty then none
        else some (.arr (s.transposes.steps.map TransposeStep.toDocument))) :=
    Holds.of_lookup_short (by simp [hm, Document.lookup]) (by simp [hm, Document.lookup])
  have hfollow : Holds m ["cf", "chordFollow"]
      ((changed s.chordFollow defaultChordFollow).map fun flags => .arr (flags.toList.map .bool)) :=
    Holds.of_lookup_short (by simp [hm, Document.lookup]) (by simp [hm, Document.lookup])
  have hsnapshots : Holds m ["ps", "patternSnapshots"]
      (if (positions (s.snapshots.toList.map fun slot => slot.map Snapshot.toDocument)).isEmpty
        then none
        else some (.obj (positions
          (s.snapshots.toList.map fun slot => slot.map Snapshot.toDocument)))) :=
    Holds.of_lookup_short (by simp [hm, Document.lookup]) (by simp [hm, Document.lookup])
  have hbpm : (int? m ["bpm"]).getD 120 = (s.bpm : Int) := by
    apply Holds.int?_getD (Holds.of_lookup_one (by simp [hm, Document.lookup]))
    exact h.bpm.2.trans (by decide)
  apply Song.ext <;> simp only [ofMembers]
  case tracks =>
    rw [htracks.present?]
    exact tracksOf_written h.tracks
  case bpm =>
    rw [hbpm]
    have := h.bpm
    unfold clampBpm
    omega
  case transposes =>
    rw [htransposes.present?]
    exact TransposeSequence.ofDocument_written h.transposes
  case chordFollow =>
    rw [hfollow.present?]
    exact chordFollowOf_written s.chordFollow
  case sequencerType =>
    exact Holds.intIn?_number
      (Holds.of_lookup_short (by simp [hm, Document.lookup]) (by simp [hm, Document.lookup]))
      ⟨Nat.zero_le _, h.sequencerType⟩ (by decide)
  case snapshots =>
    have hentries := entries_getD_null 16
      (positions (s.snapshots.toList.map fun slot => slot.map Snapshot.toDocument))
    rw [hsnapshots.present?, snapshotsOf, hentries]
    exact snapshotsOf_written h.snapshots
  case activeSnapshot =>
    exact Holds.intIn?_optional
      (Holds.of_lookup_short (by simp [hm, Document.lookup]) (by simp [hm, Document.lookup]))
      (fun n hn => ⟨Nat.zero_le _, Nat.le_of_lt_succ (h.activeSnapshot n hn)⟩) (by decide)
  case masterReset =>
    exact Holds.intIn?_number
      (Holds.of_lookup_short (by simp [hm, Document.lookup]) (by simp [hm, Document.lookup]))
      ⟨Nat.zero_le _, h.masterReset⟩ (by decide)
  case color =>
    exact Holds.intIn?_optional (Holds.of_lookup_one (by simp [hm, Document.lookup]))
      (fun n hn => ⟨Nat.zero_le _, h.color n hn⟩) (by decide)

/-- Writing a well-formed song and reading it again loses nothing. -/
theorem ofDocument_toDocument {s : Song} (h : s.WellFormed) : ofDocument s.toDocument = s :=
  ofMembers_toMembers h

/-- A song with one chord, on the last step of the last pattern of its last track. -/
def sketch : Song :=
  (({} : Song).setBpm 97).setTrack (Fin.last 15)
    ((Track.fresh 15).setPattern (Fin.last 15) (({} : Pattern).setStep (Fin.last 63)
      { chord := ⟨[60, 64], [100, 1]⟩, offset := -24, jump := some 0, cc1 := some 0 }))

theorem sketch_wellFormed : sketch.WellFormed := by
  apply setTrack_wellFormed (setBpm_wellFormed wellFormed_default 97)
  apply Track.setPattern_wellFormed (Track.wellFormed_fresh 15)
  apply Pattern.setStep_wellFormed Pattern.wellFormed_default
  decide

theorem ofDocument_toDocument_sketch :
    sketch.WellFormed ∧ ofDocument sketch.toDocument = sketch :=
  ⟨sketch_wellFormed, ofDocument_toDocument sketch_wellFormed⟩

/-- Whatever a document holds, it reads as a well-formed song, and writing this song and reading it
again changes nothing more. -/
theorem ofDocument_wellFormed_stable (d : Document) :
    (ofDocument d).WellFormed ∧ ofDocument (ofDocument d).toDocument = ofDocument d :=
  ⟨ofDocument_wellFormed d, ofMembers_toMembers (ofDocument_wellFormed d)⟩

end Song

end Groovebox
