import Mathlib.Tactic
import Groovebox.Proofs.Stored.Text
/-! # What a file leaves out

A file holds of a song what differs from its defaults, and nothing else. For each kind of object a
table says which setting stands behind each of its names and whether it differs; the object shows
the names of the settings that do. The entry of a step, a pattern or a track is there where the
whole of it differs, which for a track depends on its place. The main statement is
`Song.toDocument_sparse`. -/

namespace Groovebox

open Stored

namespace Stored

/-! ## What a document shows -/

/-- What stands under a name in a document that may be missing. -/
def under (d : Option Document) (name : String) : Option Document :=
  (d.bind Document.members?).bind (Document.lookup name)

/-- A document that may be missing has exactly the names that a table marks. -/
def Shows (marks : List (String × Bool)) (d : Option Document) : Prop :=
  ∀ name, (under d name).isSome ↔ (name, true) ∈ marks

/-- In a container that may be missing, what stands at each position is as `each` says, and nothing
stands under any other name. -/
structure Filled {n : Nat} (each : Fin n → Option Document → Prop) (d : Option Document) :
    Prop where
  entry : ∀ i, each i (under d (toString i.val))
  position : ∀ name, (under d name).isSome → ∃ i : Fin n, name = toString i.val

end Stored

/-! ## What differs -/

/-- The names of a step's members, each with whether the setting behind it differs from its
default. Notes and velocities are there together. -/
def Step.deviations (s : Step) : List (String × Bool) :=
  let d : Step := {}
  [("n", decide (s.chord.notes ≠ [])), ("v", decide (s.chord.notes ≠ [])),
    ("gt", decide (s.gate ≠ d.gate)), ("c1", decide (s.cc1 ≠ d.cc1)),
    ("c2", decide (s.cc2 ≠ d.cc2)), ("pr", decide (s.probability ≠ d.probability)),
    ("co", decide (s.condition ≠ d.condition)), ("ra", decide (s.ratchet ≠ d.ratchet)),
    ("le", decide (s.length ≠ d.length)), ("ps", decide (s.paramSpark ≠ d.paramSpark)),
    ("cs", decide (s.compSpark ≠ d.compSpark)), ("ju", decide (s.jump ≠ d.jump)),
    ("of", decide (s.offset ≠ d.offset)), ("am", decide (s.arpMode ≠ d.arpMode)),
    ("as", decide (s.arpSpeed ≠ d.arpSpeed)), ("ao", decide (s.arpOctave ≠ d.arpOctave)),
    ("al", decide (s.arpLayer ≠ d.arpLayer)), ("ap", decide (s.arpPlaySteps ≠ d.arpPlaySteps)),
    ("at", decide (s.arpPlayStart ≠ d.arpPlayStart))]

/-- The names of a pattern's members. The steps are there wherever the pattern is. -/
def Pattern.deviations (p : Pattern) : List (String × Bool) :=
  let d : Pattern := {}
  [("s", decide (p ≠ d)), ("ls", decide (p.loop.start ≠ d.loop.start)),
    ("le", decide (p.loop.stop ≠ d.loop.stop))]

/-- The names of the members of the track at a position of a song. -/
def Track.deviations (index : Nat) (t : Track) : List (String × Bool) :=
  let d := Track.fresh index
  [("cp", decide (t.current ≠ d.current)), ("mu", decide (t.muted ≠ d.muted)),
    ("ch", decide (t.channel ≠ d.channel)), ("sp", decide (t.speed ≠ d.speed)),
    ("sw", decide (t.swing ≠ d.swing)), ("tl", decide (t.length ≠ d.length)),
    ("rl", decide (t.resetLength ≠ d.resetLength)), ("ga", decide (t.gate ≠ d.gate)),
    ("am", decide (t.arpMode ≠ d.arpMode)), ("as", decide (t.arpSpeed ≠ d.arpSpeed)),
    ("ao", decide (t.arpOctave ≠ d.arpOctave)), ("ac", decide (t.arpContinuous ≠ d.arpContinuous)),
    ("ap", decide (t.arpPlaySteps ≠ d.arpPlaySteps)),
    ("at", decide (t.arpPlayStart ≠ d.arpPlayStart)), ("c1", decide (t.cc1 ≠ d.cc1)),
    ("c2", decide (t.cc2 ≠ d.cc2)), ("p", decide (t.patterns ≠ d.patterns))]

/-- The names of a song's members. The version and the tracks are always there. -/
def Song.deviations (s : Song) : List (String × Bool) :=
  let d : Song := {}
  [("v", true), ("t", true), ("bpm", decide (s.bpm ≠ d.bpm)),
    ("ts", decide (s.transposes ≠ d.transposes)), ("cf", decide (s.chordFollow ≠ d.chordFollow)),
    ("st", decide (s.sequencerType ≠ d.sequencerType)), ("ps", decide (s.snapshots ≠ d.snapshots)),
    ("ap", decide (s.activeSnapshot ≠ d.activeSnapshot)),
    ("mr", decide (s.masterReset ≠ d.masterReset)), ("color", decide (s.color ≠ d.color))]

/-! ## Sparse objects -/

/-- The document of a step, or its absence, says what differs from the default step. -/
structure Step.Sparse (s : Step) (d : Option Document) : Prop where
  entry : d.isSome ↔ s ≠ {}
  members : Shows s.deviations d

/-- The document of a pattern, or its absence, says what differs from the default pattern. -/
structure Pattern.Sparse (p : Pattern) (d : Option Document) : Prop where
  entry : d.isSome ↔ p ≠ {}
  members : Shows p.deviations d
  steps : Filled (fun k => (p.steps.get k).Sparse) (under d "s")

/-- The document of a track, or its absence, says what differs from the track that is fresh at its
position. -/
structure Track.Sparse (index : Nat) (t : Track) (d : Option Document) : Prop where
  entry : d.isSome ↔ t ≠ Track.fresh index
  members : Shows (t.deviations index) d
  patterns : Filled (fun j => (t.patterns.get j).Sparse) (under d "p")

/-- The document of a song says what differs from the default song. -/
structure Song.Sparse (s : Song) (d : Document) : Prop where
  members : Shows s.deviations (some d)
  tracks : Filled (fun i => (s.tracks.get i).Sparse i) (under (some d) "t")
  snapshots : Filled (fun k slot => slot.isSome ↔ (s.snapshots.get k).isSome)
    (under (some d) "ps")

namespace Stored

/-! ## Members -/

/-- Members that hold exactly the names that a table marks. -/
def Written (m : Members) (marks : List (String × Bool)) : Prop :=
  ∀ name, (Document.lookup name m).isSome ↔ (name, true) ∈ marks

variable {m : Members} {marks : List (String × Bool)}

theorem written_nil : Written [] [] := by
  intro name
  simp [Document.lookup]

/-- A member that is written in any case. -/
theorem Written.cons {k : String} {mark : Bool} (hmark : mark = true) (d : Document)
    (h : Written m marks) : Written ((k, d) :: m) ((k, mark) :: marks) := by
  intro name
  rw [Document.lookup, List.mem_cons, Prod.mk.injEq, ← h name, hmark]
  split
  · rename_i hk
    simp [hk]
  · rename_i hk
    simp [Ne.symm hk]

/-- A member that is left out. -/
theorem Written.skip {k : String} {mark : Bool} (hmark : mark = false) (h : Written m marks) :
    Written m ((k, mark) :: marks) := by
  intro name
  rw [h name, hmark]
  simp

/-- A member that is written where its mark says so. -/
theorem Written.member {k : String} {v : Option Document} {differs : Prop} {_ : Decidable differs}
    (hv : v.isSome ↔ differs) (h : Written m marks) :
    Written (Stored.member k v ++ m) ((k, decide differs) :: marks) := by
  cases v with
  | none => exact .skip (decide_eq_false (by simpa using hv)) h
  | some d => exact .cons (decide_eq_true (hv.1 rfl)) d h

/-- The last member of an object. -/
theorem written_member {k : String} {v : Option Document} {differs : Prop} {_ : Decidable differs}
    (hv : v.isSome ↔ differs) : Written (Stored.member k v) [(k, decide differs)] := by
  rw [← List.append_nil (Stored.member k v)]
  exact .member hv written_nil

/-- A flag is a member that is there if it is set. -/
theorem flag_eq_member (k : String) (b : Bool) :
    Stored.flag k b = Stored.member k (if b then some (.bool true) else none) := by
  cases b <;> rfl

@[simp]
theorem under_obj (m : Members) (name : String) :
    under (some (.obj m)) name = Document.lookup name m := rfl

@[simp]
theorem under_none (name : String) : under none name = none := rfl

theorem Written.shows (h : Written m marks) : Shows marks (some (.obj m)) := h

/-- Nothing is written where nothing is marked. -/
theorem Written.eq_nil (h : Written m marks) (hmarks : ∀ name, (name, true) ∉ marks) : m = [] := by
  cases m with
  | nil => rfl
  | cons member m =>
    rcases member with ⟨k, v⟩
    have hshown : (Document.lookup k ((k, v) :: m)).isSome := by
      rw [Document.lookup, if_pos rfl]
      rfl
    exact absurd ((h k).1 hshown) (hmarks k)

/-- What is left out where it is empty stands under no name then. -/
theorem under_left_out (name : String) :
    under (if m.isEmpty then none else some (.obj m)) name = Document.lookup name m := by
  cases m <;> rfl

/-- A value is written just if it differs from its default. -/
theorem isSome_changed {α β : Type} [DecidableEq α] (f : α → β) (value default : α) :
    ((changed value default).map f).isSome ↔ value ≠ default := by
  unfold changed
  split <;> simp [*]

/-- A value that may be missing is written just if it is there. -/
theorem isSome_set {α β : Type} (f : α → β) (value : Option α) :
    (value.map f).isSome ↔ value ≠ none := by
  cases value <;> simp

/-- A table entry that may be missing is written just if it is there. -/
theorem isSome_set_index {α β : Type} [DecidableEq α] [Table α] (f : Nat → β) (value : Option α) :
    ((value.map Table.index).map f).isSome ↔ value ≠ none := by
  cases value <;> simp

/-- A container is written just if it has any entry. -/
theorem isSome_left_out {α : Type} (items : List α) (d : Document) :
    (if items.isEmpty then none else some d).isSome ↔ items ≠ [] := by
  cases items <;> simp

theorem isSome_flag (b : Bool) :
    (if b then some (Document.bool true) else none).isSome ↔ b ≠ false := by
  cases b <;> simp

/-- A table entry is written where it differs, not only its position. -/
theorem isSome_changed_index {α β : Type} [DecidableEq α] [Table α] (f : Nat → β)
    (value default : α) :
    ((changed (Table.index value) (Table.index default)).map f).isSome ↔ value ≠ default := by
  rw [isSome_changed]
  exact not_congr ⟨index_inj, congrArg _⟩

/-- A condition is written unless it is the one that always holds. -/
theorem isSome_condition {β : Type} (f : Nat → β) (c : Condition) :
    ((changed c.index 0).map f).isSome ↔ c ≠ .always := by
  rw [isSome_changed]
  apply not_congr
  constructor
  · intro h
    rcases c with ⟨position⟩
    exact congrArg Condition.mk (Fin.ext h)
  · rintro rfl
    rfl

/-- Of the valid ratchets only the single hit has position 0. -/
theorem isSome_ratchet {β : Type} (f : Nat → β) {r : Ratchet} (h : r.Valid) :
    ((changed r.index 0).map f).isSome ↔ r ≠ {} := by
  rw [isSome_changed]
  apply not_congr
  constructor
  · intro hzero
    have hback := Ratchet.ofIndex_index h
    rw [hzero] at hback
    exact (Except.ok.inj hback).symm
  · rintro rfl
    rfl

/-! ## Containers -/

/-- Where no name is repeated, a name leads to every value it stands before. -/
theorem lookup_eq_some_iff {name : String} {d : Document} (h : (m.map Prod.fst).Nodup) :
    Document.lookup name m = some d ↔ (name, d) ∈ m := by
  induction m with
  | nil => simp [Document.lookup]
  | cons member m ih =>
    rcases member with ⟨k, v⟩
    rw [List.map_cons, List.nodup_cons] at h
    rw [Document.lookup, List.mem_cons, Prod.mk.injEq]
    split
    · -- The name is taken here, so it does not come again.
      rename_i hk
      subst hk
      have habsent : (k, d) ∉ m := fun hmem => h.1 (List.mem_map.2 ⟨_, hmem, rfl⟩)
      simp [habsent, eq_comm]
    · rename_i hk
      rw [ih h.2]
      simp [Ne.symm hk]

/-- The name of a position leads to what is written there. -/
theorem lookup_positions (docs : List (Option Document)) (i : Nat) :
    Document.lookup (toString i) (positions docs) = docs[i]?.join := by
  apply Option.ext
  intro d
  rw [lookup_eq_some_iff (nodup_positions docs), mem_positions, Option.join_eq_some_iff]
  constructor
  · rintro ⟨j, hget, hname⟩
    rw [Decimal.toString_injective hname]
    exact hget
  · exact fun hget => ⟨i, hget, rfl⟩

/-- A container of as many documents as there are places, some of them left out. -/
theorem filled_positions {n : Nat} {each : Fin n → Option Document → Prop} {d : Option Document}
    {docs : List (Option Document)}
    (hd : ∀ name, under d name = Document.lookup name (positions docs))
    (hlen : docs.length = n) (heach : ∀ i : Fin n, ∃ o, docs[i.val]? = some o ∧ each i o) :
    Filled each d where
  entry i := by
    rcases heach i with ⟨o, hget, ho⟩
    rw [hd, lookup_positions, hget]
    exact ho
  position name h := by
    rw [hd, Option.isSome_iff_exists] at h
    rcases h with ⟨v, hv⟩
    rw [lookup_eq_some_iff (nodup_positions docs), mem_positions] at hv
    rcases hv with ⟨i, hget, hname⟩
    have hlt : i < docs.length := (List.getElem?_eq_some_iff.1 hget).1
    exact ⟨⟨i, hlen ▸ hlt⟩, hname⟩

/-- The container of a bank is empty where everything in the bank is what is not written. -/
theorem positions_map_eq_nil {α : Type} {n : Nat} {b : Bank α n} {a : α}
    {write : α → Option Document} (h : ∀ i, write (b.get i) = none ↔ b.get i = a) :
    positions (b.toList.map write) = [] ↔ b = Vector.replicate n a := by
  rw [List.eq_nil_iff_forall_not_mem]
  constructor
  · intro hempty
    apply Bank.ext_get
    intro i
    have hnone : write (b.get i) = none := by
      cases hw : write (b.get i) with
      | none => rfl
      | some d =>
        have hget : (b.toList.map write)[i.val]? = some (some d) := by
          rw [getElem?_toList_map, hw]
        exact absurd (mem_positions.2 ⟨i, hget, rfl⟩) (hempty _)
    rw [(h i).1 hnone]
    exact (Vector.getElem_replicate i.isLt).symm
  · rintro hb ⟨name, d⟩ hmem
    rcases mem_positions.1 hmem with ⟨i, hget, -⟩
    have hi : i < n := by
      simpa using (List.getElem?_eq_some_iff.1 hget).1
    have hdefault : b.get ⟨i, hi⟩ = a := by
      rw [hb]
      exact Vector.getElem_replicate hi
    have hwrite := getElem?_toList_map b write ⟨i, hi⟩
    rw [(h ⟨i, hi⟩).2 hdefault, hget] at hwrite
    cases hwrite

end Stored

/-! ## Steps -/

/-- A step has a document just if it is not empty. -/
theorem Step.isSome_toDocument? (s : Step) : s.toDocument?.isSome ↔ s ≠ {} := by
  have hempty : s.isEmpty = true ↔ s = {} := beq_iff_eq
  unfold toDocument?
  split
  · rename_i h
    simp [hempty.1 h]
  · rename_i h
    simpa using fun hs => h (hempty.2 hs)

/-- The members of a step are those whose fields differ from their defaults. -/
theorem Step.written_toMembers {s : Step} (h : s.WellFormed) :
    Written s.toMembers s.deviations := by
  -- Notes and velocities stand under one condition, the others each under their own.
  have hchord : (if s.chord.isEmpty then [] else
        [("n", .arr (s.chord.notes.map nat)), ("v", .arr (s.chord.velocities.map nat))]) =
      member "n" (if s.chord.isEmpty then none else some (.arr (s.chord.notes.map nat))) ++
      member "v" (if s.chord.isEmpty then none else some (.arr (s.chord.velocities.map nat))) := by
    split <;> rfl
  unfold toMembers
  simp only [hchord, List.append_assoc, number_eq_member, optional_eq_member]
  refine .member (isSome_left_out _ _) ?_
  refine .member (isSome_left_out _ _) ?_
  refine .member (isSome_changed _ _ _) ?_
  refine .member (isSome_set _ _) ?_
  refine .member (isSome_set _ _) ?_
  refine .member (isSome_changed _ _ _) ?_
  refine .member (isSome_condition _ _) ?_
  refine .member (isSome_ratchet _ h.ratchet) ?_
  refine .member (isSome_changed _ _ _) ?_
  refine .member (isSome_condition _ _) ?_
  refine .member (isSome_condition _ _) ?_
  refine .member (isSome_set _ _) ?_
  refine .member (isSome_changed _ _ _) ?_
  refine .member (isSome_set_index _ _) ?_
  refine .member (isSome_set_index _ _) ?_
  refine .member (isSome_set_index _ _) ?_
  refine .member (isSome_changed_index _ _ ArpLayer.layer) ?_
  refine .member (isSome_set _ _) ?_
  exact written_member (isSome_set _ _)

theorem Step.toMembers_default : ({} : Step).toMembers = [] := by
  rfl

/-- Leaving out the default step changes nothing in what is found in it, which is nothing. -/
theorem Step.under_toDocument? (s : Step) (name : String) :
    under s.toDocument? name = Document.lookup name s.toMembers := by
  unfold toDocument?
  split
  · rename_i hempty
    have hs : s = {} := eq_of_beq hempty
    rw [hs, toMembers_default]
    rfl
  · exact under_obj _ _

/-- The document of a step holds what differs, and nothing else. -/
theorem Step.toDocument?_sparse {s : Step} (h : s.WellFormed) : s.Sparse s.toDocument? where
  entry := s.isSome_toDocument?
  members name := by
    rw [s.under_toDocument? name]
    exact s.written_toMembers h name

/-! ## Patterns -/

theorem Pattern.toDocument?_default : ({} : Pattern).toDocument? = none := by
  rfl

/-- A pattern has a document just if it is not empty. -/
theorem Pattern.isSome_toDocument? {p : Pattern} (h : p.WellFormed) :
    p.toDocument?.isSome ↔ p ≠ {} := by
  rw [← not_iff_not, Option.not_isSome_iff_eq_none, not_not]
  constructor
  · exact eq_default_of_toDocument? h
  · rintro rfl
    exact toDocument?_default

/-- What is found among the steps of a pattern, whether the pattern is left out or not. -/
theorem Pattern.under_steps (p : Pattern) (name : String) :
    under (under p.toDocument? "s") name =
      Document.lookup name (positions (p.steps.toList.map Step.toDocument?)) := by
  unfold toDocument?
  simp only
  split
  · rename_i hempty
    rw [List.isEmpty_iff.1 (Bool.and_eq_true_iff.1 hempty).1]
    rfl
  · rfl

/-- A pattern that is not left out has its steps, and the ends of its loop where they differ. -/
theorem Pattern.toDocument?_shows {p : Pattern} (h : p.WellFormed) :
    Shows p.deviations p.toDocument? := by
  have hentry := isSome_toDocument? h
  unfold toDocument? at hentry ⊢
  simp only at hentry ⊢
  split at hentry
  · -- The default pattern has no document, and nothing in its table is marked.
    rename_i hempty
    have hp : p = {} := by simpa using hentry
    intro name
    rw [if_pos hempty, hp]
    simp [deviations]
  · rename_i hwritten
    have hp : p ≠ {} := by simpa using hentry
    rw [if_neg hwritten]
    apply Written.shows
    simp only [number_eq_member]
    refine .cons (decide_eq_true hp) _ ?_
    refine .member (isSome_changed _ _ _) ?_
    exact written_member (isSome_changed _ _ _)

/-- The document of a pattern holds what differs, and nothing else. -/
theorem Pattern.toDocument?_sparse {p : Pattern} (h : p.WellFormed) : p.Sparse p.toDocument? where
  entry := isSome_toDocument? h
  members := toDocument?_shows h
  steps := by
    apply filled_positions p.under_steps (by simp)
    intro k
    exact ⟨_, getElem?_toList_map p.steps _ k, Step.toDocument?_sparse (h k)⟩

/-! ## Tracks -/

theorem Pattern.toDocument?_eq_none_iff {p : Pattern} (h : p.WellFormed) :
    p.toDocument? = none ↔ p = {} := by
  rw [← Option.not_isSome_iff_eq_none, isSome_toDocument? h, not_not]

/-- The patterns of a track are left out just if all of them are empty. -/
theorem Track.patterns_left_out {t : Track} (h : t.WellFormed) :
    positions (t.patterns.toList.map Pattern.toDocument?) = [] ↔
      t.patterns = Vector.replicate 16 {} :=
  positions_map_eq_nil fun j => Pattern.toDocument?_eq_none_iff (h.patterns j)

/-- The members of a track are those whose fields differ from a fresh one's. -/
theorem Track.written_toMembers {t : Track} (h : t.WellFormed) (index : Nat) :
    Written (t.toMembers index) (t.deviations index) := by
  have hchannel : (fresh index).channel = defaultChannel index := by
    unfold fresh new defaultChannel
    split <;> simp only <;> omega
  unfold toMembers
  simp only [← hchannel, List.append_assoc, number_eq_member, flag_eq_member]
  refine .member (isSome_changed _ _ _) ?_
  refine .member (isSome_flag _) ?_
  refine .member (isSome_changed _ _ _) ?_
  refine .member (isSome_changed_index _ _ _) ?_
  refine .member (isSome_changed _ _ _) ?_
  refine .member (isSome_changed _ _ _) ?_
  refine .member (isSome_changed _ _ _) ?_
  refine .member (isSome_changed _ _ _) ?_
  refine .member (isSome_changed_index _ _ ArpMode.off) ?_
  refine .member (isSome_changed_index _ _ _) ?_
  refine .member (isSome_changed_index _ _ ArpOctave.zero) ?_
  refine .member (isSome_flag _) ?_
  refine .member (isSome_changed _ _ _) ?_
  refine .member (isSome_changed _ _ _) ?_
  refine .member (isSome_changed _ _ _) ?_
  refine .member (isSome_changed _ _ _) ?_
  exact written_member ((isSome_left_out _ _).trans (not_congr (patterns_left_out h)))

/-- What is found in the document of a track, whether it is left out or not. -/
theorem Track.under_toDocument? (index : Nat) (t : Track) (name : String) :
    under (t.toDocument? index) name = Document.lookup name (t.toMembers index) := by
  unfold toDocument?
  exact under_left_out name

theorem Track.toMembers_fresh (index : Nat) : (fresh index).toMembers index = [] := by
  apply (written_toMembers (wellFormed_fresh index) index).eq_nil
  simp [deviations]

/-- A track has a document just if it differs from a fresh one. -/
theorem Track.isSome_toDocument? {t : Track} (h : t.WellFormed) (index : Nat) :
    (t.toDocument? index).isSome ↔ t ≠ fresh index := by
  rw [← not_iff_not, Option.not_isSome_iff_eq_none, not_not]
  constructor
  · exact eq_fresh_of_toDocument? h
  · rintro rfl
    unfold toDocument?
    rw [toMembers_fresh]
    rfl

/-- What is found among the patterns of a track. -/
theorem Track.under_patterns (index : Nat) (t : Track) (name : String) :
    under (under (t.toDocument? index) "p") name =
      Document.lookup name (positions (t.patterns.toList.map Pattern.toDocument?)) := by
  have hp : Document.lookup "p" (t.toMembers index) =
      if (positions (t.patterns.toList.map Pattern.toDocument?)).isEmpty then none
      else some (.obj (positions (t.patterns.toList.map Pattern.toDocument?))) := by
    simp [toMembers]
  rw [under_toDocument?, hp]
  exact under_left_out name

/-- The document of a track holds what differs, and nothing else. -/
theorem Track.toDocument?_sparse {t : Track} (h : t.WellFormed) (index : Nat) :
    t.Sparse index (t.toDocument? index) where
  entry := isSome_toDocument? h index
  members name := by
    rw [under_toDocument?]
    exact written_toMembers h index name
  patterns := by
    apply filled_positions (t.under_patterns index) (by simp)
    intro j
    exact ⟨_, getElem?_toList_map t.patterns _ j, Pattern.toDocument?_sparse (h.patterns j)⟩

/-! ## Songs -/

/-- A song always has two members; the others are those whose fields differ from their defaults. -/
theorem Song.written_toMembers (s : Song) : Written s.toMembers s.deviations := by
  have htransposes : s.transposes.steps.map TransposeStep.toDocument = [] ↔
      s.transposes = ({} : Song).transposes := by
    rw [List.map_eq_nil_iff]
    constructor
    · exact congrArg TransposeSequence.mk
    · exact congrArg TransposeSequence.steps
  have hsnapshots :
      positions (s.snapshots.toList.map fun slot => slot.map Snapshot.toDocument) = [] ↔
        s.snapshots = ({} : Song).snapshots :=
    positions_map_eq_nil fun k => Option.map_eq_none_iff
  unfold toMembers
  simp only [List.cons_append, List.nil_append, List.append_assoc, number_eq_member,
    optional_eq_member]
  refine .cons rfl _ ?_
  refine .cons rfl _ ?_
  refine .member (isSome_changed _ _ _) ?_
  refine .member ((isSome_left_out _ _).trans (not_congr htransposes)) ?_
  refine .member (isSome_changed _ _ _) ?_
  refine .member (isSome_changed _ _ _) ?_
  refine .member ((isSome_left_out _ _).trans (not_congr hsnapshots)) ?_
  refine .member (isSome_set _ _) ?_
  refine .member (isSome_changed _ _ _) ?_
  exact written_member (isSome_set _ _)

/-- What is found among the tracks of a song, which are never left out as a whole. -/
theorem Song.under_tracks (s : Song) (name : String) :
    under (under (some s.toDocument) "t") name = Document.lookup name
      (positions (s.tracks.toList.zipIdx.map fun (t, i) => t.toDocument? i)) := by
  have ht : Document.lookup "t" s.toMembers =
      some (.obj (positions (s.tracks.toList.zipIdx.map fun (t, i) => t.toDocument? i))) := by
    simp [toMembers, Document.lookup]
  rw [toDocument, under_obj, ht, under_obj]

/-- What is found among the snapshots of a song. -/
theorem Song.under_snapshots (s : Song) (name : String) :
    under (under (some s.toDocument) "ps") name = Document.lookup name
      (positions (s.snapshots.toList.map fun slot => slot.map Snapshot.toDocument)) := by
  have hps : Document.lookup "ps" s.toMembers =
      if (positions (s.snapshots.toList.map fun slot => slot.map Snapshot.toDocument)).isEmpty
        then none
      else some (.obj (positions
        (s.snapshots.toList.map fun slot => slot.map Snapshot.toDocument))) := by
    simp [toMembers, Document.lookup]
  rw [toDocument, under_obj, hps]
  exact under_left_out name

theorem Song.getElem?_tracks (s : Song) (i : Fin 16) :
    (s.tracks.toList.zipIdx.map fun (t, i) => t.toDocument? i)[i.val]? =
      some ((s.tracks.get i).toDocument? i) := by
  have hi : i.val < (s.tracks.toList.zipIdx.map fun (t, i) => t.toDocument? i).length := by simp
  rw [List.getElem?_eq_getElem hi]
  simp [Bank.get]

/-- The file of a well-formed song holds exactly what differs from the defaults: each of its tracks,
patterns and steps that does, and of these the members that do. -/
theorem Song.toDocument_sparse {s : Song} (h : s.WellFormed) : s.Sparse s.toDocument where
  members := s.written_toMembers
  tracks := by
    apply filled_positions s.under_tracks (by simp)
    intro i
    exact ⟨_, s.getElem?_tracks i, Track.toDocument?_sparse (h.tracks i) i⟩
  snapshots := by
    apply filled_positions s.under_snapshots (by simp)
    intro k
    refine ⟨_, getElem?_toList_map s.snapshots _ k, ?_⟩
    rw [Option.isSome_map]

theorem Song.toDocument_sparse_sketch : sketch.WellFormed ∧ sketch.Sparse sketch.toDocument :=
  ⟨sketch_wellFormed, toDocument_sparse sketch_wellFormed⟩

end Groovebox
