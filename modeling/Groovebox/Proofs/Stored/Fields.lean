import Mathlib.Tactic
import Groovebox.Proofs.Decimal
import Groovebox.Proofs.Stored.Ranges
import Groovebox.Stored.Writing
/-! # Fields that are written where they differ

A field is written under its short name, and only where its value differs from the default.
`Stored.Holds` says what an object holds under the names of a field; for each way to write a field
there is one statement that the matching way to read it gives the value back. The second part does
the same for containers that name their entries by position: `foldl_place_positions` says that
filling a bank from such a container restores it. -/

namespace Groovebox

open Stored

/-! ## Members -/

namespace Document

/-- A name is looked up in the first part, and then in the second. -/
@[simp]
theorem lookup_append (name : String) (a b : Members) :
    lookup name (a ++ b) = (lookup name a).or (lookup name b) := by
  induction a with
  | nil => rfl
  | cons m a ih =>
    rcases m with ⟨k, v⟩
    simp only [List.cons_append, lookup]
    split
    · rfl
    · exact ih

/-- A member that is written under a name is found under this name only. -/
@[simp]
theorem lookup_member (name k : String) (v : Option Document) :
    lookup name (member k v) = if k = name then v else none := by
  cases v <;> simp [member, lookup]

/-- A flag is found under its name if it is set. -/
@[simp]
theorem lookup_flag (name k : String) (b : Bool) :
    lookup name (flag k b) =
      if k = name then (if b then some (.bool true) else none) else none := by
  cases b <;> simp [flag, lookup]

end Document

namespace Stored

@[simp]
theorem number_eq_member (k : String) (value default : Nat) :
    number k value default = member k ((changed value default).map nat) := rfl

@[simp]
theorem optional_eq_member (k : String) (value : Option Nat) :
    optional k value = member k (value.map nat) := rfl

/-! ## One field -/

/-- Of the names of a field, an object holds the given value, or none of them. -/
def Holds (m : Members) (names : List String) (v : Option Document) : Prop :=
  ∀ {α : Type} (read : Document → Option α), first? m names read = v.bind read

variable {m : Members} {names : List String}

/-- What a field holds is there to be read. -/
theorem Holds.present? {v : Option Document} (h : Holds m names v) :
    Stored.present? m names = v := by
  rw [Stored.present?, h]
  exact Option.bind_fun_some v

/-- Only a value that equals its default is left out. -/
theorem changed_eq_none {α : Type} [DecidableEq α] {value default : α}
    (h : changed value default = none) : value = default := by
  unfold changed at h
  split at h
  · assumption
  · cases h

/-- What is written is the value. -/
theorem changed_eq_some {α : Type} [DecidableEq α] {value default a : α}
    (h : changed value default = some a) : a = value := by
  unfold changed at h
  split at h
  · cases h
  · exact (Option.some.inj h).symm

/-- A value that is written where it differs from its default is read back with this default. -/
theorem changed_getD {α : Type} [DecidableEq α] (value default : α) :
    (changed value default).getD default = value := by
  cases h : changed value default with
  | none => exact (changed_eq_none h).symm
  | some a => exact changed_eq_some h

/-- Whole numbers that 64 bits hold are read as they are. -/
theorem nearest64_of_fits {n : Int} (h : -1000 ≤ n ∧ n ≤ 1000) : Word.nearest64 n = n := by
  simp only [Word.nearest64, Word.half64]
  omega

/-- A small integer is read as it was written. -/
theorem Holds.int? {v : Option Int} (h : Holds m names (v.map Document.int))
    (hv : ∀ n ∈ v, -1000 ≤ n ∧ n ≤ 1000) : Stored.int? m names = v := by
  rw [Stored.int?, h]
  cases v with
  | none => rfl
  | some n =>
    simp only [Option.map_some, Option.bind_some, Document.rounded?]
    rw [nearest64_of_fits (hv n rfl)]

/-- A small natural number is read as it was written. -/
theorem Holds.int?_nat {v : Option Nat} (h : Holds m names (v.map nat))
    (hv : ∀ n ∈ v, n ≤ 1000) : Stored.int? m names = v.map Int.ofNat := by
  apply Holds.int?
  · rw [Option.map_map]
    exact h
  · intro n hn
    rcases Option.map_eq_some_iff.1 (Option.mem_def.1 hn) with ⟨k, hk, rfl⟩
    have := hv k hk
    simp only [Int.ofNat_eq_natCast]
    omega

/-- The one number written for a field that differs from its default. -/
theorem Holds.int?_number {value default : Nat}
    (h : Holds m names ((changed value default).map nat)) (hv : value ≤ 1000) :
    Stored.int? m names = (changed value default).map Int.ofNat := by
  apply h.int?_nat
  intro n hn
  rw [changed_eq_some hn]
  exact hv

/-- A number that is in range and may be missing is read back. -/
theorem Holds.intIn?_optional {v : Option Nat} {lo hi : Nat} (h : Holds m names (v.map nat))
    (hv : ∀ n ∈ v, lo ≤ n ∧ n ≤ hi) (hhi : hi ≤ 1000) : Stored.intIn? m names lo hi = v := by
  rw [Stored.intIn?, h.int?_nat fun n hn => (hv n hn).2.trans hhi]
  cases v with
  | none => rfl
  | some n =>
    have hn := hv n rfl
    have hrange : (lo : Int) ≤ Int.ofNat n ∧ Int.ofNat n ≤ (hi : Int) := by
      simp only [Int.ofNat_eq_natCast]
      omega
    simp only [Option.map_some, Option.filter_some, decide_eq_true hrange, if_true]
    rfl

/-- A number that is in range and is left out where it is the default is read back. -/
theorem Holds.intIn?_number {value default lo hi : Nat}
    (h : Holds m names ((changed value default).map nat)) (hv : lo ≤ value ∧ value ≤ hi)
    (hhi : hi ≤ 1000) : (Stored.intIn? m names lo hi).getD default = value := by
  rw [h.intIn?_optional _ hhi, changed_getD]
  intro n hn
  rw [changed_eq_some hn]
  exact hv

/-- A number that is moved into range on reading and that was in range before. -/
theorem Holds.clamped_number {value default lo hi : Nat}
    (h : Holds m names ((changed value default).map nat)) (hv : lo ≤ value ∧ value ≤ hi)
    (hhi : hi ≤ 1000) :
    ((Stored.int? m names).map fun n : Int => (min (max n lo) hi).toNat).getD default = value := by
  rw [h.int?_number (hv.2.trans hhi)]
  cases hc : changed value default with
  | none => exact (changed_eq_none hc).symm
  | some n =>
    simp only [Option.map_some, Option.getD_some, Int.ofNat_eq_natCast]
    rw [changed_eq_some hc]
    omega

/-- A setting that is written as a number where it is set, and read by what undoes this. -/
theorem Holds.optional? {α : Type} {code : α → Nat} {resolve : Nat → Option α} {v : Option α}
    (h : Holds m names ((v.map code).map nat)) (hsmall : ∀ a ∈ v, code a ≤ 1000)
    (hresolve : ∀ a ∈ v, resolve (code a) = some a) : Stored.optional? m names resolve = v := by
  have hint : Stored.int? m names = (v.map code).map Int.ofNat := by
    apply h.int?_nat
    intro n hn
    rcases Option.map_eq_some_iff.1 (Option.mem_def.1 hn) with ⟨a, ha, rfl⟩
    exact hsmall a ha
  rw [Stored.optional?, hint]
  cases v with
  | none => rfl
  | some a =>
    have hpos : (0 : Int) ≤ Int.ofNat (code a) := Int.natCast_nonneg _
    simp only [Option.map_some, Option.filter_some, decide_eq_true hpos, if_true]
    exact hresolve a rfl

/-- A number that may be missing is read back if it stands for itself. -/
theorem Holds.optional?_nat {resolve : Nat → Option Nat} {v : Option Nat}
    (h : Holds m names (v.map nat)) (hsmall : ∀ n ∈ v, n ≤ 1000)
    (hresolve : ∀ n ∈ v, resolve n = some n) : Stored.optional? m names resolve = v := by
  refine Holds.optional? ?_ hsmall hresolve
  show Holds m names ((v.map id).map nat)
  rw [Option.map_id]
  exact h

theorem upTo_self {hi n : Nat} (h : n ≤ hi) : upTo hi n = some n := by
  simp only [upTo, h, if_true]

/-! ## Tables -/

/-- Every entry of a table has a position in it. -/
theorem index_lt {α : Type} [DecidableEq α] [Table α] (a : α) :
    Table.index a < (Table.all (α := α)).length :=
  List.idxOf_lt_length_of_mem (Table.mem_all a)

/-- Two entries of a table have different positions. -/
theorem index_inj {α : Type} [DecidableEq α] [Table α] {a b : α}
    (h : Table.index a = Table.index b) : a = b := by
  have ha := Table.ofIndex?_index a
  rw [h, Table.ofIndex?_index b] at ha
  exact (Option.some.inj ha).symm

/-- A table entry that may be missing is read back by its position. -/
theorem Holds.optional?_table {α : Type} [DecidableEq α] [Table α] {v : Option α}
    (h : Holds m names ((v.map Table.index).map nat)) (hlen : (Table.all (α := α)).length ≤ 1000) :
    Stored.optional? m names Table.ofIndex? = v :=
  h.optional? (fun a _ => (index_lt a).le.trans hlen) fun a _ => Table.ofIndex?_index a

/-- A table entry that is written where it differs from the default entry. -/
theorem Holds.table_number {α : Type} [DecidableEq α] [Table α] {value default : α}
    (h : Holds m names ((changed (Table.index value) (Table.index default)).map nat))
    (hlen : (Table.all (α := α)).length ≤ 1000) :
    (Stored.optional? m names Table.ofIndex?).getD default = value := by
  have hcode : changed (Table.index value) (Table.index default) =
      (changed value default).map Table.index := by
    unfold changed
    by_cases hv : value = default
    · simp [hv]
    · have hi : Table.index value ≠ Table.index default := fun hi => hv (index_inj hi)
      simp [hv, hi]
  rw [hcode] at h
  rw [h.optional?_table hlen, changed_getD]

/-- A flag that is written where it is set is read back. -/
theorem Holds.flag? {b : Bool} (h : Holds m names (if b then some (.bool true) else none)) :
    (Stored.flag? m names).getD false = b := by
  rw [Stored.flag?, h]
  cases b <;> rfl

/-- A condition is read back by its position. -/
theorem Holds.condition {c : Condition} (h : Holds m names ((changed c.index 0).map nat)) :
    Condition.ofMembers m names = c := by
  have hlt : c.index < 57 := c.position.isLt
  rw [Condition.ofMembers, h.int?_number (by omega)]
  cases hc : changed c.index 0 with
  | none =>
    -- Nothing is written for the first condition of the table, which is also the default.
    have hzero : c.index = 0 := changed_eq_none hc
    have hpos : c.position = 0 := Fin.ext hzero
    cases c
    simp only at hpos
    rw [hpos]
    rfl
  | some n =>
    rw [changed_eq_some hc]
    have hrange : (0 : Int) ≤ Int.ofNat c.index ∧ Int.ofNat c.index < 57 := by
      simp only [Int.ofNat_eq_natCast]
      omega
    simp only [Option.map_some, Condition.ofIndex, dif_pos hrange]
    rfl

/-- The stored position of a valid ratchet leads back to it. -/
theorem Ratchet.ofIndex_index {r : Ratchet} (h : r.Valid) :
    Ratchet.ofIndex r.index = .ok r := by
  rcases r with ⟨mode, count⟩
  rcases h with ⟨hlo, hhi⟩
  simp only at hhi
  -- Eight counts at most for each of the three modes.
  cases mode <;> simp only [Ratchet.fewest] at hlo <;> interval_cases count <;> rfl

/-- Valid ratchets have positions in a table of 22. -/
theorem Ratchet.index_le {r : Ratchet} (h : r.Valid) : r.index ≤ 21 := by
  rcases r with ⟨mode, count⟩
  rcases h with ⟨hlo, hhi⟩
  simp only at hhi
  cases mode <;> simp only [Ratchet.fewest] at hlo <;> interval_cases count <;> decide

/-- A valid ratchet is read back by its position. -/
theorem Holds.ratchet {r : Ratchet} (h : Holds m names ((changed r.index 0).map nat))
    (hr : r.Valid) : Ratchet.ofMembers m names = r := by
  have hback := Ratchet.ofIndex_index hr
  rw [Ratchet.ofMembers, h.int?_number ((Ratchet.index_le hr).trans (by decide))]
  cases hc : changed r.index 0 with
  | none =>
    -- A ratchet with position 0 can only be the one that this position leads back to.
    rw [changed_eq_none hc] at hback
    have hsingle : r = {} := Except.ok.inj (hback.symm.trans (by rfl))
    rw [hsingle]
    rfl
  | some n =>
    rw [changed_eq_some hc]
    simp only [Option.map_some, Int.ofNat_eq_natCast, hback]

/-! ## Containers -/

/-- The name of a position is read as the position, if 64 bits hold it. -/
theorem position?_toString_eq (i : Nat) : position? (toString i) = Word.nat64? i := by
  have hdigits : ∀ c ∈ (toString i).toList, c.isDigit = true := fun c => Decimal.isDigit_of_mem
  unfold position?
  split
  · -- A leading plus would be passed over, but all characters are digits.
    rename_i rest he
    have hplus := hdigits '+' (he ▸ List.mem_cons_self)
    exact absurd hplus (by decide)
  · simp only [List.isEmpty_eq_false_iff.2 (Decimal.toString_ne_nil i), List.all_eq_true.2 hdigits,
      Bool.not_true, Bool.or_self, Bool.false_eq_true, if_false, Decimal.ofDigitChars_toString]

/-- Every position of a container is read back from its name. -/
theorem position?_toString {i : Nat} (h : i < Word.count64) : position? (toString i) = some i := by
  rw [position?_toString_eq, Word.nat64?, if_pos h]

/-- What is written by position stands under the names of the positions that are not left out. -/
theorem mem_positions {docs : List (Option Document)} {name : String} {d : Document} :
    (name, d) ∈ positions docs ↔ ∃ i : Nat, docs[i]? = some (some d) ∧ name = toString i := by
  simp only [positions, List.mem_filterMap, Option.map_eq_some_iff]
  constructor
  · rintro ⟨⟨o, i⟩, hmem, d', ho, heq⟩
    rcases Prod.mk.inj heq with ⟨rfl, rfl⟩
    simp only at ho
    subst ho
    exact ⟨i, List.mem_zipIdx_iff_getElem?.1 hmem, rfl⟩
  · rintro ⟨i, hget, rfl⟩
    exact ⟨(some d, i), List.mem_zipIdx_iff_getElem?.2 hget, d, rfl, rfl⟩

/-- The entries of a container that names them by position are what stands at the positions. -/
theorem mem_entries_positions {docs : List (Option Document)} {limit i : Nat} {d : Document}
    (hlimit : limit ≤ Word.count64) (hlen : docs.length ≤ limit) :
    (i, d) ∈ entries limit (.obj (positions docs)) ↔ docs[i]? = some (some d) := by
  -- Sorting changes the order of the entries and not what they are.
  simp only [entries, List.mem_filterMap, List.mem_mergeSort, Option.map_eq_some_iff]
  constructor
  · rintro ⟨⟨name, d'⟩, hmem, i', hi', heq⟩
    rcases Prod.mk.inj heq with ⟨rfl, rfl⟩
    rcases mem_positions.1 hmem with ⟨j, hget, rfl⟩
    have hjlt : j < docs.length := (List.getElem?_eq_some_iff.1 hget).1
    have hpos := (Option.filter_eq_some_iff.1 hi').1
    rw [position?_toString ((hjlt.trans_le hlen).trans_le hlimit)] at hpos
    rw [← Option.some.inj hpos]
    exact hget
  · intro hget
    have hilt : i < limit := (List.getElem?_eq_some_iff.1 hget).1.trans_le hlen
    refine ⟨(toString i, d), mem_positions.2 ⟨i, hget, rfl⟩, i, ?_, rfl⟩
    rw [position?_toString (hilt.trans_le hlimit)]
    simp [hilt]

/-- Where all entries for a place read as the same thing, and the place holds it already if there
is no such entry, the place holds it in the end. -/
theorem get_foldl_place {α : Type} {n : Nat} {read : Nat → Document → Option α} {a : α}
    (i : Fin n) (es : List (Nat × Document)) :
    ∀ {b : Bank α n}, (∀ d, (i.val, d) ∈ es → read i d = some a) →
      ((∀ d, (i.val, d) ∉ es) → b.get i = a) →
      Bank.get (es.foldl (place read) b) i = a := by
  induction es with
  | nil =>
    intro b _ hstart
    exact hstart fun d => List.not_mem_nil
  | cons e es ih =>
    intro b hread hstart
    rcases e with ⟨j, d⟩
    apply ih
    · exact fun d' hd' => hread d' (List.mem_cons_of_mem _ hd')
    · intro hnone
      -- An entry for the place puts the right thing there; any other leaves the place alone.
      by_cases hj : i.val = j
      · have hd := hread d (hj ▸ List.mem_cons_self)
        simp only [place, ← hj, hd]
        exact Vector.getElem_setIfInBounds_self i.isLt
      · have hkept : Bank.get (place read b (j, d)) i = b.get i := by
          unfold place
          split
          · exact Vector.getElem_setIfInBounds_ne i.isLt (Ne.symm hj)
          · rfl
        rw [hkept]
        apply hstart
        intro d' hd'
        rcases List.mem_cons.1 hd' with he | he
        · exact hj (congrArg Prod.fst he)
        · exact hnone d' he

/-- A bank whose things are written by position, where those that are not written are there from
the start, is read back. -/
theorem foldl_place_positions {α : Type} {n : Nat} {read : Nat → Document → Option α}
    {start b : Bank α n} {docs : List (Option Document)} (hn : n ≤ Word.count64)
    (hlen : docs.length = n)
    (hdocs : ∀ i : Fin n, ∃ o, docs[i.val]? = some o ∧
      (o = none → start.get i = b.get i) ∧ ∀ d ∈ o, read i d = some (b.get i)) :
    (entries n (.obj (positions docs))).foldl (place read) start = b := by
  apply Bank.ext_get
  intro i
  rcases hdocs i with ⟨o, ho, hnone, hsome⟩
  apply get_foldl_place
  · intro d hd
    rw [mem_entries_positions hn hlen.le, ho] at hd
    exact hsome d (Option.some.inj hd)
  · -- Without an entry for the place, its document was left out.
    intro habsent
    apply hnone
    cases o with
    | none => rfl
    | some d => exact absurd ((mem_entries_positions hn hlen.le).2 ho) (habsent d)

/-- A container that is left out where it is empty is read like the empty one. -/
theorem entries_getD_null (limit : Nat) (members : Members) :
    entries limit ((if members.isEmpty then none else some (.obj members)).getD .null) =
      entries limit (.obj members) := by
  cases members with
  | nil => simp [entries]
  | cons m members => rfl

end Stored
end Groovebox
