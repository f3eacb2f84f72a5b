import Mathlib.Tactic
import Groovebox.Proofs.Sorting
import Groovebox.Proofs.Stored.Fields
/-! # Containers in different forms

A container is walked by position if it is an array, and in the order of the names if it is an
object. What a bank is filled with does not depend on that, since entries for different positions
do not get into each other's way.

* `Stored.FillAlike`: two containers fill every bank alike.
* `Stored.fillAlike_numbered`: an array and the object that names its entries by position do.
* `Stored.fillAlike_insert`: so do an object with and one without a name that is no position.
* `Stored.fillAlike_item`, `Stored.fillAlike_member`: and containers that differ in one entry, where
  both read as the same thing.
-/

namespace Groovebox

namespace Stored

/-! ## Filling alike -/

section

variable {β : Type} {limit : Nat} {read : Document → β}

/-- Whatever is made of what the entries read as, the two containers fill every bank alike. -/
def FillAlike (limit : Nat) (read : Document → β) (c d : Document) : Prop :=
  ∀ {α : Type} {n : Nat} (make : Nat → β → Option α) (start : Bank α n),
    (entries limit c).foldl (place fun i v => make i (read v)) start =
      (entries limit d).foldl (place fun i v => make i (read v)) start

/-- The entries of a container as what they read as. -/
def readEntries (limit : Nat) (read : Document → β) (container : Document) : List (Nat × β) :=
  (entries limit container).map fun e => (e.1, read e.2)

/-- An entry counts only as its position and as what it reads as. -/
theorem foldl_place_congr {α : Type} {n : Nat} (make : Nat → β → Option α)
    (es : List (Nat × Document)) :
    ∀ {es' : List (Nat × Document)} (b : Bank α n),
      es.map (fun e => (e.1, read e.2)) = es'.map (fun e => (e.1, read e.2)) →
        es.foldl (place fun i v => make i (read v)) b =
          es'.foldl (place fun i v => make i (read v)) b := by
  induction es with
  | nil =>
    intro es' b h
    rw [List.map_nil, eq_comm, List.map_eq_nil_iff] at h
    rw [h]
  | cons e es ih =>
    intro es' b h
    cases es' with
    | nil => cases h
    | cons e' es' =>
      -- The first two entries have the same position and read as the same thing.
      rw [List.map_cons, List.map_cons, List.cons.injEq, Prod.mk.injEq] at h
      rcases h with ⟨⟨hplace, hread⟩, hrest⟩
      have hstep : place (fun i v => make i (read v)) b e =
          place (fun i v => make i (read v)) b e' := by
        simp only [place, hplace, hread]
      rw [List.foldl_cons, List.foldl_cons, hstep, ih _ hrest]

/-- Containers with the same entries in the same order fill every bank alike. -/
theorem FillAlike.of_readEntries {c d : Document}
    (h : readEntries limit read c = readEntries limit read d) : FillAlike limit read c d :=
  fun make start => foldl_place_congr make _ start h

/-- Entries for different positions are placed in any order. -/
theorem place_comm {α : Type} {n : Nat} {read : Nat → Document → Option α} {e e' : Nat × Document}
    (h : e.1 ≠ e'.1) (b : Bank α n) :
    place read (place read b e) e' = place read (place read b e') e := by
  -- Of two positions that differ, each is set as if the other were not.
  have hset (x y : α) : (b.setIfInBounds e.1 x).setIfInBounds e'.1 y =
      (b.setIfInBounds e'.1 y).setIfInBounds e.1 x := by
    apply Bank.ext_get
    intro k
    simp only [Bank.get, Vector.getElem_setIfInBounds]
    by_cases hk : e'.1 = k
    · rw [if_pos hk, if_neg (hk ▸ h), if_pos hk]
    · rw [if_neg hk, if_neg hk]
  unfold place
  cases read e.1 e.2 with
  | none => rfl
  | some x =>
    cases read e'.1 e'.2 with
    | none => rfl
    | some y => exact hset x y

/-! ## One entry -/

/-- The items of an array are read under their positions, as many as there are places. -/
theorem readEntries_arr (items : List Document) : readEntries limit read (.arr items) =
    ((items.map read).take limit).zipIdx.map fun e => (e.2, e.1) := by
  rw [← List.map_take, List.zipIdx_map, List.map_map, readEntries, entries, List.map_map]
  rfl

/-- The members of an object are sorted by name, and read if the name is a position. -/
theorem readEntries_obj (members : Members) : readEntries limit read (.obj members) =
    ((members.map fun m => (m.1, read m.2)).mergeSort fun a b => decide (a.1 ≤ b.1)).filterMap
      fun m => ((position? m.1).filter (· < limit)).map fun i => (i, m.2) := by
  have hsort : (members.mergeSort fun a b => decide (a.1 ≤ b.1)).map (fun m => (m.1, read m.2)) =
      (members.map fun m => (m.1, read m.2)).mergeSort fun a b => decide (a.1 ≤ b.1) :=
    List.map_mergeSort fun _ _ _ _ => rfl
  rw [← hsort, List.filterMap_map, readEntries, entries, List.map_filterMap]
  apply List.filterMap_congr
  intro m _
  simp only [Option.map_map, Function.comp_apply]
  rfl

/-- Only what an item reads as counts. -/
theorem fillAlike_item {v w : Document} (h : read v = read w) (a b : List Document) :
    FillAlike limit read (.arr (a ++ v :: b)) (.arr (a ++ w :: b)) := by
  apply FillAlike.of_readEntries
  rw [readEntries_arr, readEntries_arr, List.map_append, List.map_append, List.map_cons,
    List.map_cons, h]

/-- Only what a member reads as counts. -/
theorem fillAlike_member {v w : Document} (h : read v = read w) (name : String)
    (a b : Members) :
    FillAlike limit read (.obj (a ++ (name, v) :: b)) (.obj (a ++ (name, w) :: b)) := by
  apply FillAlike.of_readEntries
  rw [readEntries_obj, readEntries_obj, List.map_append, List.map_append, List.map_cons,
    List.map_cons, h]

/-! ## Other names -/

/-- A member whose name is no position is no entry. -/
theorem entries_insert {name : String} (hname : (position? name).filter (· < limit) = none)
    (v : Document) (a b : Members) :
    entries limit (.obj (a ++ (name, v) :: b)) = entries limit (.obj (a ++ b)) := by
  refine Sorting.filterMap_mergeSort_insert ?_ ?_ ?_ a b
  · intro l m n hlm hmn
    rw [decide_eq_true_eq] at hlm hmn ⊢
    exact String.le_trans hlm hmn
  · intro m n
    rw [Bool.or_eq_true, decide_eq_true_eq, decide_eq_true_eq]
    exact String.le_total m.1 n.1
  · simp only [hname, Option.map_none]

/-- Where there is no entry, nothing is filled in. -/
theorem fillAlike_insert {name : String} (hname : (position? name).filter (· < limit) = none)
    (v : Document) (a b : Members) :
    FillAlike limit read (.obj (a ++ b)) (.obj (a ++ (name, v) :: b)) := by
  apply FillAlike.of_readEntries
  rw [readEntries, readEntries, entries_insert hname]

/-! ## Arrays and positions -/

/-- The items of an array under their positions. -/
def numbered (items : List Document) : Members :=
  items.zipIdx.map fun e => (toString e.2, e.1)

/-- The name of a position is read as this position, unless it is past the limit. -/
theorem filter_position?_toString (hlimit : limit ≤ Word.count64) (i : Nat) :
    (position? (toString i)).filter (· < limit) = if i < limit then some i else none := by
  rw [position?_toString_eq, Word.nat64?]
  by_cases hi : i < limit
  · have hfits : i < Word.count64 := hi.trans_le hlimit
    rw [if_pos hfits, if_pos hi, Option.filter_some, if_pos (decide_eq_true hi)]
  · rw [if_neg hi]
    split
    · rw [Option.filter_some, if_neg (by simpa using hi)]
    · rfl

/-- The items at the first positions are those that the list starts with. -/
theorem filterMap_zipIdx_lt (items : List Document) : ∀ (k n : Nat),
    (items.zipIdx k).filterMap (fun e => if e.2 < k + n then some (e.2, e.1) else none) =
      ((items.take n).zipIdx k).map fun e => (e.2, e.1) := by
  induction items with
  | nil => simp
  | cons d items ih =>
    intro k n
    cases n with
    | zero =>
      rw [List.take_zero, List.zipIdx_nil, List.map_nil, List.filterMap_eq_nil_iff]
      rintro ⟨d', i⟩ hi
      have hle := List.le_snd_of_mem_zipIdx hi
      rw [if_neg]
      exact Nat.not_lt.2 hle
    | succ n =>
      have hsum : k + (n + 1) = k + 1 + n := by omega
      rw [List.zipIdx_cons, List.filterMap_cons, if_pos (by simp), List.take_succ_cons,
        List.zipIdx_cons, List.map_cons, hsum, ih]

/-- Up to the order, the two forms have the same entries. -/
theorem entries_numbered_perm (hlimit : limit ≤ Word.count64) (items : List Document) :
    (entries limit (.obj (numbered items))).Perm (entries limit (.arr items)) := by
  have hnumbered : (numbered items).filterMap (fun m =>
      ((position? m.1).filter (· < limit)).map fun i => (i, m.2)) = entries limit (.arr items) := by
    have hlt := filterMap_zipIdx_lt items 0 limit
    rw [Nat.zero_add] at hlt
    rw [numbered, List.filterMap_map, entries, ← hlt]
    apply List.filterMap_congr
    intro e _
    rw [Function.comp_apply, filter_position?_toString hlimit]
    split
    · rfl
    · rfl
  rw [← hnumbered]
  exact (List.mergeSort_perm _ _).filterMap _

/-- No position of an array has two entries. -/
theorem entries_arr_inj {items : List Document} {e e' : Nat × Document}
    (he : e ∈ entries limit (.arr items)) (he' : e' ∈ entries limit (.arr items))
    (h : e.1 = e'.1) : e = e' := by
  have hget {e : Nat × Document} (he : e ∈ entries limit (.arr items)) :
      (items.take limit)[e.1]? = some e.2 := by
    rcases List.mem_map.1 he with ⟨⟨d, i⟩, hmem, rfl⟩
    exact List.mk_mem_zipIdx_iff_getElem?.1 hmem
  have hsame := hget he'
  rw [← h, hget he] at hsame
  exact Prod.ext h (Option.some.inj hsame)

/-- An array and the object that names its items by position fill every bank alike. -/
theorem fillAlike_numbered (hlimit : limit ≤ Word.count64) (items : List Document) :
    FillAlike limit read (.arr items) (.obj (numbered items)) := by
  intro α n make start
  refine (entries_numbered_perm hlimit items).symm.foldl_eq' ?_ start
  intro e he e' he' b
  -- Either the two entries are one, or they are for different positions.
  by_cases h : e.1 = e'.1
  · rw [entries_arr_inj he he' h]
  · exact place_comm h b

end

end Stored
end Groovebox
