import Mathlib.Tactic
import Groovebox.Proofs.Document.Parts
/-! # Printed documents are read back

`Document.Plain` singles out the documents that a song is written as: whole numbers that 64 bits
hold, no other numbers, different names in every object, and brackets that do not nest too deep.
The main statement is `Document.parse?_print`: the text of a plain document holds the document. The
induction is on `Plain`; `Reads` says for one value, whatever text follows it, what the two stages
of reading make of its characters. -/

namespace Groovebox

namespace Document

/-! ## Plain documents -/

/-- A document whose text is exact, with brackets that nest `room` deep at most. -/
inductive Plain : Nat → Document → Prop
  | null {room : Nat} : Plain room .null
  | bool {room : Nat} (b : Bool) : Plain room (.bool b)
  | int {room : Nat} {n : Int} (hlo : -Word.half64 ≤ n) (hhi : n < Word.count64) :
      Plain room (.int n)
  | str {room : Nat} (text : String) : Plain room (.str text)
  | arr {room : Nat} {items : List Document} (hitems : ∀ d ∈ items, Plain room d) :
      Plain (room + 1) (.arr items)
  | obj {room : Nat} {members : List (String × Document)}
      (hnames : (members.map Prod.fst).Nodup) (hmembers : ∀ m ∈ members, Plain room m.2) :
      Plain (room + 1) (.obj members)

/-- A new name is entered behind all others. -/
theorem enter_of_not_mem {members : List (String × Document)} {name : String} {value : Document}
    (h : name ∉ members.map Prod.fst) : enter members name value = members ++ [(name, value)] := by
  induction members with
  | nil => rfl
  | cons m members ih =>
    rcases m with ⟨k, v⟩
    rw [List.map_cons, List.mem_cons, not_or] at h
    rw [enter, if_neg (Ne.symm h.1), ih h.2]
    rfl

/-- Members with new and different names are entered one behind the other. -/
theorem foldl_enter (members : List (String × Document)) :
    ∀ entered : List (String × Document), ((entered ++ members).map Prod.fst).Nodup →
      members.foldl (fun entered m => enter entered m.1 m.2) entered = entered ++ members := by
  induction members with
  | nil =>
    intro entered _
    simp
  | cons m members ih =>
    intro entered hnames
    -- A new name goes behind the names that were entered before it.
    have hfresh : m.1 ∉ entered.map Prod.fst := by
      intro hm
      rw [List.map_append, List.nodup_append] at hnames
      exact hnames.2.2 m.1 hm m.1 (by simp) rfl
    rw [List.foldl_cons, enter_of_not_mem hfresh, ih]
    · simp
    · simpa using hnames

/-- Members with different names are entered as they stand. -/
theorem ofMembers_of_nodup {members : List (String × Document)}
    (h : (members.map Prod.fst).Nodup) : ofMembers members = .obj members :=
  congrArg obj (foldl_enter members [] h)

/-! ## One value -/

/-- Whatever closed text follows, the characters of a document are read as a raw value that stands
for the document. -/
def Reads (room : Nat) (d : Document) : Prop :=
  ∃ raw : Raw, raw.toDocument? room = some d ∧
    ∀ (fuel : Nat) (rest : List Char), 2 * (chars d).length ≤ fuel → Numeral.Ends rest →
      Raw.value? fuel (chars d ++ rest) = some (raw, rest)

/-- No value starts with a blank or with a bracket that closes. -/
def Opens (cs : List Char) : Prop :=
  ∃ c rest, cs = c :: rest ∧ Raw.isBlank c = false ∧ c ≠ ']' ∧ c ≠ '}'

/-- The first character of a document tells that a value follows. -/
theorem chars_opens {room : Nat} {d : Document} (h : Plain room d) : Opens (chars d) := by
  cases h with
  | null => exact ⟨'n', _, rfl, by decide⟩
  | bool b => cases b <;> exact ⟨_, _, rfl, by decide⟩
  | @int _ n hlo hhi =>
    rcases Numeral.toString_head n with ⟨c, rest, hchars, hc⟩
    refine ⟨c, rest, hchars, ?_⟩
    rcases hc with rfl | hc
    · decide
    · refine ⟨?_, ?_, ?_⟩
      · rw [Bool.eq_false_iff]
        intro hblank
        simp only [Raw.isBlank, Bool.or_eq_true, beq_iff_eq] at hblank
        rcases hblank with ((rfl | rfl) | rfl) | rfl <;> exact absurd hc (by decide)
      · rintro rfl
        exact absurd hc (by decide)
      · rintro rfl
        exact absurd hc (by decide)
  | str text => exact ⟨'"', _, rfl, by decide⟩
  | arr hitems => exact ⟨'[', _, rfl, by decide⟩
  | obj hnames hmembers => exact ⟨'{', _, rfl, by decide⟩

theorem reads_null (room : Nat) : Reads room .null := by
  refine ⟨.null, rfl, ?_⟩
  intro fuel rest hfuel _
  obtain ⟨fuel, rfl⟩ : ∃ f, fuel = f + 1 := Nat.exists_eq_add_of_le' (le_trans (by decide) hfuel)
  rfl

theorem reads_bool (room : Nat) (b : Bool) : Reads room (.bool b) := by
  refine ⟨.bool b, rfl, ?_⟩
  intro fuel rest hfuel _
  obtain ⟨fuel, rfl⟩ : ∃ f, fuel = f + 1 := by
    apply Nat.exists_eq_add_of_le'
    cases b <;> exact le_trans (by decide) hfuel
  cases b <;> rfl

/-- A text is read back with each character as it was. -/
theorem reads_str (room : Nat) (text : String) : Reads room (.str text) := by
  refine ⟨.str (text.toList.map Piece.ofChar), ?_, ?_⟩
  · rw [Raw.toDocument?, Piece.text?_map]
    rfl
  · intro fuel rest hfuel _
    obtain ⟨fuel, rfl⟩ : ∃ f, fuel = f + 1 := by
      apply Nat.exists_eq_add_of_le'
      refine le_trans ?_ hfuel
      simp [chars, quote]
      omega
    have hscan := Piece.scan?_flatMap text.toList [] rest
    have hchars : chars (.str text) ++ rest =
        '"' :: (text.toList.flatMap quoteChar ++ '"' :: rest) := by
      simp [chars, quote]
    rw [hchars]
    show (Piece.scan? [] _).map _ = _
    rw [hscan]
    rfl

/-- A value that starts with a minus sign or a digit is scanned as a numeral. -/
theorem value?_numeral {c : Char} (hc : c = '-' ∨ c.isDigit = true) (fuel : Nat)
    (rest : List Char) : Raw.value? (fuel + 1) (c :: rest) =
      (Numeral.scan? (c :: rest)).map fun (x, rest) => (.number x, rest) := by
  have hne (c' : Char) (h' : (c' = '-' ∨ c'.isDigit = true) → False) : c ≠ c' := by
    rintro rfl
    exact h' hc
  have hskip : Raw.skip (c :: rest) = c :: rest := by
    have hblank : Raw.isBlank c = false := by
      simp only [Raw.isBlank, Bool.or_eq_false_iff, beq_eq_false_iff_ne]
      exact ⟨⟨⟨hne ' ' (by decide), hne '\t' (by decide)⟩, hne '\n' (by decide)⟩,
        hne '\r' (by decide)⟩
    simp [Raw.skip, hblank]
  rw [Raw.value?, hskip]
  -- All other kinds of values start with a character that numerals cannot start with.
  split
  · rename_i h
    exact absurd (List.cons.inj h).1 (hne 'n' (by decide))
  · rename_i h
    exact absurd (List.cons.inj h).1 (hne 't' (by decide))
  · rename_i h
    exact absurd (List.cons.inj h).1 (hne 'f' (by decide))
  · rename_i h
    exact absurd (List.cons.inj h).1 (hne '"' (by decide))
  · rename_i h
    exact absurd (List.cons.inj h).1 (hne '[' (by decide))
  · rename_i h
    exact absurd (List.cons.inj h).1 (hne '\x7b' (by decide))
  · rfl

/-- An integer that a numeral can stand for is read back. -/
theorem reads_int (room : Nat) {n : Int} (hlo : -Word.half64 ≤ n) (hhi : n < Word.count64) :
    Reads room (.int n) := by
  refine ⟨.number (Numeral.ofInt n), Numeral.toDocument?_ofInt hlo hhi, ?_⟩
  intro fuel rest hfuel hrest
  rcases Numeral.toString_head n with ⟨c, cs, hchars, hc⟩
  have hscan := Numeral.scan?_toString n hrest
  obtain ⟨fuel, rfl⟩ : ∃ f, fuel = f + 1 := by
    apply Nat.exists_eq_add_of_le'
    refine le_trans ?_ hfuel
    rw [chars, hchars, List.length_cons]
    omega
  rw [chars, hchars, List.cons_append, value?_numeral hc, ← List.cons_append, ← hchars, hscan]
  rfl

/-! ## Arrays and objects -/

/-- If each item is read back, so is the list of items up to the bracket that closes it. -/
theorem reads_items {room : Nat} {items : List Document} (h : ∀ d ∈ items, Reads room d)
    (hne : items ≠ []) :
    ∃ raws, Raw.itemDocuments? room raws = some items ∧
      ∀ (fuel : Nat) (rest : List Char), 2 * (itemChars items).length + 1 ≤ fuel →
        Raw.items? fuel (itemChars items ++ ']' :: rest) = some (raws, rest) := by
  induction items with
  | nil => exact absurd rfl hne
  | cons item items ih =>
    rcases h item List.mem_cons_self with ⟨raw, hraw, hread⟩
    -- The last item is followed by the bracket, every other one by a comma.
    cases items with
    | nil =>
      refine ⟨[raw], by simp [Raw.itemDocuments?, hraw], ?_⟩
      intro fuel rest hfuel
      simp only [itemChars] at hfuel ⊢
      obtain ⟨fuel, rfl⟩ : ∃ f, fuel = f + 1 := Nat.exists_eq_add_of_le' (by omega)
      rw [Raw.items?, hread fuel _ (by omega) (Numeral.ends_cons _ (by decide))]
      rfl
    | cons next items =>
      obtain ⟨raws, hraws, hreads⟩ :=
        ih (fun d hd => h d (List.mem_cons_of_mem _ hd)) (List.cons_ne_nil _ _)
      refine ⟨raw :: raws, by simp [Raw.itemDocuments?, hraw, hraws], ?_⟩
      intro fuel rest hfuel
      simp only [itemChars, List.length_append, List.length_cons] at hfuel ⊢
      obtain ⟨fuel, rfl⟩ : ∃ f, fuel = f + 1 := Nat.exists_eq_add_of_le' (by omega)
      rw [List.append_assoc, List.cons_append, Raw.items?,
        hread fuel _ (by omega) (Numeral.ends_cons _ (by decide))]
      show (Raw.items? fuel _).map _ = _
      rw [hreads fuel rest (by omega)]
      rfl

theorem quote_append (name : String) (rest : List Char) :
    quote name ++ rest = '"' :: (name.toList.flatMap quoteChar ++ '"' :: rest) := by
  simp [quote]

section

variable {name : String} {raw : Raw} {fuel : Nat} {cs rest : List Char}

/-- The last member is followed by the bracket that closes the object. -/
theorem members?_last (h : Raw.value? fuel cs = some (raw, '\x7d' :: rest)) :
    Raw.members? (fuel + 1) (quote name ++ ':' :: cs) =
      some ([(name.toList.map Piece.ofChar, raw)], rest) := by
  have hscan := Piece.scan?_flatMap name.toList [] (':' :: cs)
  rw [quote_append]
  simp [Raw.members?, Raw.skip, Raw.isBlank, hscan, h]

/-- Any other member is followed by a comma and the next one. -/
theorem members?_next (h : Raw.value? fuel cs = some (raw, ',' :: rest)) :
    Raw.members? (fuel + 1) (quote name ++ ':' :: cs) =
      (Raw.members? fuel rest).map fun (members, rest) =>
        ((name.toList.map Piece.ofChar, raw) :: members, rest) := by
  have hscan := Piece.scan?_flatMap name.toList [] (':' :: cs)
  rw [quote_append]
  simp [Raw.members?, Raw.skip, Raw.isBlank, hscan, h]

end

/-- If each value is read back, so is the list of members up to the bracket that closes it. -/
theorem reads_members {room : Nat} {members : List (String × Document)}
    (h : ∀ m ∈ members, Reads room m.2) (hne : members ≠ []) :
    ∃ raws, Raw.memberDocuments? room raws = some members ∧
      ∀ (fuel : Nat) (rest : List Char), 2 * (memberChars members).length + 1 ≤ fuel →
        Raw.members? fuel (memberChars members ++ '\x7d' :: rest) = some (raws, rest) := by
  induction members with
  | nil => exact absurd rfl hne
  | cons m members ih =>
    rcases m with ⟨name, value⟩
    obtain ⟨raw, hraw, hread⟩ : Reads room value := h (name, value) List.mem_cons_self
    have hname := Piece.text?_map name
    -- As for items, with the quoted name before each value.
    cases members with
    | nil =>
      refine ⟨[(name.toList.map Piece.ofChar, raw)],
        by simp [Raw.memberDocuments?, hraw, hname], ?_⟩
      intro fuel rest hfuel
      simp only [memberChars, List.length_append, List.length_cons] at hfuel ⊢
      obtain ⟨fuel, rfl⟩ : ∃ f, fuel = f + 1 := Nat.exists_eq_add_of_le' (by omega)
      rw [List.append_assoc, List.cons_append]
      exact members?_last (hread fuel _ (by omega) (Numeral.ends_cons _ (by decide)))
    | cons next members =>
      obtain ⟨raws, hraws, hreads⟩ :=
        ih (fun d hd => h d (List.mem_cons_of_mem _ hd)) (List.cons_ne_nil _ _)
      refine ⟨(name.toList.map Piece.ofChar, raw) :: raws,
        by simp [Raw.memberDocuments?, hraw, hraws, hname], ?_⟩
      intro fuel rest hfuel
      simp only [memberChars, List.length_append, List.length_cons] at hfuel ⊢
      obtain ⟨fuel, rfl⟩ : ∃ f, fuel = f + 1 := Nat.exists_eq_add_of_le' (by omega)
      have hvalue := hread fuel (',' :: (memberChars (next :: members) ++ '\x7d' :: rest))
        (by omega) (Numeral.ends_cons _ (by decide))
      simp only [List.append_assoc, List.cons_append]
      rw [members?_next hvalue, hreads fuel rest (by omega)]
      rfl

/-- An array with items is read from its first item on. -/
theorem value?_items {c : Char} (hblank : Raw.isBlank c = false) (hclose : c ≠ ']') (fuel : Nat)
    (rest : List Char) : Raw.value? (fuel + 1) ('[' :: c :: rest) =
      (Raw.items? fuel (c :: rest)).map fun (items, rest) => (.arr items, rest) := by
  have hskip : Raw.skip (c :: rest) = c :: rest := by simp [Raw.skip, hblank]
  have hopen : Raw.skip ('[' :: c :: rest) = '[' :: c :: rest := rfl
  rw [Raw.value?, hopen]
  simp only [hskip]
  split
  · rename_i h
    exact absurd (List.cons.inj h).1 hclose
  · rfl

/-- An object with members is read from its first member on. -/
theorem value?_members (fuel : Nat) (rest : List Char) :
    Raw.value? (fuel + 1) ('\x7b' :: '"' :: rest) =
      (Raw.members? fuel ('"' :: rest)).map fun (members, rest) => (.obj members, rest) := rfl

/-- The items of an array that has any start with a value. -/
theorem itemChars_opens {room : Nat} {items : List Document} (h : ∀ d ∈ items, Plain room d)
    (hne : items ≠ []) : Opens (itemChars items) := by
  cases items with
  | nil => exact absurd rfl hne
  | cons item items =>
    rcases chars_opens (h item List.mem_cons_self) with ⟨c, cs, hcs, hc⟩
    cases items with
    | nil => exact ⟨c, cs, hcs, hc⟩
    | cons next items => exact ⟨c, _, by simp [itemChars, hcs]; rfl, hc⟩

/-- An array is read back if its items are. -/
theorem reads_arr {room : Nat} {items : List Document} (h : ∀ d ∈ items, Plain room d)
    (hreads : ∀ d ∈ items, Reads room d) : Reads (room + 1) (.arr items) := by
  by_cases hne : items = []
  · subst hne
    refine ⟨.arr [], rfl, ?_⟩
    intro fuel rest hfuel _
    obtain ⟨fuel, rfl⟩ : ∃ f, fuel = f + 1 := Nat.exists_eq_add_of_le' (le_trans (by decide) hfuel)
    rfl
  · rcases reads_items hreads hne with ⟨raws, hraws, hread⟩
    refine ⟨.arr raws, by simp [Raw.toDocument?, hraws], ?_⟩
    intro fuel rest hfuel _
    simp only [chars, List.length_append, List.length_cons, List.length_nil] at hfuel
    obtain ⟨fuel, rfl⟩ : ∃ f, fuel = f + 1 := Nat.exists_eq_add_of_le' (by omega)
    have hitems := hread fuel rest (by omega)
    -- The first item tells the array from the empty one.
    rcases itemChars_opens h hne with ⟨c, cs, hcs, hblank, hclose, -⟩
    simp only [chars, List.cons_append, List.append_assoc, List.nil_append]
    rw [hcs, List.cons_append] at hitems ⊢
    rw [value?_items hblank hclose, hitems]
    rfl

/-- An object is read back if its values are and its names are different. -/
theorem reads_obj {room : Nat} {members : List (String × Document)}
    (hnames : (members.map Prod.fst).Nodup) (hreads : ∀ m ∈ members, Reads room m.2) :
    Reads (room + 1) (.obj members) := by
  cases members with
  | nil =>
    refine ⟨.obj [], rfl, ?_⟩
    intro fuel rest hfuel _
    obtain ⟨fuel, rfl⟩ : ∃ f, fuel = f + 1 := Nat.exists_eq_add_of_le' (le_trans (by decide) hfuel)
    rfl
  | cons m members =>
    rcases reads_members hreads (List.cons_ne_nil m members) with ⟨raws, hraws, hread⟩
    refine ⟨.obj raws, by simp [Raw.toDocument?, hraws, ofMembers_of_nodup hnames], ?_⟩
    intro fuel rest hfuel _
    obtain ⟨cs, hcs⟩ : ∃ cs, memberChars (m :: members) = '"' :: cs := by
      rcases m with ⟨name, value⟩
      cases members <;> exact ⟨_, rfl⟩
    simp only [chars, List.length_append, List.length_cons, List.length_nil] at hfuel
    obtain ⟨fuel, rfl⟩ : ∃ f, fuel = f + 1 := Nat.exists_eq_add_of_le' (by omega)
    have hmembers := hread fuel rest (by omega)
    simp only [chars, List.cons_append, List.append_assoc, List.nil_append]
    rw [hcs, List.cons_append] at hmembers ⊢
    rw [value?_members, hmembers]
    rfl

/-! ## Whole texts -/

/-- Every plain document is read back. -/
theorem Plain.reads {room : Nat} {d : Document} (h : Plain room d) : Reads room d := by
  -- The induction is on the document: each bracket takes up one more of the room.
  induction h with
  | null => exact reads_null _
  | bool b => exact reads_bool _ b
  | int hlo hhi => exact reads_int _ hlo hhi
  | str text => exact reads_str _ text
  | arr hitems ih => exact reads_arr hitems ih
  | obj hnames hmembers ih => exact reads_obj hnames ih

/-- The text of a plain document is read as the document. -/
theorem Plain.parse?_print {d : Document} (h : Plain maxDepth d) : parse? d.print = some d := by
  rcases h.reads with ⟨raw, hraw, hread⟩
  have hvalue := hread (2 * (chars d).length + 2) [] (by omega) Numeral.ends_nil
  rw [List.append_nil] at hvalue
  have hparse : Raw.parse? d.print = some raw := by
    simp only [Raw.parse?, print, String.toList_ofList, hvalue]
    rfl
  rw [parse?, parseWithin?, hparse]
  exact hraw

end Document
end Groovebox
