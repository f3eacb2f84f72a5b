import Mathlib.Tactic
import Groovebox.Document.Printer
import Groovebox.Document.Raw
import Groovebox.Proofs.Decimal
/-! # Strings and numerals in texts

A quoted text is scanned as one piece for each character, and these pieces are assembled to the
text again. The digits of a number are scanned as a numeral without fraction and exponent, whose
value is the number. -/

namespace Groovebox

open Document (quoteChar hexDigit)

/-! ## Strings -/

namespace Piece

/-- The piece that a quoted character is scanned as: control characters without an escape of their
own are written as units. -/
def ofChar (c : Char) : Piece :=
  if c.toNat < 0x20 ∧ c ∉ ['\x08', '\x0c', '\n', '\r', '\t'] then unit c.toNat else plain c

/-- A control character is read back from its two digits. -/
theorem unit?_hexDigit : ∀ n < 0x20,
    unit? '0' '0' (hexDigit (n / 16)) (hexDigit (n % 16)) = some (unit n) := by
  decide

/-- A character that stands for itself is scanned as itself. -/
theorem scan?_self {c : Char} (hquote : c ≠ '"') (hslash : c ≠ '\\') (hvisible : ¬c.toNat < 0x20)
    (read : List Piece) (rest : List Char) :
    scan? read (c :: rest) = scan? (plain c :: read) rest := by
  rw [scan?]
  · exact if_neg hvisible
  · exact hquote
  · exact fun _ _ _ _ _ h _ => hslash h
  · exact fun _ _ h _ => hslash h

/-- Every quoted character is scanned as one piece. -/
theorem scan?_quoteChar (c : Char) (read : List Piece) (rest : List Char) :
    scan? read (quoteChar c ++ rest) = scan? (ofChar c :: read) rest := by
  by_cases hshort : c ∈ ['"', '\\', '\x08', '\x0c', '\n', '\r', '\t']
  · -- These have an escape of two characters each.
    simp only [List.mem_cons, List.not_mem_nil, or_false] at hshort
    rcases hshort with rfl | rfl | rfl | rfl | rfl | rfl | rfl <;> rfl
  · -- The other control characters are written as units, and all else as it is.
    simp only [List.mem_cons, List.not_mem_nil, or_false, not_or] at hshort
    rcases hshort with ⟨hquote, hslash, hb, hf, hn, hr, ht⟩
    unfold quoteChar ofChar
    rw [if_neg hquote, if_neg hslash, if_neg hb, if_neg hf, if_neg hn, if_neg hr, if_neg ht]
    by_cases hvisible : c.toNat < 0x20
    · have hunit := unit?_hexDigit c.toNat hvisible
      rw [if_pos hvisible, if_pos ⟨hvisible, by simp [hb, hf, hn, hr, ht]⟩]
      simp only [List.cons_append, List.nil_append, scan?, hunit]
    · rw [if_neg hvisible, if_neg (fun h => hvisible h.1)]
      exact scan?_self hquote hslash hvisible read rest

/-- A quoted text is scanned up to its closing quote, one piece for each character. -/
theorem scan?_flatMap (cs : List Char) :
    ∀ (read : List Piece) (rest : List Char),
      scan? read (cs.flatMap quoteChar ++ '"' :: rest) =
        some (read.reverse ++ cs.map ofChar, rest) := by
  induction cs with
  | nil =>
    intro read rest
    simp [scan?]
  | cons c cs ih =>
    intro read rest
    rw [List.flatMap_cons, List.append_assoc, scan?_quoteChar, ih]
    simp

/-- A unit below the halves of pairs stands for its own character. -/
theorem assemble?_unit {u : Nat} (h : u < 0x20) (known : List Char) (rest : List Piece) :
    assemble? known (unit u :: rest) = assemble? (Char.ofNat u :: known) rest := by
  have hhigh : isHigh u = false := by
    unfold isHigh
    rw [Bool.and_eq_false_iff]
    exact Or.inl (decide_eq_false (by omega))
  have hlow : isLow u = false := by
    unfold isLow
    rw [Bool.and_eq_false_iff]
    exact Or.inl (decide_eq_false (by omega))
  cases rest with
  | nil => simp [assemble?, hhigh, hlow]
  | cons piece rest => cases piece <;> simp [assemble?, hhigh, hlow]

/-- The pieces are put together into the characters they came from. -/
theorem assemble?_map (cs : List Char) :
    ∀ known : List Char, assemble? known (cs.map ofChar) = some (known.reverse ++ cs) := by
  induction cs with
  | nil =>
    intro known
    simp [assemble?]
  | cons c cs ih =>
    intro known
    have hc : assemble? known (ofChar c :: cs.map ofChar) =
        assemble? (c :: known) (cs.map ofChar) := by
      unfold ofChar
      split
      · rename_i h
        rw [assemble?_unit h.1, Char.ofNat_toNat]
      · rfl
    rw [List.map_cons, hc, ih]
    simp

/-- The pieces of a quoted text stand for the text. -/
theorem text?_map (text : String) : text? (text.toList.map ofChar) = some text := by
  rw [text?, assemble?_map]
  simp

end Piece

/-! ## Numerals -/

namespace Numeral

/-- A text in which no numeral goes on. -/
def Ends (rest : List Char) : Prop :=
  ∀ c ∈ rest.head?, c = ',' ∨ c = ']' ∨ c = '}'

theorem ends_nil : Ends [] := by
  intro c hc
  cases hc

theorem ends_cons {c : Char} (rest : List Char) (h : c = ',' ∨ c = ']' ∨ c = '}') :
    Ends (c :: rest) := by
  intro c' hc'
  cases hc'
  exact h

/-- Digits are scanned up to where a numeral ends. -/
theorem digits?_append {ds rest : List Char} (hds : ∀ c ∈ ds, c.isDigit = true) (hne : ds ≠ [])
    (hrest : Ends rest) : digits? (ds ++ rest) = some (ds, rest) := by
  have hspan : (ds ++ rest).span Char.isDigit = (ds, rest) := by
    rw [List.span_eq_takeWhile_dropWhile, List.takeWhile_append_of_pos hds,
      List.dropWhile_append_of_pos hds]
    cases rest with
    | nil => simp
    | cons c rest =>
      have hc : c.isDigit = false := by
        rcases hrest c rfl with rfl | rfl | rfl <;> rfl
      simp [hc]
  rw [digits?, hspan]
  simp [hne]

/-- The numeral that a whole number is printed as. -/
def ofInt (n : Int) : Numeral where
  negative := decide (n < 0)
  whole := Nat.toDigits 10 n.natAbs
  fraction := none
  exponent := none

/-- An integer is written as its digits, behind a minus sign if it is negative. -/
theorem toList_toString (n : Int) : (toString n).toList =
    (if n < 0 then ['-'] else []) ++ Nat.toDigits 10 n.natAbs := by
  cases n with
  | ofNat n =>
    rw [if_neg (by simp)]
    exact Nat.toList_repr
  | negSucc n =>
    rw [if_pos (Int.negSucc_lt_zero n)]
    simp [Int.toString_eq_repr, Int.repr, Nat.toList_repr]

theorem isDigit_of_mem_toDigits (n : Nat) : ∀ c ∈ Nat.toDigits 10 n, c.isDigit = true :=
  fun _ hc => Nat.isDigit_of_mem_toDigits (by decide) (by decide) hc

/-- A printed number starts with a minus sign or a digit. -/
theorem toString_head (n : Int) :
    ∃ c rest, (toString n).toList = c :: rest ∧ (c = '-' ∨ c.isDigit = true) := by
  rw [toList_toString]
  split
  · exact ⟨'-', _, rfl, Or.inl rfl⟩
  · obtain ⟨d, ds, hd⟩ := List.exists_cons_of_ne_nil (Nat.toDigits_ne_nil (n := n.natAbs) (b := 10))
    refine ⟨d, ds, by rw [hd, List.nil_append], Or.inr ?_⟩
    exact isDigit_of_mem_toDigits n.natAbs d (hd ▸ List.mem_cons_self)

/-- The sign of a printed number is taken off its digits. -/
theorem sign_toString (n : Int) (rest : List Char) : sign ((toString n).toList ++ rest) =
    (decide (n < 0), Nat.toDigits 10 n.natAbs ++ rest) := by
  rw [toList_toString]
  split
  · rename_i hneg
    simp [sign, hneg]
  · rename_i hneg
    rw [decide_eq_false hneg, List.nil_append]
    unfold sign
    split
    · -- A digit is no minus sign.
      rename_i heq
      have hne : Nat.toDigits 10 n.natAbs ≠ [] := Nat.toDigits_ne_nil
      have hdigits := isDigit_of_mem_toDigits n.natAbs
      rcases List.exists_cons_of_ne_nil hne with ⟨d, ds, hd⟩
      rw [hd] at heq hdigits
      have hminus : d = '-' := (List.cons.inj heq).1
      have hdigit := hdigits d List.mem_cons_self
      rw [hminus] at hdigit
      exact absurd hdigit (by decide)
    · rfl

/-- Where a numeral ends, no fraction follows. -/
theorem fraction?_of_ends {rest : List Char} (h : Ends rest) :
    fraction? rest = some (none, rest) := by
  cases rest with
  | nil => rfl
  | cons c rest => rcases h c rfl with rfl | rfl | rfl <;> rfl

/-- Where a numeral ends, no exponent follows. -/
theorem exponent?_of_ends {rest : List Char} (h : Ends rest) :
    exponent? rest = some (none, rest) := by
  cases rest with
  | nil => rfl
  | cons c rest => rcases h c rfl with rfl | rfl | rfl <;> rfl

/-- A printed number is scanned as its numeral. -/
theorem scan?_toString (n : Int) {rest : List Char} (hrest : Ends rest) :
    scan? ((toString n).toList ++ rest) = some (ofInt n, rest) := by
  have hscan : digits? (Nat.toDigits 10 n.natAbs ++ rest) =
      some (Nat.toDigits 10 n.natAbs, rest) :=
    digits?_append (isDigit_of_mem_toDigits n.natAbs) Nat.toDigits_ne_nil hrest
  -- More than one digit would be refused behind a leading zero.
  have hzero : ¬((Nat.toDigits 10 n.natAbs).head? = some '0' ∧
      1 < (Nat.toDigits 10 n.natAbs).length) := by
    rintro ⟨hhead, hlen⟩
    rw [Decimal.eq_zero_of_head hhead] at hlen
    exact absurd hlen (by decide)
  simp only [scan?, sign_toString, hscan, Option.bind_eq_bind, Option.bind_some, if_neg hzero,
    fraction?_of_ends hrest, exponent?_of_ends hrest]
  rfl

/-- The numeral of a number that 64 bits hold, with or without sign, has it as its value. -/
theorem toDocument?_ofInt {n : Int} (hlo : -Word.half64 ≤ n) (hhi : n < Word.count64) :
    (ofInt n).toDocument? = some (.int n) := by
  have hint : (ofInt n).int? = some n := by
    simp only [int?, ofInt, natOf, Nat.ofDigitChars_ten_toDigits]
    -- Negative numbers are bounded by the signed words, all others by the unsigned ones.
    by_cases hneg : n < 0
    · have hrange : 0 < n.natAbs ∧ n.natAbs ≤ Word.half64 := by omega
      rw [if_pos (decide_eq_true hneg), if_pos hrange]
      apply congrArg some
      omega
    · have hrange : n.natAbs < Word.count64 := by omega
      rw [if_neg (by simpa using hneg), Word.nat64?, if_pos hrange]
      apply congrArg some
      simp only [Int.ofNat_eq_natCast]
      omega
  rw [toDocument?, hint]

end Numeral

end Groovebox
