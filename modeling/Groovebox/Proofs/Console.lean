import Mathlib.Tactic
import Groovebox.Console
/-! # Numbers on the console

Sixteen commands take numbers. A word that is no number of the kind its command takes makes the line
be refused, except in three places where the number may be left out: there the word is passed over,
and the line is read as if it ended in front of it.

* `Text.int64?_eq_some_iff`: which words are read as numbers.
* `Command.arguments`: the numbers that each command takes.
* `Command.isSome_parse?_iff`: which lines with numbers are commands.
* `Command.parse?_misfit`: what becomes of a line with a misfit.
* `Command.parse?_misfit_guessed`: misfits in the three places where they are passed over.
-/

namespace Groovebox

/-! ## Words -/

namespace Text

variable {cs : List Char} {n : Int} {word : String}

/-- Digits, at least one. -/
def IsDigits (cs : List Char) : Prop :=
  cs ≠ [] ∧ ∀ c ∈ cs, c.isDigit = true

/-- Characters write a whole number in decimals, with a sign in front or without. -/
inductive Numeral : List Char → Int → Prop
  | plain {cs : List Char} : IsDigits cs → Numeral cs (Nat.ofDigitChars 10 cs 0)
  | plus {cs : List Char} : IsDigits cs → Numeral ('+' :: cs) (Nat.ofDigitChars 10 cs 0)
  | minus {cs : List Char} : IsDigits cs → Numeral ('-' :: cs) (-(Nat.ofDigitChars 10 cs 0 : Int))

/-- The whole number that characters write, of any size. -/
def integer? : List Char → Option Int
  | '+' :: rest => (digits? rest).map Int.ofNat
  | '-' :: rest => (digits? rest).map fun n => -(n : Int)
  | cs => (digits? cs).map Int.ofNat

theorem int64?_eq (word : String) : int64? word = (integer? word.toList).bind Word.int64? := rfl

/-- Digits are read as the number that they write in base ten. -/
theorem digits?_eq_some_iff {n : Nat} :
    digits? cs = some n ↔ IsDigits cs ∧ Nat.ofDigitChars 10 cs 0 = n := by
  unfold digits? IsDigits
  cases cs with
  | nil => simp
  | cons c rest =>
    rw [← List.all_eq_true]
    cases (c :: rest).all Char.isDigit <;> simp

/-- A leading plus is passed over. -/
theorem integer?_plus (h : IsDigits cs) :
    integer? ('+' :: cs) = some (Nat.ofDigitChars 10 cs 0 : Int) := by
  rw [integer?, digits?_eq_some_iff.2 ⟨h, rfl⟩]
  rfl

/-- A leading minus negates the number. -/
theorem integer?_minus (h : IsDigits cs) :
    integer? ('-' :: cs) = some (-(Nat.ofDigitChars 10 cs 0 : Int)) := by
  rw [integer?, digits?_eq_some_iff.2 ⟨h, rfl⟩]
  rfl

/-- Digits do not begin with a sign. -/
theorem integer?_plain (h : IsDigits cs) :
    integer? cs = some (Nat.ofDigitChars 10 cs 0 : Int) := by
  have hvalue := digits?_eq_some_iff.2 ⟨h, rfl⟩
  unfold integer?
  split
  · exact absurd (h.2 _ List.mem_cons_self) (by decide)
  · exact absurd (h.2 _ List.mem_cons_self) (by decide)
  · rw [hvalue]
    rfl

/-- What is read as an integer is digits with a sign or none. -/
theorem isDigits_of_integer? (h : (integer? cs).isSome = true) :
    IsDigits cs ∨ ∃ ds, IsDigits ds ∧ (cs = '+' :: ds ∨ cs = '-' :: ds) := by
  have hdigits {ds : List Char} (hds : (digits? ds).isSome = true) : IsDigits ds := by
    rcases Option.isSome_iff_exists.1 hds with ⟨n, hn⟩
    exact (digits?_eq_some_iff.1 hn).1
  unfold integer? at h
  split at h
  · rename_i rest
    exact Or.inr ⟨rest, hdigits (by simpa using h), Or.inl rfl⟩
  · rename_i rest
    refine Or.inr ⟨rest, hdigits ?_, Or.inr rfl⟩
    cases hrest : digits? rest with
    | none =>
      rw [hrest] at h
      cases h
    | some n => rfl
  · exact Or.inl (hdigits (by simpa using h))

/-- Numerals, and nothing else, are read as integers. -/
theorem integer?_eq_some_iff : integer? cs = some n ↔ Numeral cs n := by
  constructor
  · intro h
    rcases isDigits_of_integer? (Option.isSome_of_mem h) with hdigits | ⟨ds, hdigits, rfl | rfl⟩
    · rw [integer?_plain hdigits] at h
      cases h
      exact .plain hdigits
    · rw [integer?_plus hdigits] at h
      cases h
      exact .plus hdigits
    · rw [integer?_minus hdigits] at h
      cases h
      exact .minus hdigits
  · intro h
    cases h with
    | plain hdigits => exact integer?_plain hdigits
    | plus hdigits => exact integer?_plus hdigits
    | minus hdigits => exact integer?_minus hdigits

/-- A word is read as the number that it writes, if 64 bits with sign hold it. -/
theorem int64?_eq_some_iff :
    int64? word = some n ↔ Numeral word.toList n ∧ -Word.half64 ≤ n ∧ n < Word.half64 := by
  rw [int64?_eq, Option.bind_eq_some_iff]
  constructor
  · rintro ⟨m, hm, hfits⟩
    unfold Word.int64? at hfits
    split at hfits
    · rename_i hrange
      cases hfits
      exact ⟨integer?_eq_some_iff.1 hm, hrange⟩
    · cases hfits
  · rintro ⟨hn, hrange⟩
    exact ⟨n, integer?_eq_some_iff.2 hn, if_pos hrange⟩

/-- A blank ends the word before it. -/
theorem wordsFrom_of_isBlank {c : Char} (h : isBlank c = true) (word rest : List Char) :
    wordsFrom word (c :: rest) =
      (if word.isEmpty then [] else [String.ofList word.reverse]) ++ wordsFrom [] rest := by
  rw [wordsFrom, if_pos h]
  cases word <;> rfl

theorem wordsFrom_of_not_isBlank {c : Char} (h : ¬ isBlank c = true) (word rest : List Char) :
    wordsFrom word (c :: rest) = wordsFrom (c :: word) rest := by
  rw [wordsFrom, if_neg h]

/-- A text can be cut off behind any of its words, but not within the one that is open. -/
theorem exists_wordsFrom (cs : List Char) : ∀ (word : List Char) (n : Nat), word = [] ∨ 0 < n →
    ∃ cs', wordsFrom word cs' = (wordsFrom word cs).take n := by
  induction cs with
  | nil =>
    intro word n h
    refine ⟨[], (List.take_of_length_le ?_).symm⟩
    rw [wordsFrom]
    rcases h with rfl | h
    · exact Nat.zero_le n
    · split
      · exact Nat.zero_le n
      · exact h
  | cons c rest ih =>
    intro word n h
    by_cases hblank : isBlank c = true
    · cases word with
      | nil =>
        rcases ih [] n (Or.inl rfl) with ⟨cs, hcs⟩
        exact ⟨c :: cs, by simpa [wordsFrom_of_isBlank hblank] using hcs⟩
      | cons d word =>
        -- The word that is open ends here, and is the first of the `n`.
        have hn : n ≠ 0 := Nat.pos_iff_ne_zero.1 (h.resolve_left (List.cons_ne_nil d word))
        rcases Nat.exists_eq_succ_of_ne_zero hn with ⟨k, rfl⟩
        rcases ih [] k (Or.inl rfl) with ⟨cs, hcs⟩
        exact ⟨c :: cs, by simpa [wordsFrom_of_isBlank hblank] using hcs⟩
    · rcases Nat.eq_zero_or_pos n with rfl | hn
      · rw [h.resolve_right (Nat.lt_irrefl 0)]
        exact ⟨[], rfl⟩
      · rcases ih (c :: word) n (Or.inr hn) with ⟨cs, hcs⟩
        exact ⟨c :: cs, by simpa [wordsFrom_of_not_isBlank hblank] using hcs⟩

/-- The first words of a text are all the words of some text. -/
theorem exists_words_take (text : String) (n : Nat) :
    ∃ text', words text' = (words text).take n := by
  rcases exists_wordsFrom text.toList [] n (Or.inl rfl) with ⟨cs, hcs⟩
  refine ⟨String.ofList cs, ?_⟩
  rw [words, String.toList_ofList, hcs]
  rfl

end Text

/-! ## Arguments -/

/-- The kinds of numbers that commands take. -/
inductive NumberKind
  /-- A position, counted from 0. -/
  | position
  /-- A number that eight bits hold. -/
  | byte
  /-- A number with sign that 32 bits hold. -/
  | word32
  /-- A number with sign that 64 bits hold. -/
  | word64
deriving DecidableEq, Repr

/-- A number is of a kind. Positions reach as far as numbers with sign do. -/
def NumberKind.Holds : NumberKind → Int → Prop
  | position, n => 0 ≤ n ∧ n < Word.half64
  | byte, n => 0 ≤ n ∧ n ≤ 255
  | word32, n => -Word.half32 ≤ n ∧ n < Word.half32
  | word64, n => -Word.half64 ≤ n ∧ n < Word.half64

/-- A word writes a number of a kind. -/
def NumberKind.Reads (k : NumberKind) (word : String) : Prop :=
  ∃ n, Text.Numeral word.toList n ∧ k.Holds n

namespace Command

/-- A number among the words of a command. -/
structure Argument where
  /-- Its place; the name of the command is at 0. -/
  place : Nat
  /-- The kind of number that belongs there. -/
  kind : NumberKind
  /-- If it may be left out: words that are no numbers of this kind are passed over there. -/
  skips : Option NumberKind := none
deriving DecidableEq, Repr

/-- The numbers that a command takes. -/
def arguments : String → List Argument
  | "set" | "mute" | "snap" | "recall" | "gen" => [{ place := 1, kind := .position }]
  | "bpm" => [{ place := 1, kind := .word64 }]
  | "clear" => [{ place := 1, kind := .position }, { place := 2, kind := .position }]
  | "prob" | "ratchet" =>
    [{ place := 1, kind := .position }, { place := 2, kind := .position },
      { place := 3, kind := .word64 }]
  | "offset" =>
    [{ place := 1, kind := .position }, { place := 2, kind := .position },
      { place := 3, kind := .word32 }]
  | "note" =>
    [{ place := 1, kind := .position }, { place := 2, kind := .position },
      { place := 3, kind := .byte }, { place := 4, kind := .byte, skips := some .word64 }]
  | "pattern" =>
    [{ place := 1, kind := .position }, { place := 2, kind := .byte, skips := some .byte }]
  | "follow" => [{ place := 1, kind := .position }, { place := 2, kind := .word64 }]
  | "copy" =>
    [{ place := 1, kind := .position }, { place := 2, kind := .position },
      { place := 3, kind := .position }, { place := 4, kind := .position }]
  | "transpose" =>
    [{ place := 1, kind := .position }, { place := 2, kind := .word64 },
      { place := 3, kind := .word64, skips := some .word64 }]
  | "knob" => [{ place := 1, kind := .position }, { place := 2, kind := .word32 }]
  | _ => []

/-- A word is passed over at the place of a number. -/
def Argument.PassesOver (a : Argument) (word : String) : Prop :=
  ∃ k ∈ a.skips, ¬ k.Reads word

/-- A command goes on with what is at the place of a number. -/
def Argument.Accepts (words : List String) (a : Argument) : Prop :=
  match words[a.place]? with
  | none => a.skips.isSome = true
  | some word => a.kind.Reads word ∨ a.PassesOver word

variable {name word : String} {words : List String} {i : Nat}

/-! ## Reading one number -/

/-- A test that does not look at a value asks whether there is one. -/
theorem any_const {α : Type} (o : Option α) (b : Bool) :
    (o.any fun _ => b) = (o.isSome && b) := by
  cases o <;> rfl

/-- A word is read as a number if 64 bits hold it. -/
theorem reads_word64_iff : NumberKind.word64.Reads word ↔ (Text.int64? word).isSome = true := by
  rw [Option.isSome_iff_exists]
  exact exists_congr fun n => Text.int64?_eq_some_iff.symm

theorem reads_word64_iff_any :
    NumberKind.word64.Reads word ↔ (Text.int64? word).any (fun _ => true) = true := by
  rw [reads_word64_iff, any_const, Bool.and_true]

/-- A word of a narrower kind is read with 64 bits first, and then looked at again. -/
theorem reads_iff_any {k : NumberKind} {p : Int → Bool}
    (hk : ∀ n, k.Holds n ↔ NumberKind.word64.Holds n ∧ p n = true) :
    k.Reads word ↔ (Text.int64? word).any p = true := by
  rw [Option.any_eq_true]
  constructor
  · rintro ⟨n, hn, hholds⟩
    rcases (hk n).1 hholds with ⟨hrange, hp⟩
    exact ⟨n, Text.int64?_eq_some_iff.2 ⟨hn, hrange⟩, hp⟩
  · rintro ⟨n, hread, hp⟩
    rcases Text.int64?_eq_some_iff.1 hread with ⟨hn, hrange⟩
    exact ⟨n, hn, (hk n).2 ⟨hrange, hp⟩⟩

/-- A word is read as a position if it is a number that is not negative. -/
theorem reads_position_iff :
    NumberKind.position.Reads word ↔ (Text.int64? word).any (0 ≤ ·) = true := by
  apply reads_iff_any
  intro n
  simp only [NumberKind.Holds, Word.half64, decide_eq_true_eq]
  omega

/-- A word is read as a byte if it is a number from 0 to 255. -/
theorem reads_byte_iff :
    NumberKind.byte.Reads word ↔ (Text.int64? word).any (fun n => (byte? n).isSome) = true := by
  apply reads_iff_any
  intro n
  rw [byte?, Option.isSome_ite]
  simp only [NumberKind.Holds, Word.half64]
  omega

theorem reads_word32_iff :
    NumberKind.word32.Reads word ↔
      (Text.int64? word).any (fun n => (Word.int32? n).isSome) = true := by
  apply reads_iff_any
  intro n
  rw [Word.int32?, Option.isSome_ite]
  simp only [NumberKind.Holds, Word.half64, Word.half32]
  omega

instance (k : NumberKind) (word : String) : Decidable (k.Reads word) :=
  match k with
  | .position => decidable_of_iff _ reads_position_iff.symm
  | .byte => decidable_of_iff _ reads_byte_iff.symm
  | .word32 => decidable_of_iff _ reads_word32_iff.symm
  | .word64 => decidable_of_iff _ reads_word64_iff.symm

instance (a : Argument) (word : String) : Decidable (a.PassesOver word) :=
  inferInstanceAs (Decidable (∃ k ∈ a.skips, ¬ k.Reads word))

/-! ## Accepting one number -/

/-- A number that has to be there is accepted if it can be read. -/
theorem accepts_iff_any {k : NumberKind} {p : Int → Bool}
    (hk : ∀ word, k.Reads word ↔ (Text.int64? word).any p = true) :
    ({ place := i, kind := k } : Argument).Accepts words ↔ (int? words i).any p = true := by
  unfold Argument.Accepts Argument.PassesOver int?
  cases words[i]? with
  | none => simp
  | some word => simpa using hk word

theorem accepts_position_iff :
    ({ place := i, kind := .position } : Argument).Accepts words ↔
      (nat? words i).isSome = true := by
  rw [accepts_iff_any fun _ => reads_position_iff, nat?, Option.isSome_map, Option.isSome_filter]

theorem accepts_word64_iff :
    ({ place := i, kind := .word64 } : Argument).Accepts words ↔
      (int? words i).isSome = true := by
  rw [accepts_iff_any fun _ => reads_word64_iff_any, any_const, Bool.and_true]

theorem accepts_byte_iff :
    ({ place := i, kind := .byte } : Argument).Accepts words ↔
      ((int? words i).any fun n => (byte? n).isSome) = true :=
  accepts_iff_any fun _ => reads_byte_iff

theorem accepts_word32_iff :
    ({ place := i, kind := .word32 } : Argument).Accepts words ↔
      ((int? words i).any fun n => (Word.int32? n).isSome) = true :=
  accepts_iff_any fun _ => reads_word32_iff

/-- Nothing is refused where all is passed over that is no number of the kind in question. -/
theorem accepts_skipped {k : NumberKind} :
    ({ place := i, kind := k, skips := some k } : Argument).Accepts words := by
  unfold Argument.Accepts Argument.PassesOver
  cases words[i]? with
  | none => rfl
  | some word => simpa using Classical.em (k.Reads word)

/-- A velocity that is a number has to be one of eight bits. -/
theorem accepts_velocity_iff :
    ({ place := i, kind := .byte, skips := some .word64 } : Argument).Accepts words ↔
      ((int? words i).all fun n => (byte? n).isSome) = true := by
  unfold Argument.Accepts Argument.PassesOver int?
  cases words[i]? with
  | none => simp
  | some word =>
    simp only [Option.bind_some, Option.mem_def, Option.some.injEq, exists_eq_left',
      reads_byte_iff, reads_word64_iff]
    cases Text.int64? word <;> simp

/-! ## Reading a command -/

/-- The names of the commands that are no edits. -/
def nonEdits : List String :=
  ["quit", "q", "play", "stop", "save", "set"]

/-- The name of an edit leads to the edits alone. -/
theorem parse?_of_edit {line : String} (hname : (Text.words line).head? = some name)
    (hedit : name ∉ nonEdits) : parse? line = (edit? (Text.words line)).map edit := by
  simp only [parse?, hname]
  split <;> simp_all [nonEdits]

/-- The names of the edits that take numbers. -/
def numericEdits : List String :=
  ["clear", "prob", "ratchet", "offset", "bpm", "mute", "pattern", "follow", "snap", "recall",
    "copy", "transpose", "knob", "gen", "note"]

/-- The line of a note is an edit just if all of its numbers are accepted. -/
theorem isSome_edit?_note_iff (hname : words.head? = some "note") :
    (edit? words).isSome = true ↔ ∀ a ∈ arguments "note", a.Accepts words := by
  simp only [arguments, List.forall_mem_cons, List.not_mem_nil, false_implies, implies_true,
    and_true, accepts_position_iff, accepts_byte_iff, accepts_velocity_iff, edit?, hname]
  cases int? words 4 with
  | none =>
    simp only [Option.bind_eq_bind, Option.pure_def, Option.bind_some, Option.isSome_bind,
      any_const, Option.isSome_some, Bool.and_true, Bool.and_eq_true, Option.all_none, and_true]
  | some v =>
    simp only [Option.bind_eq_bind, Option.pure_def, Option.isSome_bind, any_const,
      Option.isSome_some, Bool.and_true, Bool.and_eq_true, Option.all_some]
    tauto

/-- An edit is read number by number, up to the first that cannot be read. -/
theorem isSome_edit?_iff (hname : words.head? = some name) (hedit : name ∈ numericEdits) :
    (edit? words).isSome = true ↔ ∀ a ∈ arguments name, a.Accepts words := by
  simp only [numericEdits, List.mem_cons, List.not_mem_nil, or_false] at hedit
  rcases hedit with rfl | rfl | rfl | rfl | rfl | rfl | rfl | rfl | rfl | rfl | rfl | rfl | rfl |
    rfl | rfl
  -- A note is read in another order: its velocity first.
  on_goal 15 => exact isSome_edit?_note_iff hname
  all_goals
    simp only [edit?, hname, Option.bind_eq_bind, Option.pure_def, Option.isSome_bind, any_const,
      Option.isSome_some, Bool.and_true, Bool.and_eq_true, arguments, List.forall_mem_cons,
      List.not_mem_nil, false_implies, implies_true, and_true, accepts_position_iff,
      accepts_word64_iff, accepts_word32_iff, accepts_skipped]

/-- Apart from `set`, the commands with numbers are edits. -/
theorem mem_numericEdits (h : arguments name ≠ []) : name = "set" ∨ name ∈ numericEdits := by
  unfold arguments at h
  split at h <;> first | exact absurd rfl h | decide

/-- A line is a command with numbers exactly if each of its numbers is accepted. -/
theorem isSome_parse?_iff {line : String} (hname : (Text.words line).head? = some name)
    (hnumbers : arguments name ≠ []) :
    (parse? line).isSome = true ↔ ∀ a ∈ arguments name, a.Accepts (Text.words line) := by
  rcases mem_numericEdits hnumbers with rfl | hedit
  · simp only [parse?, hname, Option.isSome_map, arguments, List.forall_mem_cons, List.not_mem_nil,
      false_implies, implies_true, and_true, accepts_position_iff]
  · have hdisjoint : ∀ n ∈ numericEdits, n ∉ nonEdits := by decide
    rw [parse?_of_edit hname (hdisjoint name hedit), Option.isSome_map]
    exact isSome_edit?_iff hname hedit

/-! ## Misfits -/

/-- Words past the ones that are kept do not count. -/
theorem int?_take_of_lt {n : Nat} (h : i < n) : int? (words.take n) i = int? words i := by
  rw [int?, List.getElem?_take_of_lt h, int?]

/-- A word that is cut off is not read. -/
theorem int?_take_self : int? (words.take i) i = none := by
  rw [int?, List.getElem?_eq_none (List.length_take_le i words), Option.bind_none]

theorem nat?_take_of_lt {n : Nat} (h : i < n) : nat? (words.take n) i = nat? words i := by
  rw [nat?, int?_take_of_lt h, nat?]

/-- What is no number of 64 bits is read as if nothing were there. -/
theorem int?_of_misfit (hword : words[i]? = some word) (h : ¬ NumberKind.word64.Reads word) :
    int? words i = none := by
  rw [reads_word64_iff, Option.not_isSome_iff_eq_none] at h
  rw [int?, hword, Option.bind_some, h]

/-- A word that is no byte is read as none. -/
theorem byte?_of_misfit (hword : words[i]? = some word) (h : ¬ NumberKind.byte.Reads word) :
    (int? words i).bind byte? = none := by
  rw [reads_byte_iff] at h
  rw [int?, hword, Option.bind_some]
  cases hread : Text.int64? word with
  | none => rfl
  | some n => simpa [hread] using h

/-- The numbers that may be left out are the velocity of a note, the pattern of a track and the
duration of a step of the transpose sequence. -/
theorem cases_skips {a : Argument} {k : NumberKind} (ha : a ∈ arguments name)
    (hk : a.skips = some k) :
    (name = "note" ∧ k = .word64 ∧ a.place = 4) ∨ (name = "pattern" ∧ k = .byte ∧ a.place = 2) ∨
      (name = "transpose" ∧ k = .word64 ∧ a.place = 3) := by
  unfold arguments at ha
  split at ha <;> grind

/-- Where a number may be left out, a word that is passed over changes nothing. -/
theorem edit?_take {a : Argument} (hname : words.head? = some name) (ha : a ∈ arguments name)
    (hword : words[a.place]? = some word) (hover : a.PassesOver word) :
    edit? (words.take a.place) = edit? words := by
  rcases hover with ⟨k, hk, hmisfit⟩
  rcases cases_skips ha hk with ⟨rfl, rfl, hplace⟩ | ⟨rfl, rfl, hplace⟩ | ⟨rfl, rfl, hplace⟩
  · rw [hplace] at hword ⊢
    have hvelocity := int?_of_misfit hword hmisfit
    simp [edit?, List.head?_take, hname, int?_take_of_lt, int?_take_self, nat?_take_of_lt,
      hvelocity]
  · rw [hplace] at hword ⊢
    have hpattern := byte?_of_misfit hword hmisfit
    simp [edit?, List.head?_take, hname, int?_take_self, nat?_take_of_lt, hpattern]
  · rw [hplace] at hword ⊢
    have hduration := int?_of_misfit hword hmisfit
    simp [edit?, List.head?_take, hname, int?_take_of_lt, int?_take_self, nat?_take_of_lt,
      hduration]

/-- Where a number may be left out, the line is read as if it ended in front of a word that is
passed over. -/
theorem exists_parse?_eq {line : String} {a : Argument}
    (hname : (Text.words line).head? = some name) (ha : a ∈ arguments name)
    (hword : (Text.words line)[a.place]? = some word) (hover : a.PassesOver word) :
    ∃ line', Text.words line' = (Text.words line).take a.place ∧ parse? line' = parse? line := by
  rcases Text.exists_words_take line a.place with ⟨line', hline'⟩
  rcases hover with ⟨k, hk, hmisfit⟩
  have hedit : a.place ≠ 0 ∧ name ∉ nonEdits := by
    rcases cases_skips ha hk with ⟨rfl, -, hplace⟩ | ⟨rfl, -, hplace⟩ | ⟨rfl, -, hplace⟩ <;>
      exact ⟨hplace ▸ by decide, by decide⟩
  have hname' : (Text.words line').head? = some name := by
    rw [hline', List.head?_take, if_neg hedit.1, hname]
  refine ⟨line', hline', ?_⟩
  rw [parse?_of_edit hname' hedit.2, parse?_of_edit hname hedit.2, hline',
    edit?_take hname ha hword ⟨k, hk, hmisfit⟩]

/-- A word that is no number of the kind that belongs at its place makes the line be refused, and the
desk only does what is due. The exception is a word that is passed over, where a number may be left
out: the line is then read as if it ended in front of it, whatever the word is. -/
theorem parse?_misfit {line : String} {a : Argument}
    (hname : (Text.words line).head? = some name) (ha : a ∈ arguments name)
    (hword : (Text.words line)[a.place]? = some word) (hmisfit : ¬ a.kind.Reads word) :
    (¬ a.PassesOver word →
      parse? line = none ∧
        ∀ d now, Console.line d now line = (["? " ++ line], (d.tick now).2)) ∧
      (a.PassesOver word →
        ∃ line', Text.words line' = (Text.words line).take a.place ∧
          parse? line' = parse? line) := by
  refine ⟨fun hover => ?_, exists_parse?_eq hname ha hword⟩
  have hrefused : parse? line = none := by
    rw [← Option.not_isSome_iff_eq_none, isSome_parse?_iff hname (List.ne_nil_of_mem ha)]
    intro haccepted
    have h := haccepted a ha
    rw [Argument.Accepts, hword] at h
    exact h.elim hmisfit hover
  refine ⟨hrefused, fun d now => ?_⟩
  rw [Console.line, hrefused]

/-- A velocity past 255 is refused; a velocity that is no number is passed over. -/
theorem parse?_misfit_velocity :
    (parse? "note 0 0 60 400" = none ∧
      ∀ d now, Console.line d now "note 0 0 60 400" = (["? note 0 0 60 400"], (d.tick now).2)) ∧
      ∃ line, Text.words line = ["note", "0", "0", "60"] ∧
        parse? line = parse? "note 0 0 60 loud" :=
  have hname : (Text.words "note 0 0 60 400").head? = some "note" := by decide +kernel
  have hname' : (Text.words "note 0 0 60 loud").head? = some "note" := by decide +kernel
  have hvelocity : ⟨4, .byte, some .word64⟩ ∈ arguments "note" := by decide
  have hword : (Text.words "note 0 0 60 400")[4]? = some "400" := by decide +kernel
  have hword' : (Text.words "note 0 0 60 loud")[4]? = some "loud" := by decide +kernel
  ⟨(parse?_misfit hname hvelocity hword (by decide +kernel)).1 (by decide +kernel),
    (parse?_misfit hname' hvelocity hword' (by decide +kernel)).2 (by decide +kernel)⟩

/-- Words that are passed over, and what is done instead: a track is turned off, a note gets the
velocity 100, a step is set without a duration. -/
theorem parse?_misfit_guessed :
    (¬ NumberKind.byte.Reads "300" ∧
      parse? "pattern 0 300" = some (.edit (.setCurrent 0 none)) ∧
        (Console.line (Desk.start {} 0 {} [] 0) 0 "pattern 0 300").2.song ≠
          (Desk.start {} 0 {} [] 0).song) ∧
      (¬ NumberKind.byte.Reads "loud" ∧
        parse? "note 0 0 60 loud" = some (.edit (.toggleNote 0 0 60 100))) ∧
      (¬ NumberKind.word64.Reads "long" ∧
        parse? "transpose 0 5 long" = some (.edit (.setTransposeStep 0 5 none))) := by
  have hbefore : ((Desk.start {} 0 {} [] 0).song.tracks.get ⟨0, by decide⟩).current = some 0 := by
    decide +kernel
  have hafter : ((Console.line (Desk.start {} 0 {} [] 0) 0 "pattern 0 300").2.song.tracks.get
      ⟨0, by decide⟩).current = none := by
    decide +kernel
  refine ⟨⟨by decide +kernel, by decide +kernel, fun hsong => ?_⟩, by decide +kernel⟩
  rw [hsong, hbefore] at hafter
  cases hafter

end Command
end Groovebox
