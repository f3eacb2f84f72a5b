import Mathlib.Tactic
/-! # Numbers in decimal

Positions, tracks and steps are written in decimal in file names, in member names and in the keys
of engine calls. Such a text has digits only, different numbers have different texts, and only
zero starts with a zero. -/

namespace Groovebox.Decimal

theorem toList_toString (n : Nat) : (toString n).toList = Nat.toDigits 10 n := by
  rw [Nat.toString_eq_repr, Nat.toList_repr]

/-- A natural number is written in digits alone. -/
theorem isDigit_of_mem {n : Nat} {c : Char} (h : c ∈ (toString n).toList) : c.isDigit = true := by
  rw [toList_toString] at h
  exact Nat.isDigit_of_mem_toDigits (by decide) (by decide) h

/-- The digits of a number stand for the number. -/
theorem ofDigitChars_toString (n : Nat) : Nat.ofDigitChars 10 (toString n).toList 0 = n := by
  rw [toList_toString]
  exact Nat.ofDigitChars_ten_toDigits

/-- Different numbers are written differently. -/
theorem toString_injective {m n : Nat} (h : toString m = toString n) : m = n := by
  have hm := ofDigitChars_toString m
  rw [h, ofDigitChars_toString] at hm
  exact hm.symm

/-- Every number has a digit. -/
theorem toString_ne_nil (n : Nat) : (toString n).toList ≠ [] := by
  rw [toList_toString]
  exact Nat.toDigits_ne_nil

/-- Of whole numbers, the negative ones begin with a sign, which is not a digit. -/
theorem int_toString_injective {m n : Int} (h : toString m = toString n) : m = n := by
  have hsign (k l : Nat) : toString k ≠ "-" ++ toString l := by
    intro he
    have hmem : '-' ∈ (toString k).toList := by
      rw [he, String.toList_append]
      exact List.mem_append_left _ (by decide)
    exact absurd (isDigit_of_mem hmem) (by decide)
  cases m with
  | ofNat k =>
    cases n with
    | ofNat l => exact congrArg Int.ofNat (toString_injective h)
    | negSucc l => exact absurd h (hsign k (l + 1))
  | negSucc k =>
    cases n with
    | ofNat l => exact absurd h.symm (hsign l (k + 1))
    | negSucc l =>
      have hdigits : "-" ++ toString (k + 1) = "-" ++ toString (l + 1) := h
      rw [← String.toList_inj, String.toList_append, String.toList_append,
        List.append_cancel_left_eq, String.toList_inj] at hdigits
      rw [Nat.succ.inj (toString_injective hdigits)]

/-- The first digit of a number is a zero only for zero itself. -/
theorem eq_zero_of_head {n : Nat} : (Nat.toDigits 10 n).head? = some '0' → n = 0 := by
  induction n using Nat.strong_induction_on with
  | _ n ih =>
    by_cases hn : n < 10
    · rw [Nat.toDigits_of_lt_base hn]
      interval_cases n <;> decide
    · -- The digits of a longer number begin with those of its tenth part.
      rw [Nat.toDigits_of_base_le (by decide) (Nat.le_of_not_lt hn),
        List.head?_append_of_ne_nil _ Nat.toDigits_ne_nil]
      intro h
      have hzero := ih (n / 10) (by omega) h
      omega

end Groovebox.Decimal
