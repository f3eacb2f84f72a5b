/-! # Whole numbers in words

Files, commands and random draws hold whole numbers in words of 32 or 64 bits. Here stands which
numbers fit, and what becomes of those that do not. -/

namespace Groovebox.Word

/-- How many numbers 32 bits tell apart. -/
def count32 : Nat := 4294967296

/-- How many numbers 64 bits tell apart. -/
def count64 : Nat := 18446744073709551616

/-- With a sign, 32 bits reach from the negative of this number up to it, without it. -/
def half32 : Nat := 2147483648

/-- With a sign, 64 bits reach from the negative of this number up to it, without it. -/
def half64 : Nat := 9223372036854775808

/-- A number without sign that 64 bits hold. -/
def nat64? (n : Nat) : Option Nat :=
  if n < count64 then some n else none

/-- A number with sign that 32 bits hold. -/
def int32? (n : Int) : Option Int :=
  if -half32 ≤ n ∧ n < half32 then some n else none

/-- A number with sign that 64 bits hold. -/
def int64? (n : Int) : Option Int :=
  if -half64 ≤ n ∧ n < half64 then some n else none

/-- The nearest number with sign that 32 bits hold. -/
def nearest32 (n : Int) : Int :=
  min (max n (-half32)) (half32 - 1)

/-- The nearest number with sign that 64 bits hold. -/
def nearest64 (n : Int) : Int :=
  min (max n (-half64)) (half64 - 1)

/-- The number with sign that the lowest 32 bits of a number stand for. -/
def wrap32 (n : Int) : Int :=
  n.bmod count32

end Groovebox.Word
