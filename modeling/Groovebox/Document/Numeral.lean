import Groovebox.Document
/-! # Numerals

How a JSON number is written, and which value it stands for. A plain integer that 64 bits can hold
is exact. Every other numeral becomes a double in two roundings: its digits are taken as a 64-bit
whole number, and the result is multiplied or divided by a power of ten. Digits that do not fit
are dropped; before the decimal point they still count as a power of ten. -/

namespace Groovebox

/-- A number as it is written. -/
structure Numeral where
  /-- Whether a minus sign comes first. -/
  negative : Bool
  /-- The digits before the decimal point. -/
  whole : List Char
  /-- The digits after the decimal point, if there is one. -/
  fraction : Option (List Char)
  /-- The exponent, if there is one: whether it is negative, and its digits. -/
  exponent : Option (Bool × List Char)
deriving DecidableEq, Repr

namespace Numeral

/-! ## Scanning -/

/-- The digits a text starts with, at least one, and the text after them. -/
def digits? (cs : List Char) : Option (List Char × List Char) :=
  let (ds, rest) := cs.span Char.isDigit
  if ds.isEmpty then none else some (ds, rest)

/-- The sign a text starts with and the text after it. -/
def sign : List Char → Bool × List Char
  | '-' :: rest => (true, rest)
  | rest => (false, rest)

/-- As `sign`, where a plus sign is allowed too. -/
def anySign : List Char → Bool × List Char
  | '+' :: rest => (false, rest)
  | cs => sign cs

/-- The decimal point and the digits after it, where a text starts with them. -/
def fraction? : List Char → Option (Option (List Char) × List Char)
  | '.' :: rest => (digits? rest).map fun (ds, rest) => (some ds, rest)
  | rest => some (none, rest)

/-- The exponent, where a text starts with one. -/
def exponent? : List Char → Option (Option (Bool × List Char) × List Char)
  | 'e' :: rest | 'E' :: rest =>
    let (negative, rest) := anySign rest
    (digits? rest).map fun (ds, rest) => (some (negative, ds), rest)
  | rest => some (none, rest)

/-- The numeral a text starts with and the text after it. A zero is never followed by a digit. -/
def scan? (cs : List Char) : Option (Numeral × List Char) := do
  let (negative, cs) := sign cs
  let (whole, cs) ← digits? cs
  if whole.head? = some '0' ∧ 1 < whole.length then none
  let (fraction, cs) ← fraction? cs
  let (exponent, cs) ← exponent? cs
  return ({ negative, whole, fraction, exponent }, cs)

/-! ## Values -/

/-- The number that digits stand for. -/
def natOf (ds : List Char) : Nat :=
  Nat.ofDigitChars 10 ds 0

/-- Appends digits to a whole number as long as 64 bits hold it, and returns what is left over. -/
def absorb (acc : Nat) : List Char → Nat × List Char
  | [] => (acc, [])
  | d :: ds =>
    let next := acc * 10 + (d.toNat - '0'.toNat)
    if next < Word.count64 then absorb next ds else (acc, d :: ds)

/-- The double nearest to a power of ten. -/
def tenTo (e : Nat) : Float :=
  Float.ofScientific 1 false e

/-- Divides a double by a power of ten, in steps that a double can hold. -/
def scaleDown (x : Float) (e : Nat) : Float :=
  if e ≤ 308 then x / tenTo e
  else if x == 0 then x
  else scaleDown (x / tenTo 308) (e - 308)
termination_by e

/-- Multiplies a double by a power of ten; none if the result is not finite. -/
def scaleUp? (x : Float) (e : Nat) : Option Float :=
  if e ≤ 308 then
    let y := x * tenTo e
    if y.isInf then none else some y
  else if x == 0 then some x
  else none

/-- A whole number times a power of ten. -/
def scale? (n : Nat) (e : Int) : Option Float :=
  let x := n.toUInt64.toFloat
  if 0 ≤ e then scaleUp? x e.toNat else some (scaleDown x (-e).toNat)

/-- The power of ten that an exponent adds to `start`, kept within 32 bits. -/
def shift (start : Int) (negative : Bool) (e : Nat) : Int :=
  Word.nearest32 (if negative then start - e else start + e)

/-- The double without sign that a numeral stands for. An exponent beyond 32 bits makes zero of
anything it divides and has no value otherwise, except for zero. -/
def magnitude? (x : Numeral) : Option Float :=
  let (n, excess) := absorb 0 x.whole
  let fraction := x.fraction.getD []
  let (n, dropped) := absorb n fraction
  let start : Int := excess.length - (fraction.length - dropped.length)
  match x.exponent with
  | none => scale? n start
  | some (negative, ds) =>
    if natOf ds < Word.half32 then scale? n (shift start negative (natOf ds))
    else if n ≠ 0 ∧ !negative then none
    else some 0.0

/-- A plain integer that 64 bits hold; a negative zero is none. -/
def int? (x : Numeral) : Option Int :=
  match x.fraction, x.exponent with
  | none, none =>
    let n := natOf x.whole
    if x.negative then
      if 0 < n ∧ n ≤ Word.half64 then some (-(n : Int)) else none
    else (Word.nat64? n).map Int.ofNat
  | _, _ => none

/-- The value of a numeral; none if it is too large for a double. -/
def toDocument? (x : Numeral) : Option Document :=
  match x.int? with
  | some n => some (.int n)
  | none => x.magnitude?.map fun y => .real { Binary64.ofFloat y with negative := x.negative }

end Numeral
end Groovebox
