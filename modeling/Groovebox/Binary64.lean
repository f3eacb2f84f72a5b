import Groovebox.Word
/-! # Doubles taken apart

A finite double is a sign, a natural number and a power of two. Rounding to integers is done on
these parts, in whole numbers. -/

namespace Groovebox

/-- The number `±significand * 2 ^ exponent`. -/
structure Binary64 where
  /-- Whether the sign bit is set. -/
  negative : Bool
  /-- The digits. -/
  significand : Nat
  /-- The power of two. -/
  exponent : Int
deriving DecidableEq, Repr

namespace Binary64

instance : Inhabited Binary64 := ⟨⟨false, 0, 0⟩⟩

/-- The leading bit of a significand, which is not stored: 52 bits follow it. -/
def leading : Nat := 4503599627370496

/-- The parts of a finite double. -/
def ofFloat (x : Float) : Binary64 :=
  let bits : Nat := x.toBits.toNat
  let field : Nat := bits / leading % 2048
  let fraction : Nat := bits % leading
  { negative := decide (bits / Word.half64 = 1)
    significand := if field = 0 then fraction else fraction + leading
    exponent := if field = 0 then -1074 else (field : Int) - 1075 }

/-- Whether the number is zero, of either sign. -/
def isZero (x : Binary64) : Bool :=
  x.significand == 0

/-- The number without its sign as a quotient of whole numbers. -/
def ratio (x : Binary64) : Nat × Nat :=
  if 0 ≤ x.exponent then (x.significand <<< x.exponent.toNat, 1)
  else (x.significand, 1 <<< (-x.exponent).toNat)

/-- The greatest integer that is not above the number. -/
def floor (x : Binary64) : Int :=
  let (num, den) := x.ratio
  if x.negative then -(((num + den - 1) / den : Nat) : Int) else ((num / den : Nat) : Int)

/-- The whole part of a double, or 0 for one below zero. -/
def wholePart (x : Float) : Nat :=
  (ofFloat x).floor.toNat

/-- The nearest integer; a half goes away from zero. -/
def round (x : Binary64) : Int :=
  let (num, den) := x.ratio
  let magnitude := (2 * num + den) / (2 * den)
  if x.negative then -(magnitude : Int) else magnitude

/-- All decimal digits of the number. -/
def render (x : Binary64) : String :=
  let sign := if x.negative then "-" else ""
  if 0 ≤ x.exponent then sign ++ toString (x.significand <<< x.exponent.toNat) ++ ".0"
  else
    let places := (-x.exponent).toNat
    sign ++ toString (x.significand * Nat.pow 5 places) ++ "e-" ++ toString places

end Binary64
end Groovebox
