/-! # Banks

A bank is a row of places, as many as its kind has, each of which always holds something: the
steps of a pattern, the patterns of a track, the tracks of a song. -/

namespace Groovebox

/-- A row of `n` places. -/
abbrev Bank (α : Type) (n : Nat) := Vector α n

namespace Bank

variable {α : Type} {n : Nat}

/-- The place so many places on; after the last comes the first. -/
def onward (i : Fin n) (distance : Nat) : Fin n :=
  ⟨(i + distance) % n, Nat.mod_lt _ i.pos⟩

/-- What a place holds. -/
def get (b : Bank α n) (i : Fin n) : α :=
  b[i.val]

/-- Puts something into one place. -/
def put (b : Bank α n) (i : Fin n) (a : α) : Bank α n :=
  b.set i.val a i.isLt

/-- The place holds what was put into it. -/
theorem get_put_self (b : Bank α n) (i : Fin n) (a : α) : (b.put i a).get i = a :=
  Vector.getElem_set_self i.isLt

/-- Putting back what a place holds changes nothing. -/
theorem put_get_self (b : Bank α n) (i : Fin n) : b.put i (b.get i) = b :=
  Vector.set_getElem_self i.isLt

/-- All other places keep what they hold. -/
theorem get_put_of_ne (b : Bank α n) {i j : Fin n} (a : α) (h : i ≠ j) :
    (b.put i a).get j = b.get j :=
  Vector.getElem_set_ne i.isLt j.isLt fun e => h (Fin.ext e)

end Bank
end Groovebox
