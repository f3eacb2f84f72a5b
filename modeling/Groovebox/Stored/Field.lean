import Groovebox.Bank
import Groovebox.Document
/-! # Fields of stored objects

How one setting is looked up in an object that holds a song, a track, a pattern or a step. A field
has a long and a short name; a value of the wrong kind counts as absent, so the next name is
tried. Containers are arrays, or objects whose names are positions. -/

namespace Groovebox.Stored

/-- The members of a stored object. -/
abbrev Members := List (String × Document)

/-- What `read` makes of the first name for which it makes anything. -/
def first? {α : Type} (m : Members) (names : List String) (read : Document → Option α) :
    Option α :=
  names.findSome? fun name => (Document.lookup name m).bind read

/-- The value of the first name that is present. -/
def present? (m : Members) (names : List String) : Option Document :=
  first? m names some

/-- The first of the names that holds a number, rounded. -/
def int? (m : Members) (names : List String) : Option Int :=
  first? m names Document.rounded?

/-- A number within bounds; a number outside counts as absent. -/
def intIn? (m : Members) (names : List String) (lo hi : Int) : Option Nat :=
  ((int? m names).filter fun v => lo ≤ v ∧ v ≤ hi).map Int.toNat

/-- The first of the names that holds a truth value. -/
def flag? (m : Members) (names : List String) : Option Bool :=
  first? m names Document.truth?

/-- A setting for which a negative number means that it is not set. -/
def optional? {α : Type} (m : Members) (names : List String) (resolve : Nat → Option α) :
    Option α :=
  ((int? m names).filter (0 ≤ ·)).bind fun v => resolve v.toNat

/-- The number, if it is not above a bound. -/
def upTo (hi : Nat) (n : Nat) : Option Nat :=
  if n ≤ hi then some n else none

/-! ## Containers -/

/-- The position that a name stands for: digits, with an optional plus sign, of a number that 64
bits hold. -/
def position? (name : String) : Option Nat :=
  let ds := match name.toList with
    | '+' :: rest => rest
    | cs => cs
  if ds.isEmpty || !ds.all Char.isDigit then none
  else Word.nat64? (Nat.ofDigitChars 10 ds 0)

/-- The entries of a container with their positions below `limit`. The members of an object come
in the order of their names, so that of two names for one position the later one wins. -/
def entries (limit : Nat) : Document → List (Nat × Document)
  | .arr items => (items.take limit).zipIdx.map fun (d, i) => (i, d)
  | .obj members =>
    (members.mergeSort fun a b => decide (a.1 ≤ b.1)).filterMap fun (name, d) =>
      ((position? name).filter (· < limit)).map fun i => (i, d)
  | _ => []

/-- Fills the positions that a container has an entry for. -/
def fill {α : Type} {n : Nat} (start : Bank α n) (container : Document)
    (read : Nat → Document → α) : Bank α n :=
  (entries n container).foldl (fun v (i, d) => v.setIfInBounds i (read i d)) start

end Groovebox.Stored
