import Groovebox.Binary64
import Groovebox.Word
/-! # Documents

The values that a JSON text can hold. Whole numbers and other numbers are kept apart, because
songs are read from whole numbers and anything else is rounded first. -/

namespace Groovebox

/-- A JSON value. A whole number is one that was written without a fraction or an exponent and
that 64 bits can hold. -/
inductive Document
  | null
  | bool (value : Bool)
  | int (value : Int)
  | real (value : Binary64)
  | str (text : String)
  | arr (items : List Document)
  | obj (members : List (String × Document))

namespace Document

instance : Inhabited Document := ⟨null⟩

/-- The value of a name among the members of an object. -/
def lookup (name : String) : List (String × Document) → Option Document
  | [] => none
  | (k, v) :: rest => if k = name then some v else lookup name rest

/-- Enters a member into an object, where a name that is there already takes the new value. -/
def enter (members : List (String × Document)) (name : String) (value : Document) :
    List (String × Document) :=
  match members with
  | [] => [(name, value)]
  | (k, v) :: rest =>
    if k = name then (name, value) :: rest else (k, v) :: enter rest name value

/-- The object with the given members; of a repeated name the last value counts. -/
def ofMembers (members : List (String × Document)) : Document :=
  obj (members.foldl (fun entered m => enter entered m.1 m.2) [])

/-- The items of an array. -/
def items? : Document → Option (List Document)
  | arr items => some items
  | _ => none

/-- The members of an object. -/
def members? : Document → Option (List (String × Document))
  | obj members => some members
  | _ => none

/-- The text of a string. -/
def text? : Document → Option String
  | str text => some text
  | _ => none

/-- The truth value of a boolean. -/
def bool? : Document → Option Bool
  | bool value => some value
  | _ => none

/-- A whole number that fits 64 bits with sign. -/
def int64? : Document → Option Int
  | int value => Word.int64? value
  | _ => none

/-- Any number as a 64-bit integer: rounded to the nearest, a half away from zero, and moved to
the nearer end of the range where it lies outside. -/
def rounded? : Document → Option Int
  | int value => some (Word.nearest64 value)
  | real value => some (Word.nearest64 value.round)
  | _ => none

/-- A boolean, or whether a number differs from zero. -/
def truth? : Document → Option Bool
  | bool value => some value
  | int value => some (value != 0)
  | real value => some !value.isZero
  | _ => none

end Document
end Groovebox
