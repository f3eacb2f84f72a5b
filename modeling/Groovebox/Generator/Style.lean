import Groovebox.Table
/-! # Generator styles -/

namespace Groovebox

/-- How a generated pattern places its notes. -/
inductive Style
  | random | euclidean | rising | falling | arc | pulse | offbeat | clustered
deriving DecidableEq, Inhabited, Repr

namespace Style

instance : Table Style where
  all := [random, euclidean, rising, falling, arc, pulse, offbeat, clustered]
  name
    | random => "Random"
    | euclidean => "Euclidean"
    | rising => "Rising"
    | falling => "Falling"
    | arc => "Arc"
    | pulse => "Pulse"
    | offbeat => "Offbeat"
    | clustered => "Clustered"
  mem_all := by intro s; cases s <;> decide

/-- The style with a name, whatever the case of its letters. -/
def ofName? (name : String) : Option Style :=
  Table.all.find? fun s : Style => lower (Table.name s) == lower name
where
  /-- The text with the capital letters A to Z made small. -/
  lower (text : String) : List Char := text.toList.map Char.toLower

end Style
end Groovebox
