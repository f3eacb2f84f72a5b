/-! # Tables stored by position

Speeds, arpeggio settings and generator styles are kept in files and sent to the engine as their
position in a fixed table. `Table` says which table a type has; the main statement is
`Table.ofIndex?_index`: a stored position reads back as the entry it was written for. -/

namespace Groovebox

/-- A finite type whose values are stored as their position in one fixed list. Positions are part
of the file format, so entries are only ever added at the end. -/
class Table (α : Type) [DecidableEq α] where
  /-- The entries in stored order. -/
  all : List α
  /-- What an entry is called. -/
  name : α → String
  /-- Every value has a position. -/
  mem_all : ∀ a : α, a ∈ all

namespace Table

variable {α : Type} [DecidableEq α] [Table α]

/-- The stored position of a value. -/
def index (a : α) : Nat :=
  (all (α := α)).idxOf a

/-- The value at a stored position, if the table reaches that far. -/
def ofIndex? (i : Nat) : Option α :=
  (all (α := α))[i]?

/-- What is stored for a value reads back as that value. -/
theorem ofIndex?_index (a : α) : ofIndex? (index a) = some a := by
  have h : index a < (all (α := α)).length := List.idxOf_lt_length_of_mem (mem_all a)
  rw [ofIndex?, List.getElem?_eq_getElem h]
  exact congrArg some (List.getElem_idxOf h)

end Table
end Groovebox
