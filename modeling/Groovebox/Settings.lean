import Groovebox.Library
/-! # Settings of a library

Four numbers that a library may set in a file of its own. They are read from an object by name or
from an array by position; anything else than whole numbers makes the whole file void. -/

namespace Groovebox

/-- The settings. -/
structure Settings where
  /-- How long edits rest before they are saved, in milliseconds. -/
  saveDebounce : Nat := 500
  /-- The time between two ticks, in milliseconds. -/
  tick : Nat := 16
  /-- The most bytes in one bulk call. -/
  bulkChunk : Nat := 60000
  /-- The most calls that wait for the engine. -/
  engineQueue : Nat := 4096
deriving DecidableEq, Repr

namespace Settings

instance : Inhabited Settings := ⟨{}⟩

/-- The names of the settings, in order. -/
def names : List String :=
  ["save_debounce_ms", "tick_ms", "bulk_chunk_bytes", "engine_queue"]

/-- The settings with the one at a position changed. -/
def put (s : Settings) (position : Nat) (n : Nat) : Settings :=
  match position with
  | 0 => { s with saveDebounce := n }
  | 1 => { s with tick := n }
  | 2 => { s with bulkChunk := n }
  | 3 => { s with engineQueue := n }
  | _ => s

/-- The settings with every number but the resting time one at least. -/
def sanitized (s : Settings) : Settings :=
  { s with
    tick := max s.tick 1
    bulkChunk := max s.bulkChunk 1
    engineQueue := max s.engineQueue 1 }

/-- A whole number of 64 bits, as it must be written. -/
def nat64? : Raw → Option Nat
  | .number x =>
    if x.negative || x.fraction.isSome || x.exponent.isSome then none
    else Word.nat64? (Numeral.natOf x.whole)
  | _ => none

/-- Reads members in turn. Unknown names are passed over, whatever their value; a known name must
not come twice. -/
def readMembers? (seen : List Nat) (s : Settings) :
    List (List Piece × Raw) → Option Settings
  | [] => some s
  | (name, value) :: rest =>
    match Piece.text? name with
    | none => none
    | some name =>
      let position := names.idxOf name
      if position < names.length then
        if seen.contains position then none
        else
          match nat64? value with
          | some n => readMembers? (position :: seen) (s.put position n) rest
          | none => none
      else readMembers? seen s rest

/-- Reads items from a position on; there are no more than there are settings. -/
def readItems? (position : Nat) (s : Settings) : List Raw → Option Settings
  | [] => some s
  | item :: rest =>
    if position < names.length then
      match nat64? item with
      | some n => readItems? (position + 1) (s.put position n) rest
      | none => none
    else none

/-- The settings that a text holds. -/
def ofText? (text : String) : Option Settings :=
  match Raw.parse? text with
  | some (.obj members) => readMembers? [] {} members
  | some (.arr items) => readItems? 0 {} items
  | _ => none

/-- The settings of a library; without a file that can be read they are the default. -/
def load (l : Library) : Settings :=
  match (l.disk.text? (l.root ++ ["config.json"])).bind ofText? with
  | some s => s.sanitized
  | none => {}

end Settings
end Groovebox
