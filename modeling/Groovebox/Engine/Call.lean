import Groovebox.Text
/-! # Calls to the engine

The engine is a flat surface of named parameters. A call gives one of them a value, as text; a
bulk call carries many such pairs, each as two lines. -/

namespace Groovebox

/-- One parameter sent to the engine. -/
structure Call where
  /-- The name of the parameter. -/
  key : String
  /-- Its value. -/
  value : String
deriving DecidableEq, Repr

namespace Call

instance : Inhabited Call := ⟨⟨"", ""⟩⟩

/-- The parameter whose value is a list of other parameters. -/
def bulkKey : String := "bulk_set"

/-- The values a parameter was given, in order. -/
def valuesFor (key : String) (calls : List Call) : List String :=
  (calls.filter (·.key = key)).map Call.value

/-- The value a parameter was given last. -/
def last? (key : String) (calls : List Call) : Option String :=
  (valuesFor key calls).getLast?

/-! ## Bulk calls -/

/-- A pair as it stands in a bulk call. -/
def entry (c : Call) : String :=
  c.key ++ "\n" ++ c.value ++ "\n"

/-- The bytes a pair takes in a bulk call. -/
def size (c : Call) : Nat :=
  c.entry.utf8ByteSize

/-- The bulk call that carries some pairs. -/
def bulk (pairs : List Call) : Call :=
  { key := bulkKey, value := String.join (pairs.map entry) }

/-- Cuts pairs into runs of at most `limit` bytes, where a pair that is larger makes a run of its
own. The pairs in `started`, of `filled` bytes, begin the first run. -/
def runsFrom (limit : Nat) (started : List Call) (filled : Nat) : List Call → List (List Call)
  | [] => if started.isEmpty then [] else [started]
  | c :: rest =>
    if !started.isEmpty && limit < filled + c.size then
      started :: runsFrom limit [c] c.size rest
    else runsFrom limit (started ++ [c]) (filled + c.size) rest

/-- The bulk calls that carry some pairs in order, each of at most `limit` bytes or with a single
pair. -/
def pack (limit : Nat) (pairs : List Call) : List Call :=
  (runsFrom limit [] 0 pairs).map bulk

/-- The pairs that alternating lines of keys and values stand for; a key without a value is left
out. -/
def ofLines : List String → List Call
  | key :: value :: rest => { key, value } :: ofLines rest
  | _ => []

/-- The pairs in the value of a bulk call. -/
def unpack (payload : String) : List Call :=
  ofLines (Text.lines payload)

/-- The parameters that a call sets, in order. -/
def expand (c : Call) : List Call :=
  if c.key = bulkKey then unpack c.value else [c]

end Call

end Groovebox
