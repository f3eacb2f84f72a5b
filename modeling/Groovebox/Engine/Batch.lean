import Groovebox.Engine.Call
/-! # Batches

While a batch is open, calls to the engine are held back; closing it sends them as bulk calls. -/

namespace Groovebox

/-- Calls on their way to the engine: while a batch is open they are held back. -/
structure Batch where
  /-- The most bytes in one bulk call. -/
  limit : Nat
  /-- The calls held back, while a batch is open. -/
  held : Option (List Call) := none
  /-- The calls that went to the engine. -/
  sent : List Call := []
deriving Repr

namespace Batch

/-- Opens a batch; what an open batch held back is lost. -/
def start (b : Batch) : Batch :=
  { b with held := some [] }

/-- Sends a call, or holds it back while a batch is open. -/
def send (b : Batch) (c : Call) : Batch :=
  match b.held with
  | some held => { b with held := some (held ++ [c]) }
  | none => { b with sent := b.sent ++ [c] }

/-- The bulk calls that closing the batch sends. -/
def due (b : Batch) : List Call :=
  Call.pack b.limit (b.held.getD [])

/-- Closes the batch and sends what it held back. -/
def finish (b : Batch) : Batch :=
  { b with held := none, sent := b.sent ++ b.due }

/-! ## Closing a batch pair by pair -/

/-- Sends a bulk call with the given text. -/
def emit (b : Batch) (chunk : String) : Batch :=
  { b with sent := b.sent ++ [{ key := Call.bulkKey, value := chunk }] }

/-- Sends pairs as bulk calls. `chunk` is the text of the pairs that wait; it is sent before a pair
that would take it past the limit, and at the end. `calls` counts the bulk calls. -/
def stream (b : Batch) (chunk : String) (calls : Nat) : List Call → Nat × Batch
  | [] => if chunk = "" then (calls, b) else (calls + 1, b.emit chunk)
  | c :: rest =>
    if chunk ≠ "" ∧ b.limit < chunk.utf8ByteSize + c.size then
      (b.emit chunk).stream c.entry (calls + 1) rest
    else b.stream (chunk ++ c.entry) calls rest

/-- Closes the batch. The answer is the number of bulk calls that were sent for it. -/
def close (b : Batch) : Nat × Batch :=
  match b.held with
  | none => (0, b)
  | some held => { b with held := none }.stream "" 0 held

/-! ## Acts -/

/-- What can be done with a batch. -/
inductive Act
  | start
  | send (c : Call)
  | close
deriving DecidableEq, Repr

/-- Does one thing. -/
def step (b : Batch) : Act → Batch
  | .start => b.start
  | .send c => b.send c
  | .close => b.close.2

/-- Does one thing after the other. -/
def run (b : Batch) (acts : List Act) : Batch :=
  acts.foldl step b

/-- What a batch of some pairs sends, from its opening to its end. -/
def sentFor (limit : Nat) (pairs : List Call) : List Call :=
  (run { limit } (.start :: (pairs.map .send ++ [.close]))).sent

/-- The calls that are made, in order. -/
def made (acts : List Act) : List Call :=
  acts.filterMap fun
    | .send c => some c
    | _ => none

end Batch
end Groovebox
