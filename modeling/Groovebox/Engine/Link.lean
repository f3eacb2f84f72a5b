import Groovebox.Engine.Call
/-! # The link to the engine

Calls wait in a queue of bounded length until the engine takes them; a call that finds the queue
full is dropped. The engine publishes facts, such as a scale it detected. -/

namespace Groovebox

/-- What the engine made known, the latest first. -/
abbrev Facts := List (String × String)

namespace Facts

/-- The fact of a name that was made known last. -/
def get? (f : Facts) (key : String) : Option String :=
  f.lookup key

/-- Makes a fact known. -/
def set (f : Facts) (key value : String) : Facts :=
  (key, value) :: f

/-- Forgets the fact of a name. -/
def erase (f : Facts) (key : String) : Facts :=
  f.filter (·.1 ≠ key)

end Facts

/-- A link to the engine. -/
structure Link where
  /-- The most calls that wait at a time. -/
  capacity : Nat
  /-- The calls that wait, the oldest first. -/
  queue : List Call := []
  /-- What the engine made known. -/
  facts : Facts := []
deriving Repr

namespace Link

/-- Queues a call, or drops it when the queue is full. -/
def send (l : Link) (c : Call) : Link :=
  if l.queue.length < l.capacity then { l with queue := l.queue ++ [c] } else l

/-- Takes the oldest call. -/
def receive (l : Link) : Option Call × Link :=
  (l.queue.head?, { l with queue := l.queue.tail })

/-- Makes a fact known. -/
def publish (l : Link) (key value : String) : Link :=
  { l with facts := l.facts.set key value }

end Link
end Groovebox
