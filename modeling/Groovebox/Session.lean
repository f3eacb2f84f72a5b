import Groovebox.Library
import Groovebox.SaveQueue
/-! # Editing sessions

A session holds the song that is being edited and decides when it goes to disk: edits make it
dirty, and a tick saves it once it has rested for the debounce time and nothing is playing. -/

namespace Groovebox

/-- The song being edited, with the library it belongs to. -/
structure Session where
  /-- The song. -/
  song : Song
  /-- The set that the song is. -/
  setIndex : Nat
  /-- How long edits rest before they are saved, in milliseconds. -/
  debounce : Nat
  /-- Whether the transport is running. -/
  playing : Bool := false
  /-- Whether there are edits that are not on disk. -/
  dirty : Bool := false
  /-- The saves to come. -/
  queue : SaveQueue := {}
  /-- The library. -/
  library : Library
deriving Repr

namespace Session

/-- Opens a set of a library. -/
def start (library : Library) (setIndex debounce : Nat) : Session :=
  { song := library.load setIndex, setIndex, debounce, library }

/-- Notes that the song was edited, and starts its rest anew. -/
def markDirty (s : Session) (now : Nat) : Session :=
  { s with dirty := true, queue := s.queue.schedule s.setIndex (now + s.debounce) }

/-- Writes the song. If that is refused, it stays dirty and is tried again after another rest. The
answer says whether it was written. -/
def save (s : Session) (now : Nat) : Bool × Session :=
  match s.library.save s.setIndex s.song with
  | .ok library => (true, { s with dirty := false, library })
  | .error _ => (false, { s with queue := s.queue.schedule s.setIndex (now + s.debounce) })

/-- Saves that are due, in turn; those of other sets are dropped. -/
def saveDue (s : Session) (now : Nat) : List Nat → Bool × Session
  | [] => (false, s)
  | set :: rest =>
    if set = s.setIndex then
      let (saved, s) := s.save now
      let (more, s) := s.saveDue now rest
      (saved || more, s)
    else s.saveDue now rest

/-- Does what is due, unless the transport is running. The answer says whether a set was
written. -/
def tick (s : Session) (now : Nat) : Bool × Session :=
  if s.playing then (false, s)
  else { s with queue := s.queue.after now }.saveDue now (s.queue.dueAt now)

/-- Writes the song now if it is dirty. The answer says whether it was written. -/
def flush (s : Session) (now : Nat) : Bool × Session :=
  if s.dirty then { s with queue := s.queue.cancel s.setIndex }.save now else (false, s)

/-- Starts or stops the transport. Stopping writes what was put off meanwhile. -/
def setPlaying (s : Session) (playing : Bool) (now : Nat) : Bool × Session :=
  let stopped := s.playing && !playing
  let s := { s with playing }
  if stopped then s.flush now else (false, s)

/-- Takes up a set from disk. -/
def takeUp (s : Session) (index : Nat) : Session :=
  { s with setIndex := index, song := s.library.load index, dirty := false }

/-- Goes to another set, after the current one is written. If that is refused, nothing is
switched. -/
def switchTo (s : Session) (index now : Nat) : Bool × Session :=
  if s.dirty then
    match s.flush now with
    | (true, s) => (true, s.takeUp index)
    | (false, s) => (false, s)
  else (true, s.takeUp index)

end Session
end Groovebox
