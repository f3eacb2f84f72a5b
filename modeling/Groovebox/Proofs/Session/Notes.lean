import Groovebox.Session
/-! # Sessions that take notes

What happens to a session, in any order and at any time; and a session that notes down what it does
on the way: when its song is marked, which saves it tries and how they end, and which due saves it
drops. The operations are those of `Groovebox.Session` with a note at each such place. The main
statement is `Session.Noted.run_session`: taking notes changes nothing, so what the notes say is
said of the session itself. -/

namespace Groovebox.Session

/-! ## Runs -/

/-- What can happen to a session; times are in milliseconds. Between its own operations, whoever
holds it may change the song, and anything may happen to the disk. -/
inductive Event
  | edit (song : Song)
  | useLibrary (library : Library)
  | markDirty (now : Nat)
  | tick (now : Nat)
  | flush (now : Nat)
  | setPlaying (playing : Bool) (now : Nat)
  | switchTo (index now : Nat)

/-- What an event makes of a session. -/
def step (s : Session) : Event → Session
  | .edit song => { s with song }
  | .useLibrary library => { s with library }
  | .markDirty now => s.markDirty now
  | .tick now => (s.tick now).2
  | .flush now => (s.flush now).2
  | .setPlaying playing now => (s.setPlaying playing now).2
  | .switchTo index now => (s.switchTo index now).2

/-- What events in turn make of a session. -/
def run (s : Session) (events : List Event) : Session :=
  events.foldl step s

/-! ## Notes -/

/-- What a session notes down. -/
inductive Note
  /-- The song was marked as edited. -/
  | marked (now : Nat)
  /-- It was tried to write a song to a set, with success or not. -/
  | tried (now set : Nat) (song : Song) (written : Bool)
  /-- A save was due for another set than the active one, and was dropped. -/
  | dropped (set : Nat)

/-- Whether a note says that a song could not be written. -/
def Note.failed : Note → Bool
  | .tried _ _ _ written => !written
  | _ => false

/-- A session with its notes, the oldest first. -/
structure Noted where
  /-- The session. -/
  session : Session
  /-- The notes. -/
  notes : List Note := []

namespace Noted

/-- Adds a note. -/
def note (n : Noted) (x : Note) : Noted :=
  { n with notes := n.notes ++ [x] }

/-- Marks the song as edited. -/
def markDirty (n : Noted) (now : Nat) : Noted :=
  { n with session := n.session.markDirty now }.note (.marked now)

/-- Tries to write the song. -/
def save (n : Noted) (now : Nat) : Bool × Noted :=
  let (written, session) := n.session.save now
  (written, { n with session }.note (.tried now n.session.setIndex n.session.song written))

/-- Saves that are due, in turn; those of other sets are dropped. -/
def saveDue (n : Noted) (now : Nat) : List Nat → Bool × Noted
  | [] => (false, n)
  | set :: rest =>
    if set = n.session.setIndex then
      let (saved, n) := n.save now
      let (more, n) := n.saveDue now rest
      (saved || more, n)
    else (n.note (.dropped set)).saveDue now rest

/-- Does what is due, unless the transport is running. -/
def tick (n : Noted) (now : Nat) : Bool × Noted :=
  if n.session.playing then (false, n)
  else { n with session.queue := n.session.queue.after now }.saveDue now
    (n.session.queue.dueAt now)

/-- Writes the song now if it is dirty. -/
def flush (n : Noted) (now : Nat) : Bool × Noted :=
  if n.session.dirty then
    { n with session.queue := n.session.queue.cancel n.session.setIndex }.save now
  else (false, n)

/-- Starts or stops the transport. -/
def setPlaying (n : Noted) (playing : Bool) (now : Nat) : Bool × Noted :=
  let stopped := n.session.playing && !playing
  let n := { n with session.playing := playing }
  if stopped then n.flush now else (false, n)

/-- Goes to another set. -/
def switchTo (n : Noted) (index now : Nat) : Bool × Noted :=
  if n.session.dirty then
    match n.flush now with
    | (true, n) => (true, { n with session := n.session.takeUp index })
    | (false, n) => (false, n)
  else (true, { n with session := n.session.takeUp index })

/-- What an event makes of a session that takes notes. -/
def step (n : Noted) : Event → Noted
  | .edit song => { n with session.song := song }
  | .useLibrary library => { n with session.library := library }
  | .markDirty now => n.markDirty now
  | .tick now => (n.tick now).2
  | .flush now => (n.flush now).2
  | .setPlaying playing now => (n.setPlaying playing now).2
  | .switchTo index now => (n.switchTo index now).2

/-- What events in turn make of a session that takes notes. -/
def run (n : Noted) (events : List Event) : Noted :=
  events.foldl step n

/-! ## Taking notes changes nothing -/

/-- An answer with the session alone. -/
def forget (r : Bool × Noted) : Bool × Session :=
  (r.1, r.2.session)

theorem forget_save (n : Noted) (now : Nat) : forget (n.save now) = n.session.save now :=
  rfl

/-- The saves that are due are the same ones, tried in the same turn. -/
theorem forget_saveDue (now : Nat) (sets : List Nat) :
    ∀ n : Noted, forget (n.saveDue now sets) = n.session.saveDue now sets := by
  -- Each save that is tried changes the session, so the induction is for every session.
  induction sets with
  | nil => exact fun n => rfl
  | cons set sets ih =>
    intro n
    unfold saveDue Session.saveDue
    split
    · -- The save of the active set is tried, and both sides go on from what it leaves.
      have hrest : forget ((n.save now).2.saveDue now sets) =
          (n.session.save now).2.saveDue now sets := ih (n.save now).2
      exact congrArg (fun r : Bool × Session => ((n.session.save now).1 || r.1, r.2)) hrest
    · -- A dropped save leaves a note, and no other trace.
      exact ih (n.note (.dropped set))

/-- A tick with notes answers as a tick without, and leaves the same session. -/
theorem forget_tick (n : Noted) (now : Nat) : forget (n.tick now) = n.session.tick now := by
  unfold tick Session.tick
  split
  · rfl
  · exact forget_saveDue now _ _

/-- Writing the song now goes the same way with notes and without. -/
theorem forget_flush (n : Noted) (now : Nat) : forget (n.flush now) = n.session.flush now := by
  unfold flush Session.flush
  split
  · exact forget_save _ now
  · rfl

/-- Starting or stopping the transport, which may write the song, goes the same way with notes and
without. -/
theorem forget_setPlaying (n : Noted) (playing : Bool) (now : Nat) :
    forget (n.setPlaying playing now) = n.session.setPlaying playing now := by
  unfold setPlaying Session.setPlaying
  simp only
  split
  · -- Stopping is all that writes.
    exact forget_flush _ now
  · rfl

/-- With notes and without, a session goes to another set, or stays, for the same reasons. -/
theorem forget_switchTo (n : Noted) (index now : Nat) :
    forget (n.switchTo index now) = n.session.switchTo index now := by
  have hflush := forget_flush n now
  unfold switchTo Session.switchTo
  rw [← hflush]
  split
  · -- The song is written first, and the answer decides whether the session goes.
    rcases n.flush now with ⟨written, m⟩
    cases written <;> rfl
  · rfl

/-- No event tells a session that takes notes from one that takes none. -/
theorem step_session (n : Noted) (e : Event) : (n.step e).session = n.session.step e := by
  cases e with
  | edit song => rfl
  | useLibrary library => rfl
  | markDirty now => rfl
  | tick now => exact congrArg Prod.snd (forget_tick n now)
  | flush now => exact congrArg Prod.snd (forget_flush n now)
  | setPlaying playing now => exact congrArg Prod.snd (forget_setPlaying n playing now)
  | switchTo index now => exact congrArg Prod.snd (forget_switchTo n index now)

/-- A session that takes notes goes the way of one that takes none. -/
theorem run_session (events : List Event) :
    ∀ n : Noted, (n.run events).session = n.session.run events := by
  induction events with
  | nil => exact fun n => rfl
  | cons e events ih =>
    intro n
    -- The rest of the run starts at what the first event leaves.
    have hrest := ih (n.step e)
    rw [step_session] at hrest
    exact hrest

end Noted
end Groovebox.Session
