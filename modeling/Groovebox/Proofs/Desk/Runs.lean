import Mathlib.Tactic
import Groovebox.Proofs.Desk.Changes
import Groovebox.Proofs.Session
/-! # Runs of a desk

A run starts by opening a set and goes on with any events in any order: edits, ticks, the
transport, flushes and switches, each at any time. Between them the engine may make facts known,
and the disk may begin or cease to refuse changes, so that every save may succeed or fail. The
main statement is `Desk.saved_along_run`: no edit is lost and no set is written over. -/

namespace Groovebox.Desk

/-- What can happen to a desk; times are in milliseconds. -/
inductive Event
  | edit (e : Edit) (now : Nat)
  | tick (now : Nat)
  | setPlaying (playing : Bool) (now : Nat)
  | flush (now : Nat)
  | openSet (index now : Nat)
  /-- The engine makes facts known. -/
  | hear (facts : Facts)
  /-- The disk begins or ceases to refuse changes. -/
  | lock (readOnly : Bool)

/-- What an event makes of a desk. -/
def step (d : Desk) : Event → Desk
  | .edit e now => (d.apply e now).2
  | .tick now => (d.tick now).2
  | .setPlaying playing now => (d.setPlaying playing now).2
  | .flush now => (d.flush now).2
  | .openSet index now => (d.openSet index now).2
  | .hear facts => { d with facts }
  | .lock readOnly =>
    { d with session.library.disk.readOnly := readOnly }

/-- What events in turn make of a desk. -/
def run (d : Desk) (events : List Event) : Desk :=
  events.foldl step d

variable {d : Desk}

/-! ## One event -/

/-- The generator's settings are no part of the session. -/
theorem adjust_session (d : Desk) (e : Edit) : (d.adjust e).session = d.session := by
  cases e <;> rfl

/-- An edit leaves the session as it was or marks an edited song, which is well-formed if the old
one was. -/
theorem apply_session (d : Desk) (e : Edit) (now : Nat) :
    (d.apply e now).2.session = d.session ∨
      ∃ song, (d.song.WellFormed → song.WellFormed) ∧
        (d.apply e now).2.session = { d.session with song }.markDirty now := by
  rw [apply_eq]
  split
  · rename_i d' hd'
    have hedited := edit?_edited hd'
    right
    -- What is marked dirty is the old session with the new song.
    refine ⟨d'.song, hedited.wellFormed, ?_⟩
    show d'.session.markDirty now = _
    rw [hedited.session]
  · left
    exact adjust_session d e

/-- Opening a set does to the session what going to this set does, or nothing. -/
theorem openSet_session (d : Desk) (index now : Nat) :
    (d.openSet index now).2.session = d.session ∨
      (d.openSet index now).2.session = (d.session.switchTo index now).2 := by
  unfold openSet
  split
  · left
    rfl
  · right
    split
    · rename_i d' h
      exact (congrArg (fun r => r.2.session) h).symm
    · rename_i d' h
      exact (congrArg (fun r => r.2.session) h).symm

/-- Every event keeps the invariant of the session. -/
theorem step_sound (h : d.session.Sound) (e : Event) : (d.step e).session.Sound := by
  cases e with
  | edit e now =>
    rcases apply_session d e now with hsame | ⟨song, hsong, hnew⟩
    · exact hsame ▸ h
    · rw [step, hnew]
      exact Session.markDirty_sound (hsong h.wellFormed) now
  | tick now => exact (Session.tick_writes d.session now).sound h
  | setPlaying playing now => exact (Session.setPlaying_writes d.session playing now).sound h
  | flush now => exact (Session.flush_writes d.session now).sound h
  | openSet index now =>
    rcases openSet_session d index now with hsame | hnew
    · exact hsame ▸ h
    · rw [step, hnew]
      exact Session.switchTo_sound h index now
  | hear facts => exact h
  | lock readOnly => exact ⟨h.wellFormed, h.saved⟩

/-- No event writes the file of another set than the active one. -/
theorem step_library (d : Desk) (e : Event) :
    Session.SameBut d.session.setIndex d.session.library (d.step e).session.library := by
  cases e with
  | edit e now =>
    rcases apply_session d e now with hsame | ⟨song, -, hnew⟩
    · rw [step, hsame]
      exact Session.SameBut.refl _ _
    · rw [step, hnew]
      exact Session.SameBut.refl _ _
  | tick now => exact (Session.tick_writes d.session now).library
  | setPlaying playing now => exact (Session.setPlaying_writes d.session playing now).library
  | flush now => exact (Session.flush_writes d.session now).library
  | openSet index now =>
    rcases openSet_session d index now with hsame | hnew
    · rw [step, hsame]
      exact Session.SameBut.refl _ _
    · rw [step, hnew]
      exact Session.switchTo_library d.session index now
  | hear facts => exact Session.SameBut.refl _ _
  | lock readOnly => exact ⟨rfl, fun _ _ => rfl⟩

/-! ## Runs -/

/-- A desk starts with a song that is on disk. -/
theorem start_sound (library : Library) (setIndex : Nat) (settings : Settings) (facts : Facts)
    (seed : UInt64) : (start library setIndex settings facts seed).session.Sound :=
  Session.start_sound library _ _

/-- What every event keeps, every run keeps. -/
theorem run_keeps {P : Desk → Prop} (hstep : ∀ {d : Desk}, P d → ∀ e, P (d.step e))
    (events : List Event) : ∀ {d : Desk}, P d → P (d.run events) := by
  induction events with
  | nil => exact id
  | cons e events ih => exact fun h => ih (hstep h e)

theorem run_sound (events : List Event) (h : d.session.Sound) : (d.run events).session.Sound :=
  run_keeps (P := fun d => d.session.Sound) step_sound events h

/-- In every run, the active set loads as the song whenever the song is not dirty, and whatever
happens next leaves the files of all other sets as they are. -/
theorem saved_along_run (library : Library) (setIndex : Nat) (settings : Settings) (facts : Facts)
    (seed : UInt64) (events : List Event) :
    let d := (start library setIndex settings facts seed).run events
    (d.session.dirty = false → d.session.library.load d.session.setIndex = d.song) ∧
      ∀ (e : Event) (j : Nat), j ≠ d.session.setIndex →
        (d.step e).session.library.disk.node? ((d.step e).session.library.setPath j) =
          d.session.library.disk.node? (d.session.library.setPath j) := by
  intro d
  constructor
  · exact (run_sound events (start_sound library setIndex settings facts seed)).saved
  · -- The file of a set is found at its path, and the folder of the library stays.
    intro e j hj
    have hlibrary := step_library d e
    have hpath : (d.step e).session.library.setPath j = d.session.library.setPath j := by
      rw [Library.setPath, Library.setPath, hlibrary.root]
    rw [hpath]
    exact hlibrary.node? j hj

theorem saved_along_run_edited :
    let d := (start {} 0 {} [] 0).run [.edit (.toggleMute 3) 5, .flush 7]
    d.session.dirty = false ∧ d.session.library.load 0 = d.song ∧ (d.song.tracks.get 3).muted := by
  have h := (saved_along_run {} 0 {} [] 0 [.edit (.toggleMute 3) 5, .flush 7]).1
  have hdirty : ((start {} 0 {} [] 0).run [.edit (.toggleMute 3) 5, .flush 7]).session.dirty =
    false := by rfl
  exact ⟨hdirty, h hdirty, by rfl⟩

end Groovebox.Desk
