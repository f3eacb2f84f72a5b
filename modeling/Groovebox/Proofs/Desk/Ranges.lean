import Mathlib.Tactic
import Groovebox.Proofs.Desk.Runs
/-! # Every song on a desk is well-formed

Whatever is asked of a desk, in any order and at any time, and whatever others do to the disk
meanwhile, the song on it stays in the ranges of `Groovebox.Proofs.WellFormed`. The main statement
is `Desk.song_wellFormed_along_run`. Generating on its own changes the song without marking it as
dirty, so the invariant of `Groovebox.Proofs.Desk.Runs` does not hold here; what is kept is said of
the song alone. -/

namespace Groovebox

/-- The song of a session is well-formed after going to another set, and after failing to. -/
theorem Session.switchTo_wellFormed {s : Session} (h : s.song.WellFormed) (index now : Nat) :
    (s.switchTo index now).2.song.WellFormed := by
  rcases hswitch : s.switchTo index now with ⟨answer, s'⟩
  cases answer with
  | false =>
    rw [song_of_switchTo_refused hswitch]
    exact h
  | true =>
    -- What is taken up was read from the disk.
    unfold switchTo at hswitch
    split at hswitch
    · split at hswitch
      · cases hswitch
        exact Library.load_wellFormed _ index
      · cases hswitch
    · cases hswitch
      exact Library.load_wellFormed _ index

namespace Desk

/-! ## Actions -/

/-- What can happen to a desk: the events of a run, generating on its own, and anything that others
do to the disk. -/
inductive Action
  | event (e : Event)
  | generate (track : Nat)
  | replaceDisk (disk : Disk)

/-- What an action makes of a desk. -/
def act (d : Desk) : Action → Desk
  | .event e => d.step e
  | .generate track => (d.generate track).2
  | .replaceDisk disk => { d with session.library.disk := disk }

/-- What actions in turn make of a desk. -/
def perform (d : Desk) (actions : List Action) : Desk :=
  actions.foldl act d

variable {d : Desk}

/-! ## One action -/

theorem step_wellFormed (h : d.song.WellFormed) (e : Event) : (d.step e).song.WellFormed := by
  have hkept {s : Song} (hs : s = d.song) : s.WellFormed := hs ▸ h
  cases e with
  | edit e now =>
    rcases apply_session d e now with hsame | ⟨song, hsong, hnew⟩
    · exact hkept (congrArg Session.song hsame)
    · have hsession : (d.step (.edit e now)).session = { d.session with song }.markDirty now := hnew
      rw [Desk.song, hsession]
      exact hsong h
  | tick now => exact hkept (Session.tick_writes d.session now).song
  | setPlaying playing now => exact hkept (Session.setPlaying_writes d.session playing now).song
  | flush now => exact hkept (Session.flush_writes d.session now).song
  | openSet index now =>
    rcases openSet_session d index now with hsame | hnew
    · exact hkept (congrArg Session.song hsame)
    · have hsession : (d.step (.openSet index now)).session =
          (d.session.switchTo index now).2 := hnew
      rw [Desk.song, hsession]
      exact Session.switchTo_wellFormed h index now
  | hear facts => exact h
  | lock readOnly => exact h

theorem generate_wellFormed (h : d.song.WellFormed) (track : Nat) :
    (d.generate track).2.song.WellFormed := by
  by_cases ht : track < 16
  · exact (generate_edited ht).wellFormed h
  · rw [generate, dif_neg ht]
    exact h

/-- Every action keeps the song well-formed. -/
theorem act_wellFormed (h : d.song.WellFormed) (a : Action) : (d.act a).song.WellFormed := by
  cases a with
  | event e => exact step_wellFormed h e
  | generate track => exact generate_wellFormed h track
  | replaceDisk disk => exact h

/-! ## Runs -/

theorem perform_wellFormed (actions : List Action) :
    ∀ {d : Desk}, d.song.WellFormed → (d.perform actions).song.WellFormed := by
  induction actions with
  | nil => exact id
  | cons a actions ih => exact fun h => ih (act_wellFormed h a)

/-- In every run, from any library and with any actions, the song is well-formed, and so the text
that is written for it reads as the same song. -/
theorem song_wellFormed_along_run (library : Library) (setIndex : Nat) (settings : Settings)
    (facts : Facts) (seed : UInt64) (actions : List Action) :
    let d := (start library setIndex settings facts seed).perform actions
    d.song.WellFormed ∧ Library.songOf d.song.text = d.song := by
  intro d
  have hwell : d.song.WellFormed :=
    perform_wellFormed actions (start_sound library setIndex settings facts seed).wellFormed
  exact ⟨hwell, Library.songOf_text_of_wellFormed hwell⟩

end Desk
end Groovebox
