import Mathlib.Tactic
import Groovebox.Proofs.Session.Notes
/-! # When a session saves

The queue of a session holds one save while the song is dirty and none otherwise
(`Session.Aligned`), so every operation comes down to at most one try at writing the song
(`Session.attempt_eq` says what that is). What an event does is said once, in `Session.Noted.Move`;
that the queue follows the flag, and that the time in the queue follows the notes
(`Session.Noted.Timed`), is proved from it by one induction over the events. The main statements are
`Session.queue_follows_dirty` and `Session.saves_after_rest`. -/

namespace Groovebox

/-! ## Queues for one set -/

namespace SaveQueue

variable {q : SaveQueue} {set : Nat}

/-- A queue for one set is empty once the save of this set is cancelled. -/
theorem cancel_of_only (h : ∀ e ∈ q.pending, e.set = set) : q.cancel set = {} := by
  have hnone : q.pending.filter (fun e => e.set ≠ set) = [] := by
    rw [List.filter_eq_nil_iff]
    intro e he
    simp [h e he]
  rw [cancel, hnone]

/-- Scheduling the set again replaces all that such a queue holds. -/
theorem schedule_of_only (h : ∀ e ∈ q.pending, e.set = set) (due : Nat) :
    q.schedule set due = { pending := [{ set, due }] } := by
  rw [schedule, cancel_of_only h]
  rfl

/-- Before anything is due, there is nothing to do and nothing leaves the queue. -/
theorem dueAt_of_early {now : Nat} (h : ∀ e ∈ q.pending, now < e.due) : q.dueAt now = [] := by
  have hnone : q.pending.filter (fun e => e.due ≤ now) = [] := by
    rw [List.filter_eq_nil_iff]
    intro e he
    have hlater := h e he
    simp only [decide_eq_true_eq]
    omega
  rw [dueAt, hnone, List.mergeSort_nil, List.map_nil]

theorem after_of_early {now : Nat} (h : ∀ e ∈ q.pending, now < e.due) : q.after now = q := by
  have hall : q.pending.filter (fun e => ¬ e.due ≤ now) = q.pending := by
    rw [List.filter_eq_self]
    intro e he
    have hlater := h e he
    simp only [decide_not, Bool.not_eq_true', decide_eq_false_iff_not]
    omega
  rw [after, hall]

theorem dueAt_of_due {due now : Nat} (h : due ≤ now) :
    ({ pending := [{ set, due }] } : SaveQueue).dueAt now = [set] := by
  simp [dueAt, h]

/-- A save that is due leaves the queue. -/
theorem after_of_due {due now : Nat} (h : due ≤ now) :
    ({ pending := [{ set, due }] } : SaveQueue).after now = {} := by
  simp [after, h]

end SaveQueue

namespace Session

/-! ## One save at most -/

/-- The queue holds the save of the active set if the song is dirty, and nothing otherwise. -/
structure Aligned (s : Session) : Prop where
  clean : s.dirty = false → s.queue = {}
  dirty : s.dirty = true → ∃ due, s.queue = { pending := [{ set := s.setIndex, due }] }

/-- Whether a tick finds something to do. -/
def isDue (s : Session) (now : Nat) : Bool :=
  !s.playing && s.queue.pending.any fun e => decide (e.due ≤ now)

/-- Tries to write the song; nothing else waits any more. -/
def attempt (s : Session) (now : Nat) : Bool × Session :=
  { s with queue := {} }.save now

/-- An attempt saves the song once. If that is refused, the save waits for another rest. -/
theorem attempt_eq {s : Session} {debounce : Nat} (h : s.debounce = debounce) (now : Nat) :
    s.attempt now = match s.library.save s.setIndex s.song with
      | .ok library => (true, { s with queue := {}, dirty := false, library })
      | .error _ => (false, { s with queue :=
          { pending := [{ set := s.setIndex, due := now + debounce }] } }) := by
  rw [← h]
  simp only [attempt, save]
  cases s.library.save s.setIndex s.song <;> rfl

/-- An aligned queue waits for the active set alone. -/
theorem Aligned.only {s : Session} (h : s.Aligned) : ∀ e ∈ s.queue.pending, e.set = s.setIndex := by
  intro e he
  cases hdirty : s.dirty with
  | false =>
    rw [h.clean hdirty] at he
    exact absurd he List.not_mem_nil
  | true =>
    rcases h.dirty hdirty with ⟨due, hqueue⟩
    rw [hqueue] at he
    rw [List.mem_singleton.1 he]

/-- Where something is due, the song is dirty. -/
theorem Aligned.dirty_of_isDue {s : Session} (h : s.Aligned) {now : Nat}
    (hdue : s.isDue now = true) : s.dirty = true := by
  cases hdirty : s.dirty with
  | false =>
    simp [isDue, h.clean hdirty] at hdue
  | true => rfl

/-- The time at which a note makes the song rest anew: it was marked, or it could not be written. -/
def Note.restart? : Note → Option Nat
  | .marked now => some now
  | .tried now _ _ false => some now
  | _ => none

namespace Noted

variable {n n' : Noted}

/-- The time of the last note that makes the song rest anew. -/
def lastRestart? (n : Noted) : Option Nat :=
  (n.notes.filterMap Note.restart?).getLast?

/-- Tries to write the song; nothing else waits any more. -/
def attempt (n : Noted) (now : Nat) : Bool × Noted :=
  { n with session.queue := {} }.save now

/-- A tick tries to write the song when its save is due, and does nothing else. -/
theorem tick_eq (h : n.session.Aligned) (now : Nat) :
    n.tick now = if n.session.isDue now then n.attempt now else (false, n) := by
  by_cases hdue : n.session.isDue now
  · rw [if_pos hdue]
    rcases h.dirty (h.dirty_of_isDue hdue) with ⟨due, hqueue⟩
    simp only [isDue, hqueue, List.any_cons, List.any_nil, Bool.or_false, Bool.and_eq_true,
      Bool.not_eq_true', decide_eq_true_eq] at hdue
    rcases hdue with ⟨hstopped, hpassed⟩
    -- The only save that is due is the one of the active set.
    rw [tick, hstopped, if_neg Bool.false_ne_true, hqueue, SaveQueue.dueAt_of_due hpassed,
      SaveQueue.after_of_due hpassed, saveDue, if_pos rfl]
    simp only [saveDue, Bool.or_false]
    rfl
  · rw [if_neg hdue, tick]
    split
    · rfl
    · rename_i hstopped
      have hearly : ∀ e ∈ n.session.queue.pending, now < e.due := by
        intro e he
        by_contra hlate
        apply hdue
        simp only [isDue, Bool.and_eq_true, Bool.not_eq_true', List.any_eq_true, decide_eq_true_eq]
        exact ⟨Bool.eq_false_iff.2 hstopped, e, he, Nat.le_of_not_lt hlate⟩
      rw [SaveQueue.dueAt_of_early hearly, SaveQueue.after_of_early hearly]
      rfl

/-- Writing the song now is an attempt if the song is dirty. -/
theorem flush_eq (h : n.session.Aligned) (now : Nat) :
    n.flush now = if n.session.dirty then n.attempt now else (false, n) := by
  rw [flush, SaveQueue.cancel_of_only h.only]
  rfl

/-- Stopping the transport is an attempt if the song is dirty; anything else sets the transport
only. -/
theorem setPlaying_eq (h : n.session.Aligned) (playing : Bool) (now : Nat) :
    n.setPlaying playing now =
      if n.session.playing && !playing && n.session.dirty then
        { n with session.playing := playing }.attempt now
      else (false, { n with session.playing := playing }) := by
  -- Whether the transport runs has no part in the alignment.
  have haligned : { n with session.playing := playing }.session.Aligned := ⟨h.clean, h.dirty⟩
  simp only [setPlaying]
  rw [flush_eq haligned now]
  cases n.session.playing && !playing <;> rfl

/-- A clean session goes to another set at once. -/
theorem switchTo_of_clean (hclean : n.session.dirty = false) (index now : Nat) :
    n.switchTo index now = (true, { n with session := n.session.takeUp index }) := by
  rw [switchTo, hclean, if_neg Bool.false_ne_true]

/-- A dirty session goes to another set once its song is written. -/
theorem switchTo_of_written {now : Nat} (h : n.session.Aligned) (hdirty : n.session.dirty = true)
    (hattempt : n.attempt now = (true, n')) (index : Nat) :
    n.switchTo index now = (true, { n' with session := n'.session.takeUp index }) := by
  rw [switchTo, if_pos hdirty, flush_eq h, if_pos hdirty, hattempt]

/-- A dirty session stays if its song cannot be written. -/
theorem switchTo_of_refused {now : Nat} (h : n.session.Aligned) (hdirty : n.session.dirty = true)
    (hattempt : n.attempt now = (false, n')) (index : Nat) :
    n.switchTo index now = (false, n') := by
  rw [switchTo, if_pos hdirty, flush_eq h, if_pos hdirty, hattempt]

/-! ## What one event does -/

/-- A session waits for its save, one rest after a time. -/
structure WaitsFrom (now : Nat) (n : Noted) (s : Session) : Prop where
  dirty : s.dirty = true
  setIndex : s.setIndex = n.session.setIndex
  debounce : s.debounce = n.session.debounce
  queue : s.queue = { pending := [{ set := n.session.setIndex, due := now + n.session.debounce }] }

/-- The ways in which one event moves an aligned session. -/
inductive Move (n : Noted) : Noted → Prop
  /-- Nothing is noted, and what waits goes on waiting. A clean session may go to another set. -/
  | quiet {s : Session} (dirty : s.dirty = n.session.dirty) (queue : s.queue = n.session.queue)
      (debounce : s.debounce = n.session.debounce)
      (setIndex : s.dirty = true → s.setIndex = n.session.setIndex) : Move n { n with session := s }
  /-- The song is marked, and its save waits from now on. -/
  | marked (now : Nat) {s : Session} (waits : WaitsFrom now n s) :
      Move n ({ n with session := s }.note (.marked now))
  /-- The song is written, and nothing waits any more. -/
  | written (now : Nat) {s : Session} (dirty : s.dirty = false) (queue : s.queue = {})
      (debounce : s.debounce = n.session.debounce) :
      Move n ({ n with session := s }.note (.tried now n.session.setIndex n.session.song true))
  /-- The song could not be written, and its save waits from now on. -/
  | failed (now : Nat) {s : Session} (waits : WaitsFrom now n s) :
      Move n ({ n with session := s }.note (.tried now n.session.setIndex n.session.song false))

theorem Move.refl (n : Noted) : Move n n :=
  .quiet rfl rfl rfl fun _ => rfl

/-- Whether the transport runs has no part in a move. -/
theorem Move.of_playing {playing : Bool} (h : Move { n with session.playing := playing } n') :
    Move n n' := by
  cases h with
  | quiet dirty queue debounce setIndex => exact .quiet dirty queue debounce setIndex
  | marked now waits => exact .marked now ⟨waits.dirty, waits.setIndex, waits.debounce, waits.queue⟩
  | written now dirty queue debounce => exact .written now dirty queue debounce
  | failed now waits => exact .failed now ⟨waits.dirty, waits.setIndex, waits.debounce, waits.queue⟩

/-- An attempt that succeeds leaves a clean session and a note. -/
theorem attempt_of_ok {library : Library}
    (h : n.session.library.save n.session.setIndex n.session.song = .ok library) (now : Nat) :
    n.attempt now =
      (true, { n with session := { n.session with queue := {}, dirty := false, library } }.note
        (.tried now n.session.setIndex n.session.song true)) := by
  simp only [attempt, save, Session.save, h]

/-- An attempt that fails leaves the same save to come, one rest later. -/
theorem attempt_of_error {fault : LibraryFault}
    (h : n.session.library.save n.session.setIndex n.session.song = .error fault) (now : Nat) :
    n.attempt now =
      (false, { n with session := { n.session with queue :=
          { pending := [{ set := n.session.setIndex, due := now + n.session.debounce }] } } }.note
        (.tried now n.session.setIndex n.session.song false)) := by
  simp only [attempt, save, Session.save, h]
  rfl

/-- Trying to write a dirty song either writes it or waits again. -/
theorem attempt_move (hdirty : n.session.dirty = true) (now : Nat) :
    Move n (n.attempt now).2 := by
  cases hsave : n.session.library.save n.session.setIndex n.session.song with
  | ok library =>
    rw [attempt_of_ok hsave]
    exact .written now rfl rfl rfl
  | error fault =>
    rw [attempt_of_error hsave]
    exact .failed now ⟨hdirty, rfl, rfl, rfl⟩

/-- Writing the song now is an attempt, or nothing. -/
theorem flush_move (h : n.session.Aligned) (now : Nat) : Move n (n.flush now).2 := by
  rw [flush_eq h]
  split
  · rename_i hdirty
    exact attempt_move hdirty now
  · exact Move.refl n

/-- Going to another set writes the song first if it is dirty, and stays if that fails. -/
theorem switchTo_move (h : n.session.Aligned) (index now : Nat) :
    Move n (n.switchTo index now).2 := by
  cases hdirty : n.session.dirty with
  | false =>
    -- Nothing waits, so the session may go.
    rw [switchTo_of_clean hdirty]
    exact .quiet hdirty.symm rfl rfl fun h => Bool.noConfusion h
  | true =>
    cases hsave : n.session.library.save n.session.setIndex n.session.song with
    | ok library =>
      rw [switchTo_of_written h hdirty (attempt_of_ok hsave now)]
      exact .written now rfl rfl rfl
    | error fault =>
      rw [switchTo_of_refused h hdirty (attempt_of_error hsave now)]
      exact .failed now ⟨hdirty, rfl, rfl, rfl⟩

/-- Every event moves an aligned session in one of the four ways. -/
theorem step_move (h : n.session.Aligned) (e : Event) : Move n (n.step e) := by
  cases e with
  | edit song => exact .quiet rfl rfl rfl fun _ => rfl
  | useLibrary library => exact .quiet rfl rfl rfl fun _ => rfl
  | markDirty now => exact .marked now ⟨rfl, rfl, rfl, SaveQueue.schedule_of_only h.only _⟩
  | tick now =>
    rw [step, tick_eq h]
    split
    · rename_i hdue
      exact attempt_move (h.dirty_of_isDue hdue) now
    · exact Move.refl n
  | flush now => exact flush_move h now
  | setPlaying playing now =>
    rw [step, setPlaying_eq h]
    split
    · rename_i hstops
      have hdirty : n.session.dirty = true := (Bool.and_eq_true_iff.1 hstops).2
      exact (attempt_move (n := { n with session.playing := playing }) hdirty now).of_playing
    · exact .quiet rfl rfl rfl fun _ => rfl
  | switchTo index now => exact switchTo_move h index now

/-! ## What a run keeps -/

/-- A move keeps queue and flag aligned. -/
theorem Move.aligned (h : Move n n') (hn : n.session.Aligned) : n'.session.Aligned := by
  -- A session that waits has scheduled its own set alone.
  have hwaits {now : Nat} {s : Session} (waits : WaitsFrom now n s) : s.Aligned := by
    refine ⟨fun hclean => ?_, fun _ => ⟨_, waits.setIndex ▸ waits.queue⟩⟩
    exact Bool.noConfusion (hclean.symm.trans waits.dirty)
  cases h with
  | quiet dirty queue debounce setIndex =>
    refine ⟨fun hclean => queue.trans (hn.clean (dirty ▸ hclean)), fun hdirty => ?_⟩
    rcases hn.dirty (dirty ▸ hdirty) with ⟨due, hqueue⟩
    refine ⟨due, queue.trans ?_⟩
    rw [hqueue, setIndex hdirty]
  | marked now waits => exact hwaits waits
  | written now dirty queue debounce =>
    refine ⟨fun _ => queue, fun hdirty => ?_⟩
    exact Bool.noConfusion (dirty.symm.trans hdirty)
  | failed now waits => exact hwaits waits

theorem Move.debounce (h : Move n n') : n'.session.debounce = n.session.debounce := by
  cases h with
  | quiet dirty queue debounce setIndex => exact debounce
  | marked now waits => exact waits.debounce
  | written now dirty queue debounce => exact debounce
  | failed now waits => exact waits.debounce

/-- The queue is aligned, and the save in it is due one rest after the last note that makes the song
rest. No save of another set was ever due. -/
structure Timed (debounce : Nat) (n : Noted) : Prop where
  aligned : n.session.Aligned
  settled : n.session.debounce = debounce
  due : n.session.dirty = true → ∃ rest, n.lastRestart? = some rest ∧
    n.session.queue = { pending := [{ set := n.session.setIndex, due := rest + debounce }] }
  dropped : ∀ set, .dropped set ∉ n.notes

/-- A note that makes the song rest anew is the last one that does. -/
theorem lastRestart?_note {x : Note} {now : Nat} (h : x.restart? = some now) :
    (n.note x).lastRestart? = some now := by
  rw [lastRestart?, note, List.filterMap_append, List.filterMap_cons_some h, List.filterMap_nil,
    List.getLast?_concat]

theorem dropped_note (h : ∀ set, .dropped set ∉ n.notes) {x : Note} (hx : ∀ set, x ≠ .dropped set) :
    ∀ set, .dropped set ∉ (n.note x).notes := by
  intro set hset
  rcases List.mem_append.1 hset with hold | hnew
  · exact h set hold
  · exact hx set (List.mem_singleton.1 hnew).symm

/-- A move keeps the time in the queue in step with the notes. -/
theorem Move.timed {debounce : Nat} (h : Move n n') (hn : Timed debounce n) :
    Timed debounce n' := by
  have haligned := h.aligned hn.aligned
  have hwaits {now : Nat} {s : Session} (waits : WaitsFrom now n s) :
      s.queue = { pending := [{ set := s.setIndex, due := now + debounce }] } := by
    rw [waits.queue, waits.setIndex, hn.settled]
  cases h with
  | quiet dirty queue debounce setIndex =>
    -- Neither queue nor notes have changed.
    refine ⟨haligned, debounce.trans hn.settled, fun hdirty => ?_, hn.dropped⟩
    rcases hn.due (dirty ▸ hdirty) with ⟨rest, hrest, hqueue⟩
    refine ⟨rest, hrest, queue.trans ?_⟩
    rw [hqueue, setIndex hdirty]
  | marked now waits =>
    exact ⟨haligned, waits.debounce.trans hn.settled,
      fun _ => ⟨now, lastRestart?_note rfl, hwaits waits⟩, dropped_note hn.dropped nofun⟩
  | written now dirty queue debounce =>
    refine ⟨haligned, debounce.trans hn.settled, fun hdirty => ?_, dropped_note hn.dropped nofun⟩
    exact Bool.noConfusion (dirty.symm.trans hdirty)
  | failed now waits =>
    exact ⟨haligned, waits.debounce.trans hn.settled,
      fun _ => ⟨now, lastRestart?_note rfl, hwaits waits⟩, dropped_note hn.dropped nofun⟩

/-- Along every run, the time in the queue follows the notes. -/
theorem run_timed {debounce : Nat} (events : List Event) :
    ∀ {n : Noted}, Timed debounce n → Timed debounce (n.run events) := by
  induction events with
  | nil => exact id
  | cons e events ih => exact fun hn => ih ((step_move hn.aligned e).timed hn)

/-- A session that was just made, with any song, has nothing to save. -/
theorem timed_fresh (song : Song) (setIndex debounce : Nat) (library : Library) :
    Timed debounce { session := { song, setIndex, debounce, library } } where
  aligned := ⟨fun _ => rfl, fun h => Bool.noConfusion h⟩
  settled := rfl
  due := fun h => Bool.noConfusion h
  dropped := fun _ => List.not_mem_nil

/-- What waits is due once the song has rested since the last note that made it rest. -/
theorem Timed.isDue_iff {debounce : Nat} (h : Timed debounce n) (now : Nat) :
    n.session.isDue now = true ↔ n.session.playing = false ∧ n.session.dirty = true ∧
      ∃ rest, n.lastRestart? = some rest ∧ rest + debounce ≤ now := by
  cases hdirty : n.session.dirty with
  | false => simp [isDue, h.aligned.clean hdirty]
  | true =>
    rcases h.due hdirty with ⟨rest, hrest, hqueue⟩
    simp [isDue, hqueue, hrest]

/-- A tick that finds something due is an attempt, and notes it. -/
theorem tick_of_isDue {now : Nat} (h : n.session.Aligned)
    (hdue : n.session.isDue now = true) :
    n.session.tick now = n.session.attempt now ∧ (n.tick now).2.notes = n.notes ++
      [.tried now n.session.setIndex n.session.song (n.session.tick now).1] := by
  have htick : n.tick now = n.attempt now := by rw [tick_eq h, if_pos hdue]
  have hsession : n.session.tick now = n.session.attempt now := by rw [← forget_tick, htick]; rfl
  rw [htick, hsession]
  exact ⟨rfl, rfl⟩

/-- A tick that finds nothing due does nothing and notes nothing. -/
theorem tick_of_not_isDue {now : Nat} (h : n.session.Aligned)
    (hidle : ¬ n.session.isDue now = true) :
    n.session.tick now = (false, n.session) ∧ (n.tick now).2.notes = n.notes := by
  have htick : n.tick now = (false, n) := by rw [tick_eq h, if_neg hidle]
  rw [← forget_tick, htick]
  exact ⟨rfl, rfl⟩

/-- Stopping the transport attempts to write a dirty song; otherwise only the transport is set. -/
theorem setPlaying_session (h : n.session.Aligned) (now : Nat) (playing : Bool) :
    n.session.setPlaying playing now =
      if n.session.playing && !playing && n.session.dirty then
        { n.session with playing }.attempt now
      else (false, { n.session with playing }) := by
  rw [← forget_setPlaying, setPlaying_eq h]
  split <;> rfl

/-- Starting or stopping the transport notes the attempt that it makes, if any. -/
theorem setPlaying_notes (h : n.session.Aligned) (now : Nat) (playing : Bool) :
    (n.setPlaying playing now).2.notes = n.notes ++
      if n.session.playing && !playing && n.session.dirty then
        [.tried now n.session.setIndex n.session.song (n.session.setPlaying playing now).1]
      else [] := by
  rw [← forget_setPlaying, setPlaying_eq h]
  split
  · rfl
  · exact (List.append_nil _).symm

/-- After a save that failed, the same save waits again. -/
theorem Move.retried (h : Move n n') :
    ∃ new, n'.notes = n.notes ++ new ∧
      ∀ now set song, .tried now set song false ∈ new →
        n'.session.dirty = true ∧ set = n'.session.setIndex ∧
          n'.session.queue = { pending := [{ set, due := now + n.session.debounce }] } := by
  cases h with
  | quiet => exact ⟨[], (List.append_nil _).symm, fun _ _ _ h => absurd h List.not_mem_nil⟩
  | marked now waits => exact ⟨_, rfl, fun _ _ _ h => nomatch List.mem_singleton.1 h⟩
  | written now => exact ⟨_, rfl, fun _ _ _ h => nomatch List.mem_singleton.1 h⟩
  | failed now waits =>
    refine ⟨_, rfl, fun _ _ _ h => ?_⟩
    cases List.mem_singleton.1 h
    exact ⟨waits.dirty, waits.setIndex.symm, waits.queue⟩

end Noted

/-- Every event keeps queue and flag aligned, whether notes are taken or not. -/
theorem Aligned.step {s : Session} (h : s.Aligned) (e : Event) : (s.step e).Aligned := by
  rw [← Noted.step_session { session := s } e]
  exact (Noted.step_move (n := { session := s }) h e).aligned h

/-- How long a song rests is fixed when a session starts. -/
theorem Aligned.step_debounce {s : Session} (h : s.Aligned) (e : Event) :
    (s.step e).debounce = s.debounce := by
  rw [← Noted.step_session { session := s } e]
  exact (Noted.step_move (n := { session := s }) h e).debounce

/-! ## Main statements -/

/-- In every run of a session, whatever song it started with, nothing waits to be saved while the
session is clean, and while it is dirty the save of the active set waits and no other. No due save
is ever dropped as one of another set, and a save that fails is tried again after another rest. -/
theorem queue_follows_dirty (song : Song) (setIndex debounce : Nat) (library : Library)
    (events : List Event) :
    let s := ({ song, setIndex, debounce, library } : Session).run events
    let n := ({ session := { song, setIndex, debounce, library } } : Noted).run events
    n.session = s ∧
      (s.dirty = false → s.queue.pending = []) ∧
      (s.dirty = true → ∃ due, s.queue.pending = [{ set := s.setIndex, due }]) ∧
      (∀ set, .dropped set ∉ n.notes) ∧
      ∀ e, ∃ new, (n.step e).notes = n.notes ++ new ∧
        ∀ now set song, .tried now set song false ∈ new →
          (s.step e).dirty = true ∧ set = (s.step e).setIndex ∧
            (s.step e).queue.pending = [{ set, due := now + debounce }] := by
  intro s n
  have hsession : n.session = s := Noted.run_session events _
  have htimed : n.Timed debounce :=
    Noted.run_timed events (Noted.timed_fresh song setIndex debounce library)
  have haligned : s.Aligned := hsession ▸ htimed.aligned
  refine ⟨hsession, ?_, ?_, htimed.dropped, ?_⟩
  · intro hclean
    rw [haligned.clean hclean]
  · intro hdirty
    rcases haligned.dirty hdirty with ⟨due, hqueue⟩
    exact ⟨due, congrArg SaveQueue.pending hqueue⟩
  · intro e
    rcases (Noted.step_move htimed.aligned e).retried with ⟨new, hnotes, hretried⟩
    refine ⟨new, hnotes, ?_⟩
    intro now set song hfailed
    rcases hretried now set song hfailed with ⟨hdirty, hset, hqueue⟩
    rw [htimed.settled] at hqueue
    rw [Noted.step_session, hsession] at hdirty hset hqueue
    exact ⟨hdirty, hset, congrArg SaveQueue.pending hqueue⟩

theorem queue_follows_dirty_refused :
    let library : Library := { disk := { readOnly := true } }
    let s := ({ song := {}, setIndex := 4, debounce := 500, library } : Session).run
      [.markDirty 0, .tick 500]
    s.dirty = true ∧ ∃ due, s.queue.pending = [{ set := s.setIndex, due }] := by
  intro library s
  have hdirty : s.dirty = true := by decide +kernel
  exact ⟨hdirty, (queue_follows_dirty {} 4 500 library [.markDirty 0, .tick 500]).2.2.1 hdirty⟩

/-- In every run of a session, a dirty song is due one rest after the last time it was marked or
could not be written. A tick tries to write the song, once, exactly if the transport stands and the
song is dirty and due; any other tick leaves all as it is. Stopping the transport tries at once,
exactly if the song is dirty. To try is to save the song to its set: the answer says whether it was
written, and if not, it stays dirty and is due again after another rest. -/
theorem saves_after_rest (song : Song) (setIndex debounce : Nat) (library : Library)
    (events : List Event) (now : Nat) :
    let s := ({ song, setIndex, debounce, library } : Session).run events
    let n := ({ session := { song, setIndex, debounce, library } } : Noted).run events
    let ready := s.playing = false ∧ s.dirty = true ∧
      ∃ rest, n.lastRestart? = some rest ∧ rest + debounce ≤ now
    let tried (s : Session) : Bool × Session :=
      match s.library.save s.setIndex s.song with
      | .ok library => (true, { s with queue := {}, dirty := false, library })
      | .error _ => (false, { s with queue :=
          { pending := [{ set := s.setIndex, due := now + debounce }] } })
    n.session = s ∧
      (s.dirty = true → ∃ rest, n.lastRestart? = some rest) ∧
      (ready → s.tick now = tried s ∧
        (n.tick now).2.notes = n.notes ++ [.tried now s.setIndex s.song (s.tick now).1]) ∧
      (¬ ready → s.tick now = (false, s) ∧ (n.tick now).2.notes = n.notes) ∧
      ∀ playing,
        s.setPlaying playing now = (if s.playing && !playing && s.dirty then
            tried { s with playing }
          else (false, { s with playing })) ∧
        (n.setPlaying playing now).2.notes = n.notes ++
          if s.playing && !playing && s.dirty then
            [.tried now s.setIndex s.song (s.setPlaying playing now).1]
          else [] := by
  intro s n ready tried
  have hsession : n.session = s := Noted.run_session events _
  have htimed : n.Timed debounce :=
    Noted.run_timed events (Noted.timed_fresh song setIndex debounce library)
  have htried (s' : Session) (hdebounce : s'.debounce = n.session.debounce) :
      s'.attempt now = tried s' :=
    attempt_eq (hdebounce.trans htimed.settled) now
  refine ⟨hsession, ?_, ?_, ?_, ?_⟩
  · intro hdirty
    rcases htimed.due (hsession ▸ hdirty) with ⟨rest, hrest, -⟩
    exact ⟨rest, hrest⟩
  · intro hready
    rw [← htried s (by rw [hsession]), ← hsession]
    apply Noted.tick_of_isDue htimed.aligned
    rw [htimed.isDue_iff, hsession]
    exact hready
  · intro hidle
    rw [← hsession]
    apply Noted.tick_of_not_isDue htimed.aligned
    rw [htimed.isDue_iff, hsession]
    exact hidle
  · intro playing
    rw [← htried { s with playing } (by rw [hsession]), ← hsession]
    exact ⟨Noted.setPlaying_session htimed.aligned now playing,
      Noted.setPlaying_notes htimed.aligned now playing⟩

/-- The rest begins anew with the second mark, and the save succeeds on an empty disk. -/
theorem saves_after_rest_marked_twice :
    let s := ({ song := {}, setIndex := 4, debounce := 500, library := {} } : Session).run
      [.markDirty 0, .markDirty 300]
    s.tick 799 = (false, s) ∧ (s.tick 800).1 = true := by
  intro s
  have hearly := (saves_after_rest {} 4 500 {} [.markDirty 0, .markDirty 300] 799).2.2.2.1
  have hlate := (saves_after_rest {} 4 500 {} [.markDirty 0, .markDirty 300] 800).2.2.1
  have hwritten := (hlate ⟨rfl, rfl, 300, rfl, Nat.le_refl 800⟩).1
  refine ⟨(hearly ?_).1, (congrArg Prod.fst hwritten).trans (by decide +kernel)⟩
  rintro ⟨-, -, rest, hrest, hpassed⟩
  -- The rest begins anew with the second mark.
  have hlast : rest = 300 := (Option.some.inj hrest).symm
  omega

end Session
end Groovebox
