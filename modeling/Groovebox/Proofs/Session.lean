import Mathlib.Tactic
import Groovebox.Proofs.Library
import Groovebox.Session
/-! # Sessions and the library

What the operations of a session do to the library. `Session.Sound` is the invariant: the song is
well-formed, and unless it is dirty, the active set loads as it. `Session.Writes` says what any
number of saves may do: they write the file of the active set and no other, and they keep the
invariant. -/

namespace Groovebox.Session

/-- The song is well-formed, and on disk unless it is dirty. -/
structure Sound (s : Session) : Prop where
  wellFormed : s.song.WellFormed
  saved : s.dirty = false → s.library.load s.setIndex = s.song

/-- What is at the path of every set but one is the same in two libraries below one folder. -/
structure SameBut (set : Nat) (l l' : Library) : Prop where
  root : l'.root = l.root
  node? : ∀ j, j ≠ set → l'.disk.node? (l.setPath j) = l.disk.node? (l.setPath j)

/-- One session comes from another by writing the active set, if at all. -/
structure Writes (s s' : Session) : Prop where
  song : s'.song = s.song
  setIndex : s'.setIndex = s.setIndex
  library : SameBut s.setIndex s.library s'.library
  sound : s.Sound → s'.Sound

variable {s s' s'' : Session}

theorem SameBut.refl (set : Nat) (l : Library) : SameBut set l l :=
  ⟨rfl, fun _ _ => rfl⟩

theorem SameBut.trans {set : Nat} {l l' l'' : Library} (h : SameBut set l l')
    (h' : SameBut set l' l'') : SameBut set l l'' := by
  refine ⟨h'.root.trans h.root, ?_⟩
  intro j hj
  have hnode := h'.node? j hj
  rw [Library.setPath_congr h.root] at hnode
  exact hnode.trans (h.node? j hj)

theorem Writes.refl (s : Session) : s.Writes s :=
  ⟨rfl, rfl, SameBut.refl _ _, id⟩

/-- Writing more than once is like writing once. -/
theorem Writes.trans (h : s.Writes s') (h' : s'.Writes s'') : s.Writes s'' where
  song := h'.song.trans h.song
  setIndex := h'.setIndex.trans h.setIndex
  library := h.library.trans (h.setIndex ▸ h'.library)
  sound := h'.sound ∘ h.sound

/-- Queue and transport have no part in the invariant. -/
theorem writes_of_queue (s : Session) (queue : SaveQueue) (playing : Bool) :
    s.Writes { s with queue, playing } :=
  ⟨rfl, rfl, SameBut.refl _ _, fun h => ⟨h.wellFormed, h.saved⟩⟩

/-! ## Saving -/

/-- A save writes the active set or nothing. -/
theorem save_writes (s : Session) (now : Nat) : s.Writes (s.save now).2 := by
  unfold save
  split
  · -- What was written is the song, so it may be called clean.
    rename_i library hsave
    refine ⟨rfl, rfl, ⟨(Library.save_ok hsave).2.1, ?_⟩, ?_⟩
    · exact fun j hj => Library.node?_of_save hsave hj
    · intro hs
      exact ⟨hs.wellFormed, fun _ => Library.load_of_save hsave hs.wellFormed⟩
  · exact writes_of_queue s _ _

/-- Saves that are due write the active set or nothing. -/
theorem saveDue_writes (now : Nat) (sets : List Nat) :
    ∀ s : Session, s.Writes (s.saveDue now sets).2 := by
  induction sets with
  | nil => exact Writes.refl
  | cons set sets ih =>
    -- A save that is due for another set is passed over.
    intro s
    unfold saveDue
    split
    · exact (save_writes s now).trans (ih _)
    · exact ih s

/-- A tick writes the active set or nothing. -/
theorem tick_writes (s : Session) (now : Nat) : s.Writes (s.tick now).2 := by
  unfold tick
  split
  · exact Writes.refl s
  · exact (writes_of_queue s _ _).trans (saveDue_writes now _ _)

/-- Writing the song now writes the active set or nothing. -/
theorem flush_writes (s : Session) (now : Nat) : s.Writes (s.flush now).2 := by
  unfold flush
  split
  · exact (writes_of_queue s _ _).trans (save_writes _ now)
  · exact Writes.refl s

theorem setPlaying_writes (s : Session) (playing : Bool) (now : Nat) :
    s.Writes (s.setPlaying playing now).2 := by
  unfold setPlaying
  simp only
  split
  · exact (writes_of_queue s _ playing).trans (flush_writes _ now)
  · exact writes_of_queue s _ playing

/-! ## Opening and switching -/

/-- The song of a session that was just opened is on disk. -/
theorem start_sound (library : Library) (setIndex debounce : Nat) :
    (start library setIndex debounce).Sound :=
  ⟨Library.load_wellFormed library setIndex, fun _ => rfl⟩

/-- The song of a set that was just taken up is on disk. -/
theorem takeUp_sound (s : Session) (index : Nat) : (s.takeUp index).Sound :=
  ⟨Library.load_wellFormed s.library index, fun _ => rfl⟩

/-- Going to another set writes at most the one that is left, whether it succeeds or not. -/
theorem switchTo_library (s : Session) (index now : Nat) :
    SameBut s.setIndex s.library (s.switchTo index now).2.library := by
  -- A dirty song is written first; taking up another set reads it and writes nothing.
  have hflush := flush_writes s now
  unfold switchTo
  split
  · split
    · rename_i h
      rw [h] at hflush
      exact hflush.library
    · rename_i h
      rw [h] at hflush
      exact hflush.library
  · exact SameBut.refl _ _

/-- Going to another set keeps the invariant, whether the session goes or stays. -/
theorem switchTo_sound {s : Session} (hs : s.Sound) (index now : Nat) :
    (s.switchTo index now).2.Sound := by
  have hflush := flush_writes s now
  unfold switchTo
  split
  · split
    · -- Nothing need be known of the song that is left.
      exact takeUp_sound _ index
    · rename_i h
      -- The session stays, and has tried to write its song.
      rw [h] at hflush
      exact hflush.sound hs
  · exact takeUp_sound s index

/-- The song stays where it is when the session cannot go to another set. -/
theorem song_of_switchTo_refused {index now : Nat} (h : s.switchTo index now = (false, s')) :
    s'.song = s.song := by
  have hflush := flush_writes s now
  unfold switchTo at h
  split at h
  · split at h
    · cases h
    · rename_i hrefused
      cases h
      rw [hrefused] at hflush
      exact hflush.song
  · cases h

/-- An edited song that is well-formed and marked dirty needs not be on disk. -/
theorem markDirty_sound {s : Session} {song : Song} (h : song.WellFormed) (now : Nat) :
    ({ s with song }.markDirty now).Sound :=
  ⟨h, fun hdirty => Bool.noConfusion hdirty⟩

end Groovebox.Session
