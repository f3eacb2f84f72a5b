import Mathlib.Tactic
import Groovebox.Proofs.Library
import Groovebox.Proofs.Session.Timing
/-! # What the sets will hold

`Session.settled` says what is at the path of each set once the song is written: for the active set
of a dirty session that is the song's text, and for every other set what is there already. When the
song is written changes nothing of this (`Session.Resaved`), and neither does a save that fails. The
main statement is `Session.switchTo_settled`: what a session takes up when it goes to another set
depends on nothing else. -/

namespace Groovebox

/-- The song that the node at the path of a set holds. -/
def Library.songAt : Option Node → Song
  | some (.file (.text text)) => songOf text
  | _ => {}

/-- A set loads as the song at its path. -/
theorem Library.load_eq_songAt (l : Library) (i : Nat) :
    l.load i = songAt (l.disk.node? (l.setPath i)) := by
  rw [load, Disk.text?]
  rcases l.disk.node? (l.setPath i) with _ | ⟨_ | _⟩ | _ <;> rfl

namespace Session

variable {s s' : Session}

/-- What is at the path of a set once the song is written. -/
def settled (s : Session) (set : Nat) : Option Node :=
  if s.dirty ∧ set = s.setIndex then some (.file (.text s.song.text))
  else s.library.disk.node? (s.library.setPath set)

/-- A session without what decides when it saves and what saving changes. -/
def bare (s : Session) : Session :=
  { s with playing := false, dirty := false, queue := {}, library := {} }

/-- One session comes from another by trying to save, if at all. -/
structure Resaved (s s' : Session) : Prop where
  bare : s'.bare = s.bare
  settled : s'.settled = s.settled

theorem Resaved.refl (s : Session) : s.Resaved s :=
  ⟨rfl, rfl⟩

/-- A set that is not the active one will hold what it holds. -/
theorem settled_of_ne {set : Nat} (h : set ≠ s.setIndex) :
    s.settled set = s.library.disk.node? (s.library.setPath set) :=
  if_neg fun hset => h hset.2

/-- While a session is clean, every set will hold what it holds. -/
theorem settled_of_clean (h : s.dirty = false) (set : Nat) :
    s.settled set = s.library.disk.node? (s.library.setPath set) :=
  if_neg fun hdirty => Bool.noConfusion (h.symm.trans hdirty.1)

theorem settled_of_dirty (h : s.dirty = true) :
    s.settled s.setIndex = some (.file (.text s.song.text)) :=
  if_pos ⟨h, rfl⟩

/-- Once an edited song is marked, its set will hold it. -/
theorem markDirty_settled (s : Session) (song : Song) (now : Nat) :
    ({ s with song }.markDirty now).settled =
      Function.update s.settled s.setIndex (some (.file (.text song.text))) := by
  funext set
  by_cases hset : set = s.setIndex
  · rw [hset, Function.update_self]
    exact settled_of_dirty (s := { s with song }.markDirty now) rfl
  · rw [Function.update_of_ne hset, settled_of_ne hset]
    exact settled_of_ne (s := { s with song }.markDirty now) hset

/-! ## Saving -/

/-- Whether trying to save succeeds or not, what the sets will hold stays the same. -/
theorem attempt_resaved (hdirty : s.dirty = true) (now : Nat) : s.Resaved (s.attempt now).2 := by
  unfold attempt save
  split
  · rename_i library hsave
    refine ⟨rfl, funext fun set => ?_⟩
    rw [settled_of_clean rfl]
    by_cases hset : set = s.setIndex
    · -- The file holds what the session was to write.
      rw [hset, settled_of_dirty hdirty]
      exact Library.node?_setPath_of_save hsave
    · -- The file of another set is out of reach of the save.
      have hpath := Library.setPath_congr (Library.save_ok hsave).2.1 set
      rw [settled_of_ne hset]
      exact hpath ▸ Library.node?_of_save hsave hset
  · -- A save that was refused leaves library and flag alone.
    exact ⟨rfl, rfl⟩

/-- Writing the song now is trying to save it, if it is dirty. -/
theorem flush_eq (h : s.Aligned) (now : Nat) :
    s.flush now = if s.dirty then s.attempt now else (false, s) := by
  rw [flush, SaveQueue.cancel_of_only h.only]
  rfl

theorem flush_resaved (h : s.Aligned) (now : Nat) : s.Resaved (s.flush now).2 := by
  rw [flush_eq h]
  split
  · rename_i hdirty
    exact attempt_resaved hdirty now
  · exact Resaved.refl s

/-- A tick changes nothing of what the sets will hold, whether a save is due or not. -/
theorem tick_resaved (h : s.Aligned) (now : Nat) : s.Resaved (s.tick now).2 := by
  by_cases hdue : s.isDue now
  · rw [(Noted.tick_of_isDue (n := { session := s }) h hdue).1]
    exact attempt_resaved (h.dirty_of_isDue hdue) now
  · rw [(Noted.tick_of_not_isDue (n := { session := s }) h hdue).1]
    exact Resaved.refl s

/-- Starting or stopping the transport changes nothing of what the sets will hold. -/
theorem setPlaying_resaved (h : s.Aligned) (playing : Bool) (now : Nat) :
    s.Resaved (s.setPlaying playing now).2 := by
  unfold setPlaying
  simp only
  split
  · -- Stopping writes the song of a session that is aligned like the one before.
    have hflush := flush_resaved (s := { s with playing }) ⟨h.clean, h.dirty⟩ now
    exact ⟨hflush.bare, hflush.settled⟩
  · exact ⟨rfl, rfl⟩

/-- A song that was written is not dirty any more. -/
theorem dirty_of_attempt {now : Nat} (h : (s.attempt now).1 = true) :
    (s.attempt now).2.dirty = false := by
  unfold attempt save at h ⊢
  split
  · rfl
  · rename_i hsave
    rw [hsave] at h
    cases h

/-! ## Going to another set -/

/-- A clean session may take up another set: what the sets hold stays, and the song is the one at
the path. -/
theorem takeUp_settled (hclean : s.dirty = false) (index : Nat) :
    (s.takeUp index).settled = s.settled ∧
      (s.takeUp index).bare =
        { s.bare with setIndex := index, song := Library.songAt (s.settled index) } := by
  constructor
  · funext set
    rw [settled_of_clean hclean, settled_of_clean rfl]
    rfl
  · rw [settled_of_clean hclean, ← Library.load_eq_songAt]
    rfl

/-- A session that goes to another set takes up what the path of that set holds once the song is
written. -/
theorem switchTo_settled (h : s.Aligned) {index now : Nat}
    (hswitch : s.switchTo index now = (true, s')) :
    s'.settled = s.settled ∧
      s'.bare = { s.bare with setIndex := index, song := Library.songAt (s.settled index) } := by
  unfold switchTo at hswitch
  rw [flush_eq h] at hswitch
  split at hswitch
  · rename_i hdirty
    split at hswitch
    · rename_i written hattempt
      cases hswitch
      -- The song was written first, which changes nothing of what the sets will hold.
      have hsaved := attempt_resaved hdirty now
      have hclean := dirty_of_attempt (congrArg Prod.fst hattempt)
      rw [hattempt] at hsaved hclean
      rw [← hsaved.settled, ← hsaved.bare]
      exact takeUp_settled hclean index
    · -- A session that could not write its song stays, so this case is none.
      cases hswitch
  · rename_i hclean
    cases hswitch
    exact takeUp_settled (Bool.eq_false_iff.2 hclean) index

/-! ## When no save fails -/

namespace Noted

variable {n : Noted} {now : Nat}

/-- A try at writing the song that noted no failure was a success. -/
theorem attempt_of_unfailed (h : ∀ x ∈ (n.attempt now).2.notes, x.failed = false) :
    (n.attempt now).1 = true := by
  have hnote := h _ (List.mem_append_right _ (List.mem_singleton_self _))
  rwa [Note.failed, Bool.not_eq_false'] at hnote

/-- A session that wrote its song and noted no failure is clean. -/
theorem flush_of_unfailed (haligned : n.session.Aligned)
    (h : ∀ x ∈ (n.flush now).2.notes, x.failed = false) : (n.session.flush now).2.dirty = false := by
  rw [flush_eq haligned] at h
  rw [Session.flush_eq haligned]
  split
  · rename_i hdirty
    rw [if_pos hdirty] at h
    exact dirty_of_attempt (attempt_of_unfailed h)
  · rename_i hclean
    exact Bool.eq_false_iff.2 hclean

/-- A session that noted no failure has gone to the other set. -/
theorem switchTo_of_unfailed (haligned : n.session.Aligned) {index : Nat}
    (h : ∀ x ∈ (n.switchTo index now).2.notes, x.failed = false) :
    (n.session.switchTo index now).1 = true := by
  rw [← forget_switchTo]
  cases hdirty : n.session.dirty with
  | false =>
    rw [switchTo_of_clean hdirty]
    rfl
  | true =>
    rcases hattempt : n.attempt now with ⟨written, m⟩
    cases written with
    | true =>
      rw [switchTo_of_written haligned hdirty hattempt]
      rfl
    | false =>
      -- A session that stays has noted why.
      rw [switchTo_of_refused haligned hdirty hattempt] at h
      have hunfailed : ∀ x ∈ (n.attempt now).2.notes, x.failed = false := by
        rw [hattempt]
        exact h
      have hwritten := attempt_of_unfailed hunfailed
      rw [hattempt] at hwritten
      cases hwritten

end Noted
end Session
end Groovebox
