import Mathlib.Tactic
import Groovebox.Proofs.Desk.Refusals
/-! # Going to another set

A desk goes to another set as a whole or not at all. The song that is left is written first, where
it is dirty; only then are number, song and flag replaced.

* `Session.switchTo_cases`: the three ways in which a switch ends.
* `Desk.openSet_of_refused`, `Desk.opened_of_made`: what a desk is afterwards in each of them.
* `Desk.openSet_all_or_nothing`: both for every state that a desk gets into.
-/

namespace Groovebox

/-! ## Sessions -/

namespace Session

variable {s : Session}

/-- A switch ends in one of three ways: a clean session takes up the other set at once, a dirty one
takes it up after its song was written, and one whose song cannot be written stays as it is and
waits another rest. -/
theorem switchTo_cases (h : s.Aligned) (index now : Nat) :
    (s.dirty = false ∧ s.switchTo index now = (true, s.takeUp index)) ∨
      (∃ library, s.dirty = true ∧ s.library.save s.setIndex s.song = .ok library ∧
        s.switchTo index now =
          (true, { s with queue := {}, dirty := false, library }.takeUp index)) ∨
      (∃ fault, s.dirty = true ∧ s.library.save s.setIndex s.song = .error fault ∧
        s.switchTo index now = (false, { s with
          queue := { pending := [{ set := s.setIndex, due := now + s.debounce }] } })) := by
  by_cases hdirty : s.dirty = true
  · right
    have hflush : s.flush now = s.attempt now := by
      rw [flush_eq h, if_pos hdirty]
    cases hsave : s.library.save s.setIndex s.song with
    | ok library =>
      left
      refine ⟨library, hdirty, rfl, ?_⟩
      have hwritten : s.attempt now = (true, { s with queue := {}, dirty := false, library }) := by
        simp only [attempt, save, hsave]
      rw [switchTo, if_pos hdirty, hflush, hwritten]
    | error fault =>
      right
      refine ⟨fault, hdirty, rfl, ?_⟩
      have hfailed : s.attempt now = (false, { s with
          queue := { pending := [{ set := s.setIndex, due := now + s.debounce }] } }) := by
        simp only [attempt, save, hsave]
        rfl
      rw [switchTo, if_pos hdirty, hflush, hfailed]
  · left
    refine ⟨Bool.eq_false_iff.2 hdirty, ?_⟩
    rw [switchTo, if_neg hdirty]

/-- A session can leave its set unless its song has to be written and cannot be. -/
def CanLeave (s : Session) : Prop :=
  s.dirty = true → ∃ library, s.library.save s.setIndex s.song = .ok library

end Session

namespace Desk

variable {d d' : Desk}

/-! ## Desks -/

/-- A desk that goes to a set leaves the old one on disk and all others alone, is clean, and has
sent the song that the new one holds. -/
structure Opened (d : Desk) (index : Nat) (d' : Desk) : Prop where
  saved : d.session.dirty = true → d'.session.library.load d.session.setIndex = d.song
  reopened : d.session.dirty = true → index = d.session.setIndex → d'.song = d.song
  setIndex : d'.session.setIndex = index
  song : d'.song = d'.session.library.load index
  clean : d'.session.dirty = false
  queue : d'.session.queue.pending = []
  playing : d'.session.playing = d.session.playing
  audition : d'.audition.last = none
  sent : d'.sent = d.sent ++ Export.song d.settings.bulkChunk d'.song
  unwritten : d.session.dirty = false → d'.session.library = d.session.library
  others : ∀ j, j ≠ d.session.setIndex →
    d'.session.library.disk.node? (d'.session.library.setPath j) =
      d.session.library.disk.node? (d.session.library.setPath j)

/-- Where the session goes to the set, the desk sends the whole song and ends what was generated. -/
theorem openSet_of_switchTo {index now : Nat} (hindex : index < Library.capacity) {s : Session}
    (h : d.session.switchTo index now = (true, s)) :
    d.openSet index now =
      (true, ({ d with session := s, audition := d.audition.finish } : Desk).sendSong) := by
  rw [openSet, if_neg hindex.not_ge, withSession, h]

/-- Where the session stays, so does the desk. -/
theorem openSet_of_switchTo_refused {index now : Nat} (hindex : index < Library.capacity)
    {s : Session} (h : d.session.switchTo index now = (false, s)) :
    d.openSet index now = (false, { d with session := s }) := by
  rw [openSet, if_neg hindex.not_ge, withSession, h]

/-- A set past the last one is refused before anything is done. -/
theorem openSet_of_capacity_le {index : Nat} (hindex : Library.capacity ≤ index) (now : Nat) :
    d.openSet index now = (false, d) := by
  rw [openSet, if_pos hindex]

/-- A desk goes to every set that there is, if it can leave its own. -/
theorem openSet_fst_iff (h : d.session.Aligned) (index now : Nat) :
    (d.openSet index now).1 = true ↔ index < Library.capacity ∧ d.session.CanLeave := by
  by_cases hindex : index < Library.capacity
  · rcases d.session.switchTo_cases h index now with
      ⟨hclean, hswitch⟩ | ⟨library, hdirty, hsave, hswitch⟩ | ⟨fault, hdirty, hsave, hswitch⟩
    · rw [openSet_of_switchTo hindex hswitch]
      simp [hindex, Session.CanLeave, hclean]
    · rw [openSet_of_switchTo hindex hswitch]
      have hleave : d.session.CanLeave := fun _ => ⟨library, hsave⟩
      simp [hindex, hleave]
    · rw [openSet_of_switchTo_refused hindex hswitch]
      have hstay : ¬ d.session.CanLeave := by
        intro hleave
        rcases hleave hdirty with ⟨library, hsaved⟩
        rw [hsave] at hsaved
        cases hsaved
      simp [hstay]
  · rw [openSet_of_capacity_le (Nat.le_of_not_lt hindex)]
    simp [hindex]

/-- A desk that stays keeps all but its queue. If its song was to be written, the save of the set
waits anew and no other. -/
theorem openSet_of_refused (h : d.session.Aligned) {index now : Nat}
    (hrefused : (d.openSet index now).1 = false) :
    (d.openSet index now).2 =
        { d with session.queue := (d.openSet index now).2.session.queue } ∧
      (Library.capacity ≤ index → (d.openSet index now).2 = d) ∧
      (index < Library.capacity → d.session.dirty = true ∧
        (d.openSet index now).2.session.queue.pending =
          [{ set := d.session.setIndex, due := now + d.session.debounce }]) := by
  by_cases hindex : index < Library.capacity
  · rcases d.session.switchTo_cases h index now with
      ⟨-, hswitch⟩ | ⟨library, -, -, hswitch⟩ | ⟨fault, hdirty, -, hswitch⟩
    · rw [openSet_of_switchTo hindex hswitch] at hrefused
      cases hrefused
    · rw [openSet_of_switchTo hindex hswitch] at hrefused
      cases hrefused
    · rw [openSet_of_switchTo_refused hindex hswitch]
      exact ⟨rfl, fun hpast => absurd hindex hpast.not_gt, fun _ => ⟨hdirty, rfl⟩⟩
  · rw [openSet_of_capacity_le (Nat.le_of_not_lt hindex)]
    exact ⟨rfl, fun _ => rfl, fun hlt => absurd hlt hindex⟩

theorem opened_of_made (h : d.session.Aligned) (hwell : d.song.WellFormed) {index now : Nat}
    (hmade : (d.openSet index now).1 = true) : Opened d index (d.openSet index now).2 := by
  have hindex : index < Library.capacity := ((openSet_fst_iff h index now).1 hmade).1
  rcases d.session.switchTo_cases h index now with
    ⟨hclean, hswitch⟩ | ⟨library, hdirty, hsave, hswitch⟩ | ⟨fault, -, -, hswitch⟩
  · rw [openSet_of_switchTo hindex hswitch]
    -- What is on disk stays as it is, and nothing waited.
    have hempty : d.session.queue = {} := h.clean hclean
    have hnot : ¬ d.session.dirty = true := Bool.eq_false_iff.1 hclean
    exact
      { saved := fun hdirty => absurd hdirty hnot
        reopened := fun hdirty => absurd hdirty hnot
        setIndex := rfl
        song := rfl
        clean := rfl
        queue := congrArg SaveQueue.pending hempty
        playing := rfl
        audition := rfl
        sent := rfl
        unwritten := fun _ => rfl
        others := fun _ _ => rfl }
  · rw [openSet_of_switchTo hindex hswitch]
    -- The old song was written, and loads as it was because it is well-formed.
    have hload : library.load d.session.setIndex = d.song := Library.load_of_save hsave hwell
    have hroot : library.root = d.session.library.root := (Library.save_ok hsave).2.1
    exact
      { saved := fun _ => hload
        reopened := fun _ hsame => hsame ▸ hload
        setIndex := rfl
        song := rfl
        clean := rfl
        queue := rfl
        playing := rfl
        audition := rfl
        sent := rfl
        unwritten := fun hclean => Bool.noConfusion (hclean.symm.trans hdirty)
        others := by
          intro j hj
          show library.disk.node? (library.setPath j) = _
          rw [Library.setPath_congr hroot, Library.node?_of_save hsave hj] }
  · rw [openSet_of_switchTo_refused hindex hswitch] at hmade
    cases hmade

/-- In every state that a desk gets into, it goes to any set that there is, if its own is clean or
can be written. If it does not go, all but the queue stays as it was: song, set, flag, transport,
audition, what was sent, and the whole library; and where the old song could not be written, one
save of it waits, for a rest from now. If it goes, the old song is on disk, the new song is the one
that its set then holds, nothing waits, the audition is over, and the new song was sent as a
whole. -/
theorem openSet_all_or_nothing (library : Library) (setIndex : Nat) (settings : Settings)
    (facts : Facts) (seed : UInt64) (actions : List Action) (index now : Nat) :
    let d := (start library setIndex settings facts seed).perform actions
    let r := d.openSet index now
    (r.1 = true ↔ index < Library.capacity ∧ d.session.CanLeave) ∧
      (r.1 = false → r.2 = { d with session.queue := r.2.session.queue } ∧
        (Library.capacity ≤ index → r.2 = d) ∧
        (index < Library.capacity → d.session.dirty = true ∧ r.2.session.queue.pending =
          [{ set := d.session.setIndex, due := now + settings.saveDebounce }])) ∧
      (r.1 = true → Opened d index r.2) := by
  intro d r
  have hpunctual : d.Punctual settings.saveDebounce :=
    perform_punctual actions (start_punctual library setIndex settings facts seed)
  have hwell : d.song.WellFormed :=
    perform_wellFormed actions (start_sound library setIndex settings facts seed).wellFormed
  refine ⟨openSet_fst_iff hpunctual.aligned index now, ?_, ?_⟩
  · intro hrefused
    have hstays := openSet_of_refused hpunctual.aligned hrefused
    rw [hpunctual.debounce] at hstays
    exact hstays
  · exact opened_of_made hpunctual.aligned hwell

/-- An edited set on a disk that is locked is not left; once it is unlocked, it is. -/
theorem openSet_all_or_nothing_locked :
    let actions : List Action := [.event (.edit (.toggleMute 3) 5), .event (.lock true)]
    let d := (start {} 0 {} [] 0).perform actions
    let d' := (start {} 0 {} [] 0).perform (actions ++ [.event (.lock false)])
    (d.openSet 1 7).2.session.queue.pending =
        [{ set := d.session.setIndex, due := 7 + ({} : Settings).saveDebounce }] ∧
      Opened d' 1 (d'.openSet 1 9).2 := by
  have hstays := openSet_all_or_nothing {} 0 {} [] 0
    [.event (.edit (.toggleMute 3) 5), .event (.lock true)] 1 7
  have hgoes := openSet_all_or_nothing {} 0 {} [] 0
    ([.event (.edit (.toggleMute 3) 5), .event (.lock true)] ++ [.event (.lock false)]) 1 9
  have hwaits := ((hstays.2.1 (by decide +kernel)).2.2 (by decide)).2
  have hopened := hgoes.2.2 (by decide +kernel)
  exact ⟨hwaits, hopened⟩

end Desk
end Groovebox
