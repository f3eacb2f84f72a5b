import Mathlib.Tactic
import Groovebox.Proofs.Desk.Timing
import Groovebox.Proofs.Desk.Unsaved
/-! # Snapshots are recalled as they were saved

A snapshot stays in its slot until the slot is saved or cleared again. Other edits leave it alone,
and so does the way of its set to the disk and back, while other sets are worked on.

* `Session.Upholds`: what is true of the song of a set, in the session and on disk. Saving and going
  to other sets keeps it, whatever it is.
* `Desk.recall_restores`: what a recall makes of the song, after any actions in between.
-/

namespace Groovebox

/-! ## What is true of the song of a set -/

namespace Session

variable {s s' : Session} {set : Nat} {P : Song → Prop}

/-- The song of a set has a property: in the session while the set is active, and at the path of the
set once everything is written. -/
structure Upholds (set : Nat) (P : Song → Prop) (s : Session) : Prop where
  active : s.setIndex = set → P s.song
  onDisk : P (Library.songAt (s.settled set))

/-- A well-formed song is what the node that its text makes holds. -/
theorem songAt_text {song : Song} (h : song.WellFormed) :
    Library.songAt (some (.file (.text song.text))) = song := by
  rw [Library.songAt]
  exact Library.songOf_text_of_wellFormed h

/-- Trying to save changes nothing of what the sets will hold, so the property is upheld. -/
theorem Upholds.of_resaved (h : s.Upholds set P) (hsaved : s.Resaved s') : s'.Upholds set P := by
  have hset : s'.bare.setIndex = s.bare.setIndex := by rw [hsaved.bare]
  have hsong : s'.bare.song = s.bare.song := by rw [hsaved.bare]
  constructor
  · intro hactive
    show P s'.bare.song
    rw [hsong]
    exact h.active (hset.symm.trans hactive)
  · rw [hsaved.settled]
    exact h.onDisk

/-- What is true of an edited song is upheld from its mark on. -/
theorem markDirty_upholds {song : Song} (hwell : song.WellFormed) (hsong : P song) (now : Nat) :
    Upholds s.setIndex P ({ s with song }.markDirty now) := by
  refine ⟨fun _ => hsong, ?_⟩
  rw [markDirty_settled, Function.update_self, songAt_text hwell]
  exact hsong

/-- The edited song has to keep the property only if its set is the one concerned. -/
theorem Upholds.markDirty (h : s.Upholds set P) {song : Song} (hwell : song.WellFormed)
    (hsong : s.setIndex = set → P song) (now : Nat) :
    ({ s with song }.markDirty now).Upholds set P := by
  by_cases hset : s.setIndex = set
  · subst hset
    exact markDirty_upholds hwell (hsong rfl) now
  · refine ⟨hsong, ?_⟩
    rw [markDirty_settled, Function.update_of_ne (Ne.symm hset)]
    exact h.onDisk

/-- As `Upholds.markDirty`, for a song that is not marked. -/
theorem Upholds.setSong (h : s.Upholds set P) {song : Song} (hwell : song.WellFormed)
    (hsong : s.setIndex = set → P song) : Upholds set P { s with song } := by
  refine ⟨hsong, ?_⟩
  by_cases hwaits : s.dirty = true ∧ set = s.setIndex
  · rw [Session.settled, if_pos hwaits, songAt_text hwell]
    exact hsong hwaits.2.symm
  · have honDisk := h.onDisk
    rw [Session.settled, if_neg hwaits] at honDisk ⊢
    exact honDisk

/-- A session that cannot go to another set has only tried to save. -/
theorem switchTo_refused_resaved (h : s.Aligned) {index now : Nat}
    (hswitch : s.switchTo index now = (false, s')) : s.Resaved s' := by
  have hflush := flush_resaved h now
  unfold switchTo at hswitch
  split at hswitch
  · split at hswitch
    · cases hswitch
    · rename_i hrefused
      cases hswitch
      rw [hrefused] at hflush
      exact hflush
  · cases hswitch

/-- Going to another set and back upholds what was true of the set. -/
theorem Upholds.switchTo (h : s.Upholds set P) (haligned : s.Aligned) (index now : Nat) :
    (s.switchTo index now).2.Upholds set P := by
  rcases hswitch : s.switchTo index now with ⟨answer, s'⟩
  cases answer with
  | false => exact h.of_resaved (switchTo_refused_resaved haligned hswitch)
  | true =>
    rcases switchTo_settled haligned hswitch with ⟨hsettled, hbare⟩
    have hset : s'.bare.setIndex = index := by rw [hbare]
    have hsong : s'.bare.song = Library.songAt (s.settled index) := by rw [hbare]
    constructor
    · -- What is taken up is what was to be at the path of the set.
      intro hactive
      show P s'.bare.song
      rw [hsong, hset.symm.trans hactive]
      exact h.onDisk
    · rw [hsettled]
      exact h.onDisk

end Session

/-! ## Slots -/

namespace Song

variable {s s' : Song} {slot other : Nat} {snapshot : Snapshot}

/-- A slot of the song holds a snapshot. -/
def Remembers (slot : Nat) (snapshot : Snapshot) (s : Song) : Prop :=
  s.snapshots[slot]?.join = some snapshot

/-- A snapshot that is saved holds what the tracks play. -/
theorem saveSnapshot?_remembers (h : s.saveSnapshot? slot = some s') :
    s'.Remembers slot (s.tracks.map Track.current) := by
  unfold saveSnapshot? at h
  split at h
  · rename_i hslot
    cases h
    show (s.snapshots.set slot _)[slot]?.join = _
    rw [Vector.getElem?_set_self hslot]
    rfl
  · cases h

/-- A slot that holds a snapshot can be recalled. Then every track plays what the snapshot says, the
slot is the active one, and nothing else changes. -/
theorem recallSnapshot?_of_remembers (h : s.Remembers slot snapshot) :
    s.recallSnapshot? slot = some { s with
      tracks := Vector.ofFn fun t => { s.tracks.get t with current := snapshot.get t }
      activeSnapshot := some slot } := by
  have htracks : s.tracks.zipWith (fun t current => { t with current }) snapshot =
      Vector.ofFn fun t => { s.tracks.get t with current := snapshot.get t } := by
    apply Vector.ext
    intro i hi
    rw [Vector.getElem_zipWith, Vector.getElem_ofFn]
    rfl
  rw [recallSnapshot?, h, Option.map_some, htracks]

end Song

namespace Desk

variable {d d' : Desk} {set slot : Nat} {snapshot : Snapshot} {settings : Settings}

/-! ## Edits -/

/-- Generating a pattern leaves all snapshots alone. -/
theorem generate_snapshots (d : Desk) (track : Nat) :
    (d.generate track).2.song.snapshots = d.song.snapshots := by
  unfold generate
  split <;> rfl

/-! ## Actions -/

/-- The action does not save or clear a slot of a set, nor does it let others write to the disk. The
same slot of other sets may be saved and cleared. -/
def Action.Spares (set slot : Nat) (d : Desk) : Action → Prop
  | .event (.edit e _) => d.session.setIndex = set → ¬ e.Overwrites slot
  | .event _ => True
  | .generate _ => True
  | .replaceDisk _ => False

/-- None of the actions that are performed in turn saves or clears a slot of a set. -/
def Spares (set slot : Nat) : Desk → List Action → Prop
  | _, [] => True
  | d, a :: actions => a.Spares set slot d ∧ (d.act a).Spares set slot actions

/-- An edit that does not overwrite the slot keeps the snapshot, and in another set any edit does.
-/
theorem apply_upholds (hwell : d.song.WellFormed)
    (h : d.session.Upholds set (Song.Remembers slot snapshot)) {e : Edit}
    (hspares : d.session.setIndex = set → ¬ e.Overwrites slot) (now : Nat) :
    (d.apply e now).2.session.Upholds set (Song.Remembers slot snapshot) := by
  rw [apply_eq]
  split
  · rename_i d' hd'
    have hedited := edit?_edited hd'
    have hsong : d.session.setIndex = set → d'.song.Remembers slot snapshot := by
      intro hactive
      rw [Song.Remembers, hedited.slots slot (hspares hactive)]
      exact h.active hactive
    show (d'.session.markDirty now).Upholds set _
    rw [hedited.session]
    exact h.markDirty (hedited.wellFormed hwell) hsong now
  · show (d.adjust e).session.Upholds set _
    rw [adjust_session]
    exact h

theorem openSet_upholds {P : Song → Prop} (haligned : d.session.Aligned)
    (h : d.session.Upholds set P) (index now : Nat) :
    (d.openSet index now).2.session.Upholds set P := by
  rcases openSet_session d index now with hsame | hnew
  · rw [hsame]
    exact h
  · rw [hnew]
    exact h.switchTo haligned index now

theorem generate_upholds (hwell : d.song.WellFormed)
    (h : d.session.Upholds set (Song.Remembers slot snapshot)) (track : Nat) :
    (d.generate track).2.session.Upholds set (Song.Remembers slot snapshot) := by
  rw [session_of_generate]
  refine h.setSong (generate_wellFormed hwell track) ?_
  intro hactive
  rw [Song.Remembers, generate_snapshots]
  exact h.active hactive

/-- An action that spares a slot keeps what the slot holds. -/
theorem act_upholds (hreached : Reached settings d) {a : Action} (hspares : a.Spares set slot d)
    (h : d.session.Upholds set (Song.Remembers slot snapshot)) :
    (d.act a).session.Upholds set (Song.Remembers slot snapshot) := by
  have haligned := hreached.punctual.aligned
  cases a with
  | event e =>
    cases e with
    | edit e now => exact apply_upholds hreached.wellFormed h hspares now
    | tick now => exact h.of_resaved (Session.tick_resaved haligned now)
    | setPlaying playing now => exact h.of_resaved (Session.setPlaying_resaved haligned playing now)
    | flush now => exact h.of_resaved (Session.flush_resaved haligned now)
    | openSet index now => exact openSet_upholds haligned h index now
    | hear facts => exact h
    | lock readOnly => exact ⟨h.active, h.onDisk⟩
  | generate track => exact generate_upholds hreached.wellFormed h track
  | replaceDisk disk => exact hspares.elim

/-- Along every run of actions that spare the slot, the snapshot is kept. -/
theorem perform_upholds (actions : List Action) :
    ∀ {d : Desk}, Reached settings d → d.Spares set slot actions →
      d.session.Upholds set (Song.Remembers slot snapshot) →
        Reached settings (d.perform actions) ∧
          (d.perform actions).session.Upholds set (Song.Remembers slot snapshot) := by
  induction actions with
  | nil => exact fun hreached _ h => ⟨hreached, h⟩
  | cons a actions ih =>
    intro d hreached hspares h
    exact ih (hreached.act a) hspares.2 (act_upholds hreached hspares.1 h)

/-! ## Recalling -/

/-- A desk recalls a snapshot from a slot: the edit is made, every track plays what the snapshot
says, the slot is the active one, and nothing else in the song changes. -/
def Recalls (d : Desk) (slot : Nat) (snapshot : Snapshot) : Prop :=
  ∀ now, (d.apply (.recallSnapshot slot) now).1 = true ∧
    (d.apply (.recallSnapshot slot) now).2.song = { d.song with
      tracks := Vector.ofFn fun t => { d.song.tracks.get t with current := snapshot.get t }
      activeSnapshot := some slot }

/-- A snapshot that the song remembers can be recalled. -/
theorem recalls_of_remembers (h : d.song.Remembers slot snapshot) : d.Recalls slot snapshot := by
  intro now
  rw [apply_eq, edit?, effect?, Song.recallSnapshot?_of_remembers h, Option.map_some,
    Option.map_some]
  exact ⟨rfl, rfl⟩

/-- The active set is one that there is. -/
theorem Reached.setIndex_lt (h : Reached settings d) : d.session.setIndex < Library.capacity := by
  induction h with
  | start library setIndex facts seed => exact Nat.lt_succ_of_le (Nat.min_le_right _ _)
  | @act d hreached a ih =>
    cases a with
    | event e =>
      cases e with
      | edit e now =>
        rcases apply_session d e now with hsame | ⟨song, -, hnew⟩
        · exact hsame ▸ ih
        · rw [Desk.act, step, hnew]
          exact ih
      | tick now => exact (Session.tick_writes d.session now).setIndex ▸ ih
      | setPlaying playing now =>
        exact (Session.setPlaying_writes d.session playing now).setIndex ▸ ih
      | flush now => exact (Session.flush_writes d.session now).setIndex ▸ ih
      | openSet index now =>
        have haligned := hreached.punctual.aligned
        cases hanswer : (d.openSet index now).1 with
        | true =>
          rw [Desk.act, step, (opened_of_made haligned hreached.wellFormed hanswer).setIndex]
          exact ((openSet_fst_iff haligned index now).1 hanswer).1
        | false =>
          rw [Desk.act, step, (openSet_of_refused haligned hanswer).1]
          exact ih
      | hear facts => exact ih
      | lock readOnly => exact ih
    | generate track =>
      rw [Desk.act, session_of_generate]
      exact ih
    | replaceDisk disk => exact ih
  | sendSong _ ih => exact ih

/-- In every state that a desk gets into, a snapshot can be saved to any slot, and is recalled as it
was saved whenever its set is active later: after any actions, as long as the slot of the set is
not saved or cleared again and no one else writes to the disk. Wherever the actions lead, the set is
gone back to, unless the song of another set has to be written for that and cannot be. -/
theorem recall_restores (h : Reached settings d) (hslot : slot < 16) (now : Nat)
    {actions : List Action}
    (hspares : (d.apply (.saveSnapshot slot) now).2.Spares d.session.setIndex slot actions) :
    let saved := d.apply (.saveSnapshot slot) now
    let d' := saved.2.perform actions
    let snapshot := d.song.tracks.map Track.current
    saved.1 = true ∧
      (d'.session.setIndex = d.session.setIndex → d'.Recalls slot snapshot) ∧
      (d'.session.CanLeave → ∀ later,
        let back := d'.openSet d.session.setIndex later
        back.1 = true ∧ back.2.session.setIndex = d.session.setIndex ∧
          back.2.Recalls slot snapshot) := by
  intro saved d' snapshot
  have hsave : ∃ song, d.song.saveSnapshot? slot = some song := by
    rw [Song.saveSnapshot?, dif_pos hslot]
    exact ⟨_, rfl⟩
  rcases hsave with ⟨song, hsong⟩
  have hwell : song.WellFormed := Song.saveSnapshot?_wellFormed h.wellFormed hsong
  have hmade : (d.apply (.saveSnapshot slot) now).1 = true ∧
      (d.apply (.saveSnapshot slot) now).2.session = { d.session with song }.markDirty now := by
    rw [apply_eq, edit?, effect?, hsong, Option.map_some, Option.map_some, carry_silent]
    exact ⟨rfl, rfl⟩
  -- From here on the slot holds the snapshot, in the session and, once it is written, on disk.
  have hfirst : saved.2.session.Upholds d.session.setIndex (Song.Remembers slot snapshot) := by
    rw [show saved.2.session = _ from hmade.2]
    exact Session.markDirty_upholds hwell (Song.saveSnapshot?_remembers hsong) now
  have hreached : Reached settings saved.2 := h.act (.event (.edit (.saveSnapshot slot) now))
  rcases perform_upholds actions hreached hspares hfirst with ⟨hreached', hupholds⟩
  refine ⟨hmade.1, fun hactive => recalls_of_remembers (hupholds.active hactive), ?_⟩
  intro hleave later back
  have haligned := hreached'.punctual.aligned
  have hback : back.1 = true := (openSet_fst_iff haligned _ later).2 ⟨h.setIndex_lt, hleave⟩
  have hset : back.2.session.setIndex = d.session.setIndex :=
    (opened_of_made haligned hreached'.wellFormed hback).setIndex
  have hupholds' := openSet_upholds haligned hupholds d.session.setIndex later
  exact ⟨hback, hset, recalls_of_remembers (hupholds'.active hset)⟩

/-- The snapshot outlives other patterns, other slots, and the same slot of another set. -/
theorem recall_restores_elsewhere :
    let d := (start {} 0 {} [] 0).step (.edit (.setCurrent 3 none) 1)
    let actions : List Action :=
      [.event (.edit (.setCurrent 3 (some 5)) 3), .generate 3, .event (.edit (.saveSnapshot 7) 4),
        .event (.openSet 1 5), .event (.edit (.saveSnapshot 2) 6), .event (.flush 7)]
    let d' := (d.apply (.saveSnapshot 2) 2).2.perform actions
    Reached {} d ∧ (d.apply (.saveSnapshot 2) 2).2.Spares d.session.setIndex 2 actions ∧
      d'.session.setIndex = 1 ∧
        (d'.openSet 0 9).2.Recalls 2 (d.song.tracks.map Track.current) := by
  intro d actions d'
  have hreached : Reached {} d :=
    (Reached.start {} 0 [] 0).act (.event (.edit (.setCurrent 3 none) 1))
  have hset : d'.session.setIndex = 1 := by decide +kernel
  have hspares : (d.apply (.saveSnapshot 2) 2).2.Spares d.session.setIndex 2 actions :=
    ⟨fun _ => by decide, trivial, fun _ => by decide, trivial,
      fun hactive => absurd hactive (by decide +kernel), trivial, trivial⟩
  have hclean : d'.session.dirty = false := by decide +kernel
  have hleave : d'.session.CanLeave := fun hdirty => Bool.noConfusion (hclean.symm.trans hdirty)
  exact ⟨hreached, hspares, hset, ((recall_restores hreached (by decide) 2 hspares).2.2 hleave 9).2.2⟩

end Desk
end Groovebox
