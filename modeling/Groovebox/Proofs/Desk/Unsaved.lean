import Mathlib.Tactic
import Groovebox.Proofs.Desk.Switching
/-! # Changes that wait for their save

Every edit passes through the place where the song is marked to be saved; a pattern can also be
generated without an edit, which does not pass there. So an operation that changes the song leaves a
save waiting, unless it is such a generation and the song was clean: then nothing waits, and the
next switch of sets drops the pattern.

* `Desk.song_operate`: what an operation other than generating may do to the song.
* `Session.flush_safe`, `Desk.openSet_safe`: a song that waits for its save is not dropped.
* `Desk.change_waits_iff`: which changes wait for their save, and what becomes of them.
* `Desk.change_waits_iff_dropped`: a generated pattern that is dropped.
-/

namespace Groovebox

/-! ## Songs that wait -/

namespace Session

variable {s : Session}

/-- The song is dirty, and of all saves just that of its set waits. -/
structure Waits (s : Session) : Prop where
  dirty : s.dirty = true
  pending : ∃ due, s.queue.pending = [{ set := s.setIndex, due }]

/-- The song of one session is not lost in another: its set loads as it, or it is there still and
waits for its save. -/
def SafeIn (s s' : Session) : Prop :=
  s'.library.load s.setIndex = s.song ∨
    (s'.song = s.song ∧ s'.setIndex = s.setIndex ∧ s'.Waits)

/-- A save waits just if the song is dirty. -/
theorem waits_iff (h : s.Aligned) : s.Waits ↔ s.dirty = true := by
  constructor
  · exact Waits.dirty
  · intro hdirty
    rcases h.dirty hdirty with ⟨due, hqueue⟩
    exact ⟨hdirty, due, congrArg SaveQueue.pending hqueue⟩

/-- A dirty song is written, or it waits another rest. -/
theorem flush_safe (h : s.Aligned) (hwell : s.song.WellFormed) (hdirty : s.dirty = true)
    (now : Nat) : s.SafeIn (s.flush now).2 := by
  rw [flush_eq h, if_pos hdirty, attempt, save]
  split
  · rename_i library hsave
    exact Or.inl (Library.load_of_save hsave hwell)
  · exact Or.inr ⟨rfl, rfl, hdirty, _, rfl⟩

/-- A clean song is not written. -/
theorem flush_of_clean (hclean : s.dirty = false) (now : Nat) : s.flush now = (false, s) := by
  rw [flush, if_neg (Bool.eq_false_iff.1 hclean)]

end Session

namespace Desk

variable {d : Desk}

/-- A dirty song is safe when another set is opened: it is written first, or the session stays. -/
theorem openSet_safe (h : d.session.Aligned) (hwell : d.song.WellFormed)
    (hdirty : d.session.dirty = true) (index now : Nat) :
    d.session.SafeIn (d.openSet index now).2.session := by
  cases hanswer : (d.openSet index now).1 with
  | true => exact Or.inl ((opened_of_made h hwell hanswer).saved hdirty)
  | false =>
    -- A desk that stays keeps its song, and its save waits as before or anew.
    right
    rcases openSet_of_refused h hanswer with ⟨hsame, hpast, hstays⟩
    by_cases hindex : index < Library.capacity
    · have hqueue := (hstays hindex).2
      rw [hsame]
      exact ⟨rfl, rfl, hdirty, _, hqueue⟩
    · rw [hpast (Nat.le_of_not_lt hindex)]
      exact ⟨rfl, rfl, (Session.waits_iff h).2 hdirty⟩

/-- A clean desk goes to another set without writing anything. -/
theorem openSet_of_clean (hclean : d.session.dirty = false) {index : Nat}
    (hindex : index < Library.capacity) (now : Nat) :
    (d.openSet index now).1 = true ∧
      (d.openSet index now).2.session = d.session.takeUp index := by
  have hswitch : d.session.switchTo index now = (true, d.session.takeUp index) := by
    rw [Session.switchTo, if_neg (Bool.eq_false_iff.1 hclean)]
  rw [openSet_of_switchTo hindex hswitch]
  exact ⟨rfl, rfl⟩

/-! ## Operations -/

/-- What can be asked of a desk but to go to another set; times are in milliseconds. -/
inductive Operation
  | apply (e : Edit) (now : Nat)
  | generate (track : Nat)
  | tick (now : Nat)
  | setPlaying (playing : Bool) (now : Nat)
  | flush (now : Nat)
  | sendSong
  | scaleHint

/-- What an operation makes of a desk. -/
def operate (d : Desk) : Operation → Desk
  | .apply e now => (d.apply e now).2
  | .generate track => (d.generate track).2
  | .tick now => (d.tick now).2
  | .setPlaying playing now => (d.setPlaying playing now).2
  | .flush now => (d.flush now).2
  | .sendSong => d.sendSong
  | .scaleHint => d

/-- Generating a pattern without an edit. -/
def Operation.IsGenerate : Operation → Prop
  | .generate _ => True
  | _ => False

/-- The desks that there can be: a desk that just opened a set, and what any action makes of one. -/
inductive Reached (settings : Settings) : Desk → Prop
  | start : ∀ (library : Library) (setIndex : Nat) (facts : Facts) (seed : UInt64),
      Reached settings (start library setIndex settings facts seed)
  | act {d : Desk} : Reached settings d → ∀ a : Action, Reached settings (d.act a)
  | sendSong {d : Desk} : Reached settings d → Reached settings d.sendSong

theorem Reached.punctual {settings : Settings} (h : Reached settings d) :
    d.Punctual settings.saveDebounce := by
  induction h with
  | start library setIndex facts seed => exact start_punctual library setIndex settings facts seed
  | act _ a ih => exact act_punctual ih a
  | sendSong _ ih => exact ih.of_same rfl

theorem Reached.wellFormed {settings : Settings} (h : Reached settings d) : d.song.WellFormed := by
  induction h with
  | start library setIndex facts seed =>
    exact (start_sound library setIndex settings facts seed).wellFormed
  | act _ a ih => exact act_wellFormed ih a
  | sendSong _ ih => exact ih

theorem Reached.operate {settings : Settings} (h : Reached settings d) (o : Operation) :
    Reached settings (d.operate o) := by
  cases o with
  | apply e now => exact h.act (.event (.edit e now))
  | generate track => exact h.act (.generate track)
  | tick now => exact h.act (.event (.tick now))
  | setPlaying playing now => exact h.act (.event (.setPlaying playing now))
  | flush now => exact h.act (.event (.flush now))
  | sendSong => exact h.sendSong
  | scaleHint => exact h

/-- An operation other than generating leaves the song alone, or marks it. -/
theorem song_operate {o : Operation} (ho : ¬ o.IsGenerate) :
    (d.operate o).song = d.song ∨ (d.operate o).session.dirty = true := by
  cases o with
  | apply e now =>
    rcases apply_session d e now with hsame | ⟨song, -, hnew⟩
    · exact Or.inl (congrArg Session.song hsame)
    · exact Or.inr (congrArg Session.dirty hnew)
  | generate track => exact absurd trivial ho
  | tick now => exact Or.inl (Session.tick_writes d.session now).song
  | setPlaying playing now => exact Or.inl (Session.setPlaying_writes d.session playing now).song
  | flush now => exact Or.inl (Session.flush_writes d.session now).song
  | sendSong => exact Or.inl rfl
  | scaleHint => exact Or.inl rfl

/-- Generating changes the song of the session and nothing else of it. -/
theorem session_of_generate (d : Desk) (track : Nat) :
    (d.generate track).2.session = { d.session with song := (d.generate track).2.song } := by
  by_cases ht : track < 16
  · exact (generate_edited ht).session
  · rw [generate, dif_neg ht]
    rfl

/-- Generating without an edit does not mark the song. -/
theorem dirty_of_isGenerate {o : Operation} (ho : o.IsGenerate) :
    (d.operate o).session.dirty = d.session.dirty := by
  cases o with
  | generate track =>
    show (d.generate track).2.session.dirty = d.session.dirty
    rw [session_of_generate]
  | apply e now => exact ho.elim
  | tick now => exact ho.elim
  | setPlaying playing now => exact ho.elim
  | flush now => exact ho.elim
  | sendSong => exact ho.elim
  | scaleHint => exact ho.elim

/-- A track that is off plays the pattern that was generated on it. -/
theorem song_generate_ne {track : Nat} (ht : track < 16)
    (hoff : (d.song.tracks.get ⟨track, ht⟩).current = none) :
    (d.operate (.generate track)).song ≠ d.song := by
  have hon : ∃ target,
      ((d.operate (.generate track)).song.tracks.get ⟨track, ht⟩).current = some target := by
    rw [operate, generate, dif_pos ht]
    exact ⟨_, congrArg Track.current (Bank.get_put_self d.song.tracks ⟨track, ht⟩ _)⟩
  rcases hon with ⟨target, hon⟩
  intro hsame
  rw [hsame, hoff] at hon
  cases hon

/-- What is generated on a clean song is gone when the set is opened again, because the disk still
holds the song as it was. -/
theorem song_reopened_of_clean (hsound : d.session.Sound) (hclean : d.session.dirty = false)
    {index : Nat} (hset : d.session.setIndex = index) (hindex : index < Library.capacity)
    (track now : Nat) : ((d.operate (.generate track)).openSet index now).2.song = d.song := by
  have hsession : (d.operate (.generate track)).session =
      { d.session with song := (d.operate (.generate track)).song } := session_of_generate d track
  have hstill : (d.operate (.generate track)).session.dirty = false := by
    rw [hsession]
    exact hclean
  rw [song, (openSet_of_clean hstill hindex now).2, hsession, ← hset]
  exact hsound.saved hclean

/-- An operation that changes the song leaves its save waiting, unless a pattern was generated
without an edit on a clean song. A song that waits is not dropped by writing it now or going to
another set, whatever these come to. A song that does not wait is not written by them, and going to
another set takes up what the disk has held all along. -/
theorem change_waits_iff {settings : Settings} (h : Reached settings d) {o : Operation}
    (hchanged : (d.operate o).song ≠ d.song) :
    let d' := d.operate o
    (d'.session.Waits ↔ ¬ o.IsGenerate ∨ d.session.dirty = true) ∧
      (d'.session.Waits → ∀ now, d'.session.SafeIn (d'.flush now).2.session ∧
        ∀ index, d'.session.SafeIn (d'.openSet index now).2.session) ∧
      (¬ d'.session.Waits → ∀ now, d'.flush now = (false, d') ∧
        ∀ index < Library.capacity, (d'.openSet index now).1 = true ∧
          (d'.openSet index now).2.session = d'.session.takeUp index) := by
  intro d'
  have haligned : d'.session.Aligned := (h.operate o).punctual.aligned
  have hwell : d'.song.WellFormed := (h.operate o).wellFormed
  rw [Session.waits_iff haligned]
  refine ⟨⟨?_, ?_⟩, ?_, ?_⟩
  · intro hdirty
    by_cases ho : o.IsGenerate
    · exact Or.inr ((dirty_of_isGenerate ho).symm.trans hdirty)
    · exact Or.inl ho
  · intro hmarked
    by_cases ho : o.IsGenerate
    · have hdirty : d.session.dirty = true := hmarked.resolve_left (absurd ho)
      exact (dirty_of_isGenerate ho).trans hdirty
    · exact (song_operate ho).resolve_left hchanged
  · intro hdirty now
    exact ⟨Session.flush_safe haligned hwell hdirty now,
      fun index => openSet_safe haligned hwell hdirty index now⟩
  · intro hnot now
    have hclean : d'.session.dirty = false := Bool.eq_false_iff.2 hnot
    refine ⟨?_, fun index hindex => openSet_of_clean hclean hindex now⟩
    rw [flush, Session.flush_of_clean hclean]
    rfl

/-- A desk on which a track was turned off. -/
def trackOff : Desk :=
  (start {} 0 {} [] 0).step (.edit (.setCurrent 0 none) 5)

/-- A desk on which a track was turned off, and the song written since. -/
def trackOffSaved : Desk :=
  trackOff.step (.flush 7)

/-- A pattern that is generated on an edited song waits with the edit, and is not dropped. -/
theorem change_waits_iff_edited :
    Reached {} trackOff ∧ (trackOff.operate (.generate 0)).song ≠ trackOff.song ∧
      (trackOff.operate (.generate 0)).session.Waits ∧
      (trackOff.operate (.generate 0)).session.SafeIn
        ((trackOff.operate (.generate 0)).openSet 1 9).2.session := by
  have hreached : Reached {} trackOff :=
    (Reached.start {} 0 [] 0).act (.event (.edit (.setCurrent 0 none) 5))
  have hoff : (trackOff.song.tracks.get ⟨0, by decide⟩).current = none := by decide +kernel
  have hchanged : (trackOff.operate (.generate 0)).song ≠ trackOff.song :=
    song_generate_ne (by decide) hoff
  have hdirty : trackOff.session.dirty = true := by decide +kernel
  have hwaits := change_waits_iff hreached hchanged
  have hnow := hwaits.1.2 (Or.inr hdirty)
  exact ⟨hreached, hchanged, hnow, (hwaits.2.1 hnow 9).2 1⟩

/-- A pattern that is generated on a clean song waits for nothing, and is gone when the set is
opened again. -/
theorem change_waits_iff_dropped :
    Reached {} trackOffSaved ∧
      (trackOffSaved.operate (.generate 0)).song ≠ trackOffSaved.song ∧
      (trackOffSaved.operate (.generate 0)).session.dirty = false ∧
      (trackOffSaved.operate (.generate 0)).session.queue.pending = [] ∧
      ((trackOffSaved.operate (.generate 0)).openSet 0 9).2.song = trackOffSaved.song := by
  have hreached : Reached {} trackOffSaved :=
    ((Reached.start {} 0 [] 0).act (.event (.edit (.setCurrent 0 none) 5))).act (.event (.flush 7))
  have hoff : (trackOffSaved.song.tracks.get ⟨0, by decide⟩).current = none := by decide +kernel
  have hchanged : (trackOffSaved.operate (.generate 0)).song ≠ trackOffSaved.song :=
    song_generate_ne (by decide) hoff
  have hclean : trackOffSaved.session.dirty = false := by decide +kernel
  have hnever : (trackOffSaved.operate (.generate 0)).session.dirty = false := by decide +kernel
  have hempty : (trackOffSaved.operate (.generate 0)).session.queue.pending = [] := by
    decide +kernel
  have hsound : trackOffSaved.session.Sound :=
    step_sound (step_sound (start_sound {} 0 {} [] 0) _) _
  have hset : trackOffSaved.session.setIndex = 0 := by decide +kernel
  have hindex : 0 < Library.capacity := by decide
  exact ⟨hreached, hchanged, hnever, hempty, song_reopened_of_clean hsound hclean hset hindex 0 9⟩

end Desk
end Groovebox
