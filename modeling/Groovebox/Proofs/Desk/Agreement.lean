import Mathlib.Tactic
import Groovebox.Proofs.Desk.Runs
import Groovebox.Proofs.Engine.Agreement
/-! # The engine follows the desk

Edits send only what they change. The main statement is `Desk.engine_agrees`: in every run, the
engine holds after all calls so far what it would hold if it had received the current song and
nothing else. One change at a time is looked at in `Desk.Change.updates`. -/

namespace Groovebox

/-! ## Tracks that do not play what changes -/

theorem Track.playing_withStep (t : Track) (i : Fin 64) (s : Step) :
    (t.withStep i s).playing = t.playing.setStep i s :=
  Bank.get_put_self t.patterns t.playingIndex _

theorem Track.playing_setPattern_of_ne {t : Track} {p : Fin 16} (h : t.playingIndex ≠ p)
    (new : Pattern) : (t.setPattern p new).playing = t.playing :=
  Bank.get_put_of_ne t.patterns new (Ne.symm h)

namespace Export

variable (s : Song)

/-- A track has no part in the orders of other tracks and of the song. -/
theorem orders_setTrack_of_ne {t : Fin 16} (new : Track) {b : Block} (h : b.track? ≠ some t.val) :
    orders (s.setTrack t new) b = orders s b := by
  have hget {t' : Nat} (ht' : t' < 16) (hne : t' ≠ t.val) :
      (s.setTrack t new).tracks.get ⟨t', ht'⟩ = s.tracks.get ⟨t', ht'⟩ := by
    apply Bank.get_put_of_ne
    rintro rfl
    exact hne rfl
  by_cases hb : b.InSong
  · cases b with
    | setting t' x =>
      have hne : t' ≠ t.val := fun he => h (congrArg some he)
      rw [orders_setting s hb, orders_setting _ hb, hget hb hne]
      rfl
    | step t' i =>
      have hne : t' ≠ t.val := fun he => h (congrArg some he)
      rw [orders_step s hb, orders_step _ hb, hget hb.1 hne]
    | _ => rfl
  · rw [orders_of_absent hb, orders_of_absent hb]

theorem get_setTrack (t : Fin 16) (new : Track) : (s.setTrack t new).tracks.get t = new :=
  Bank.get_put_self s.tracks t new

/-- The orders of a setting of a track that was replaced. -/
theorem orders_setTrack_setting (t : Fin 16) (new : Track) (x : TrackParam) :
    orders (s.setTrack t new) (.setting t x) =
      [(Param.track t x).call (settingValue new (s.chordFollow.get t) x)] := by
  rw [orders_setting _ t.isLt]
  show [(Param.track t x).call (settingValue ((s.setTrack t new).tracks.get t) _ x)] = _
  rw [get_setTrack]
  rfl

/-- The orders of a step of a track that was replaced. -/
theorem orders_setTrack_step (t : Fin 16) (new : Track) (i : Fin 64) :
    orders (s.setTrack t new) (.step t i) = step t i (new.playing.steps.get i) := by
  rw [orders_step _ ⟨t.isLt, i.isLt⟩]
  show step t i (((s.setTrack t new).tracks.get t).playing.steps.get i) = _
  rw [get_setTrack]

/-- The orders that a track keeps when another one replaces it. -/
theorem orders_setTrack_of_same {t : Fin 16} {new : Track} {b : Block}
    (hsetting : ∀ x, b = .setting t x → settingValue new (s.chordFollow.get t) x =
      settingValue (s.tracks.get t) (s.chordFollow.get t) x)
    (hstep : ∀ i : Fin 64, b = .step t i →
      new.playing.steps.get i = (s.tracks.get t).playing.steps.get i) :
    orders (s.setTrack t new) b = orders s b := by
  by_cases htrack : b.track? = some t.val
  · by_cases hb : b.InSong
    · cases b with
      | setting t' x =>
        cases htrack
        rw [orders_setTrack_setting, orders_setting s hb, hsetting x rfl]
      | step t' i =>
        cases htrack
        rw [orders_setTrack_step s t new ⟨i, hb.2⟩, orders_step s hb, hstep ⟨i, hb.2⟩ rfl]
      | _ => cases htrack
    · rw [orders_of_absent hb, orders_of_absent hb]
  · exact orders_setTrack_of_ne s new htrack

end Export

namespace Desk

open EngineState Export

/-! ## Changes -/

variable {s : Song}

/-- The calls of every change bring the engine to the changed song. -/
theorem Change.updates {limit : Nat} {s' : Song} {calls : List Call}
    (h : Change limit s s' calls) : Updates s s' (calls.flatMap Call.expand) := by
  cases h with
  | step t i new =>
    have horders : orders (s.setTrack t ((s.tracks.get t).withStep i new)) (.step t i) =
        Export.step t i new := by
      rw [orders_setTrack_step, Track.playing_withStep]
      exact congrArg (Export.step t i) (Bank.get_put_self _ i new)
    rw [← horders]
    apply updates_block
    intro b hb
    apply orders_setTrack_of_same
    · exact fun x _ => rfl
    · intro j hj
      -- Only the replaced step is another one, and its block is the one that is sent.
      rw [Track.playing_withStep]
      apply Bank.get_put_of_ne
      rintro rfl
      exact hb hj
  | bpm bpm =>
    apply updates_block .bpm
    intro b hb
    cases b <;> first | rfl | exact absurd rfl hb
  | mute t muted =>
    have horders : orders (s.setTrack t { s.tracks.get t with muted }) (.setting t .mute) =
        Export.mute t { s.tracks.get t with muted } := orders_setTrack_setting s t _ .mute
    rw [← horders]
    apply updates_block
    intro b hb
    apply orders_setTrack_of_same
    · intro x hx
      cases x with
      | mute => exact absurd hx hb
      | _ => rfl
    · exact fun i _ => rfl
  | track t new =>
    apply updates_tracks limit (List.nodup_singleton t)
    intro b hb
    exact orders_setTrack_of_ne s new (hb t List.mem_cons_self)
  | follow t follow =>
    apply updates_settings t rfl (Bank.get_put_self s.chordFollow t follow)
    intro b hb
    by_cases hin : b.InSong
    · cases b with
      | setting t' x =>
        have hne : t ≠ ⟨t', hin⟩ := by
          rintro rfl
          exact hb x rfl
        rw [orders_setting s hin, orders_setting _ hin]
        show [(Param.track t' x).call (settingValue _ ((s.chordFollow.put t follow).get _) x)] = _
        rw [Bank.get_put_of_ne _ _ hne]
      | _ => rfl
    · rw [orders_of_absent hin, orders_of_absent hin]
  | slots snapshots activeSnapshot =>
    apply updates_nil
    intro b
    cases b <;> rfl
  | tracks tracks activeSnapshot =>
    apply updates_tracks limit (List.nodup_finRange 16)
    intro b hb
    by_cases hin : b.InSong
    · cases b with
      | setting t x => exact absurd rfl (hb ⟨t, hin⟩ (List.mem_finRange _))
      | step t i => exact absurd rfl (hb ⟨t, hin.1⟩ (List.mem_finRange _))
      | _ => rfl
    · rw [orders_of_absent hin, orders_of_absent hin]
  | idle t p new hidle =>
    apply updates_nil
    intro b
    apply orders_setTrack_of_same
    · exact fun x _ => rfl
    · intro i _
      rw [Track.playing_setPattern_of_ne hidle]
  | transposes transposes =>
    apply updates_block .transposes
    intro b hb
    cases b <;> first | rfl | exact absurd rfl hb

/-! ## Runs -/

/-- The engine holds what it would hold of the song alone. -/
def Agrees (d : Desk) : Prop :=
  after d.sent = held d.song

variable {d d' : Desk}

/-- A desk starts by sending the whole song. -/
theorem start_agrees (library : Library) (setIndex : Nat) (settings : Settings) (facts : Facts)
    (seed : UInt64) : (start library setIndex settings facts seed).Agrees :=
  after_song _ _

/-- Whatever keeps the song and sends nothing keeps the agreement. -/
theorem Agrees.of_same (h : d.Agrees) (hsong : d'.song = d.song) (hsent : d'.sent = d.sent) :
    d'.Agrees := by
  unfold Agrees
  rw [hsong, hsent]
  exact h

/-- So does what changes the song and sends enough. -/
theorem Agrees.of_updates (h : d.Agrees) {calls : List Call} (hsent : d'.sent = d.sent ++ calls)
    (hcalls : Updates d.song d'.song (calls.flatMap Call.expand)) : d'.Agrees := by
  unfold Agrees
  rw [hsent, after_append, h, run_held hcalls]

/-- The generator's settings are not sent. -/
theorem adjust_sent (d : Desk) (e : Edit) : (d.adjust e).sent = d.sent := by
  cases e <;> rfl

/-- An edit sends what it changes, so the engine still agrees. -/
theorem apply_agrees (h : d.Agrees) (e : Edit) (now : Nat) : (d.apply e now).2.Agrees := by
  rw [apply_eq]
  split
  · rename_i d' hd'
    rcases (edit?_edited hd').change with ⟨calls, hsent, hchange⟩
    exact h.of_updates hsent hchange.updates
  · exact h.of_same (congrArg Session.song (adjust_session d e)) (adjust_sent d e)

/-- Opening a set sends the whole song, or nothing where it is refused. -/
theorem openSet_agrees (h : d.Agrees) (index now : Nat) : (d.openSet index now).2.Agrees := by
  unfold openSet
  split
  · exact h
  · rcases hswitch : d.session.switchTo index now with ⟨answer, session⟩
    -- Another song may be anything, but it is sent as a whole; a refusal leaves the old one.
    cases answer with
    | true => exact h.of_updates rfl (updates_song d.song session.song d.settings.bulkChunk)
    | false => exact h.of_same (Session.song_of_switchTo_refused hswitch) rfl

/-- Every event keeps the agreement. -/
theorem step_agrees (h : d.Agrees) (e : Event) : (d.step e).Agrees := by
  cases e with
  | edit e now => exact apply_agrees h e now
  | tick now => exact h.of_same (Session.tick_writes d.session now).song rfl
  | setPlaying playing now =>
    exact h.of_same (Session.setPlaying_writes d.session playing now).song rfl
  | flush now => exact h.of_same (Session.flush_writes d.session now).song rfl
  | openSet index now => exact openSet_agrees h index now
  | hear facts => exact h
  | lock readOnly => exact h

theorem run_agrees (events : List Event) (h : d.Agrees) : (d.run events).Agrees :=
  run_keeps step_agrees events h

/-- In every run, what the engine holds after all calls so far is what it would hold if it had
received the current song alone. -/
theorem engine_agrees (library : Library) (setIndex : Nat) (settings : Settings) (facts : Facts)
    (seed : UInt64) (events : List Event) :
    let d := (start library setIndex settings facts seed).run events
    after d.sent = after (Export.song d.settings.bulkChunk d.song) := by
  intro d
  rw [after_song]
  exact run_agrees events (start_agrees library setIndex settings facts seed)

end Desk
end Groovebox
