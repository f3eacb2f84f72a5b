import Mathlib.Tactic
import Groovebox.Proofs.Desk.Runs
import Groovebox.Proofs.Session.Settled
/-! # When a desk saves makes no difference

`Desk.WriteThrough` is a desk without dirty songs, queues and times: it writes every edit at once. A
desk whose saves succeed answers like it, sends what it sends, and will hold in its sets what it
holds (`Desk.run_writeThrough`); ticks, flushes and the transport are no steps of it. The main
statement is `Desk.timing_unobservable`: runs with the same requests end alike. -/

namespace Groovebox.Desk

/-! ## Requests -/

/-- What is asked of a desk, apart from all that decides when songs are written. -/
inductive Request
  | edit (e : Edit)
  | openSet (index : Nat)
  | hear (facts : Facts)

/-- The request that an event is. The transport, flushes and ticks are none. -/
def Event.request? : Event → Option Request
  | .edit e _ => some (.edit e)
  | .openSet index _ => some (.openSet index)
  | .hear facts => some (.hear facts)
  | .tick _ | .setPlaying _ _ | .flush _ | .lock _ => none

/-- What an event does to the session, where it is no edit. -/
def Event.onSession? : Event → Option Session.Event
  | .tick now => some (.tick now)
  | .setPlaying playing now => some (.setPlaying playing now)
  | .flush now => some (.flush now)
  | .openSet index now => if Library.capacity ≤ index then none else some (.switchTo index now)
  | .edit _ _ | .hear _ | .lock _ => none

/-- The saves that an event tries, with how they end. -/
def tries (d : Desk) (e : Event) : List Session.Note :=
  match e.onSession? with
  | some e => (Session.Noted.step { session := d.session } e).notes
  | none => []

/-- Whether every save that is tried in the course of events succeeds. -/
def savesAll (d : Desk) : List Event → Bool
  | [] => true
  | e :: events => (d.tries e).all (!·.failed) && (d.step e).savesAll events

/-- The answer to a request. -/
def answer? (d : Desk) : Event → Option Bool
  | .edit e now => some (d.apply e now).1
  | .openSet index now => some (d.openSet index now).1
  | _ => none

/-- The answers to the requests among events. -/
def answers (d : Desk) : List Event → List Bool
  | [] => []
  | e :: events => (d.answer? e).toList ++ (d.step e).answers events

/-! ## Writing through -/

/-- A desk that writes every edit at once, with what is at the path of each set. -/
structure WriteThrough where
  /-- The desk. Its library and its queue are not used. -/
  desk : Desk
  /-- What is at the path of each set. -/
  nodes : Nat → Option Node

namespace WriteThrough

/-- Does what is requested. -/
def perform (w : WriteThrough) : Request → WriteThrough
  | .edit e =>
    match w.desk.edit? e with
    | some desk =>
      let text := desk.song.text
      { desk, nodes := Function.update w.nodes desk.session.setIndex (some (.file (.text text))) }
    | none => { w with desk := w.desk.adjust e }
  | .openSet index =>
    if Library.capacity ≤ index then w
    else
      let session :=
        { w.desk.session with setIndex := index, song := Library.songAt (w.nodes index) }
      { w with desk := { w.desk with session, audition := w.desk.audition.finish }.sendSong }
  | .hear facts => { w with desk.facts := facts }

/-- The answer to a request. -/
def answer? (w : WriteThrough) : Request → Option Bool
  | .edit e => some (w.desk.edit? e).isSome
  | .openSet index => some (decide (index < Library.capacity))
  | .hear _ => none

/-- Does what is requested in turn. -/
def run (w : WriteThrough) (requests : List Request) : WriteThrough :=
  requests.foldl perform w

/-- The answers to requests in turn. -/
def answers (w : WriteThrough) : List Request → List Bool
  | [] => []
  | r :: requests => (w.answer? r).toList ++ (w.perform r).answers requests

end WriteThrough

/-- A desk without what decides when it saves and what saving changes. -/
def bare (d : Desk) : Desk :=
  { d with session := d.session.bare }

/-- The desk that would have written everything by now. -/
def writeThrough (d : Desk) : WriteThrough :=
  { desk := d.bare, nodes := d.session.settled }

variable {d : Desk}

/-! ## What edits read -/

/-- Of the session, an edit reads nothing but the song. -/
theorem effect?_bare (d : Desk) (e : Edit) : d.bare.effect? e = d.effect? e := rfl

/-- An edit reads and changes nothing of the session but its song. -/
theorem edit?_bare (d : Desk) (e : Edit) : d.bare.edit? e = (d.edit? e).map bare := by
  rw [edit?, edit?, effect?_bare, Option.map_map]
  rfl

/-- The generator's settings do not depend on when the session saves. -/
theorem adjust_bare (d : Desk) (e : Edit) : d.bare.adjust e = (d.adjust e).bare := by
  cases e <;> rfl

/-! ## One event -/

theorem step_aligned (h : d.session.Aligned) (e : Event) : (d.step e).session.Aligned := by
  cases e with
  | edit e now =>
    rcases apply_session d e now with hsame | ⟨song, -, hnew⟩
    · exact hsame ▸ h
    · rw [step, hnew]
      exact (h.step (.edit song)).step (.markDirty now)
  | tick now => exact h.step (.tick now)
  | setPlaying playing now => exact h.step (.setPlaying playing now)
  | flush now => exact h.step (.flush now)
  | openSet index now =>
    rcases openSet_session d index now with hsame | hnew
    · exact hsame ▸ h
    · rw [step, hnew]
      exact h.step (.switchTo index now)
  | hear facts => exact h
  | lock readOnly => exact ⟨h.clean, h.dirty⟩

/-- A save that is tried is no difference to a desk that writes at once. -/
theorem writeThrough_of_resaved {s : Session} (h : d.session.Resaved s) :
    ({ d with session := s } : Desk).writeThrough = d.writeThrough := by
  rw [writeThrough, writeThrough, bare, bare, h.bare, h.settled]

/-- Writing through takes no notice of an event that is no request. -/
theorem step_of_silent (h : d.session.Aligned) {e : Event} (he : e.request? = none) :
    (d.step e).writeThrough = d.writeThrough ∧ d.answer? e = none := by
  cases e with
  | tick now => exact ⟨writeThrough_of_resaved (Session.tick_resaved h now), rfl⟩
  | setPlaying playing now =>
    exact ⟨writeThrough_of_resaved (Session.setPlaying_resaved h playing now), rfl⟩
  | flush now => exact ⟨writeThrough_of_resaved (Session.flush_resaved h now), rfl⟩
  | lock readOnly => exact ⟨rfl, rfl⟩
  | edit e now => cases he
  | openSet index now => cases he
  | hear facts => cases he

/-- An edit does the same to a desk that saves later and to one that writes at once. -/
theorem apply_writeThrough (d : Desk) (e : Edit) (now : Nat) :
    (d.apply e now).2.writeThrough = d.writeThrough.perform (.edit e) ∧
      (d.apply e now).1 = (d.bare.edit? e).isSome := by
  have hbare := edit?_bare d e
  cases hedit : d.edit? e with
  | none =>
    rw [hedit, Option.map_none] at hbare
    rw [hbare]
    refine ⟨?_, by rw [apply_eq, hedit]; rfl⟩
    simp only [apply_eq, hedit, WriteThrough.perform, writeThrough, hbare, adjust_bare,
      adjust_session]
  | some d' =>
    rw [hedit, Option.map_some] at hbare
    -- The edited song is what the set will hold.
    have hsession := (edit?_edited hedit).session
    have hsettled : (d'.session.markDirty now).settled =
        Function.update d.session.settled d'.session.setIndex
          (some (.file (.text d'.song.text))) := by
      rw [hsession]
      exact Session.markDirty_settled d.session d'.song now
    rw [hbare]
    simp only [apply_eq, hedit, WriteThrough.perform, writeThrough, hbare, hsettled]
    exact ⟨rfl, rfl⟩

/-- If no save fails on the way, opening a set does the same to a desk that saves later and to one
that writes at once. -/
theorem openSet_writeThrough (h : d.session.Aligned) {index now : Nat}
    (hsaves : ∀ x ∈ d.tries (.openSet index now), x.failed = false) :
    (d.openSet index now).2.writeThrough = d.writeThrough.perform (.openSet index) ∧
      (d.openSet index now).1 = decide (index < Library.capacity) := by
  by_cases hindex : Library.capacity ≤ index
  · rw [openSet, WriteThrough.perform, if_pos hindex, if_pos hindex, decide_eq_false hindex.not_gt]
    exact ⟨rfl, rfl⟩
  · rw [tries, Event.onSession?, if_neg hindex] at hsaves
    have hanswer := Session.Noted.switchTo_of_unfailed (n := { session := d.session }) h hsaves
    rcases hswitch : d.session.switchTo index now with ⟨answer, s⟩
    rw [hswitch] at hanswer
    cases hanswer
    rcases Session.switchTo_settled h hswitch with ⟨hsettled, hbare⟩
    rw [openSet, WriteThrough.perform, if_neg hindex, if_neg hindex, hswitch,
      decide_eq_true (Nat.lt_of_not_le hindex)]
    refine ⟨?_, rfl⟩
    -- Sending the song reads nothing but the song.
    show WriteThrough.mk
        { d with session := s.bare, audition := d.audition.finish }.sendSong s.settled = _
    rw [hbare, hsettled]
    rfl

/-- Writing through does for a request what the desk does. -/
theorem step_of_request (h : d.session.Aligned) {e : Event} {r : Request}
    (he : e.request? = some r) (hsaves : ∀ x ∈ d.tries e, x.failed = false) :
    (d.step e).writeThrough = d.writeThrough.perform r ∧
      d.answer? e = d.writeThrough.answer? r := by
  cases e with
  | edit e now =>
    cases he
    rcases apply_writeThrough d e now with ⟨hperform, hanswer⟩
    exact ⟨hperform, congrArg some hanswer⟩
  | openSet index now =>
    cases he
    rcases openSet_writeThrough h hsaves with ⟨hperform, hanswer⟩
    exact ⟨hperform, congrArg some hanswer⟩
  | hear facts =>
    cases he
    exact ⟨rfl, rfl⟩
  | tick now => cases he
  | setPlaying playing now => cases he
  | flush now => cases he
  | lock readOnly => cases he

/-! ## Runs -/

/-- A desk whose saves succeed answers as if it wrote every edit at once, and will hold in its sets
what it would hold then. -/
theorem run_writeThrough (events : List Event) :
    ∀ {d : Desk}, d.session.Aligned → d.savesAll events = true →
      (d.run events).writeThrough = d.writeThrough.run (events.filterMap Event.request?) ∧
        d.answers events = d.writeThrough.answers (events.filterMap Event.request?) := by
  induction events with
  | nil => exact fun _ _ => ⟨rfl, rfl⟩
  | cons e events ih =>
    intro d h hsaves
    rw [savesAll, Bool.and_eq_true, List.all_eq_true] at hsaves
    rcases hsaves with ⟨hnow, hrest⟩
    rcases ih (step_aligned h e) hrest with ⟨hrun, hanswers⟩
    rw [run, List.foldl_cons, ← run, answers, hrun, hanswers]
    cases he : e.request? with
    | none =>
      rcases step_of_silent h he with ⟨hsame, hanswer⟩
      rw [List.filterMap_cons_none he, hsame, hanswer]
      exact ⟨rfl, rfl⟩
    | some r =>
      rcases step_of_request h he (by simpa using hnow) with ⟨hperform, hanswer⟩
      rw [List.filterMap_cons_some he, hperform, hanswer]
      exact ⟨rfl, rfl⟩

theorem run_aligned (events : List Event) (h : d.session.Aligned) :
    (d.run events).session.Aligned :=
  run_keeps (P := fun d => d.session.Aligned) step_aligned events h

/-- The folder of the library stays. -/
theorem run_root (d : Desk) (events : List Event) :
    (d.run events).session.library.root = d.session.library.root := by
  refine run_keeps (P := fun d' => d'.session.library.root = d.session.library.root) ?_ events rfl
  exact fun {d'} h e => (step_library d' e).root.trans h

theorem savesAll_append (events events' : List Event) :
    ∀ d : Desk, d.savesAll (events ++ events') =
      (d.savesAll events && (d.run events).savesAll events') := by
  induction events with
  | nil => exact fun d => rfl
  | cons e events ih =>
    intro d
    rw [List.cons_append, savesAll, savesAll, ih, Bool.and_assoc]
    rfl

/-- After a flush that succeeds, every set holds what it was to hold. -/
theorem node?_of_flush (h : d.session.Aligned) {now : Nat}
    (hsaves : d.savesAll [.flush now] = true) (set : Nat) :
    (d.step (.flush now)).session.library.disk.node?
      ((d.step (.flush now)).session.library.setPath set) = d.session.settled set := by
  rw [savesAll, Bool.and_eq_true, List.all_eq_true] at hsaves
  have hunfailed : ∀ x ∈ d.tries (.flush now), x.failed = false := by simpa using hsaves.1
  have hclean : (d.step (.flush now)).session.dirty = false :=
    Session.Noted.flush_of_unfailed (n := { session := d.session }) h hunfailed
  rw [← Session.settled_of_clean hclean]
  exact congrFun (Session.flush_resaved h now).settled set

/-- What comes of a run that ends with a flush, and whose saves succeed, is what comes of its
requests when every edit is written at once. -/
theorem run_outcome (h : d.session.Aligned) {events : List Event} {now : Nat}
    (hsaves : d.savesAll (events ++ [.flush now]) = true) :
    let w := d.writeThrough.run (events.filterMap Event.request?)
    (∀ set, (d.run (events ++ [.flush now])).session.library.disk.node?
        (d.session.library.setPath set) = w.nodes set) ∧
      (d.run (events ++ [.flush now])).sent = w.desk.sent ∧
      d.answers events = d.writeThrough.answers (events.filterMap Event.request?) := by
  intro w
  rw [savesAll_append, Bool.and_eq_true] at hsaves
  rcases run_writeThrough events h hsaves.1 with ⟨hrun, hanswers⟩
  have hlast : d.run (events ++ [.flush now]) = (d.run events).step (.flush now) := by
    rw [run, List.foldl_append]
    rfl
  have haligned := run_aligned events h
  refine ⟨fun set => ?_, ?_, hanswers⟩
  · have hpath : d.session.library.setPath set =
        (d.run (events ++ [.flush now])).session.library.setPath set := by
      rw [Library.setPath, Library.setPath, run_root]
    rw [hpath, hlast, node?_of_flush haligned hsaves.2]
    exact congrFun (congrArg WriteThrough.nodes hrun) set
  · rw [hlast]
    exact congrArg (fun w => w.desk.sent) hrun

/-! ## Main statement -/

/-- When songs are written makes no difference. Take two runs of a desk with the same requests, at
any times, with any ticks, flushes, starts and stops of the transport between them, and let all
saves succeed. Once the song is written at the end, the files of all sets are the same after both,
the engine was sent the same, and every edit and every opening was answered alike. -/
theorem timing_unobservable (library : Library) (setIndex : Nat) (settings : Settings)
    (facts : Facts) (seed : UInt64) (events events' : List Event) (now now' : Nat)
    (hrequests : events.filterMap Event.request? = events'.filterMap Event.request?)
    (hsaves : (start library setIndex settings facts seed).savesAll (events ++ [.flush now]))
    (hsaves' : (start library setIndex settings facts seed).savesAll (events' ++ [.flush now'])) :
    let opened := start library setIndex settings facts seed
    let d := opened.run (events ++ [.flush now])
    let d' := opened.run (events' ++ [.flush now'])
    (∀ set, d.session.library.disk.node? (library.setPath set) =
        d'.session.library.disk.node? (library.setPath set)) ∧
      d.sent = d'.sent ∧ opened.answers events = opened.answers events' := by
  intro opened d d'
  have haligned : opened.session.Aligned := ⟨fun _ => rfl, fun h => Bool.noConfusion h⟩
  rcases run_outcome haligned hsaves with ⟨hnodes, hsent, hanswers⟩
  rcases run_outcome haligned hsaves' with ⟨hnodes', hsent', hanswers'⟩
  rw [← hrequests] at hnodes' hsent' hanswers'
  exact ⟨fun set => (hnodes set).trans (hnodes' set).symm, hsent.trans hsent'.symm,
    hanswers.trans hanswers'.symm⟩

theorem timing_unobservable_reopened :
    let opened := start {} 0 {} [] 0
    let events : List Event :=
      [.edit (.toggleMute 3) 5, .tick 505, .openSet 1 700, .openSet 0 701]
    let events' : List Event := [.edit (.toggleMute 3) 0, .openSet 1 1, .openSet 0 2]
    let d := opened.run (events ++ [.flush 702])
    let d' := opened.run (events' ++ [.flush 3])
    opened.savesAll (events ++ [.flush 702]) ∧ opened.savesAll (events' ++ [.flush 3]) ∧
      (∀ set, d.session.library.disk.node? (({} : Library).setPath set) =
        d'.session.library.disk.node? (({} : Library).setPath set)) ∧
      d.sent = d'.sent ∧ opened.answers events = opened.answers events' := by
  -- In one run the tick writes the song, in the other going to the next set does.
  intro opened events events' d d'
  have hsaves : opened.savesAll (events ++ [.flush 702]) := by decide +kernel
  have hsaves' : opened.savesAll (events' ++ [.flush 3]) := by decide +kernel
  exact ⟨hsaves, hsaves',
    timing_unobservable {} 0 {} [] 0 events events' 702 3 rfl hsaves hsaves'⟩

end Groovebox.Desk
