import Mathlib.Tactic
import Groovebox.Proofs.Sorting
import Groovebox.SaveQueue
/-! # What a queue of saves remembers

A queue is the history of what was scheduled as far as no later call took it back: the entry of a
set is the last one scheduled for it, unless it was cancelled or handed out since. `Stands` says
this of a history alone, and `Reflects` that a queue has an entry for each such call, in the order
of the calls. What is due is handed out by time, and in the order of the calls where times are
equal.

* `SaveQueue.perform_pending`: what one call does to the entries.
* `SaveQueue.history_remembered`: what a queue holds after any history, and what it hands out.
-/

namespace Groovebox

/-- What can be done to a queue; handing out what is due takes it off the queue. -/
inductive QueueCall
  | schedule (set due : Nat)
  | cancel (set : Nat)
  | takeDue (now : Nat)
deriving DecidableEq, Repr

namespace QueueCall

/-- Whether a call takes back a save: by scheduling its set anew, by cancelling it, or by handing it
out. -/
def Ends (e : PendingSave) : QueueCall → Prop
  | schedule set _ => e.set = set
  | cancel set => e.set = set
  | takeDue now => e.due ≤ now

instance (e : PendingSave) : DecidablePred (Ends e)
  | schedule set _ => inferInstanceAs (Decidable (e.set = set))
  | cancel set => inferInstanceAs (Decidable (e.set = set))
  | takeDue now => inferInstanceAs (Decidable (e.due ≤ now))

/-- The save that a call schedules. -/
def scheduled? : QueueCall → Option PendingSave
  | schedule set due => some { set, due }
  | _ => none

end QueueCall

namespace SaveQueue

open QueueCall (scheduled?)

/-- What a call makes of a queue. -/
def perform (q : SaveQueue) : QueueCall → SaveQueue
  | .schedule set due => q.schedule set due
  | .cancel set => q.cancel set
  | .takeDue now => q.after now

/-- The queue after a history of calls. -/
def ofHistory (calls : List QueueCall) : SaveQueue :=
  calls.foldl perform {}

/-- The call at a place of a history scheduled a save, and no later call took it back. -/
structure Stands (calls : List QueueCall) (place : Nat) (e : PendingSave) : Prop where
  scheduled : calls[place]? = some (.schedule e.set e.due)
  later : ∀ call ∈ calls.drop (place + 1), ¬ call.Ends e

/-- Both saves stand, and one was scheduled before the other. -/
def Before (calls : List QueueCall) (e e' : PendingSave) : Prop :=
  ∃ place place', Stands calls place e ∧ Stands calls place' e' ∧ place < place'

/-- A queue has the saves that stand after a history, in the order in which they were scheduled. -/
structure Reflects (calls : List QueueCall) (q : SaveQueue) : Prop where
  mem_iff : ∀ e, e ∈ q.pending ↔ ∃ place, Stands calls place e
  ordered : q.pending.Pairwise (Before calls)

variable {calls : List QueueCall} {call : QueueCall} {place place' : Nat} {e e' : PendingSave}
  {q : SaveQueue}

/-! ## What stands -/

/-- A save that stands was scheduled by one of the calls. -/
theorem Stands.lt_length (h : Stands calls place e) : place < calls.length :=
  (List.getElem?_eq_some_iff.1 h.scheduled).1

/-- One more call ends some saves and may schedule another. -/
theorem stands_concat :
    Stands (calls ++ [call]) place e ↔
      (Stands calls place e ∧ ¬ call.Ends e) ∨
        place = calls.length ∧ call = .schedule e.set e.due := by
  constructor
  · rintro ⟨hscheduled, hlater⟩
    rcases Nat.lt_trichotomy place calls.length with hlt | rfl | hgt
    · left
      rw [List.getElem?_append_left hlt] at hscheduled
      rw [List.drop_append_of_le_length hlt] at hlater
      refine ⟨⟨hscheduled, ?_⟩, hlater call (by simp)⟩
      exact fun c hc => hlater c (List.mem_append_left _ hc)
    · right
      rw [List.getElem?_concat_length] at hscheduled
      exact ⟨rfl, Option.some_inj.1 hscheduled⟩
    · rw [List.getElem?_eq_none (by simpa using hgt)] at hscheduled
      cases hscheduled
  · rintro (⟨h, hends⟩ | ⟨rfl, rfl⟩)
    · have hlt := h.lt_length
      refine ⟨by rw [List.getElem?_append_left hlt, h.scheduled], ?_⟩
      rw [List.drop_append_of_le_length hlt]
      intro c hc
      rcases List.mem_append.1 hc with hc | hc
      · exact h.later c hc
      · rw [List.mem_singleton.1 hc]
        exact hends
    · refine ⟨List.getElem?_concat_length, ?_⟩
      rw [List.drop_eq_nil_of_le (by simp)]
      exact fun c hc => absurd hc List.not_mem_nil

/-- A set has one save at most: the last time it was scheduled took back the times before. -/
theorem Stands.place_unique (h : Stands calls place e) (h' : Stands calls place' e')
    (hset : e.set = e'.set) : place = place' := by
  have hbefore {i j : Nat} {a b : PendingSave} (ha : Stands calls i a) (hb : Stands calls j b)
      (hab : a.set = b.set) : ¬ i < j := by
    intro hij
    refine ha.later (.schedule b.set b.due) ?_ hab
    apply List.mem_of_getElem? (i := j - (i + 1))
    rw [List.getElem?_drop, Nat.add_sub_cancel' hij, hb.scheduled]
  exact Nat.le_antisymm (Nat.le_of_not_lt (hbefore h' h hset.symm))
    (Nat.le_of_not_lt (hbefore h h' hset))

/-! ## One call -/

/-- A call takes the saves off that it ends, and puts the one that it schedules behind the rest. -/
theorem perform_pending (q : SaveQueue) (call : QueueCall) :
    (q.perform call).pending =
      (q.pending.filter fun e => ¬ call.Ends e) ++ call.scheduled?.toList := by
  cases call with
  | schedule set due => rfl
  | cancel set => exact (List.append_nil _).symm
  | takeDue now => exact (List.append_nil _).symm

/-- A call schedules a save just if it says so. -/
theorem mem_scheduled?_iff : e ∈ call.scheduled?.toList ↔ call = .schedule e.set e.due := by
  rw [Option.mem_toList]
  cases call with
  | schedule set due =>
    constructor
    · rintro ⟨⟩
      rfl
    · rintro ⟨⟩
      rfl
  | cancel set => simp [scheduled?]
  | takeDue now => simp [scheduled?]

namespace Reflects

/-- After one more call, the saves that wait are those that stand in the longer history. -/
theorem mem_perform_iff (h : Reflects calls q) (e : PendingSave) :
    e ∈ (q.perform call).pending ↔ ∃ place, Stands (calls ++ [call]) place e := by
  rw [perform_pending, List.mem_append, List.mem_filter, h.mem_iff, mem_scheduled?_iff,
    decide_eq_true_eq]
  simp only [stands_concat]
  constructor
  · rintro (⟨⟨place, hplace⟩, hends⟩ | hscheduled)
    · exact ⟨place, .inl ⟨hplace, hends⟩⟩
    · exact ⟨calls.length, .inr ⟨rfl, hscheduled⟩⟩
  · rintro ⟨place, ⟨hplace, hends⟩ | ⟨-, hscheduled⟩⟩
    · exact .inl ⟨⟨place, hplace⟩, hends⟩
    · exact .inr hscheduled

/-- A queue keeps up with one more call. -/
theorem perform (h : Reflects calls q) (call : QueueCall) :
    Reflects (calls ++ [call]) (q.perform call) := by
  refine ⟨h.mem_perform_iff, ?_⟩
  rw [perform_pending, List.pairwise_append]
  refine ⟨?_, ?_, ?_⟩
  · -- What is left stands as before.
    refine (h.ordered.filter _).imp_of_mem ?_
    rintro e e' he he' ⟨place, place', hplace, hplace', hlt⟩
    have hends : ¬ call.Ends e := of_decide_eq_true (List.mem_filter.1 he).2
    have hends' : ¬ call.Ends e' := of_decide_eq_true (List.mem_filter.1 he').2
    exact ⟨place, place', stands_concat.2 (.inl ⟨hplace, hends⟩),
      stands_concat.2 (.inl ⟨hplace', hends'⟩), hlt⟩
  · cases call.scheduled? <;> simp
  · -- The call comes last in the history too.
    intro e he e' he'
    rcases List.mem_filter.1 he with ⟨hmem, hends⟩
    rcases (h.mem_iff e).1 hmem with ⟨place, hplace⟩
    exact ⟨place, calls.length, stands_concat.2 (.inl ⟨hplace, of_decide_eq_true hends⟩),
      stands_concat.2 (.inr ⟨rfl, mem_scheduled?_iff.1 he'⟩), hplace.lt_length⟩

/-- A queue holds what its history says. -/
theorem ofHistory (calls : List QueueCall) : Reflects calls (SaveQueue.ofHistory calls) := by
  induction calls using List.reverseRecOn with
  | nil =>
    refine ⟨?_, List.Pairwise.nil⟩
    intro e
    constructor
    · intro he
      exact absurd he List.not_mem_nil
    · rintro ⟨place, hplace⟩
      exact absurd hplace.lt_length (Nat.not_lt_zero place)
  | append_singleton calls call ih =>
    rw [SaveQueue.ofHistory, List.foldl_concat]
    exact ih.perform call

/-- No set waits twice. -/
theorem distinct (h : Reflects calls q) : (q.pending.map PendingSave.set).Nodup := by
  rw [List.Nodup, List.pairwise_map]
  refine h.ordered.imp ?_
  rintro e e' ⟨place, place', hplace, hplace', hlt⟩ hset
  exact hlt.ne (hplace.place_unique hplace' hset)

end Reflects

/-! ## What is due -/

/-- A set is due if a save of it waits and its time has come. -/
theorem mem_dueAt_iff {now set : Nat} :
    set ∈ q.dueAt now ↔ ∃ due ≤ now, { set, due } ∈ q.pending := by
  simp only [dueAt, List.mem_map, List.mem_mergeSort, List.mem_filter, decide_eq_true_eq]
  constructor
  · rintro ⟨e, ⟨he, hdue⟩, rfl⟩
    exact ⟨e.due, hdue, he⟩
  · rintro ⟨due, hdue, he⟩
    exact ⟨_, ⟨he, hdue⟩, rfl⟩

theorem Reflects.nodup_dueAt (h : Reflects calls q) (now : Nat) : (q.dueAt now).Nodup := by
  have hdue : ((q.pending.filter fun e => e.due ≤ now).map PendingSave.set).Nodup :=
    h.distinct.sublist (List.filter_sublist.map _)
  exact ((List.mergeSort_perm _ _).map _).nodup_iff.2 hdue

/-- The earliest comes first, and of equal times the one that was scheduled first. -/
theorem Reflects.pairwise_dueAt (h : Reflects calls q) (now : Nat) :
    (q.dueAt now).Pairwise fun set set' => ∀ due due', { set, due } ∈ q.pending →
      { set := set', due := due' } ∈ q.pending →
        due < due' ∨ due = due' ∧ Before calls { set, due } { set := set', due := due' } := by
  have hsorted := Sorting.pairwise_mergeSort_key PendingSave.due
    (h.ordered.filter fun e => e.due ≤ now)
  rw [dueAt, List.pairwise_map]
  refine hsorted.imp_of_mem ?_
  intro e e' he he' hbefore due due' hmem hmem'
  -- The entry of a set is the only one.
  have hin : e ∈ q.pending := List.mem_of_mem_filter (List.mem_mergeSort.1 he)
  have hin' : e' ∈ q.pending := List.mem_of_mem_filter (List.mem_mergeSort.1 he')
  have hsame := List.inj_on_of_nodup_map h.distinct hmem hin rfl
  have hsame' := List.inj_on_of_nodup_map h.distinct hmem' hin' rfl
  rw [← hsame, ← hsame'] at hbefore
  exact hbefore

/-- Whatever the history, a queue has one entry at most for each set, and an entry is there just if
it is the last that was scheduled for its set and was neither cancelled nor handed out since; the
entries are in the order in which they were scheduled. At any time, what is handed out are the sets
that are due, each once, the earliest first, and those of one time as they were scheduled. What is
due later stays in its order. -/
theorem history_remembered (calls : List QueueCall) :
    let q := ofHistory calls
    (q.pending.map PendingSave.set).Nodup ∧
      (∀ e, e ∈ q.pending ↔ ∃ place, Stands calls place e) ∧
      q.pending.Pairwise (Before calls) ∧
      ∀ now,
        (q.dueAt now).Nodup ∧
          (∀ set, set ∈ q.dueAt now ↔ ∃ due ≤ now, { set, due } ∈ q.pending) ∧
          ((q.dueAt now).Pairwise fun set set' => ∀ due due', { set, due } ∈ q.pending →
            { set := set', due := due' } ∈ q.pending →
              due < due' ∨ due = due' ∧ Before calls { set, due } { set := set', due := due' }) ∧
          (q.after now).pending = q.pending.filter fun e => now < e.due := by
  intro q
  have h : Reflects calls q := Reflects.ofHistory calls
  refine ⟨h.distinct, h.mem_iff, h.ordered, ?_⟩
  intro now
  refine ⟨h.nodup_dueAt now, fun _ => mem_dueAt_iff, h.pairwise_dueAt now, ?_⟩
  simp only [after, Nat.not_le]

/-- A set that is scheduled anew comes behind another with the same time. -/
example :
    (ofHistory [.schedule 3 50, .schedule 1 40, .schedule 2 50, .schedule 3 50]).dueAt 50 =
      [1, 2, 3] := by
  cbv

end SaveQueue
end Groovebox
