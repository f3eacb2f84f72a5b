import Mathlib.Tactic
import Groovebox.Proofs.Stored.RoundTrip
import Groovebox.Proofs.Stored.Spellings
/-! # Damage to one member

An object of a stored song has members of its own for each field of the step, pattern or track that
is read from it. Whatever value one member is given, the other fields are read as before; only the
two ends of a loop are not kept apart, since they are given up together where they make no window.

* `Stored.undisturbed_step`, `Stored.undisturbed_track`: nothing else is disturbed.
* `Stored.undisturbed_pattern_iff`: when the other end of a loop is disturbed.
* `Stored.damage_contained`: all three kinds of objects, and `Stored.damage_contained_lost`: an
  object where the other end is.
-/

namespace Groovebox

namespace Stored

/-! ## Fields and their members -/

/-- A field of what is read from an object, and the names of all members that it is read from. -/
structure Feed (α : Type) where
  names : List String
  {Value : Type}
  get : α → Value

/-- The fields are all that there is to a value, and no two of them are read from one member. -/
structure Covers {α : Type} (feeds : List (Feed α)) : Prop where
  complete : ∀ a b : α, (∀ f ∈ feeds, f.get a = f.get b) → a = b
  apart : feeds.Pairwise fun f g => ∀ n ∈ f.names, n ∉ g.names

/-- Giving one member of an object another value changes no field but the one that is read from
this member. -/
def Undisturbed {α : Type} (feeds : List (Feed α)) (read : Document → α) (m : Members)
    (name : String) (v : Document) : Prop :=
  ∀ f ∈ feeds, name ∉ f.names →
    f.get (read (.obj (Document.enter m name v))) = f.get (read (.obj m))

end Stored

open Stored

/-- The fields of a step. -/
def Step.feeds : List (Feed Step) :=
  [⟨["notes", "n", "velocities", "v", "velocity"], Step.chord⟩,
    ⟨["gate", "gt"], Step.gate⟩,
    ⟨["cc1", "c1"], Step.cc1⟩,
    ⟨["cc2", "c2"], Step.cc2⟩,
    ⟨["probability", "pr"], Step.probability⟩,
    ⟨["condition", "co"], Step.condition⟩,
    ⟨["ratchet", "ra"], Step.ratchet⟩,
    ⟨["length", "le"], Step.length⟩,
    ⟨["paramSpark", "ps"], Step.paramSpark⟩,
    ⟨["compSpark", "cs"], Step.compSpark⟩,
    ⟨["jump", "ju"], Step.jump⟩,
    ⟨["offset", "of"], Step.offset⟩,
    ⟨["arpMode", "am"], Step.arpMode⟩,
    ⟨["arpSpeed", "as"], Step.arpSpeed⟩,
    ⟨["arpOctave", "ao"], Step.arpOctave⟩,
    ⟨["arpLayer", "al"], Step.arpLayer⟩,
    ⟨["arpPlaySteps", "ap"], Step.arpPlaySteps⟩,
    ⟨["arpPlayStart", "at"], Step.arpPlayStart⟩]

/-- The fields of a pattern; each end of the loop is one. -/
def Pattern.feeds : List (Feed Pattern) :=
  [⟨["steps", "s"], Pattern.steps⟩,
    ⟨["loopStart", "ls"], fun p => p.loop.start⟩,
    ⟨["loopEnd", "le"], fun p => p.loop.stop⟩]

/-- The fields of a track. -/
def Track.feeds : List (Feed Track) :=
  [⟨["patterns", "p"], Track.patterns⟩,
    ⟨["currentPattern", "cp"], Track.current⟩,
    ⟨["channel", "ch"], Track.channel⟩,
    ⟨["muted", "mu"], Track.muted⟩,
    ⟨["speedIndex", "sp"], Track.speed⟩,
    ⟨["swing", "sw"], Track.swing⟩,
    ⟨["trackLength", "tl"], Track.length⟩,
    ⟨["resetLength", "rl"], Track.resetLength⟩,
    ⟨["gate", "ga"], Track.gate⟩,
    ⟨["arpMode", "am"], Track.arpMode⟩,
    ⟨["arpSpeed", "as"], Track.arpSpeed⟩,
    ⟨["arpOctave", "ao"], Track.arpOctave⟩,
    ⟨["arpContinuous", "ac"], Track.arpContinuous⟩,
    ⟨["arpPlaySteps", "ap"], Track.arpPlaySteps⟩,
    ⟨["arpPlayStart", "at"], Track.arpPlayStart⟩,
    ⟨["cc1Default", "c1"], Track.cc1⟩,
    ⟨["cc2Default", "c2"], Track.cc2⟩]

/-- A step is made of what its fields read and of nothing else. -/
theorem Step.covers_feeds : Covers Step.feeds where
  complete := by
    intro a b h
    simp only [feeds, List.forall_mem_cons] at h
    apply Step.ext <;> tauto
  apart := by decide +kernel

/-- A pattern is made of its steps and its loop. -/
theorem Pattern.covers_feeds : Covers Pattern.feeds where
  complete := by
    intro a b h
    simp only [feeds, List.forall_mem_cons] at h
    rcases h with ⟨hsteps, hstart, hstop, -⟩
    apply Pattern.ext hsteps
    rcases a with ⟨_, ⟨start, stop, _, _⟩⟩
    rcases b with ⟨_, ⟨start', stop', _, _⟩⟩
    simp only at hstart hstop
    subst hstart hstop
    rfl
  apart := by decide +kernel

/-- A track is made of what its fields read and of nothing else. -/
theorem Track.covers_feeds : Covers Track.feeds where
  complete := by
    intro a b h
    simp only [feeds, List.forall_mem_cons] at h
    apply Track.ext <;> tauto
  apart := by decide +kernel

/-! ## Reading past a changed member -/

namespace Stored

variable {m : Members} {name : String} {v : Document}

/-- A member under another name is found as before. -/
theorem lookup_enter_of_ne {n : String} (h : n ≠ name) (m : Members) (v : Document) :
    Document.lookup n (Document.enter m name v) = Document.lookup n m := by
  induction m with
  | nil => simp only [Document.enter, Document.lookup, if_neg (Ne.symm h)]
  | cons e m ih =>
    rcases e with ⟨k, w⟩
    rw [Document.enter]
    split
    · next hk =>
      rw [Document.lookup, Document.lookup, if_neg (Ne.symm h), hk, if_neg (Ne.symm h)]
    · rw [Document.lookup, Document.lookup, ih]

/-- What is made of the members under some names is not changed by a member under another name. -/
theorem first?_enter {names : List String} (h : name ∉ names) {α : Type}
    (read : Document → Option α) :
    first? (Document.enter m name v) names read = first? m names read := by
  apply first?_congr
  intro n hn
  have hne : n ≠ name := fun heq => h (heq ▸ hn)
  rw [lookup_enter_of_ne hne]

/-- A damaged member of a step spares all fields that do not read it. -/
theorem undisturbed_step (m : Members) (name : String) (v : Document) :
    Undisturbed Step.feeds Step.ofDocument m name v := by
  intro f hf hname
  simp only [Step.feeds, List.mem_cons, List.not_mem_nil, or_false] at hf
  rcases hf with rfl | hf
  · -- A chord is read from three members.
    simp only [List.mem_cons, List.not_mem_nil, or_false, not_or] at hname
    have hnotes : name ∉ ["notes", "n"] := by simp [hname]
    have hvelocities : name ∉ ["velocities", "v"] := by simp [hname]
    have hscalar : name ∉ ["velocity"] := by simp [hname]
    simp only [Step.ofDocument, Document.members?, Step.ofMembers, Chord.ofMembers, intIn?, int?,
      first?_enter hnotes, first?_enter hvelocities, first?_enter hscalar]
  · rcases hf with rfl | rfl | rfl | rfl | rfl | rfl | rfl | rfl | rfl | rfl | rfl | rfl | rfl |
        rfl | rfl | rfl | rfl <;>
      simp only [Step.ofDocument, Document.members?, Step.ofMembers, Condition.ofMembers,
        Ratchet.ofMembers, intIn?, optional?, int?, first?_enter hname]

/-- A damaged member of a track spares all fields that do not read it. -/
theorem undisturbed_track (index : Nat) (m : Members) (name : String) (v : Document) :
    Undisturbed Track.feeds (Track.ofDocument index) m name v := by
  intro f hf hname
  simp only [Track.feeds, List.mem_cons, List.not_mem_nil, or_false] at hf
  rcases hf with rfl | rfl | rfl | rfl | rfl | rfl | rfl | rfl | rfl | rfl | rfl | rfl | rfl | rfl |
      rfl | rfl | rfl <;>
    simp only [Track.ofDocument, Document.members?, Track.ofMembers, present?, intIn?, optional?,
      flag?, int?, first?_enter hname]

/-! ## The two ends of a loop -/

/-- The first step of the loop as an object has it. -/
def storedStart (m : Members) : Int :=
  (int? m ["loopStart", "ls"]).getD 0

/-- The last step of the loop as an object has it. -/
def storedStop (m : Members) : Int :=
  (int? m ["loopEnd", "le"]).getD 63

/-- The two ends that an object has make a window. -/
def MakesWindow (m : Members) : Prop :=
  0 ≤ storedStart m ∧ storedStart m ≤ storedStop m ∧ storedStop m < 64

instance (m : Members) : Decidable (MakesWindow m) :=
  inferInstanceAs (Decidable (_ ∧ _ ∧ _))

/-- Bounds that make a window are the loop. -/
theorem loop_of_makesWindow {m : Members} (h : MakesWindow m) :
    ((LoopWindow.ofMembers m).start : Int) = storedStart m ∧
      ((LoopWindow.ofMembers m).stop : Int) = storedStop m := by
  rcases h with ⟨hpos, hle, hlt⟩
  have hboth : 0 ≤ storedStart m ∧ 0 ≤ storedStop m := ⟨hpos, hpos.trans hle⟩
  have hwindow : (storedStart m).toNat ≤ (storedStop m).toNat ∧ (storedStop m).toNat < 64 := by
    omega
  have hread : LoopWindow.ofMembers m =
      ⟨(storedStart m).toNat, (storedStop m).toNat, hwindow.1, hwindow.2⟩ := by
    unfold LoopWindow.ofMembers
    refine (if_pos hboth).trans ?_
    exact congrArg (Option.getD · LoopWindow.whole) (dif_pos hwindow)
  rw [hread]
  exact ⟨Int.toNat_of_nonneg hboth.1, Int.toNat_of_nonneg hboth.2⟩

/-- Bounds that make no window are both dropped. -/
theorem loop_of_not_makesWindow {m : Members} (h : ¬MakesWindow m) :
    LoopWindow.ofMembers m = .whole := by
  unfold LoopWindow.ofMembers
  by_cases hboth : 0 ≤ storedStart m ∧ 0 ≤ storedStop m
  · have hwindow : ¬((storedStart m).toNat ≤ (storedStop m).toNat ∧ (storedStop m).toNat < 64) := by
      unfold MakesWindow at h
      omega
    refine (if_pos hboth).trans ?_
    exact congrArg (Option.getD · LoopWindow.whole) (dif_neg hwindow)
  · exact if_neg hboth

/-- Both ends are read as they are stored where they make a window, and otherwise neither is. -/
theorem loop_ends (m : Members) :
    ((LoopWindow.ofMembers m).start : Int) = (if MakesWindow m then storedStart m else 0) ∧
      ((LoopWindow.ofMembers m).stop : Int) = if MakesWindow m then storedStop m else 63 := by
  by_cases h : MakesWindow m
  · rw [if_pos h, if_pos h]
    exact loop_of_makesWindow h
  · rw [if_neg h, if_neg h, loop_of_not_makesWindow h]
    exact ⟨rfl, rfl⟩

theorem ite_cond_eq_iff {p q : Prop} [Decidable p] [Decidable q] {a d : Int} :
    (if p then a else d) = (if q then a else d) ↔ (p ↔ q) ∨ a = d := by
  by_cases hp : p <;> by_cases hq : q <;> simp [hp, hq, eq_comm]

/-- While the other end is changed, an end of the loop is kept if the two make a window both times
or neither time, or if it stands where it would without a window. -/
theorem loop_end_eq_iff {m m' : Members} :
    (storedStart m' = storedStart m →
      ((LoopWindow.ofMembers m').start = (LoopWindow.ofMembers m).start ↔
        (MakesWindow m' ↔ MakesWindow m) ∨ storedStart m = 0)) ∧
      (storedStop m' = storedStop m →
        ((LoopWindow.ofMembers m').stop = (LoopWindow.ofMembers m).stop ↔
          (MakesWindow m' ↔ MakesWindow m) ∨ storedStop m = 63)) := by
  rw [← Int.natCast_inj, ← Int.natCast_inj, (loop_ends m).1, (loop_ends m).2, (loop_ends m').1,
    (loop_ends m').2]
  constructor
  · intro h
    rw [h, ite_cond_eq_iff]
  · intro h
    rw [h, ite_cond_eq_iff]

/-- The steps of a pattern are never disturbed. An end of the loop is, if the change of the other
one makes or breaks the window, unless it stands where it would without a window. -/
theorem undisturbed_pattern_iff (m : Members) (name : String) (v : Document) :
    Undisturbed Pattern.feeds Pattern.ofDocument m name v ↔
      (MakesWindow (Document.enter m name v) ↔ MakesWindow m) ∨
        name ∈ ["loopStart", "ls"] ∧ storedStop m = 63 ∨
        name ∈ ["loopEnd", "le"] ∧ storedStart m = 0 := by
  -- Each of the three members is read as before unless its own name was given a value.
  have hsteps : name ∉ ["steps", "s"] →
      (Pattern.ofDocument (.obj (Document.enter m name v))).steps =
        (Pattern.ofDocument (.obj m)).steps := by
    intro h
    simp only [Pattern.ofDocument, Document.members?, present?, first?_enter h]
  have hstart : name ∉ ["loopStart", "ls"] →
      storedStart (Document.enter m name v) = storedStart m := by
    intro h
    simp only [storedStart, int?, first?_enter h]
  have hstop : name ∉ ["loopEnd", "le"] → storedStop (Document.enter m name v) = storedStop m := by
    intro h
    simp only [storedStop, int?, first?_enter h]
  have hends := @loop_end_eq_iff m (Document.enter m name v)
  -- The steps drop out, and each end of the loop is settled by the other.
  have hall : Undisturbed Pattern.feeds Pattern.ofDocument m name v ↔
      (name ∉ ["loopStart", "ls"] → (MakesWindow (Document.enter m name v) ↔ MakesWindow m) ∨
        storedStart m = 0) ∧
      (name ∉ ["loopEnd", "le"] → (MakesWindow (Document.enter m name v) ↔ MakesWindow m) ∨
        storedStop m = 63) := by
    simp only [Undisturbed, Pattern.feeds, List.forall_mem_cons, List.not_mem_nil, false_imp_iff,
      implies_true, and_true, iff_true_intro hsteps, true_and]
    exact and_congr (forall_congr' fun h => hends.1 (hstart h))
      (forall_congr' fun h => hends.2 (hstop h))
  rw [hall]
  by_cases hs : name ∈ ["loopStart", "ls"]
  · -- The name is one of the start or one of the stop, and never of both.
    have hapart : ∀ n ∈ ["loopStart", "ls"], n ∉ ["loopEnd", "le"] := by decide +kernel
    have he := hapart name hs
    simp only [hs, he, not_true_eq_false, false_imp_iff, true_and, not_false_eq_true, true_imp_iff,
      false_and, or_false]
  · by_cases he : name ∈ ["loopEnd", "le"]
    · simp only [hs, he, not_true_eq_false, false_imp_iff, and_true, not_false_eq_true,
        true_imp_iff, false_and, true_and, false_or]
    · -- Neither end was touched.
      have hsame : MakesWindow (Document.enter m name v) ↔ MakesWindow m := by
        rw [MakesWindow, hstart hs, hstop he, MakesWindow]
      simp only [hsame, iff_self, true_or, implies_true, and_self]

/-- An end that counts as missing after the change takes its default, and the window only grows. -/
theorem undisturbed_pattern_of_missing {m : Members} {name : String} {v : Document}
    (h : MakesWindow m)
    (hstart : name ∈ ["loopStart", "ls"] →
      int? (Document.enter m name v) ["loopStart", "ls"] = none)
    (hstop : name ∈ ["loopEnd", "le"] → int? (Document.enter m name v) ["loopEnd", "le"] = none) :
    Undisturbed Pattern.feeds Pattern.ofDocument m name v := by
  -- The start is as it was, or it counts as missing and is the first step.
  have hs : storedStart (Document.enter m name v) = storedStart m ∨
      storedStart (Document.enter m name v) = 0 := by
    by_cases hmem : name ∈ ["loopStart", "ls"]
    · exact Or.inr (by rw [storedStart, hstart hmem, Option.getD_none])
    · exact Or.inl (by simp only [storedStart, int?, first?_enter hmem])
  -- The stop is as it was, or it counts as missing and is the last step.
  have he : storedStop (Document.enter m name v) = storedStop m ∨
      storedStop (Document.enter m name v) = 63 := by
    by_cases hmem : name ∈ ["loopEnd", "le"]
    · exact Or.inr (by rw [storedStop, hstop hmem, Option.getD_none])
    · exact Or.inl (by simp only [storedStop, int?, first?_enter hmem])
  rw [undisturbed_pattern_iff]
  refine Or.inl (iff_of_true ?_ h)
  unfold MakesWindow at h ⊢
  omega

/-! ## All objects -/

/-- Whatever value a member of a step or a track is given, no field is disturbed that is not read
from it. In a pattern the two ends of the loop are disturbed by each other: a change of one that
makes or breaks the window moves the other, unless this one stands where it would without a window.
An end of a window that counts as missing after the change, as one of the wrong kind does, disturbs
nothing. -/
theorem damage_contained (m : Members) (name : String) (v : Document) :
    (Covers Step.feeds ∧ Undisturbed Step.feeds Step.ofDocument m name v) ∧
      (Covers Track.feeds ∧
        ∀ index, Undisturbed Track.feeds (Track.ofDocument index) m name v) ∧
      (Covers Pattern.feeds ∧
        (Undisturbed Pattern.feeds Pattern.ofDocument m name v ↔
          (MakesWindow (Document.enter m name v) ↔ MakesWindow m) ∨
            name ∈ ["loopStart", "ls"] ∧ storedStop m = 63 ∨
            name ∈ ["loopEnd", "le"] ∧ storedStart m = 0) ∧
        (MakesWindow m →
          (name ∈ ["loopStart", "ls"] →
            int? (Document.enter m name v) ["loopStart", "ls"] = none) →
          (name ∈ ["loopEnd", "le"] → int? (Document.enter m name v) ["loopEnd", "le"] = none) →
          Undisturbed Pattern.feeds Pattern.ofDocument m name v)) := by
  refine ⟨⟨Step.covers_feeds, undisturbed_step m name v⟩, ⟨Track.covers_feeds, ?_⟩,
    Pattern.covers_feeds, undisturbed_pattern_iff m name v, ?_⟩
  · exact fun index => undisturbed_track index m name v
  · exact undisturbed_pattern_of_missing

/-- An object with both ends of a loop. -/
def windowed : Members :=
  [("loopStart", .int 5), ("loopEnd", .int 20)]

/-- A text in place of the last step leaves the first step alone. -/
theorem damage_contained_text :
    MakesWindow windowed ∧
      int? (Document.enter windowed "loopEnd" (.str "x")) ["loopEnd", "le"] = none ∧
      Undisturbed Pattern.feeds Pattern.ofDocument windowed "loopEnd" (.str "x") := by
  have hwindow : MakesWindow windowed := by decide +kernel
  have hmissing : int? (Document.enter windowed "loopEnd" (.str "x")) ["loopEnd", "le"] = none := by
    decide +kernel
  refine ⟨hwindow, hmissing,
    (damage_contained windowed "loopEnd" (.str "x")).2.2.2.2 hwindow ?_ ?_⟩
  · exact fun h => absurd h (by decide +kernel)
  · exact fun _ => hmissing

/-- A last step past the pattern moves the first step, although this one makes a window with the
default of the other. -/
theorem damage_contained_lost :
    (Pattern.ofDocument (.obj windowed)).loop.start = 5 ∧ (LoopWindow.of? 5 63).isSome ∧
      (Pattern.ofDocument (.obj (Document.enter windowed "loopEnd" (.int 99)))).loop = .whole ∧
      ¬Undisturbed Pattern.feeds Pattern.ofDocument windowed "loopEnd" (.int 99) := by
  have hstart : (Pattern.ofDocument (.obj windowed)).loop.start = 5 := by decide +kernel
  have hlost : (Pattern.ofDocument (.obj (Document.enter windowed "loopEnd" (.int 99)))).loop =
      .whole := by decide +kernel
  refine ⟨hstart, by decide, hlost, ?_⟩
  intro h
  have hsame := h ⟨["loopStart", "ls"], fun p => p.loop.start⟩ (by simp [Pattern.feeds])
    (by decide +kernel)
  simp only [hstart, hlost] at hsame
  exact absurd hsame (by decide)

end Stored

end Groovebox
