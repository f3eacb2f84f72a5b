import Mathlib.Tactic
import Groovebox.Proofs.Stored.Containers
import Groovebox.Stored.Reading
/-! # What each part of a stored song stands for

A document is read by the shape that it has at its place in the song. Two documents are the same for
a shape if nothing that reads this shape tells them apart. `Stored.Agree` says of two objects that
they hold the same under the names of each of their fields; then they are the same as well.

* `Stored.Shape.same_of_agree`: objects that agree are the same.
* `Stored.Shape.same_of_fillAlike`: containers that fill banks alike are the same.
-/

namespace Groovebox

open Stored

/-! ## Values -/

/-- What is read of an item of an array of settings. -/
def Document.mark (d : Document) : Option Bool × Option Int :=
  (d.bool?, d.int64?)

/-- What is read of an array of settings. -/
def Document.marks? (d : Document) : Option (List (Option Bool × Option Int)) :=
  d.items?.map fun items => items.map Document.mark

/-- Two documents that read the same as settings. -/
structure Document.Alike (d e : Document) : Prop where
  number : d.rounded? = e.rounded?
  truth : d.truth? = e.truth?
  mark : d.mark = e.mark
  marks : d.marks? = e.marks?

/-- Only the marks of an array of settings count for which tracks follow the chord. -/
theorem Song.chordFollowOf_congr {d e : Document} (h : d.marks? = e.marks?) :
    Song.chordFollowOf d = Song.chordFollowOf e := by
  have hflags (d : Document) : ((d.items?.getD []).map fun d =>
      d.bool?.getD ((d.int64?.map (· != 0)).getD false)) =
      (d.marks?.getD []).map fun k => k.1.getD ((k.2.map (· != 0)).getD false) := by
    rw [Document.marks?]
    cases d.items? with
    | none => rfl
    | some items => simp [Document.mark]
  simp only [Song.chordFollowOf, hflags, h]

/-- Only the marks of an array of settings count for which patterns a snapshot names. -/
theorem Snapshot.ofDocument?_congr {d e : Document} (h : d.marks? = e.marks?) :
    Snapshot.ofDocument? d = Snapshot.ofDocument? e := by
  have hmarks (d : Document) : Snapshot.ofDocument? d = d.marks?.map fun marks =>
      Vector.ofFn fun t => (marks[t.val]?.bind Prod.snd).elim (some 0) Track.currentOf := by
    rw [Document.marks?, Snapshot.ofDocument?]
    cases d.items? with
    | none => rfl
    | some items =>
      simp only [Option.map_some, List.getElem?_map, Option.bind_map]
      refine congrArg some (congrArg Vector.ofFn (funext fun t => ?_))
      show _ = (items[t.val]?.bind Document.int64?).elim (some 0) Track.currentOf
      cases items[t.val]?.bind Document.int64? <;> rfl
  rw [hmarks d, hmarks e, h]

namespace Stored

/-! ## Shapes -/

/-- What a document stands for at its place in a song. -/
inductive Shape
  | song
  | track
  | pattern
  | step
  | transposeStep
  | tracks
  | patterns
  | steps
  | snapshots
  | transposes
  | value
deriving DecidableEq

/-- The names under which an object may hold one of its members, in the order in which they are
tried, and the shape of this member. -/
structure Field where
  names : List String
  shape : Shape
deriving DecidableEq

namespace Shape

/-- The members of an object that have a shape of their own. -/
def parts : Shape → List Field
  | song =>
    [{ names := ["t", "tracks"], shape := tracks },
      { names := ["ts", "transposeSequence"], shape := transposes },
      { names := ["ps", "patternSnapshots"], shape := snapshots }]
  | track => [{ names := ["patterns", "p"], shape := patterns }]
  | pattern => [{ names := ["steps", "s"], shape := steps }]
  | _ => []

/-- The names of the members of an object that are plain values. -/
def settings : Shape → List (List String)
  | song =>
    [["bpm"], ["cf", "chordFollow"], ["st", "sequencerType"], ["ap", "activePatternSnapshot"],
      ["mr", "masterReset"], ["color"]]
  | track =>
    [["currentPattern", "cp"], ["channel", "ch"], ["muted", "mu"], ["speedIndex", "sp"],
      ["swing", "sw"], ["trackLength", "tl"], ["resetLength", "rl"], ["gate", "ga"],
      ["arpMode", "am"], ["arpSpeed", "as"], ["arpOctave", "ao"], ["arpContinuous", "ac"],
      ["arpPlaySteps", "ap"], ["arpPlayStart", "at"], ["cc1Default", "c1"], ["cc2Default", "c2"]]
  | pattern => [["loopStart", "ls"], ["loopEnd", "le"]]
  | step =>
    [["notes", "n"], ["velocity"], ["velocities", "v"], ["gate", "gt"], ["cc1", "c1"],
      ["cc2", "c2"], ["probability", "pr"], ["condition", "co"], ["ratchet", "ra"],
      ["length", "le"], ["paramSpark", "ps"], ["compSpark", "cs"], ["jump", "ju"],
      ["offset", "of"], ["arpMode", "am"], ["arpSpeed", "as"], ["arpOctave", "ao"],
      ["arpLayer", "al"], ["arpPlaySteps", "ap"], ["arpPlayStart", "at"]]
  | transposeStep => [["transpose"], ["duration"], ["jump"], ["condition"]]
  | _ => []

/-- The members of an object that the reader knows. -/
def fields (s : Shape) : List Field :=
  s.parts ++ s.settings.map fun names => { names, shape := value }

/-- The number of places of a container and the shape of its entries. -/
def entry? : Shape → Option (Nat × Shape)
  | tracks => some (16, track)
  | patterns => some (16, pattern)
  | steps => some (64, step)
  | snapshots => some (16, value)
  | _ => none

/-- Nothing that reads documents of the shape tells the two documents apart. -/
def Same : Shape → Document → Document → Prop
  | song, d, e => Song.ofDocument d = Song.ofDocument e
  | track, d, e => ∀ index, Track.ofDocument index d = Track.ofDocument index e
  | pattern, d, e => Pattern.ofDocument d = Pattern.ofDocument e
  | step, d, e => Step.ofDocument d = Step.ofDocument e
  | transposeStep, d, e =>
    d.members?.map TransposeStep.ofMembers = e.members?.map TransposeStep.ofMembers
  | tracks, d, e => FillAlike 16 (fun d index => Track.ofDocument index d) d e
  | patterns, d, e => FillAlike 16 Pattern.ofDocument d e
  | steps, d, e => FillAlike 64 Step.ofDocument d e
  | snapshots, d, e => FillAlike 16 Snapshot.ofDocument? d e
  | transposes, d, e => TransposeSequence.ofDocument d = TransposeSequence.ofDocument e
  | value, d, e => d.Alike e

end Shape

/-! ## Containers -/

/-- Containers that fill every bank alike do so with what is made of what they read as. -/
theorem FillAlike.fill {α β : Type} {n : Nat} {read : Document → β} {c d : Document}
    (h : FillAlike n read c d) (make : Nat → β → α) (start : Bank α n) :
    Stored.fill start c (fun i v => make i (read v)) =
      Stored.fill start d fun i v => make i (read v) := by
  rw [fill_eq_place, fill_eq_place]
  exact h (fun i r => some (make i r)) start

/-- Snapshots are read into a bank, so containers that fill every bank alike hold the same ones. -/
theorem FillAlike.snapshotsOf {c d : Document} (h : FillAlike 16 Snapshot.ofDocument? c d) :
    Song.snapshotsOf c = Song.snapshotsOf d := by
  rw [Song.snapshotsOf_eq_place, Song.snapshotsOf_eq_place]
  exact h (fun _ snapshot => snapshot.map some) (Vector.replicate 16 none)

/-! ## Objects -/

/-- Two objects hold the same under the names of each field, as far as its shape goes. -/
def Agree (s : Shape) (m m' : Members) : Prop :=
  ∀ f ∈ s.fields, ∀ {α : Type} (read : Document → Option α),
    (∀ d e, f.shape.Same d e → read d = read e) → first? m f.names read = first? m' f.names read

/-- Whether what is read is changed first or afterwards makes no difference to which name is found.
-/
theorem first?_map {α β : Type} (m : Members) (names : List String) (read : Document → Option α)
    (g : α → β) : first? m names (fun d => (read d).map g) = (first? m names read).map g := by
  induction names with
  | nil => rfl
  | cons name names ih =>
    unfold first? at ih ⊢
    -- A name whose member cannot be read is passed over on both sides.
    rw [List.findSome?_cons, List.findSome?_cons, ih]
    cases Document.lookup name m with
    | none => rfl
    | some d => cases h : read d <;> simp [h]

section

variable {s : Shape} {m m' : Members}

/-- Objects that agree read the same under the names of a setting, whatever kind it is of. -/
theorem Agree.setting (h : Agree s m m') {names : List String} (hnames : names ∈ s.settings)
    {α : Type} (read : Document → Option α)
    (hread : ∀ d e, Shape.value.Same d e → read d = read e) :
    first? m names read = first? m' names read :=
  h { names, shape := .value } (List.mem_append_right _ (List.mem_map_of_mem hnames)) read hread

/-- Objects that agree hold the same number under the names of a setting. -/
theorem Agree.int? (h : Agree s m m') {names : List String} (hnames : names ∈ s.settings) :
    Stored.int? m names = Stored.int? m' names :=
  h.setting hnames _ fun _ _ hsame => hsame.number

theorem Agree.flag? (h : Agree s m m') {names : List String} (hnames : names ∈ s.settings) :
    Stored.flag? m names = Stored.flag? m' names :=
  h.setting hnames _ fun _ _ hsame => hsame.truth

/-- What is read of the items of an array of settings. -/
theorem Agree.marks (h : Agree s m m') (names : List String) (hnames : names ∈ s.settings) :
    ((first? m names Document.items?).getD []).map Document.mark =
      ((first? m' names Document.items?).getD []).map Document.mark := by
  have hmarks (m : Members) : ((first? m names Document.items?).getD []).map Document.mark =
      (first? m names Document.marks?).getD [] := by
    have hmap : first? m names Document.marks? =
        (first? m names Document.items?).map fun items => items.map Document.mark :=
      first?_map m names Document.items? _
    rw [hmap]
    cases first? m names Document.items? <;> rfl
  rw [hmarks m, hmarks m', h.setting hnames _ fun _ _ hsame => hsame.marks]

/-- What is made of the first member under the names of a field. -/
theorem Agree.present {β : Type} (h : Agree s m m') (names : List String) (shape : Shape)
    (hfield : { names, shape } ∈ s.fields) (g : Document → β)
    (hg : ∀ d e, shape.Same d e → g d = g e) :
    g ((present? m names).getD .null) = g ((present? m' names).getD .null) := by
  have hfirst := h _ hfield (fun d => some (g d)) fun d e hsame => congrArg some (hg d e hsame)
  have hpresent (m : Members) : g ((present? m names).getD .null) =
      (first? m names fun d => some (g d)).getD (g .null) := by
    have hmap : (first? m names fun d => some (g d)) = (first? m names some).map g :=
      first?_map m names some g
    rw [present?, hmap]
    cases first? m names some <;> rfl
  rw [hpresent m, hpresent m', hfirst]

/-! ## Kinds of objects -/

/-- Steps that agree hold the same chord. -/
theorem Agree.chord (h : Agree .step m m') : Chord.ofMembers m = Chord.ofMembers m' := by
  have hfallback : intIn? m ["velocity"] 1 127 = intIn? m' ["velocity"] 1 127 := by
    rw [intIn?, intIn?, h.int? (by decide +kernel)]
  -- The reader sees the marks of the arrays alone.
  have hof (m : Members) : Chord.ofMembers m = Chord.ofLists
      ((((first? m ["notes", "n"] Document.items?).getD []).map Document.mark).filterMap
        fun k => (k.2.filter fun n => 0 ≤ n ∧ n ≤ 127).map Int.toNat)
      ((((first? m ["velocities", "v"] Document.items?).getD []).map Document.mark).map
        fun k => k.2.elim ((intIn? m ["velocity"] 1 127).getD 100) fun v =>
          (min (max v 1) 127).toNat)
      ((intIn? m ["velocity"] 1 127).getD 100) := by
    rw [List.filterMap_map, List.map_map]
    refine congrArg (Chord.ofLists _ · _) (List.map_congr_left fun d _ => ?_)
    show _ = d.int64?.elim ((intIn? m ["velocity"] 1 127).getD 100) fun v =>
      (min (max v 1) 127).toNat
    cases d.int64? <;> rfl
  rw [hof m, hof m', hfallback, h.marks ["notes", "n"] (by decide +kernel),
    h.marks ["velocities", "v"] (by decide +kernel)]

/-- Steps that agree are the same. -/
theorem Agree.step (h : Agree .step m m') : Step.ofMembers m = Step.ofMembers m' := by
  simp (disch := decide +kernel) only [Step.ofMembers, h.chord, Condition.ofMembers,
    Ratchet.ofMembers, intIn?, optional?, h.int?]

/-- Patterns that agree are the same. -/
theorem Agree.pattern (h : Agree .pattern m m') :
    Pattern.ofDocument (.obj m) = Pattern.ofDocument (.obj m') := by
  have hsteps := h.present ["steps", "s"] .steps (by decide +kernel)
    (fun d => fill (Vector.replicate 64 {}) d fun _ => Step.ofDocument) fun d e hsame =>
      FillAlike.fill hsame (fun _ step => step) _
  simp (disch := decide +kernel) only [Pattern.ofDocument, Document.members?, hsteps,
    LoopWindow.ofMembers, h.int?]

/-- Tracks that agree are the same. -/
theorem Agree.track (h : Agree .track m m') (index : Nat) :
    Track.ofMembers index m = Track.ofMembers index m' := by
  have hpatterns := h.present ["patterns", "p"] .patterns (by decide +kernel)
    (fun d => fill (Track.fresh index).patterns d fun _ => Pattern.ofDocument) fun d e hsame =>
      FillAlike.fill hsame (fun _ pattern => pattern) _
  simp (disch := decide +kernel) only [Track.ofMembers, hpatterns, intIn?, optional?, h.int?,
    h.flag?]

/-- Transpose steps that agree are the same. -/
theorem Agree.transposeStep (h : Agree .transposeStep m m') :
    TransposeStep.ofMembers m = TransposeStep.ofMembers m' := by
  simp (disch := decide +kernel) only [TransposeStep.ofMembers, Condition.ofMembers, optional?,
    h.int?]

/-- Songs that agree are the same. -/
theorem Agree.song (h : Agree .song m m') : Song.ofMembers m = Song.ofMembers m' := by
  have htracks := h.present ["t", "tracks"] .tracks (by decide +kernel)
    Song.tracksOf fun d e hsame => FillAlike.fill hsame (fun index track => track index) _
  have htransposes := h.present ["ts", "transposeSequence"] .transposes
    (by decide +kernel) TransposeSequence.ofDocument fun d e hsame => hsame
  have hsnapshots := h.present ["ps", "patternSnapshots"] .snapshots
    (by decide +kernel) Song.snapshotsOf fun d e hsame => FillAlike.snapshotsOf hsame
  have hfollow := h.present ["cf", "chordFollow"] .value
    (by decide +kernel) Song.chordFollowOf fun d e hsame => Song.chordFollowOf_congr hsame.marks
  simp (disch := decide +kernel) only [Song.ofMembers, htracks, htransposes, hsnapshots, hfollow,
    intIn?, h.int?]

/-- Objects that agree are the same, whatever kind of object they are. -/
theorem Shape.same_of_agree (hs : s.entry? = none) (h : Agree s m m') :
    s.Same (.obj m) (.obj m') := by
  cases s with
  | song => exact h.song
  | track => exact h.track
  | pattern => exact h.pattern
  | step => exact h.step
  | transposeStep => exact congrArg some h.transposeStep
  | transposes => rfl
  | value => exact ⟨rfl, rfl, rfl, rfl⟩
  | _ => cases hs

/-- Containers are the same if they fill banks alike, however the entries are read, as long as
entries that are the same read as the same thing. -/
theorem Shape.same_of_fillAlike {limit : Nat} {entry : Shape} (hs : s.entry? = some (limit, entry))
    {c d : Document} (h : ∀ {β : Type} (read : Document → β),
      (∀ v w, entry.Same v w → read v = read w) → FillAlike limit read c d) :
    s.Same c d := by
  cases s with
  | tracks =>
    cases hs
    exact h _ fun v w hsame => funext hsame
  | patterns =>
    cases hs
    exact h _ fun v w hsame => hsame
  | steps =>
    cases hs
    exact h _ fun v w hsame => hsame
  | snapshots =>
    cases hs
    exact h _ fun v w hsame => Snapshot.ofDocument?_congr hsame.marks
  | _ => cases hs

end

end Stored
end Groovebox
