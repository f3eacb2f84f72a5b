import Mathlib.Logic.Relation
import Mathlib.Tactic
import Groovebox.Proofs.Stored.Shapes
/-! # Spellings of a song

The same song can be spelled in many ways: with long or short names, with arrays or with objects
that name their entries by position, as a bare array of tracks, and with members that the reader
does not know. `Stored.Respells` says which changes are respellings, wherever in the document they are made.

* `Stored.Respells.same`: one respelling is not noticed by whatever reads the part that it is in.
* `Song.ofDocument_respelled`: so any number of respellings leaves the song as it is.
-/

namespace Groovebox

namespace Stored

/-! ## Names -/

namespace Shape

/-- The shape of the member that an object of a shape has under a name. -/
def member (s : Shape) (name : String) : Shape :=
  match s.entry? with
  | some (_, entry) => entry
  | none => ((s.fields.find? fun f => name ∈ f.names).map Field.shape).getD value

/-- The shape of the items of an array of a shape. -/
def item : Shape → Shape
  | song | tracks => track
  | patterns => pattern
  | steps => step
  | transposes => transposeStep
  | _ => value

/-- Whether the reader does anything with the member that an object of a shape has under a name. -/
def knows (s : Shape) (name : String) : Bool :=
  match s.entry? with
  | some (limit, _) => ((position? name).filter (· < limit)).isSome
  | none => s.fields.any fun f => name ∈ f.names

/-- No two fields of an object share a name. -/
theorem fields_unique {s : Shape} {name : String} : ∀ f ∈ s.fields, ∀ g ∈ s.fields,
    name ∈ f.names → name ∈ g.names → f = g := by
  have hall : ∀ f ∈ s.fields, ∀ g ∈ s.fields, (∃ n ∈ f.names, n ∈ g.names) → f = g := by
    cases s <;> decide +kernel
  exact fun f hf g hg hfn hgn => hall f hf g hg ⟨name, hfn, hgn⟩

theorem member_of_field {s : Shape} (hs : s.entry? = none) {f : Field} (hf : f ∈ s.fields)
    {name : String} (hname : name ∈ f.names) : s.member name = f.shape := by
  rw [member, hs]
  have hsome : (s.fields.find? fun g => name ∈ g.names).isSome := by
    rw [List.find?_isSome]
    exact ⟨f, hf, by simpa using hname⟩
  obtain ⟨g, hg⟩ := Option.isSome_iff_exists.1 hsome
  have hgname : name ∈ g.names := by simpa using List.find?_some hg
  rw [fields_unique f hf g (List.mem_of_find?_eq_some hg) hname hgname]
  simp only [hg, Option.map_some, Option.getD_some]

/-- Containers have no fields. -/
theorem entry?_of_field {s : Shape} {f : Field} (hf : f ∈ s.fields) : s.entry? = none := by
  cases s with
  | tracks => exact absurd hf List.not_mem_nil
  | patterns => exact absurd hf List.not_mem_nil
  | steps => exact absurd hf List.not_mem_nil
  | snapshots => exact absurd hf List.not_mem_nil
  | _ => rfl

theorem item_of_entry {s entry : Shape} {limit : Nat} (hs : s.entry? = some (limit, entry)) :
    s.item = entry := by
  cases s with
  | tracks | patterns | steps | snapshots =>
    cases hs
    rfl
  | _ => cases hs

theorem limit_le {s entry : Shape} {limit : Nat} (hs : s.entry? = some (limit, entry)) :
    limit ≤ Word.count64 := by
  have hsmall : limit ≤ 64 := by
    cases s with
    | tracks | patterns | steps | snapshots =>
      cases hs
      decide
    | _ => cases hs
  exact hsmall.trans (by decide)

end Shape

/-! ## Respellings -/

/-- The two documents, which have the given shape at their place in a song, differ in one spelling.
-/
inductive Respells : Shape → Document → Document → Prop
  /-- A member has another name of its field, and the object has no other member for this field. -/
  | rename {s : Shape} {f : Field} (hf : f ∈ s.fields) {x y : String} (hx : x ∈ f.names)
      (hy : y ∈ f.names) {v : Document} {a b : Members}
      (hfree : ∀ n ∈ f.names, n ∉ (a ++ b).map Prod.fst) :
      Respells s (.obj (a ++ (x, v) :: b)) (.obj (a ++ (y, v) :: b))
  /-- An array is an object that names the entries by position. -/
  | number {s entry : Shape} {limit : Nat} (hs : s.entry? = some (limit, entry))
      (items : List Document) : Respells s (.arr items) (.obj (numbered items))
  /-- A bare array of tracks is a song with these tracks. -/
  | wrap (items : List Document) : Respells .song (.arr items) (.obj [("tracks", .arr items)])
  /-- There is one more member, under a name that is not known. -/
  | add {s : Shape} {name : String} (hname : s.knows name = false) (v : Document) (a b : Members) :
      Respells s (.obj (a ++ b)) (.obj (a ++ (name, v) :: b))
  /-- A member is spelled differently. -/
  | member {s : Shape} {name : String} {v w : Document} (a b : Members)
      (h : Respells (s.member name) v w) :
      Respells s (.obj (a ++ (name, v) :: b)) (.obj (a ++ (name, w) :: b))
  /-- An item of an array is spelled differently. -/
  | item {s : Shape} {v w : Document} (a b : List Document) (h : Respells s.item v w) :
      Respells s (.arr (a ++ v :: b)) (.arr (a ++ w :: b))

/-! ## Objects -/

theorem first?_congr {α : Type} {m m' : Members} {names : List String}
    {read : Document → Option α}
    (h : ∀ n ∈ names, (Document.lookup n m).bind read = (Document.lookup n m').bind read) :
    first? m names read = first? m' names read := by
  unfold first?
  induction names with
  | nil => rfl
  | cons name names ih =>
    rw [List.findSome?_cons, List.findSome?_cons, h name List.mem_cons_self,
      ih fun n hn => h n (List.mem_cons_of_mem _ hn)]

theorem lookup_insert {n name : String} (h : n ≠ name) (v : Document) (a b : Members) :
    Document.lookup n (a ++ (name, v) :: b) = Document.lookup n (a ++ b) := by
  rw [Document.lookup_append, Document.lookup_append, Document.lookup, if_neg (Ne.symm h)]

theorem lookup_of_not_mem {n : String} {m : Members} (h : n ∉ m.map Prod.fst) :
    Document.lookup n m = none := by
  induction m with
  | nil => rfl
  | cons e m ih =>
    rcases e with ⟨k, v⟩
    rw [List.map_cons, List.mem_cons, not_or] at h
    rw [Document.lookup, if_neg (Ne.symm h.1), ih h.2]

/-- A field with one member has the value of this member, whichever of the names it is under. -/
theorem holds_of_single {names : List String} {x : String} (hx : x ∈ names) {v : Document}
    {a b : Members} (hfree : ∀ n ∈ names, n ∉ (a ++ b).map Prod.fst) :
    Holds (a ++ (x, v) :: b) names (some v) := by
  intro α read
  have hother {n : String} (hn : n ∈ names) (hne : n ≠ x) :
      Document.lookup n (a ++ (x, v) :: b) = none := by
    rw [lookup_insert hne, lookup_of_not_mem (hfree n hn)]
  have hself : Document.lookup x (a ++ (x, v) :: b) = some v := by
    have hbefore : Document.lookup x a = none := by
      apply lookup_of_not_mem
      intro hmem
      apply hfree x hx
      rw [List.map_append]
      exact List.mem_append_left _ hmem
    rw [Document.lookup_append, hbefore, Document.lookup, if_pos rfl, Option.none_or]
  rw [Option.bind_some, first?]
  -- Only the name with the member can give anything.
  have hgives {n : String} (hn : n ∈ names) {r : α}
      (hr : (Document.lookup n (a ++ (x, v) :: b)).bind read = some r) : read v = some r := by
    by_cases hne : n = x
    · rwa [hne, hself, Option.bind_some] at hr
    · rw [hother hn hne, Option.bind_none] at hr
      cases hr
  cases hfound : names.findSome? fun n => (Document.lookup n (a ++ (x, v) :: b)).bind read with
  | some r =>
    obtain ⟨n, hn, hr⟩ := List.exists_of_findSome?_eq_some hfound
    exact (hgives hn hr).symm
  | none =>
    have hnone := List.findSome?_eq_none_iff.1 hfound x hx
    rw [hself, Option.bind_some] at hnone
    exact hnone.symm

variable {s : Shape}

theorem agree_rename {f : Field} (hf : f ∈ s.fields) {x y : String} (hx : x ∈ f.names)
    (hy : y ∈ f.names) {v : Document} {a b : Members}
    (hfree : ∀ n ∈ f.names, n ∉ (a ++ b).map Prod.fst) :
    Agree s (a ++ (x, v) :: b) (a ++ (y, v) :: b) := by
  intro g hg α read _
  by_cases hgf : g = f
  · rw [hgf, holds_of_single hx hfree, holds_of_single hy hfree]
  · -- The names of another field are neither the old nor the new one.
    apply first?_congr
    intro n hn
    have hnx : n ≠ x := fun h => hgf (Shape.fields_unique g hg f hf hn (h ▸ hx))
    have hny : n ≠ y := fun h => hgf (Shape.fields_unique g hg f hf hn (h ▸ hy))
    rw [lookup_insert hnx, lookup_insert hny]

theorem agree_add (hs : s.entry? = none) {name : String} (hname : s.knows name = false)
    (v : Document) (a b : Members) : Agree s (a ++ b) (a ++ (name, v) :: b) := by
  intro g hg α read _
  apply first?_congr
  intro n hn
  have hne : n ≠ name := by
    rintro rfl
    rw [Shape.knows, hs, List.any_eq_false] at hname
    exact hname g hg (by simpa using hn)
  rw [lookup_insert hne]

theorem agree_member (hs : s.entry? = none) {name : String} {v w : Document}
    (h : (s.member name).Same v w) (a b : Members) :
    Agree s (a ++ (name, v) :: b) (a ++ (name, w) :: b) := by
  intro g hg α read hread
  apply first?_congr
  intro n hn
  by_cases hne : n = name
  · subst hne
    rw [Shape.member_of_field hs hg hn] at h
    rw [Document.lookup_append, Document.lookup_append, Document.lookup, Document.lookup,
      if_pos rfl, if_pos rfl]
    cases Document.lookup n a with
    | none => exact hread v w h
    | some d => rfl
  · rw [lookup_insert hne, lookup_insert hne]

end Stored

open Stored

/-! ## Arrays -/

/-- A song that holds nothing but tracks is the song with these tracks. -/
theorem Song.ofDocument_wrapped (items : List Document) :
    Song.ofDocument (.arr items) = Song.ofDocument (.obj [("tracks", .arr items)]) := by
  have hnone {names : List String} (hnames : "tracks" ∉ names) {α : Type}
      (read : Document → Option α) : first? [("tracks", .arr items)] names read = none := by
    rw [first?, List.findSome?_eq_none_iff]
    intro n hn
    have hne : ¬"tracks" = n := fun h => hnames (h ▸ hn)
    rw [Document.lookup, if_neg hne]
    rfl
  have htracks : first? [("tracks", .arr items)] ["t", "tracks"] some = some (.arr items) :=
    holds_of_single (a := []) (b := []) (by decide +kernel) (by simp) some
  simp (disch := decide +kernel) only [Song.ofDocument, Song.ofMembers, intIn?, int?, present?,
    hnone, htracks]
  rfl

/-- A track of a bare array counts only as the track that it reads as. -/
theorem Song.ofDocument_item {v w : Document}
    (h : ∀ index, Track.ofDocument index v = Track.ofDocument index w) (a b : List Document) :
    Song.ofDocument (.arr (a ++ v :: b)) = Song.ofDocument (.arr (a ++ w :: b)) := by
  have hread : (fun index => Track.ofDocument index v) = fun index => Track.ofDocument index w :=
    funext h
  have htracks : FillAlike 16 (fun d index => Track.ofDocument index d) (.arr (a ++ v :: b))
      (.arr (a ++ w :: b)) := fillAlike_item hread a b
  have hfill := htracks.fill (fun index track => track index) (Vector.ofFn fun i => Track.fresh i)
  rw [Song.ofDocument, Song.ofDocument, Song.tracksOf, Song.tracksOf, hfill]

/-- A step of a transpose sequence counts only as the step that it reads as. -/
theorem TransposeSequence.ofDocument_item {v w : Document}
    (h : v.members?.map TransposeStep.ofMembers = w.members?.map TransposeStep.ofMembers)
    (a b : List Document) : TransposeSequence.ofDocument (.arr (a ++ v :: b)) =
      TransposeSequence.ofDocument (.arr (a ++ w :: b)) := by
  have hsteps (items : List Document) :
      TransposeSequence.ofDocument (.arr items) = (TransposeSequence.ofSteps
        (items.filterMap fun d => d.members?.map TransposeStep.ofMembers)).boundJumps := by
    rw [← List.map_filterMap]
    rfl
  rw [hsteps, hsteps, List.filterMap_append, List.filterMap_append, List.filterMap_cons,
    List.filterMap_cons, h]

/-- A setting in an array of settings counts only as its mark. -/
theorem Document.alike_item {v w : Document} (h : v.mark = w.mark) (a b : List Document) :
    (Document.arr (a ++ v :: b)).Alike (.arr (a ++ w :: b)) := by
  have hmarks : Document.marks? (.arr (a ++ v :: b)) = Document.marks? (.arr (a ++ w :: b)) := by
    simp only [Document.marks?, Document.items?, Option.map_some, List.map_append, List.map_cons, h]
  exact ⟨rfl, rfl, rfl, hmarks⟩

namespace Stored

/-- An item of an array counts only as far as its own shape goes. -/
theorem Shape.same_item {s : Shape} {v w : Document} (h : s.item.Same v w) (a b : List Document) :
    s.Same (.arr (a ++ v :: b)) (.arr (a ++ w :: b)) := by
  cases hs : s.entry? with
  | some e =>
    rw [Shape.item_of_entry hs] at h
    exact Shape.same_of_fillAlike hs fun read hread => fillAlike_item (hread v w h) a b
  | none =>
    cases s with
    | song => exact Song.ofDocument_item h a b
    | transposes => exact TransposeSequence.ofDocument_item h a b
    | value => exact Document.alike_item (Document.Alike.mark h) a b
    -- An array is read as nothing where an object belongs.
    | track => exact fun index => rfl
    | pattern | step | transposeStep => rfl
    | _ => cases hs

/-! ## Any respelling -/

/-- Nothing that reads the part of a song in which a respelling is made notices it. -/
theorem Respells.same {s : Shape} {d e : Document} (h : Respells s d e) : s.Same d e := by
  induction h with
  | rename hf hx hy hfree =>
    exact Shape.same_of_agree (Shape.entry?_of_field hf) (agree_rename hf hx hy hfree)
  | number hs items =>
    exact Shape.same_of_fillAlike hs fun read _ => fillAlike_numbered (Shape.limit_le hs) items
  | wrap items => exact Song.ofDocument_wrapped items
  | @add s name hname v a b =>
    cases hs : s.entry? with
    | none => exact Shape.same_of_agree hs (agree_add hs hname v a b)
    | some e =>
      rw [Shape.knows, hs] at hname
      have hplace := Option.isNone_iff_eq_none.1 (Option.isSome_eq_false_iff.1 hname)
      exact Shape.same_of_fillAlike hs fun read _ => fillAlike_insert hplace v a b
  | @member s name v w a b _ ih =>
    cases hs : s.entry? with
    | none => exact Shape.same_of_agree hs (agree_member hs ih a b)
    | some e =>
      rw [Shape.member, hs] at ih
      exact Shape.same_of_fillAlike hs fun read hread => fillAlike_member (hread v w ih) name a b
  | item a b _ ih => exact Shape.same_item ih a b

end Stored

/-- However a song is respelled, it stays the same song. -/
theorem Song.ofDocument_respelled {d e : Document} (h : Relation.EqvGen (Respells .song) d e) :
    Song.ofDocument d = Song.ofDocument e := by
  induction h with
  | rel d e h => exact h.same
  | refl d => rfl
  | symm d e _ ih => exact ih.symm
  | trans d e f _ _ ihde ihef => exact ihde.trans ihef

/-- A bare array of tracks with long names and the sparse form of the same song. -/
theorem Song.ofDocument_respelled_bare :
    let bare : Document := .arr [.obj [("channel", .int 3)]]
    let sparse : Document := .obj [("v", .int 2), ("t", .obj [("0", .obj [("ch", .int 3)])])]
    Relation.EqvGen (Respells .song) bare sparse ∧ Song.ofDocument bare = Song.ofDocument sparse := by
  intro bare sparse
  let track : Document := .obj [("ch", .int 3)]
  have hrenamed : Respells .song bare (.arr [track]) := by
    refine Respells.item (s := .song) [] [] (Respells.rename (s := .track) (a := []) (b := [])
      (f := { names := ["channel", "ch"], shape := .value }) ?_ ?_ ?_ ?_)
    · decide +kernel
    · decide +kernel
    · decide +kernel
    · simp
  have hwrapped : Respells .song (.arr [track]) (.obj [("tracks", .arr [track])]) := .wrap [track]
  have hshort : Respells .song (.obj [("tracks", .arr [track])]) (.obj [("t", .arr [track])]) := by
    refine Respells.rename (s := .song) (a := []) (b := [])
      (f := { names := ["t", "tracks"], shape := .tracks }) ?_ ?_ ?_ ?_
    · decide +kernel
    · decide +kernel
    · decide +kernel
    · simp
  have hnumbered :
      Respells .song (.obj [("t", .arr [track])]) (.obj [("t", .obj [("0", track)])]) := by
    have htracks : Shape.song.member "t" = .tracks := by decide +kernel
    have hzero : numbered [track] = [("0", track)] := by
      show [(toString 0, track)] = _
      rw [show toString 0 = "0" by decide +kernel]
    refine Respells.member (s := .song) [] [] ?_
    rw [htracks, ← hzero]
    exact .number (s := .tracks) rfl [track]
  have hversion : Respells .song (.obj [("t", .obj [("0", track)])]) sparse :=
    .add (by decide +kernel) (.int 2) [] _
  have hall : Relation.EqvGen (Respells .song) bare sparse :=
    .trans _ _ _ (.rel _ _ hrenamed) <| .trans _ _ _ (.rel _ _ hwrapped) <|
      .trans _ _ _ (.rel _ _ hshort) <| .trans _ _ _ (.rel _ _ hnumbered) (.rel _ _ hversion)
  exact ⟨hall, Song.ofDocument_respelled hall⟩

end Groovebox
