import Mathlib.Tactic
import Groovebox.Proofs.Library.Legacy
/-! # Carrying over once more after a refusal

A refusal leaves the songs that were saved before it, and with them the reason not to carry over
again: a set has a file. Once nothing is refused any more, carrying over again therefore loads every
song of the older library exactly if none of its songs was saved before the refusal, or all of them
were: the main statement is `Library.migrate_again_iff`. -/

namespace Groovebox

/-- The empty song has no content. -/
theorem Song.hasContent_default : ({} : Song).hasContent = false := by
  have hpattern : ({} : Pattern).hasContent = false := by
    rw [Pattern.hasContent, Vector.any_replicate]
    rfl
  have htrack : ∀ i, (Track.fresh i).hasContent = false := by
    intro i
    show (Vector.replicate 16 ({} : Pattern)).any Pattern.hasContent = false
    rw [Vector.any_replicate, hpattern]
    rfl
  show (Vector.ofFn fun i => Track.fresh i).any Track.hasContent = false
  rw [Vector.any_eq_false]
  intro i hi
  rw [Vector.getElem_ofFn, htrack]
  exact Bool.false_ne_true

namespace Library

variable {l l₁ l₂ : Library} {i : Nat} {song : Song} {songs : List (Nat × Song)} {d : Document}
  {fault : LibraryFault}

/-- A set without a file is empty. -/
theorem load_of_has_eq_false (h : l.has i = false) : l.load i = {} := by
  have hnone : l.disk.text? (l.setPath i) = none := by
    rw [Option.eq_none_iff_forall_ne_some]
    intro text htext
    have hfile : l.has i = true := Disk.isFile_iff.2 ⟨_, Disk.text?_eq_some.1 htext⟩
    rw [h] at hfile
    cases hfile
  rw [load, hnone]

/-- What was in the way is gone, and all files are as they were. -/
structure Cleared (l₁ l₂ : Library) : Prop where
  root : l₂.root = l₁.root
  files : Disk.SameFiles l₁.disk l₂.disk
  opened : l₂.Open

theorem Cleared.sets (h : Cleared l₁ l₂) (i : Nat) :
    l₂.load i = l₁.load i ∧ l₂.has i = l₁.has i :=
  load_congr h.root (h.files _)

theorem Cleared.holdsFiles (h : Cleared l₁ l₂) :
    l₂.disk.holdsFiles l₂.setsPath = l₁.disk.holdsFiles l₁.setsPath := by
  rw [setsPath_congr h.root, Disk.holdsFiles_congr _ h.files]

/-- Where no song was saved, the older library is still there to carry over. -/
theorem Cleared.legacy (h : Cleared l₁ l₂) (hl : l₁.Legacy d) : l₂.Legacy d := by
  constructor
  · rw [legacyPath_congr h.root, Disk.text?_congr (h.files _)]
    exact hl.document
  · rw [h.holdsFiles]
    exact hl.fresh

/-- Every song of an older library is loaded from its set. -/
def Recovers (l : Library) (d : Document) : Prop :=
  ∀ i < capacity, ∀ song, legacySong? d i = some song → l.load i = song

/-- The set of such a song has a file, for without one it would be empty. -/
theorem Recovers.has (h : l.Recovers d) (hi : i < capacity)
    (hsome : (legacySong? d i).isSome = true) : l.has i = true := by
  rcases Option.isSome_iff_exists.1 hsome with ⟨song, hsong⟩
  by_contra hnone
  have hempty := load_of_has_eq_false (Bool.eq_false_iff.2 hnone)
  rw [h i hi song hsong] at hempty
  have hcontent := (Option.filter_eq_some_iff.1 hsong).2
  rw [hempty, Song.hasContent_default] at hcontent
  cases hcontent

theorem Carries.load (h : l.Carries d i) (hsong : legacySong? d i = some song) :
    l.load i = song := by
  rw [Carries, hsong] at h
  exact h.2

/-- Where no set had a file and some songs were saved, all are loaded exactly if each of their sets
has a file. -/
theorem Wrote.recovers_iff (h : Wrote songs l l₁) (hl : ∀ i, l.has i = false)
    (hsongs : songs ⊆ legacySongs d) :
    l₁.Recovers d ↔ ∀ i < capacity, (legacySong? d i).isSome = true → l₁.has i = true := by
  constructor
  · exact fun hall i hi hsome => hall.has hi hsome
  · intro hall i hi song hsong
    have hfile := hall i hi (Option.isSome_iff_exists.2 ⟨song, hsong⟩)
    by_cases hmem : i ∈ songs.map Prod.fst
    · rcases List.mem_map.1 hmem with ⟨⟨j, saved⟩, hsaved, rfl⟩
      have hsame : legacySong? d j = some saved := (mem_legacySongs_iff.1 (hsongs hsaved)).2
      have heq : saved = song := Option.some.inj (hsame.symm.trans hsong)
      rw [← heq]
      exact (h.load hsaved (legacySong?_wellFormed hsame)).2
    · rw [h.has_of_not_mem hmem, hl] at hfile
      cases hfile

/-- After a refusal whose cause is gone, carrying over again loads every song of an older library
exactly if no set had a file by then, or every set of its songs had. -/
theorem migrate_again_iff (h : l.Legacy d) (hm : l.migrate = (.error fault, l₁))
    (hcleared : Cleared l₁ l₂) :
    l₂.migrate.2.Recovers d ↔
      (∀ i, l₁.has i = false) ∨
        ∀ i < capacity, (legacySong? d i).isSome = true → l₁.has i = true := by
  rcases h.of_error hm with ⟨before, after, hsongs, hsaved⟩
  have hsub : before ⊆ legacySongs d := fun e he => hsongs ▸ List.mem_append_left after he
  have hnodup : (before.map Prod.fst).Nodup := by
    have hall := legacySongs_nodup d
    rw [hsongs, List.map_append] at hall
    exact hall.of_append_left
  have hwrote := saveAll_wrote hsaved hnodup
  cases before with
  | nil =>
    -- Nothing was saved: carrying over starts afresh, and now nothing is refused.
    cases hsaved
    have hlegacy := hcleared.legacy h
    rcases hlegacy.exists_ok hcleared.opened with ⟨l', hagain⟩
    have hrecovers : l₂.migrate.2.Recovers d := by
      intro i hi song hsong
      rw [hagain]
      exact (hlegacy.carries_of_ok hagain hi).load hsong
    exact iff_of_true hrecovers (Or.inl h.has)
  | cons e before =>
    -- A set has a file, so that carrying over again does nothing.
    rcases e with ⟨i, song⟩
    have hfirst : (i, song) ∈ (i, song) :: before := List.mem_cons_self
    have hwellFormed := legacySong?_wellFormed (mem_legacySongs_iff.1 (hsub hfirst)).2
    have hhas : l₁.has i = true := (hwrote.load hfirst hwellFormed).1
    have hagain : l₂.migrate = (.ok 0, l₂) := by
      apply migrate_of_nothing_to_do
      right
      rw [hcleared.holdsFiles, hwrote.holdsFiles h.fresh]
      rfl
    have hsome : ¬ ∀ i, l₁.has i = false := by
      intro hnone
      rw [hnone] at hhas
      cases hhas
    have hsame : l₂.Recovers d ↔ l₁.Recovers d := by
      unfold Recovers
      simp only [(hcleared.sets _).1]
    rw [hagain, or_iff_right hsome, hsame]
    exact hwrote.recovers_iff h.has hsub

/-- An older library of two songs, with a folder in the place of a set's file. -/
def blocked (i : Nat) : Library :=
  older twoNotes.print [["sets"], ["sets", toString i ++ ".json"]]

/-- The library without what is in the place of a set's file. -/
def freed (l : Library) (i : Nat) : Library :=
  { l with disk := l.disk.cut (l.setPath i) }

theorem cleared_freed (hopen : (freed l i).Open)
    (h : ∀ e ∈ l.disk.nodes, (l.setPath i).isPrefixOf e.1 = true → e.2 = .folder) :
    Cleared l (freed l i) :=
  ⟨rfl, Disk.sameFiles_cut (setPath_ne_nil l i) h, hopen⟩

/-- Where the first song is refused, carrying over again loads both. -/
theorem migrate_again_iff_first_blocked :
    (blocked 0).migrate = (.error (.writeRefused 0), blocked 0) ∧
      (freed (blocked 0) 0).migrate.2.Recovers twoNotes := by
  have hlegacy : (blocked 0).Legacy twoNotes := older_legacy (by decide +kernel)
  have hm : (blocked 0).migrate = (.error (.writeRefused 0), blocked 0) := by decide +kernel
  have hopen : (freed (blocked 0) 0).Open := by
    refine ⟨fun i hi => ⟨rfl, by decide +kernel, ?_⟩, rfl, by decide +kernel⟩
    revert i
    decide +kernel
  have hcleared := cleared_freed hopen (by decide +kernel)
  exact ⟨hm, (migrate_again_iff hlegacy hm hcleared).2 (Or.inl hlegacy.has)⟩

/-- The library that is left where the second song is refused. -/
def halfway : Library :=
  { disk := { nodes := [(["sets.json"], .file (.text twoNotes.print)), (["sets"], .folder),
      (["sets", "1.json"], .folder),
      (["sets", "0.json"], .file (.text (Song.ofDocument (noteDocument 60)).text))] } }

/-- Where the second song is refused, the first has its file by then: carrying over again does
nothing, and the second is not loaded. -/
theorem migrate_again_strands :
    (blocked 1).Legacy twoNotes ∧ (blocked 1).migrate = (.error (.writeRefused 1), halfway) ∧
      Cleared halfway (freed halfway 1) ∧ (freed halfway 1).migrate.1 = .ok 0 ∧
      ¬ (freed halfway 1).migrate.2.Recovers twoNotes := by
  have hopen : (freed halfway 1).Open := by
    refine ⟨fun i hi => ⟨rfl, by decide +kernel, ?_⟩, rfl, by decide +kernel⟩
    revert i
    decide +kernel
  refine ⟨older_legacy (by decide +kernel), by decide +kernel,
    cleared_freed hopen (by decide +kernel), by decide +kernel, ?_⟩
  intro hrecovers
  have hhas := hrecovers.has (i := 1) (by decide) (by decide +kernel)
  have hnone : (freed halfway 1).migrate.2.has 1 = false := by decide +kernel
  rw [hnone] at hhas
  cases hhas

end Library
end Groovebox
