import Mathlib.Tactic
import Groovebox.Proofs.Library.Requests
/-! # Carrying over an older library

The songs of an older library are saved in turn, up to the first that is refused, and only after the
last one is its file put aside. `Library.Wrote` says what saves in turn leave behind; a save makes
folders on the way to the file of its set and touches nothing besides, so that the file of the older
library stays as it is. Carrying over is complete and happens once: the main statement is
`Library.migrate_complete`. -/

namespace Groovebox.Library

variable {l l' : Library} {i : Nat} {song : Song} {songs : List (Nat × Song)} {p : Path}
  {d : Document} {fault : LibraryFault}

/-! ## Paths that saves do not touch -/

/-- A path next to the folder of the sets: no save makes a folder or writes a file there. -/
def Beside (l : Library) (p : Path) : Prop :=
  ∃ name, name ≠ "sets" ∧ p = l.root ++ [name]

theorem legacyPath_congr (h : l'.root = l.root) : l'.legacyPath = l.legacyPath := by
  rw [legacyPath, legacyPath, h]

theorem backupPath_congr (h : l'.root = l.root) : l'.backupPath = l.backupPath := by
  rw [backupPath, backupPath, h]

theorem legacyPath_beside (l : Library) : l.Beside l.legacyPath :=
  ⟨"sets.json", by decide, rfl⟩

theorem backupPath_beside (l : Library) : l.Beside l.backupPath :=
  ⟨"sets.json.backup", by decide, rfl⟩

/-- What is beside the sets is not above the file of one. -/
theorem Beside.apart_setPath (h : l.Beside p) (i : Nat) : ¬ p <+: l.setPath i := by
  rcases h with ⟨name, hname, rfl⟩
  intro hbegins
  have hlast := (List.prefix_append_right_inj l.root).1 hbegins
  simp [hname] at hlast

/-- What is beside the sets is not above their folder. -/
theorem Beside.apart (h : l.Beside p) : ¬ p <+: l.setsPath := by
  intro hbegins
  apply h.apart_setPath 0
  rw [setPath_eq]
  exact hbegins.trans (List.prefix_append _ _)

theorem Beside.ne_setPath (h : l.Beside p) (i : Nat) : p ≠ l.setPath i := by
  rintro rfl
  exact h.apart_setPath i (List.prefix_refl _)

/-- No folder above the sets is the file of a set. -/
theorem ne_setPath_of_above (h : p <+: l.setsPath) (i : Nat) : p ≠ l.setPath i := by
  rintro rfl
  exact absurd h.length_le (Nat.not_le.2 (length_setsPath_lt l i))

/-! ## One save -/

/-- A save changes nothing besides the folders on the way to its file and the file itself. -/
theorem node?_save_apart (h : l.save i song = .ok l') (hp : ¬ p <+: l.setsPath)
    (hne : p ≠ l.setPath i) : l'.disk.node? p = l.disk.node? p := by
  rcases save_ok h with ⟨-, -, disk, hfolders, hdisk⟩
  rw [hdisk, Disk.node?_put_of_ne _ _ hne]
  exact Disk.node?_makeFolders?_apart hfolders hp

/-- What is on the disk stays there, apart from the file of the set. -/
theorem node?_save_of_some {n : Node} (h : l.save i song = .ok l') (hne : p ≠ l.setPath i)
    (hp : l.disk.node? p = some n) : l'.disk.node? p = some n := by
  rcases save_ok h with ⟨-, -, disk, hfolders, hdisk⟩
  rw [hdisk, Disk.node?_put_of_ne _ _ hne]
  exact Disk.node?_makeFolders?_of_some hfolders hp

/-- No file comes or goes, apart from that of the set. -/
theorem file_save (h : l.save i song = .ok l') (hne : p ≠ l.setPath i) (c : Contents) :
    l'.disk.node? p = some (.file c) ↔ l.disk.node? p = some (.file c) := by
  rcases save_ok h with ⟨-, -, disk, hfolders, hdisk⟩
  rw [hdisk, Disk.node?_put_of_ne _ _ hne]
  exact Disk.sameFiles_makeFolders? hfolders p c

/-- Nothing stands in the way of any set, or of putting the file of an older library aside. -/
structure Open (l : Library) : Prop where
  clear : ∀ i < capacity, l.Clear i
  root : l.disk.isFolder l.root = true
  backup : l.disk.isFolder l.backupPath = false

/-- An open library stays open when a song is saved. -/
theorem Open.save (hl : l.Open) (h : l.save i song = .ok l') : l'.Open := by
  rcases save_ok h with ⟨-, hroot, disk, hfolders, hdisk⟩
  have hrootPath : l.root <+: l.setsPath := List.prefix_append _ _
  refine ⟨?_, ?_, ?_⟩
  · intro j hj
    have hclear := hl.clear j hj
    refine ⟨?_, ?_, ?_⟩
    · rw [hdisk]
      exact (Disk.readOnly_makeFolders? hfolders).trans hclear.writable
    · intro n hn
      rw [setsPath_congr hroot] at hn ⊢
      rw [Disk.isFile_congr (file_save h (ne_setPath_of_above (List.take_prefix _ _) i))]
      exact hclear.above n hn
    · rw [setPath_congr hroot]
      by_cases hij : j = i
      · -- In place of a folder there is the file that was saved.
        subst hij
        have hfile := node?_setPath_of_save h
        rw [setPath_congr hroot] at hfile
        simp [Disk.isFolder, hfile]
      · rw [Disk.isFolder, node?_of_save h hij]
        exact hclear.place
  · -- The root is a folder and stays one.
    rw [hroot]
    have hfolder := Disk.isFolder_iff.1 hl.root
    exact Disk.isFolder_iff.2 (node?_save_of_some h (ne_setPath_of_above hrootPath i) hfolder)
  · rw [backupPath_congr hroot, Disk.isFolder, node?_save_apart h (backupPath_beside l).apart
      ((backupPath_beside l).ne_setPath i)]
    exact hl.backup

/-! ## Saves in turn -/

/-- One library comes from another by saving some songs: each has its text in the file of its set,
and all else is as it was, apart from folders on the way. -/
structure Wrote (songs : List (Nat × Song)) (l l' : Library) : Prop where
  root : l'.root = l.root
  written : ∀ e ∈ songs, l'.disk.node? (l.setPath e.1) = some (.file (.text e.2.text))
  others : ∀ p, ¬ p <+: l.setsPath → (∀ e ∈ songs, p ≠ l.setPath e.1) →
    l'.disk.node? p = l.disk.node? p

/-- Where no save is refused, every song is in the file of its set, as no set is written twice. -/
theorem saveAll_wrote :
    ∀ {l l' : Library}, l.saveAll songs = (.ok (), l') → (songs.map Prod.fst).Nodup →
      Wrote songs l l' := by
  -- The library changes with each save, so the induction is for every library.
  induction songs with
  | nil =>
    intro l l' h _
    cases h
    exact ⟨rfl, fun e he => absurd he List.not_mem_nil, fun p _ _ => rfl⟩
  | cons e songs ih =>
    rcases e with ⟨i, song⟩
    intro l l' h hnodup
    rw [List.map_cons, List.nodup_cons] at hnodup
    simp only [saveAll] at h
    split at h
    · cases h
    · rename_i l₁ hsave
      have hwrote := ih h hnodup.2
      have hroot := (save_ok hsave).2.1
      have hpath : ∀ j, l₁.setPath j = l.setPath j := setPath_congr hroot
      have hsets : l₁.setsPath = l.setsPath := setsPath_congr hroot
      -- The sets of the later songs are others than the first.
      have hapart : ∀ e ∈ songs, i ≠ e.1 := by
        intro e he hi
        have hmem : e.1 ∈ songs.map Prod.fst := List.mem_map_of_mem he
        exact hnodup.1 (hi ▸ hmem)
      refine ⟨hwrote.root.trans hroot, ?_, ?_⟩
      · intro e he
        -- The first song stays where it is while the others are saved.
        rcases List.mem_cons.1 he with rfl | he
        · have hlong : ¬ l.setPath i <+: l.setsPath := fun hbegins =>
            ne_setPath_of_above hbegins i rfl
          rw [hwrote.others _ (hsets ▸ hlong)]
          · have hfile := node?_setPath_of_save hsave
            rwa [hpath] at hfile
          · intro e he heq
            rw [hpath] at heq
            exact hapart e he (setPath_injective heq)
        · rw [← hpath]
          exact hwrote.written e he
      · intro p hp hne
        rw [hwrote.others p (hsets ▸ hp)]
        · exact node?_save_apart hsave hp (hne (i, song) List.mem_cons_self)
        · intro e he
          rw [hpath]
          exact hne e (List.mem_cons_of_mem _ he)

/-- Where saving in turn is refused, the songs before the refusal were saved. -/
theorem saveAll_error :
    ∀ {l : Library}, l.saveAll songs = (.error fault, l') →
      ∃ before after, songs = before ++ after ∧ l.saveAll before = (.ok (), l') := by
  induction songs with
  | nil =>
    intro l h
    cases h
  | cons e songs ih =>
    rcases e with ⟨i, song⟩
    intro l h
    simp only [saveAll] at h
    split at h
    · cases h
      exact ⟨[], (i, song) :: songs, rfl, rfl⟩
    · rename_i l₁ hsave
      rcases ih h with ⟨before, after, hsongs, hbefore⟩
      refine ⟨(i, song) :: before, after, by rw [hsongs]; rfl, ?_⟩
      simp only [saveAll, hsave, hbefore]

/-- In an open library, songs of its sets are saved without refusal. -/
theorem exists_saveAll :
    ∀ {l : Library}, l.Open → (∀ e ∈ songs, e.1 < capacity) →
      ∃ l', l.saveAll songs = (.ok (), l') ∧ l'.Open := by
  induction songs with
  | nil => exact fun hl _ => ⟨_, rfl, hl⟩
  | cons e songs ih =>
    rcases e with ⟨i, song⟩
    intro l hl hsets
    have hi := hsets (i, song) List.mem_cons_self
    have hsaves : ∃ l₁, l.save i song = .ok l₁ := exists_save_iff.2 ⟨hi, hl.clear i hi⟩
    rcases hsaves with ⟨l₁, hsave⟩
    rcases ih (hl.save hsave) (fun e he => hsets e (List.mem_cons_of_mem _ he)) with ⟨l', h, hl'⟩
    exact ⟨l', by simp only [saveAll, hsave, h], hl'⟩

namespace Wrote

/-- A well-formed song that was saved is loaded. -/
theorem load (h : Wrote songs l l') (hmem : (i, song) ∈ songs) (hsong : song.WellFormed) :
    l'.has i = true ∧ l'.load i = song := by
  have hfile := h.written (i, song) hmem
  rw [← setPath_congr h.root] at hfile
  constructor
  · exact Disk.isFile_iff.2 ⟨_, hfile⟩
  · rw [Library.load, Disk.text?_eq_some.2 hfile]
    exact songOf_text_of_wellFormed hsong

/-- A set that was not saved has a file only if it had one. -/
theorem has_of_not_mem (h : Wrote songs l l') (hi : i ∉ songs.map Prod.fst) :
    l'.has i = l.has i := by
  rw [has, has, setPath_congr h.root, Disk.isFile, Disk.isFile, h.others]
  · exact fun hbegins => ne_setPath_of_above hbegins i rfl
  · intro e he heq
    exact hi (setPath_injective heq ▸ List.mem_map_of_mem he)

/-- Where the folder of the sets held no files, it holds some once any song is saved. -/
theorem holdsFiles (h : Wrote songs l l') (hnone : l.disk.holdsFiles l.setsPath = false) :
    l'.disk.holdsFiles l'.setsPath = !songs.isEmpty := by
  rw [setsPath_congr h.root, Bool.eq_iff_iff, Disk.holdsFiles_iff]
  constructor
  · rintro ⟨p, hp, hfolder, hfile⟩
    cases songs with
    | nil =>
      -- A file in the folder of the sets has a path that is longer than the folder's.
      have hlong : ¬ p <+: l.setsPath := by
        intro hbegins
        have hlength := hbegins.length_le
        rw [← hfolder, List.length_dropLast] at hlength
        have hpos := List.length_pos_of_ne_nil hp
        omega
      have hbefore : l.disk.isFile p = true := by
        rwa [Disk.isFile, h.others p hlong fun e he => absurd he List.not_mem_nil] at hfile
      rw [Disk.holdsFiles_iff.2 ⟨p, hp, hfolder, hbefore⟩] at hnone
      cases hnone
    | cons e songs => rfl
  · intro hsome
    cases songs with
    | nil => cases hsome
    | cons e songs =>
      refine ⟨l.setPath e.1, setPath_ne_nil l e.1, dropLast_setPath l e.1, ?_⟩
      exact Disk.isFile_iff.2 ⟨_, h.written e List.mem_cons_self⟩

end Wrote

/-! ## Songs of an older library -/

/-- The song at a position of an older library, if it has content. -/
def legacySong? (d : Document) (i : Nat) : Option Song :=
  ((d.items?.bind (·[i]?)).map Song.ofDocument).filter Song.hasContent

/-- The songs to carry over are those with content, each at its own position. -/
theorem mem_legacySongs_iff {e : Nat × Song} :
    e ∈ legacySongs d ↔ e.1 < capacity ∧ legacySong? d e.1 = some e.2 := by
  rcases e with ⟨i, song⟩
  have hitems : ∀ v, (d.items?.getD [])[i]? = some v ↔ d.items?.bind (·[i]?) = some v := by
    intro v
    cases d.items? <;> simp
  simp only [legacySongs, legacySong?, Option.filter_eq_some_iff, Option.map_eq_some_iff,
    List.mem_filter, List.mem_map, Prod.exists, Prod.mk.injEq, List.mk_mem_zipIdx_iff_getElem?,
    List.getElem?_take]
  constructor
  · rintro ⟨⟨v, k, hv, rfl, rfl⟩, hcontent⟩
    split at hv
    · rename_i hk
      exact ⟨hk, ⟨v, (hitems v).1 hv, rfl⟩, hcontent⟩
    · cases hv
  · rintro ⟨hi, ⟨v, hv, rfl⟩, hcontent⟩
    exact ⟨⟨v, i, by rw [if_pos hi]; exact (hitems v).2 hv, rfl, rfl⟩, hcontent⟩

/-- The sets that are written are those with a song at their position. -/
theorem mem_positions_iff :
    i ∈ (legacySongs d).map Prod.fst ↔ i < capacity ∧ (legacySong? d i).isSome = true := by
  rw [List.mem_map, Option.isSome_iff_exists]
  constructor
  · rintro ⟨e, he, rfl⟩
    rcases mem_legacySongs_iff.1 he with ⟨hi, hsong⟩
    exact ⟨hi, e.2, hsong⟩
  · rintro ⟨hi, song, hsong⟩
    exact ⟨(i, song), mem_legacySongs_iff.2 ⟨hi, hsong⟩, rfl⟩

/-- Every position is written once at most. -/
theorem legacySongs_nodup (d : Document) : ((legacySongs d).map Prod.fst).Nodup := by
  have hpositions : ((((d.items?.getD []).take capacity).zipIdx.map
      fun e => (e.2, Song.ofDocument e.1)).map Prod.fst).Nodup := by
    rw [List.map_map]
    show (((d.items?.getD []).take capacity).zipIdx.map Prod.snd).Nodup
    rw [List.zipIdx_map_snd]
    exact List.nodup_range'
  exact hpositions.sublist (List.filter_sublist.map Prod.fst)

/-- The songs of an older library are well-formed, since they were read. -/
theorem legacySong?_wellFormed (h : legacySong? d i = some song) : song.WellFormed := by
  rw [legacySong?, Option.filter_eq_some_iff, Option.map_eq_some_iff] at h
  rcases h with ⟨⟨v, -, rfl⟩, -⟩
  exact Song.ofDocument_wellFormed v

/-- There is an older library to carry over, with this document in its file, and no set has a file.
-/
structure Legacy (l : Library) (d : Document) : Prop where
  document : (l.disk.text? l.legacyPath).bind Document.parse? = some d
  fresh : l.disk.holdsFiles l.setsPath = false

namespace Legacy

/-- There is a file of an older library. -/
theorem isFile (h : l.Legacy d) : l.disk.isFile l.legacyPath = true := by
  rcases Option.bind_eq_some_iff.1 h.document with ⟨text, htext, -⟩
  exact Disk.isFile_iff.2 ⟨_, Disk.text?_eq_some.1 htext⟩

/-- No set has a file yet. -/
theorem has (h : l.Legacy d) (i : Nat) : l.has i = false := by
  rw [Bool.eq_false_iff]
  intro hfile
  have hholds : l.disk.holdsFiles l.setsPath = true :=
    Disk.holdsFiles_iff.2 ⟨_, setPath_ne_nil l i, dropLast_setPath l i, hfile⟩
  rw [h.fresh] at hholds
  cases hholds

/-- The songs are saved in turn, and then the file of the older library is put aside. -/
theorem migrate_eq (h : l.Legacy d) :
    l.migrate =
      match l.saveAll (legacySongs d) with
      | (.error fault, l) => (.error fault, l)
      | (.ok (), l) =>
        match l.disk.rename? l.legacyPath l.backupPath with
        | none => (.error .backupRefused, l)
        | some disk => (.ok (legacySongs d).length, { l with disk }) := by
  rcases Option.bind_eq_some_iff.1 h.document with ⟨text, htext, hparse⟩
  simp only [migrate, h.isFile, h.fresh, htext, hparse]
  rfl

/-- A refusal comes after some of the songs were saved, and before the file is put aside. -/
theorem of_error (h : l.Legacy d) (hm : l.migrate = (.error fault, l')) :
    ∃ before after, legacySongs d = before ++ after ∧ l.saveAll before = (.ok (), l') := by
  rw [h.migrate_eq] at hm
  split at hm
  · rename_i hsaved
    cases hm
    exact saveAll_error hsaved
  · rename_i hsaved
    split at hm
    · cases hm
      exact ⟨legacySongs d, [], (List.append_nil _).symm, hsaved⟩
    · cases hm

/-- Without a refusal all songs were saved, and then the file was moved. -/
theorem of_ok {n : Nat} (h : l.Legacy d) (hm : l.migrate = (.ok n, l')) :
    n = (legacySongs d).length ∧ l'.root = l.root ∧
      ∃ saved c, Wrote (legacySongs d) l saved ∧ l.disk.node? l.legacyPath = some (.file c) ∧
        l'.disk = (saved.disk.cut l.legacyPath).put l.backupPath (.file c) := by
  rw [h.migrate_eq] at hm
  split at hm
  · cases hm
  · rename_i saved hsaved
    split at hm
    · cases hm
    · rename_i disk hmoved
      cases hm
      -- The positions are all different, so every song was written and none of them twice.
      have hwrote := saveAll_wrote hsaved (legacySongs_nodup d)
      rw [legacyPath_congr hwrote.root, backupPath_congr hwrote.root] at hmoved
      rcases Disk.rename?_eq_some hmoved with ⟨c, hc, hdisk⟩
      rw [hwrote.others l.legacyPath (legacyPath_beside l).apart
        fun e _ => (legacyPath_beside l).ne_setPath e.1] at hc
      exact ⟨rfl, hwrote.root, saved, c, hwrote, hc, hdisk⟩

/-- Putting the file aside touches the file of no set. -/
theorem sets_of_ok {n : Nat} (h : l.Legacy d) (hm : l.migrate = (.ok n, l')) :
    ∃ saved, Wrote (legacySongs d) l saved ∧
      ∀ i, l'.load i = saved.load i ∧ l'.has i = saved.has i := by
  rcases h.of_ok hm with ⟨-, hroot, saved, c, hwrote, -, hdisk⟩
  refine ⟨saved, hwrote, fun i => ?_⟩
  apply load_congr (hroot.trans hwrote.root.symm)
  intro c'
  have hbackup : l.setPath i ≠ l.backupPath := ((backupPath_beside l).ne_setPath i).symm
  rw [setPath_congr hwrote.root, hdisk, Disk.node?_put_of_ne _ _ hbackup,
    Disk.node?_cut_apart ((legacyPath_beside l).apart_setPath i)]

end Legacy

/-- A set holds the song at its position of an older library, and has no file if there is none. -/
def Carries (l : Library) (d : Document) (i : Nat) : Prop :=
  match legacySong? d i with
  | some song => l.has i = true ∧ l.load i = song
  | none => l.has i = false

namespace Legacy

/-- After carrying over, each set holds the song at its position, or none. -/
theorem carries_of_ok {n : Nat} (h : l.Legacy d) (hm : l.migrate = (.ok n, l'))
    (hi : i < capacity) : l'.Carries d i := by
  rcases h.sets_of_ok hm with ⟨saved, hwrote, hsets⟩
  unfold Carries
  rw [(hsets i).1, (hsets i).2]
  split
  · rename_i song hsong
    have hmem : (i, song) ∈ legacySongs d := mem_legacySongs_iff.2 ⟨hi, hsong⟩
    exact hwrote.load hmem (legacySong?_wellFormed hsong)
  · -- A set without a song was not written, and it had no file before.
    rename_i hnone
    rw [hwrote.has_of_not_mem, h.has]
    rw [mem_positions_iff, hnone]
    simp

/-- The sets that have a file afterwards are counted. -/
theorem count_of_ok {n : Nat} (h : l.Legacy d) (hm : l.migrate = (.ok n, l')) :
    n = ((List.range capacity).filter l'.has).length := by
  have hpositions : ((legacySongs d).map Prod.fst).Perm ((List.range capacity).filter l'.has) := by
    rw [List.perm_ext_iff_of_nodup (legacySongs_nodup d) (List.nodup_range.filter _)]
    intro i
    rw [mem_positions_iff, List.mem_filter, List.mem_range]
    apply and_congr_right
    intro hi
    have hcarries := h.carries_of_ok hm hi
    unfold Carries at hcarries
    split at hcarries
    · rename_i hsong
      simp [hsong, hcarries.1]
    · rename_i hsong
      simp [hsong, hcarries]
  rw [(h.of_ok hm).1, ← hpositions.length_eq, List.length_map]

/-- The file of the older library is gone from its path and stands aside as it was. -/
theorem backup_of_ok {n : Nat} (h : l.Legacy d) (hm : l.migrate = (.ok n, l')) :
    l'.disk.node? l'.legacyPath = none ∧
      l'.disk.node? l'.backupPath = l.disk.node? l.legacyPath := by
  rcases h.of_ok hm with ⟨-, hroot, saved, c, hwrote, hc, hdisk⟩
  have hapart : l.legacyPath ≠ l.backupPath := by simp [legacyPath, backupPath]
  rw [legacyPath_congr hroot, backupPath_congr hroot, hdisk, hc]
  constructor
  · rw [Disk.node?_put_of_ne _ _ hapart]
    exact Disk.node?_cut_below (by simp [legacyPath]) (List.prefix_refl _)
  · exact Disk.node?_put_self _ _ (by simp [backupPath])

/-- In an open library nothing is refused. -/
theorem exists_ok (h : l.Legacy d) (hl : l.Open) :
    ∃ l', l.migrate = (.ok (legacySongs d).length, l') := by
  rcases exists_saveAll hl (fun e he => (mem_legacySongs_iff.1 he).1) with ⟨saved, hsaved, hopen⟩
  have hwrote := saveAll_wrote hsaved (legacySongs_nodup d)
  rcases Disk.isFile_iff.1 h.isFile with ⟨c, hc⟩
  rw [← hwrote.others l.legacyPath (legacyPath_beside l).apart
    fun e _ => (legacyPath_beside l).ne_setPath e.1, ← legacyPath_congr hwrote.root] at hc
  have hfolder : saved.disk.isFolder saved.backupPath.dropLast = true := by
    rw [backupPath, List.dropLast_concat]
    exact hopen.root
  have hapart : ¬ saved.legacyPath <+: saved.backupPath := by
    intro hbegins
    have hlast := (List.prefix_append_right_inj saved.root).1 hbegins
    simp at hlast
  -- The file can be put aside: it is still there, and its new place is no folder.
  have hmoved := Disk.rename?_apart hc (hopen.clear 0 (by decide)).writable
    hopen.backup hfolder hapart
  rw [h.migrate_eq, hsaved]
  simp only [hmoved]
  exact ⟨_, rfl⟩

end Legacy

/-! ## Main statement -/

/-- There is nothing to do without a file of an older library, or once a set has a file. -/
theorem migrate_of_nothing_to_do
    (h : l.disk.isFile l.legacyPath = false ∨ l.disk.holdsFiles l.setsPath = true) :
    l.migrate = (.ok 0, l) := by
  rw [migrate, if_pos]
  rcases h with h | h <;> simp [h]

/-- A file that is no text, or whose text is no document, is refused before anything is done. -/
theorem migrate_of_unreadable (hfile : l.disk.isFile l.legacyPath = true)
    (hfresh : l.disk.holdsFiles l.setsPath = false)
    (h : (l.disk.text? l.legacyPath).bind Document.parse? = none) :
    ∃ fault, l.migrate = (.error fault, l) := by
  simp only [migrate, hfile, hfresh]
  cases htext : l.disk.text? l.legacyPath with
  | none => exact ⟨.unreadable, rfl⟩
  | some text =>
    rw [htext, Option.bind_some] at h
    simp only [h]
    exact ⟨.unparsable, rfl⟩

/-- Nothing is done without a file of an older library or once a set has a file, and a file that
cannot be read is refused with nothing changed. Otherwise nothing is refused in an open library, and
once the songs are carried over, each set holds the song at its position if that has content and has
no file if not; the answer is the number of sets that have one; the file of the older library is
gone from its path and stands aside as it was; and carrying over again does nothing. -/
theorem migrate_complete (l : Library) :
    (l.disk.isFile l.legacyPath = false ∨ l.disk.holdsFiles l.setsPath = true →
        l.migrate = (.ok 0, l)) ∧
      (l.disk.isFile l.legacyPath = true → l.disk.holdsFiles l.setsPath = false →
        (l.disk.text? l.legacyPath).bind Document.parse? = none →
          ∃ fault, l.migrate = (.error fault, l)) ∧
      ∀ d, l.Legacy d →
        (l.Open → ∃ l', l.migrate = (.ok (legacySongs d).length, l')) ∧
          ∀ n l', l.migrate = (.ok n, l') →
            (∀ i < capacity, l'.Carries d i) ∧
              n = ((List.range capacity).filter l'.has).length ∧
              l'.disk.node? l'.legacyPath = none ∧
              l'.disk.node? l'.backupPath = l.disk.node? l.legacyPath ∧
              l'.migrate = (.ok 0, l') := by
  refine ⟨migrate_of_nothing_to_do, migrate_of_unreadable, fun d h => ⟨h.exists_ok, ?_⟩⟩
  intro n l' hm
  rcases h.backup_of_ok hm with ⟨hgone, hbackup⟩
  refine ⟨fun i hi => h.carries_of_ok hm hi, h.count_of_ok hm, hgone, hbackup, ?_⟩
  apply migrate_of_nothing_to_do
  left
  rw [Disk.isFile, hgone]

/-- A document of a song with one note. -/
def noteDocument (note : Nat) : Document :=
  .arr [.obj [("patterns", .arr [.obj [("steps", .arr [.obj [("notes", .arr [.int note])]])]])]]

/-- A document of two songs. -/
def twoNotes : Document :=
  .arr [noteDocument 60, noteDocument 61]

/-- The text of the document stands for it again. -/
theorem parse?_print_twoNotes : Document.parse? twoNotes.print = some twoNotes := by
  have hsingle : ∀ {room : Nat} {d : Document}, Document.Plain room d →
      Document.Plain (room + 1) (.arr [d]) :=
    fun h => .arr fun _ he => List.mem_singleton.1 he ▸ h
  have hmember : ∀ {room : Nat} {name : String} {d : Document}, Document.Plain room d →
      Document.Plain (room + 1) (.obj [(name, d)]) :=
    fun h => .obj (List.nodup_singleton _) fun _ he => (List.mem_singleton.1 he).symm ▸ h
  have hnote : ∀ note ≤ 1000, Document.Plain 126 (noteDocument note) := fun note hsmall =>
    hsingle (hmember (hsingle (hmember (hsingle (hmember (hsingle (Stored.plain_nat hsmall)))))))
  have hplain : Document.Plain Document.maxDepth twoNotes := by
    refine .arr fun d hd => ?_
    rcases List.mem_pair.1 hd with rfl | rfl
    · exact hnote 60 (by decide)
    · exact hnote 61 (by decide)
  exact hplain.parse?_print

/-- An older library with the given text in its file, on a disk with some folders. -/
def older (text : String) (folders : List Path) : Library :=
  { disk := { nodes := (["sets.json"], .file (.text text)) ::
      folders.map fun folder => (folder, .folder) } }

theorem text?_older (text : String) (folders : List Path) :
    (older text folders).disk.text? (older text folders).legacyPath = some text :=
  rfl

theorem older_legacy {folders : List Path}
    (h : (older twoNotes.print folders).disk.holdsFiles (older twoNotes.print folders).setsPath =
      false) :
    (older twoNotes.print folders).Legacy twoNotes := by
  refine ⟨?_, h⟩
  rw [text?_older, Option.bind_some]
  exact parse?_print_twoNotes

/-- Two songs are carried over, the second to its own set, and only once. -/
theorem migrate_complete_two :
    ∃ l', (older twoNotes.print []).migrate = (.ok 2, l') ∧ l'.Carries twoNotes 1 ∧
      l'.migrate = (.ok 0, l') := by
  have hlegacy : (older twoNotes.print []).Legacy twoNotes := older_legacy (by decide +kernel)
  have hopen : (older twoNotes.print []).Open := by
    refine ⟨fun i hi => ⟨rfl, by decide +kernel, ?_⟩, rfl, by decide +kernel⟩
    revert i
    decide +kernel
  have hcount : (legacySongs twoNotes).length = 2 := by decide +kernel
  rcases (migrate_complete (older twoNotes.print [])).2.2 twoNotes hlegacy with ⟨hdone, hall⟩
  rcases hdone hopen with ⟨l', hm⟩
  rw [hcount] at hm
  rcases hall 2 l' hm with ⟨hsets, -, -, -, hagain⟩
  exact ⟨l', hm, hsets 1 (by decide), hagain⟩

end Groovebox.Library
