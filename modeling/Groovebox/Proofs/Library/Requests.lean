import Mathlib.Tactic
import Groovebox.Proofs.Library.Files
/-! # A library as a map from sets to songs

Requests save and delete the files of sets, each answered or refused, whatever is on the disk and
whatever goes wrong on the way. What a library answered tells what every set loads as: its last
save, or the empty song if it was deleted after that. The main statement is
`Library.serveAll_faithful`. -/

namespace Groovebox

namespace Disk

variable {d d' : Disk} {p : Path}

/-- A place is free if there is nothing at it and nothing below it. -/
theorem isFree_iff_node? (hp : p ≠ []) :
    d.isFree p = true ↔ ∀ q, p <+: q → d.node? q = none := by
  rw [isFree_iff]
  constructor
  · intro h q hq
    have hne : q ≠ [] := by
      rintro rfl
      exact hp (List.prefix_nil.1 hq)
    -- Whatever stands at a place is an entry of the disk, and none of these begins with the path.
    rw [node?, if_neg hne, List.lookup_eq_none_iff]
    intro e he
    rw [bne_iff_ne]
    rintro rfl
    have hnot := h e he
    rw [List.isPrefixOf_iff_prefix.2 hq] at hnot
    cases hnot
  · intro h e he
    rw [Bool.eq_false_iff]
    intro hbegins
    have hq := List.isPrefixOf_iff_prefix.1 hbegins
    have hne : e.1 ≠ [] := by
      intro hnil
      rw [hnil] at hq
      exact hp (List.prefix_nil.1 hq)
    have hnone := h e.1 hq
    rw [node?, if_neg hne, List.lookup_eq_none_iff] at hnone
    simpa using hnone e he

/-- A place below the folders that are made stays free. -/
theorem isFree_makeFolders? {names : List String} {base : Path}
    (h : d.makeFolders? base names = some d') (hlong : base.length + names.length < p.length)
    (hfree : d.isFree p = true) : d'.isFree p = true := by
  have hp : p ≠ [] := by
    rintro rfl
    exact Nat.not_lt_zero _ hlong
  rw [isFree_iff_node? hp] at hfree ⊢
  intro q hq
  rw [node?_of_makeFolders? h (Nat.lt_of_lt_of_le hlong hq.length_le)]
  exact hfree q hq

end Disk

namespace Library

variable {l l' : Library} {i j : Nat} {song : Song}

/-! ## Places -/

theorem setsPath_congr (h : l'.root = l.root) : l'.setsPath = l.setsPath := by
  rw [setsPath, setsPath, h]

/-! ## When a save succeeds -/

/-- Nothing stands in the way of the file of a set: the disk takes changes, no file is where a
folder above it belongs, and no folder is at its own place. -/
structure Clear (l : Library) (i : Nat) : Prop where
  writable : l.disk.readOnly = false
  above : ∀ n < l.setsPath.length, l.disk.isFile (l.setsPath.take (n + 1)) = false
  place : l.disk.isFolder (l.setPath i) = false

theorem setPath_eq (l : Library) (i : Nat) :
    l.setPath i = l.setsPath ++ [toString i ++ ".json"] := by
  simp [setPath, setsPath]

theorem dropLast_setPath (l : Library) (i : Nat) : (l.setPath i).dropLast = l.setsPath := by
  rw [setPath_eq, List.dropLast_concat]

theorem length_setsPath_lt (l : Library) (i : Nat) : l.setsPath.length < (l.setPath i).length := by
  simp [setPath_eq]

/-- Once the folder of the sets is made, a file is refused for a folder at its place or for a disk
that takes no changes. -/
theorem write?_setPath {d : Disk} (c : Contents)
    (h : l.disk.makeFolders? [] l.setsPath = some d) :
    d.write? (l.setPath i) c =
      if l.disk.readOnly || l.disk.isFolder (l.setPath i) then none
      else some (d.put (l.setPath i) (.file c)) := by
  have hfolder : d.isFolder (l.setPath i).dropLast = true := by
    have hmade : d.node? ([] ++ l.setsPath) = some .folder := Disk.isFolder_makeFolders? h rfl
    rw [dropLast_setPath]
    exact Disk.isFolder_iff.2 hmade
  -- Making the folder has not changed what is at the place of the file, which is longer.
  have hplace : d.isFolder (l.setPath i) = l.disk.isFolder (l.setPath i) := by
    rw [Disk.isFolder, Disk.isFolder, Disk.node?_of_makeFolders? h]
    simpa using length_setsPath_lt l i
  rw [Disk.write?, Disk.readOnly_makeFolders? h, hfolder, hplace]
  simp

/-- A save succeeds exactly if there is such a set and nothing stands in the way of its file. -/
theorem exists_save_iff : (∃ l', l.save i song = .ok l') ↔ i < capacity ∧ l.Clear i := by
  constructor
  · rintro ⟨l', h⟩
    unfold save at h
    split at h
    · cases h
    · rename_i hi
      split at h
      · cases h
      · rename_i d hd
        rw [write?_setPath _ hd] at h
        split at h
        · cases h
        · rename_i hwritten
          split at hwritten
          · cases hwritten
          · rename_i hclear
            simp only [Bool.or_eq_true, not_or, Bool.not_eq_true] at hclear
            refine ⟨Nat.lt_of_not_le hi, hclear.1, ?_, hclear.2⟩
            exact (Disk.exists_makeFolders?_iff hclear.1).1 ⟨d, hd⟩
  · rintro ⟨hi, hclear⟩
    have hfolders : ∃ d, l.disk.makeFolders? [] l.setsPath = some d :=
      (Disk.exists_makeFolders?_iff hclear.writable).2 hclear.above
    -- What stands in the way of the folder or the file is excluded, so both are made.
    rcases hfolders with ⟨d, hd⟩
    refine ⟨{ l with disk := d.put (l.setPath i) (.file (.text song.text)) }, ?_⟩
    simp [save, Nat.not_le.2 hi, hd, write?_setPath _ hd, hclear.writable, hclear.place]

/-! ## One request -/

/-- Nothing goes wrong, and one of the names is free for a spare file. -/
def Undisturbed (l : Library) (t : Trial) : Prop :=
  t.mishap = none ∧ ∃ name ∈ t.names, l.disk.isFree (l.setsPath ++ [name]) = true

/-- The songs of a request are well-formed. -/
def Request.WellFormed : Request → Prop
  | .save _ song => song.WellFormed
  | .delete _ => True

/-- The folder of the sets is made, or files stay as they were whatever was made of it. -/
theorem makeSets_cases (l : Library) (t : Trial) :
    (∃ d, l.makeSets t = (false, d) ∧ Disk.SameFiles l.disk d) ∨
      ∃ d, l.disk.makeFolders? [] l.setsPath = some d ∧ l.makeSets t = (true, d) := by
  unfold makeSets
  split
  · rename_i made _
    left
    refine ⟨_, rfl, ?_⟩
    cases h : l.disk.makeFolders? [] (l.setsPath.take made) with
    | none => exact Disk.SameFiles.refl _
    | some d => exact Disk.sameFiles_makeFolders? h
  · split
    · rename_i d hd
      exact Or.inr ⟨d, hd, rfl⟩
    · exact Or.inl ⟨_, rfl, Disk.SameFiles.refl _⟩

/-- A save is refused with all files as they were, or it does what `save` does. -/
theorem serve_save_cases (l : Library) (i : Nat) (song : Song) (t : Trial) :
    (∃ fault disk, l.serve (.save i song) t = (.error fault, { l with disk }) ∧
        Disk.SameFiles l.disk disk) ∨
      ∃ l', l.save i song = .ok l' ∧ l.serve (.save i song) t = (.ok true, l') := by
  by_cases hi : capacity ≤ i
  · exact Or.inl ⟨.indexOutOfRange i, l.disk, by simp [serve, hi], Disk.SameFiles.refl _⟩
  · rcases makeSets_cases l t with ⟨d, hd, hfiles⟩ | ⟨d, hfolders, hd⟩
    · exact Or.inl ⟨.folderRefused, d, by simp [serve, hi, hd], hfiles⟩
    · have hfiles := Disk.sameFiles_makeFolders? hfolders
      rcases Disk.replace_cases d (l.setPath i) (.text song.text) t with h | ⟨hwritten, h⟩
      · exact Or.inl ⟨.writeRefused i, d, by simp [serve, hi, hd, h], hfiles⟩
      · right
        refine ⟨{ l with disk := d.put (l.setPath i) (.file (.text song.text)) }, ?_, ?_⟩
        · simp [save, hi, hfolders, hwritten]
        · simp [serve, hi, hd, h]

/-- A deletion is refused, finds nothing, or cuts the file of the set off. -/
theorem delete_cases (l : Library) (i : Nat) :
    (∃ fault, l.delete i = .error fault ∧ ¬ (l.has i = true ∧ l.disk.readOnly = false)) ∨
      (l.delete i = .ok (false, l) ∧ l.has i = false) ∨
      (l.delete i = .ok (true, { l with disk := l.disk.cut (l.setPath i) }) ∧
        l.has i = true ∧ l.disk.readOnly = false) := by
  unfold delete Disk.remove has Disk.isFile
  cases hnode : l.disk.node? (l.setPath i) with
  | none =>
    cases l.disk.isObstructed (l.setPath i) <;> simp
  | some n =>
    cases n with
    | folder => simp
    | file c => cases hopen : l.disk.readOnly <;> simp

/-- Only a deletion that finds a file changes the disk. -/
theorem serve_delete_cases (l : Library) (i : Nat) (t : Trial) :
    (∃ fault, l.serve (.delete i) t = (.error fault, l)) ∨
      l.serve (.delete i) t = (.ok false, l) ∨
      l.serve (.delete i) t = (.ok true, { l with disk := l.disk.cut (l.setPath i) }) := by
  by_cases ht : t.mishap = some .removing
  · exact Or.inl ⟨.removalRefused i, by simp [serve, ht]⟩
  · rcases delete_cases l i with ⟨fault, h, -⟩ | ⟨h, -⟩ | ⟨h, -⟩
    · exact Or.inl ⟨fault, by simp [serve, ht, h]⟩
    · exact Or.inr (Or.inl (by simp [serve, ht, h]))
    · exact Or.inr (Or.inr (by simp [serve, ht, h]))

/-- Undisturbed, a save is answered as `save` does it. -/
theorem serve_save_of_undisturbed {t : Trial} (h : l.Undisturbed t) :
    (l.serve (.save i song) t).1 = (l.save i song).map fun _ => true := by
  rcases h with ⟨hmishap, name, hname, hfree⟩
  by_cases hi : capacity ≤ i
  · simp [serve, save, hi, Except.map]
  · cases hfolders : l.disk.makeFolders? [] l.setsPath with
    | none => simp [serve, save, hi, makeSets, hmishap, hfolders, Except.map]
    | some d =>
      -- Making the folder of the sets has not taken the name.
      have hfree' : d.isFree ((l.setPath i).dropLast ++ [name]) = true := by
        rw [dropLast_setPath]
        exact Disk.isFree_makeFolders? hfolders (by simp) hfree
      have hreplaced := Disk.replace_of_undisturbed (c := .text song.text) hmishap hname hfree'
      simp only [serve, save, if_neg hi, makeSets, hmishap, hfolders]
      cases hwritten : d.write? (l.setPath i) (.text song.text) <;>
        cases hr : d.replace (l.setPath i) (.text song.text) t with
        | mk written disk =>
          rw [hwritten, hr] at hreplaced
          cases hreplaced
          rfl

/-- Undisturbed, a save succeeds exactly if there is such a set and its file is clear. -/
theorem serve_save_eq_ok_iff {t : Trial} (h : l.Undisturbed t) :
    (l.serve (.save i song) t).1 = .ok true ↔ i < capacity ∧ l.Clear i := by
  have hsaves : (∃ l', l.save i song = .ok l') ↔ i < capacity ∧ l.Clear i := exists_save_iff
  rw [serve_save_of_undisturbed h, ← hsaves]
  cases l.save i song <;> simp [Except.map]

/-- Where nothing goes wrong, a deletion removes a file exactly if there is one and the disk takes
changes. -/
theorem serve_delete_eq_ok_iff {t : Trial} (h : t.mishap = none) :
    (l.serve (.delete i) t).1 = .ok true ↔ l.has i = true ∧ l.disk.readOnly = false := by
  simp only [serve, h, reduceCtorEq, if_false]
  rcases delete_cases l i with ⟨fault, hdelete, hnot⟩ | ⟨hdelete, hnone⟩ | ⟨hdelete, hfile⟩
  · simp [hdelete, hnot]
  · simp [hdelete, hnone]
  · simp [hdelete, hfile]

/-! ## What requests change -/

/-- A set loads the same and has a file as before where its path holds the same file. -/
theorem load_congr (hroot : l'.root = l.root)
    (h : ∀ c, l'.disk.node? (l.setPath i) = some (.file c) ↔
      l.disk.node? (l.setPath i) = some (.file c)) :
    l'.load i = l.load i ∧ l'.has i = l.has i := by
  rw [load, has, setPath_congr hroot, Disk.text?_congr h, Disk.isFile_congr h]
  exact ⟨rfl, rfl⟩

/-- The library stays below its folder. -/
theorem serve_root (l : Library) (r : Request) (t : Trial) : (l.serve r t).2.root = l.root := by
  cases r with
  | save i song =>
    rcases serve_save_cases l i song t with ⟨fault, disk, h, -⟩ | ⟨l', hsave, h⟩
    · rw [h]
    · rw [h]
      exact (save_ok hsave).2.1
  | delete i =>
    rcases serve_delete_cases l i t with ⟨fault, h⟩ | h | h <;> rw [h]

/-- A request that is refused leaves every file as it is, and no other. -/
theorem serve_refused {r : Request} {t : Trial} {fault : LibraryFault}
    (h : (l.serve r t).1 = .error fault) : Disk.SameFiles l.disk (l.serve r t).2.disk := by
  cases r with
  | save i song =>
    rcases serve_save_cases l i song t with ⟨fault, disk, hserve, hfiles⟩ | ⟨l', -, hserve⟩
    · rw [hserve]
      exact hfiles
    · rw [hserve] at h
      cases h
  | delete i =>
    rcases serve_delete_cases l i t with ⟨fault, hserve⟩ | hserve | hserve
    · rw [hserve]
      exact Disk.SameFiles.refl _
    · rw [hserve]
      exact Disk.SameFiles.refl _
    · rw [hserve] at h
      cases h

/-- No set is below the file of another one. -/
theorem not_prefix_setPath (h : j ≠ i) : ¬ l.setPath i <+: l.setPath j := by
  -- Paths of one length begin with each other only if they are equal.
  intro hbegins
  have hlength : (l.setPath i).length = (l.setPath j).length := by simp [setPath]
  exact h (setPath_injective (hbegins.eq_of_length hlength)).symm

/-- A request about one set leaves the files of all others alone. -/
theorem node?_serve_of_ne (l : Library) {r : Request} (t : Trial) (h : j ≠ r.index) (c : Contents) :
    (l.serve r t).2.disk.node? (l.setPath j) = some (.file c) ↔
      l.disk.node? (l.setPath j) = some (.file c) := by
  cases r with
  | save i song =>
    rcases serve_save_cases l i song t with ⟨fault, disk, hserve, hfiles⟩ | ⟨l', hsave, hserve⟩
    · rw [hserve]
      exact hfiles _ c
    · rw [hserve]
      show l'.disk.node? (l.setPath j) = some (.file c) ↔ _
      rw [node?_of_save hsave h]
  | delete i =>
    rcases serve_delete_cases l i t with ⟨fault, hserve⟩ | hserve | hserve
    · rw [hserve]
    · rw [hserve]
    · rw [hserve]
      have hapart : ¬ l.setPath i <+: l.setPath j := not_prefix_setPath h
      show (l.disk.cut (l.setPath i)).node? (l.setPath j) = some (.file c) ↔ _
      rw [Disk.node?_cut_apart hapart]

/-- A request about one set leaves all others as they load. -/
theorem serve_load_of_ne (l : Library) {r : Request} (t : Trial) (h : j ≠ r.index) :
    (l.serve r t).2.load j = l.load j ∧ (l.serve r t).2.has j = l.has j :=
  load_congr (serve_root l r t) (node?_serve_of_ne l t h)

/-! ## What answers tell -/

/-- What a request and its answer tell of the song of a set: the song that was saved, or that the
set is empty because its file was removed. -/
def told? (i : Nat) : Request × Answer → Option Song
  | (.save j song, .ok _) => if j = i then some song else none
  | (.delete j, .ok true) => if j = i then some {} else none
  | _ => none

/-- An answer tells only of the set that the request was about. -/
theorem told?_of_ne {r : Request} (h : r.index ≠ i) (answer : Answer) :
    told? i (r, answer) = none := by
  cases r with
  | save j song =>
    cases answer with
    | error fault => rfl
    | ok written => exact if_neg h
  | delete j =>
    cases answer with
    | error fault => rfl
    | ok removed =>
      cases removed with
      | false => rfl
      | true => exact if_neg h

/-- After a request, a set loads as the answer tells, and otherwise as before. -/
theorem serve_load (l : Library) {r : Request} (hr : r.WellFormed) (t : Trial) (i : Nat) :
    (l.serve r t).2.load i = (told? i (r, (l.serve r t).1)).getD (l.load i) := by
  by_cases hi : r.index = i
  · cases r with
    | save j song =>
      cases hi
      rcases serve_save_cases l j song t with ⟨fault, disk, h, hfiles⟩ | ⟨l', hsave, h⟩
      · rw [h]
        exact (@load_congr l { l with disk } j rfl (hfiles (l.setPath j))).1
      · rw [h]
        show l'.load j = (if j = j then some song else none).getD (l.load j)
        rw [if_pos rfl]
        exact load_of_save hsave hr
    | delete j =>
      cases hi
      rcases serve_delete_cases l j t with ⟨fault, h⟩ | h | h
      · rw [h]
        rfl
      · rw [h]
        rfl
      · rw [h]
        show load _ j = (if j = j then some {} else none).getD (l.load j)
        have hgone : (l.disk.cut (l.setPath j)).node? (l.setPath j) = none :=
          Disk.node?_cut_below (setPath_ne_nil l j) (List.prefix_refl _)
        let l' : Library := { l with disk := l.disk.cut (l.setPath j) }
        have htext : l'.disk.text? (l'.setPath j) = none := by
          show (l.disk.cut (l.setPath j)).text? (l.setPath j) = none
          simp [Disk.text?, hgone]
        rw [if_pos rfl, load, htext]
        rfl
  · -- Nothing is told of this set, and it loads as before.
    rw [told?_of_ne hi, (serve_load_of_ne l t (Ne.symm hi)).1]
    rfl

/-- After any requests, a set loads as the last answer that tells of it, and otherwise as at first.
-/
theorem serveAll_load {requests : List (Request × Trial)} :
    ∀ l : Library, (∀ e ∈ requests, e.1.WellFormed) → ∀ i,
      (l.serveAll requests).2.load i =
        ((l.serveAll requests).1.filterMap (told? i)).getLast?.getD (l.load i) := by
  induction requests with
  | nil => exact fun _ _ _ => rfl
  | cons e requests ih =>
    rcases e with ⟨r, t⟩
    intro l hsongs i
    have hstep := serve_load l (hsongs (r, t) List.mem_cons_self) t i
    -- What the rest tells goes before what the first request told.
    have hrest := ih (l.serve r t).2 (fun e he => hsongs e (List.mem_cons_of_mem _ he)) i
    show ((l.serve r t).2.serveAll requests).2.load i =
      (List.filterMap (told? i) ((r, (l.serve r t).1) ::
        ((l.serve r t).2.serveAll requests).1)).getLast?.getD (l.load i)
    rw [hrest, hstep]
    cases htold : told? i (r, (l.serve r t).1) with
    | none =>
      rw [List.filterMap_cons_none htold]
      rfl
    | some song =>
      rw [List.filterMap_cons_some htold, List.getLast?_cons]
      rfl

/-! ## Populated sets -/

/-- A set is populated if its file holds a song with content. -/
theorem mem_populated_iff :
    i ∈ l.populated ↔ i < capacity ∧ l.has i = true ∧ (l.load i).hasContent = true := by
  simp [populated]

theorem populated_sorted (l : Library) : l.populated.Pairwise (· < ·) :=
  List.pairwise_lt_range.filter _

/-! ## Main statement -/

/-- After any requests, each served or refused for whatever reason, every set loads as the last
answer that tells of it and otherwise as at first. A request about one set changes no other, and one
that is refused leaves all files as they are and no spare one behind. Undisturbed, a save succeeds
exactly for a set whose file is clear, and a deletion exactly where there is a file on a disk that
takes changes. The populated sets are those whose file has content, ascending. -/
theorem serveAll_faithful (l : Library) (requests : List (Request × Trial))
    (hsongs : ∀ e ∈ requests, e.1.WellFormed) :
    let log := (l.serveAll requests).1
    let l' := (l.serveAll requests).2
    (∀ i, l'.load i = (log.filterMap (told? i)).getLast?.getD (l.load i)) ∧
      (∀ r t j, j ≠ r.index →
        (l'.serve r t).2.load j = l'.load j ∧ (l'.serve r t).2.has j = l'.has j) ∧
      (∀ r t fault, (l'.serve r t).1 = .error fault →
        Disk.SameFiles l'.disk (l'.serve r t).2.disk) ∧
      (∀ i song t, l'.Undisturbed t →
        ((l'.serve (.save i song) t).1 = .ok true ↔ i < capacity ∧ l'.Clear i)) ∧
      (∀ i t, t.mishap = none →
        ((l'.serve (.delete i) t).1 = .ok true ↔ l'.has i = true ∧ l'.disk.readOnly = false)) ∧
      (∀ i, i ∈ l'.populated ↔
        i < capacity ∧ l'.has i = true ∧ (l'.load i).hasContent = true) ∧
      l'.populated.Pairwise (· < ·) := by
  intro log l'
  refine ⟨serveAll_load l hsongs, ?_, ?_, ?_, ?_, fun i => mem_populated_iff, populated_sorted l'⟩
  · exact fun r t j hj => serve_load_of_ne l' t hj
  · exact fun r t fault h => serve_refused h
  · exact fun i song t h => serve_save_eq_ok_iff h
  · exact fun i t h => serve_delete_eq_ok_iff h

/-- A folder at the place of one set, a save that breaks off and one of no set leave the song that
was saved before them. -/
theorem serveAll_faithful_refused :
    let l : Library := { disk := { nodes := [(["sets"], .folder), (["sets", "1.json"], .folder)] } }
    let t : Trial := { names := [".spare"] }
    let requests : List (Request × Trial) :=
      [(.save 0 Song.sketch, t), (.save 1 Song.sketch, t), (.save 32 Song.sketch, t),
        (.save 0 {}, { t with mishap := some .movingSpare }), (.delete 2, t)]
    (∀ e ∈ requests, e.1.WellFormed) ∧ (l.serveAll requests).2.load 0 = Song.sketch := by
  intro l t requests
  have hsongs : ∀ e ∈ requests, e.1.WellFormed := by
    simp [requests, Request.WellFormed, Song.sketch_wellFormed, Song.wellFormed_default]
  refine ⟨hsongs, ?_⟩
  rw [(serveAll_faithful l requests hsongs).1 0]
  have hlog : (l.serveAll requests).1.filterMap (told? 0) = [Song.sketch] := by rfl
  rw [hlog]
  rfl

end Library
end Groovebox
