import Mathlib.Tactic
import Groovebox.Proofs.Stored.Text
/-! # Saving a set

What a save does to a library: the set loads as the song that was saved, and the file of every
other set is what it was. The first part is about the disk: making folders and writing one file
changes nothing at any other path. -/

namespace Groovebox

/-! ## The disk -/

namespace Disk

theorem lookup_enter_self (p : Path) (n : Node) (nodes : List (Path × Node)) :
    (put.enter p n nodes).lookup p = some n := by
  induction nodes with
  | nil => simp [put.enter]
  | cons e nodes ih =>
    rcases e with ⟨q, m⟩
    unfold put.enter
    split
    · simp
    · rename_i hq
      have hne : (p == q) = false := beq_eq_false_iff_ne.2 (Ne.symm hq)
      rw [List.lookup_cons, hne]
      exact ih

theorem lookup_enter_of_ne {p q : Path} (n : Node) (nodes : List (Path × Node)) (h : q ≠ p) :
    (put.enter p n nodes).lookup q = nodes.lookup q := by
  have hne : (q == p) = false := beq_eq_false_iff_ne.2 h
  induction nodes with
  | nil => simp [put.enter, List.lookup_cons, hne]
  | cons e nodes ih =>
    rcases e with ⟨r, m⟩
    unfold put.enter
    split
    · rename_i hr
      rw [hr, List.lookup_cons, List.lookup_cons, hne]
    · rw [List.lookup_cons, List.lookup_cons, ih]

/-- What was put at a path is there. -/
theorem node?_put_self (d : Disk) {p : Path} (n : Node) (h : p ≠ []) :
    (d.put p n).node? p = some n := by
  rw [node?, if_neg h]
  exact lookup_enter_self p n d.nodes

/-- Everywhere else the disk is as it was. -/
theorem node?_put_of_ne (d : Disk) {p q : Path} (n : Node) (h : q ≠ p) :
    (d.put p n).node? q = d.node? q := by
  unfold node?
  split
  · rfl
  · exact lookup_enter_of_ne n d.nodes h

/-- Making folders changes nothing below them. -/
theorem node?_of_makeFolders? {names : List String} :
    ∀ {d d' : Disk} {base p : Path}, d.makeFolders? base names = some d' →
      base.length + names.length < p.length → d'.node? p = d.node? p := by
  induction names with
  | nil =>
    intro d d' base p h _
    cases h
    rfl
  | cons name names ih =>
    intro d d' base p h hlen
    simp only [List.length_cons] at hlen
    have hbelow : (base ++ [name]).length + names.length < p.length := by
      simp only [List.length_append, List.length_cons, List.length_nil]
      omega
    simp only [makeFolders?] at h
    split at h
    · exact ih h hbelow
    · cases h
    · split at h
      · cases h
      · rw [ih h hbelow]
        apply node?_put_of_ne
        rintro rfl
        simp only [List.length_append, List.length_cons, List.length_nil] at hlen
        omega

theorem write?_eq_put {d d' : Disk} {p : Path} {c : Contents} (h : d.write? p c = some d') :
    d' = d.put p (.file c) := by
  unfold write? at h
  split at h
  · cases h
  · exact (Option.some.inj h).symm

end Disk

/-! ## Sets -/

namespace Library

variable {l l' : Library} {i : Nat} {song : Song}

theorem setPath_ne_nil (l : Library) (i : Nat) : l.setPath i ≠ [] := by
  simp [setPath]

theorem setPath_congr (h : l'.root = l.root) (i : Nat) : l'.setPath i = l.setPath i := by
  rw [setPath, setPath, h]

theorem setPath_injective {j : Nat} (h : l.setPath i = l.setPath j) : i = j := by
  -- The paths differ in their last name only, which is a number with an ending.
  have hnames := List.append_cancel_left h
  have hfile : toString i ++ ".json" = toString j ++ ".json" := by
    simpa using hnames
  have hchars := congrArg String.toList hfile
  rw [String.toList_append, String.toList_append] at hchars
  exact Decimal.toString_injective (String.toList_inj.1 (List.append_cancel_right hchars))

/-- A save that succeeds writes one file, below the folder of the sets. -/
theorem save_ok (h : l.save i song = .ok l') :
    i < capacity ∧ l'.root = l.root ∧
      ∃ d, l.disk.makeFolders? [] l.setsPath = some d ∧
        l'.disk = d.put (l.setPath i) (.file (.text song.text)) := by
  unfold save at h
  split at h
  · cases h
  · rename_i hi
    split at h
    · cases h
    · rename_i d hd
      split at h
      · cases h
      · rename_i d' hd'
        cases h
        exact ⟨Nat.lt_of_not_le hi, rfl, d, hd, Disk.write?_eq_put hd'⟩

/-- A save leaves the file of every other set alone. -/
theorem node?_of_save (h : l.save i song = .ok l') {j : Nat} (hj : j ≠ i) :
    l'.disk.node? (l.setPath j) = l.disk.node? (l.setPath j) := by
  rcases save_ok h with ⟨-, -, d, hfolders, hdisk⟩
  -- The folders that are made lie above the files of all sets.
  rw [hdisk, Disk.node?_put_of_ne]
  · apply Disk.node?_of_makeFolders? hfolders
    simp [setsPath, setPath]
  · exact fun he => hj (setPath_injective he)

/-- A save leaves the text of the song in the file of its set. -/
theorem node?_setPath_of_save (h : l.save i song = .ok l') :
    l'.disk.node? (l'.setPath i) = some (.file (.text song.text)) := by
  rcases save_ok h with ⟨-, hroot, d, -, hdisk⟩
  rw [setPath_congr hroot, hdisk, Disk.node?_put_self _ _ (setPath_ne_nil l i)]

/-- A well-formed song that was saved is loaded again. -/
theorem load_of_save (h : l.save i song = .ok l') (hsong : song.WellFormed) :
    l'.load i = song := by
  rw [load, Disk.text?, node?_setPath_of_save h]
  exact songOf_text_of_wellFormed hsong

end Library
end Groovebox
