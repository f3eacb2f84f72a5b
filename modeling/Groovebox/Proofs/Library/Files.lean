import Mathlib.Tactic
import Groovebox.Proofs.Library
import Groovebox.Replacement
/-! # Files of a disk

Folders come and go with no file touched: `Disk.SameFiles` compares disks by their files alone.
Making folders only puts folders where nothing was, and replacing a file by way of a spare one
either writes the file at once or leaves the disk exactly as it was (`Disk.replace_cases`). -/

namespace Groovebox.Disk

variable {d d' : Disk} {p q : Path} {c : Contents}

/-- Two disks with the same files, whatever folders they have. -/
def SameFiles (d d' : Disk) : Prop :=
  ∀ p c, d'.node? p = some (.file c) ↔ d.node? p = some (.file c)

theorem SameFiles.refl (d : Disk) : SameFiles d d :=
  fun _ _ => Iff.rfl

theorem isFile_iff : d.isFile p = true ↔ ∃ c, d.node? p = some (.file c) := by
  unfold isFile
  split
  · rename_i c h
    exact ⟨fun _ => ⟨c, h⟩, fun _ => rfl⟩
  · rename_i h
    constructor
    · intro hfile
      cases hfile
    · rintro ⟨c, hc⟩
      exact absurd hc (h c)

theorem isFolder_iff : d.isFolder p = true ↔ d.node? p = some .folder :=
  beq_iff_eq

/-- What text a file holds and whether there is one depends on the files alone. -/
theorem text?_eq_some {text : String} :
    d.text? p = some text ↔ d.node? p = some (.file (.text text)) := by
  unfold text?
  split
  · rename_i t h
    rw [h]
    simp
  · rename_i h
    constructor
    · intro ht
      cases ht
    · exact fun ht => absurd ht (h text)

theorem text?_congr (h : ∀ c, d'.node? p = some (.file c) ↔ d.node? p = some (.file c)) :
    d'.text? p = d.text? p := by
  ext text
  rw [text?_eq_some, text?_eq_some]
  exact h _

theorem isFile_congr (h : ∀ c, d'.node? p = some (.file c) ↔ d.node? p = some (.file c)) :
    d'.isFile p = d.isFile p := by
  rw [Bool.eq_iff_iff, isFile_iff, isFile_iff]
  exact exists_congr h

/-! ## Making folders -/

/-- Making folders puts folders where nothing was, and changes nothing else. -/
theorem node?_makeFolders? {names : List String} :
    ∀ {d d' : Disk} {base : Path}, d.makeFolders? base names = some d' → ∀ p,
      d'.node? p = d.node? p ∨ d.node? p = none ∧ d'.node? p = some .folder := by
  induction names with
  | nil =>
    intro d d' base h p
    cases h
    exact Or.inl rfl
  | cons name names ih =>
    intro d d' base h p
    simp only [makeFolders?] at h
    split at h
    · exact ih h p
    · cases h
    · rename_i hmissing
      split at h
      · cases h
      · by_cases hp : p = base ++ [name]
        · -- The folder that is made here stays a folder.
          subst hp
          have hmade := node?_put_self d .folder (List.append_ne_nil_of_right_ne_nil base
            (List.cons_ne_nil name []))
          rcases ih h (base ++ [name]) with hsame | ⟨hnone, -⟩
          · exact Or.inr ⟨hmissing, hsame.trans hmade⟩
          · rw [hmade] at hnone
            cases hnone
        · have hother := ih h p
          rw [node?_put_of_ne d .folder hp] at hother
          exact hother

/-- Off the way to the last folder, nothing changes. -/
theorem node?_makeFolders?_apart {names : List String} :
    ∀ {d d' : Disk} {base : Path}, d.makeFolders? base names = some d' →
      ¬ p <+: base ++ names → d'.node? p = d.node? p := by
  induction names with
  | nil =>
    intro d d' base h _
    cases h
    rfl
  | cons name names ih =>
    intro d d' base h hp
    rw [List.append_cons] at hp
    have hne : p ≠ base ++ [name] := by
      rintro rfl
      exact hp (List.prefix_append _ _)
    simp only [makeFolders?] at h
    split at h
    · exact ih h hp
    · cases h
    · split at h
      · cases h
      · exact (ih h hp).trans (node?_put_of_ne d .folder hne)

/-- What is on the disk stays there when folders are made. -/
theorem node?_makeFolders?_of_some {names : List String} {base : Path} {n : Node}
    (h : d.makeFolders? base names = some d') (hp : d.node? p = some n) : d'.node? p = some n := by
  rcases node?_makeFolders? h p with hsame | ⟨hnone, -⟩
  · exact hsame.trans hp
  · rw [hp] at hnone
    cases hnone

theorem sameFiles_makeFolders? {names : List String} {base : Path}
    (h : d.makeFolders? base names = some d') : SameFiles d d' := by
  intro p c
  constructor
  · intro hc
    rcases node?_makeFolders? h p with hsame | ⟨-, hfolder⟩
    · exact hsame ▸ hc
    · rw [hfolder] at hc
      cases hc
  · exact node?_makeFolders?_of_some h

theorem readOnly_makeFolders? {names : List String} :
    ∀ {d d' : Disk} {base : Path}, d.makeFolders? base names = some d' →
      d'.readOnly = d.readOnly := by
  induction names with
  | nil =>
    intro d d' base h
    cases h
    rfl
  | cons name names ih =>
    intro d d' base h
    simp only [makeFolders?] at h
    split at h
    · exact ih h
    · cases h
    · split at h
      · cases h
      · exact (ih h).trans rfl

/-- All folders are there once they are made. -/
theorem isFolder_makeFolders? {names : List String} :
    ∀ {d d' : Disk} {base : Path}, d.makeFolders? base names = some d' →
      d.node? base = some .folder → d'.node? (base ++ names) = some .folder := by
  induction names with
  | nil =>
    intro d d' base h hbase
    cases h
    rw [List.append_nil]
    exact hbase
  | cons name names ih =>
    intro d d' base h hbase
    rw [List.append_cons]
    simp only [makeFolders?] at h
    split at h
    · rename_i hfolder
      exact ih h hfolder
    · cases h
    · split at h
      · cases h
      · apply ih h
        exact node?_put_self d .folder (List.append_ne_nil_of_right_ne_nil base
          (List.cons_ne_nil name []))

/-- On a disk that takes changes, folders can be made exactly if no file is in the way. -/
theorem exists_makeFolders?_iff {names : List String} :
    ∀ {d : Disk} {base : Path}, d.readOnly = false →
      ((∃ d', d.makeFolders? base names = some d') ↔
        ∀ n < names.length, d.isFile (base ++ names.take (n + 1)) = false) := by
  induction names with
  | nil =>
    intro d base _
    exact ⟨fun _ n hn => absurd hn (Nat.not_lt_zero n), fun _ => ⟨d, rfl⟩⟩
  | cons name names ih =>
    intro d base hopen
    -- The first folder is at `base ++ [name]`, the others are below it.
    have hsplit : (∀ n < (name :: names).length,
          d.isFile (base ++ (name :: names).take (n + 1)) = false) ↔
        d.isFile (base ++ [name]) = false ∧
          ∀ n < names.length, d.isFile (base ++ [name] ++ names.take (n + 1)) = false := by
      constructor
      · intro h
        refine ⟨h 0 (Nat.succ_pos _), ?_⟩
        intro n hn
        have hn' := h (n + 1) (Nat.succ_lt_succ hn)
        rwa [List.take_succ_cons, List.append_cons] at hn'
      · rintro ⟨hfirst, hrest⟩ n hn
        rw [List.take_succ_cons, List.append_cons]
        cases n with
        | zero =>
          rw [List.take_zero, List.append_nil]
          exact hfirst
        | succ n => exact hrest n (Nat.lt_of_succ_lt_succ hn)
    rw [hsplit]
    simp only [makeFolders?]
    split
    · rename_i hfolder
      have hfirst : d.isFile (base ++ [name]) = false := by simp [isFile, hfolder]
      rw [ih hopen]
      exact ⟨fun h => ⟨hfirst, h⟩, And.right⟩
    · rename_i hfile
      have hfirst : d.isFile (base ++ [name]) = true := isFile_iff.2 ⟨_, hfile⟩
      constructor
      · rintro ⟨d', hd'⟩
        cases hd'
      · rintro ⟨hnone, -⟩
        rw [hfirst] at hnone
        cases hnone
    · rename_i hmissing
      have hfirst : d.isFile (base ++ [name]) = false := by simp [isFile, hmissing]
      rw [if_neg (by simp [hopen]), ih (by exact hopen)]
      -- The folder that is made has no part in what is below it.
      have hbelow : ∀ n < names.length,
          (d.put (base ++ [name]) .folder).isFile (base ++ [name] ++ names.take (n + 1)) =
            d.isFile (base ++ [name] ++ names.take (n + 1)) := by
        intro n hn
        apply isFile_congr
        intro c
        rw [node?_put_of_ne]
        intro heq
        have hlength := congrArg List.length heq
        simp only [List.length_append, List.length_take] at hlength
        omega
      constructor
      · intro h
        exact ⟨hfirst, fun n hn => (hbelow n hn).symm.trans (h n hn)⟩
      · rintro ⟨-, h⟩ n hn
        exact (hbelow n hn).trans (h n hn)

/-! ## Removing -/

theorem lookup_filter (keep : Path → Bool) (nodes : List (Path × Node)) (q : Path) :
    (nodes.filter fun e => keep e.1).lookup q = if keep q then nodes.lookup q else none := by
  induction nodes with
  | nil => simp
  | cons e nodes ih =>
    rcases e with ⟨r, n⟩
    rw [List.filter_cons]
    by_cases hr : q = r
    · subst hr
      cases hkeep : keep q with
      | true => simp
      | false => simpa [hkeep] using ih
    · have hne : (q == r) = false := beq_eq_false_iff_ne.2 hr
      split
      · rw [List.lookup_cons, List.lookup_cons, hne]
        exact ih
      · rw [List.lookup_cons, hne]
        exact ih

/-- What is cut off is gone. -/
theorem node?_cut_below (hp : p ≠ []) (h : p <+: q) : (d.cut p).node? q = none := by
  have hq : q ≠ [] := by
    rintro rfl
    exact hp (List.prefix_nil.1 h)
  have hkeep : ¬ (!p.isPrefixOf q) = true := by simp [List.isPrefixOf_iff_prefix.2 h]
  rw [node?, if_neg hq]
  exact (lookup_filter (fun r => !p.isPrefixOf r) d.nodes q).trans (if_neg hkeep)

/-- All else stays. -/
theorem node?_cut_apart (h : ¬ p <+: q) : (d.cut p).node? q = d.node? q := by
  have hkeep : (!p.isPrefixOf q) = true := by
    rw [← List.isPrefixOf_iff_prefix] at h
    simp [h]
  unfold node?
  split
  · rfl
  · exact (lookup_filter (fun r => !p.isPrefixOf r) d.nodes q).trans (if_pos hkeep)

/-- No file goes where folders alone are cut off. -/
theorem sameFiles_cut (hp : p ≠ [])
    (h : ∀ e ∈ d.nodes, p.isPrefixOf e.1 = true → e.2 = .folder) : SameFiles d (d.cut p) := by
  intro q c
  by_cases hq : p <+: q
  · rw [node?_cut_below hp hq]
    constructor
    · intro hc
      cases hc
    · intro hc
      have hne : q ≠ [] := by
        rintro rfl
        exact hp (List.prefix_nil.1 hq)
      rw [node?, if_neg hne, List.lookup_eq_some_iff] at hc
      rcases hc with ⟨before, after, hnodes, -⟩
      have hmem : (q, Node.file c) ∈ d.nodes := by
        rw [hnodes]
        exact List.mem_append_right _ List.mem_cons_self
      cases h _ hmem (List.isPrefixOf_iff_prefix.2 hq)
  · rw [node?_cut_apart hq]

/-- A file that is moved is gone from its path and stands at the other as it was. -/
theorem rename?_eq_some (h : d.rename? p q = some d') :
    ∃ c, d.node? p = some (.file c) ∧ d' = (d.cut p).put q (.file c) := by
  unfold rename? at h
  split at h
  · rename_i c hc
    split at h
    · cases h
    · exact ⟨c, hc, write?_eq_put h⟩
  · cases h

/-- A file can be moved to a place in a folder where no folder is. -/
theorem rename?_apart (hp : d.node? p = some (.file c)) (hopen : d.readOnly = false)
    (hplace : d.isFolder q = false) (hfolder : d.isFolder q.dropLast = true) (h : ¬ p <+: q) :
    d.rename? p q = some ((d.cut p).put q (.file c)) := by
  have habove : ¬ p <+: q.dropLast := fun hbegins => h (hbegins.trans (List.dropLast_prefix q))
  have hclear : (d.cut p).isFolder q = false ∧ (d.cut p).isFolder q.dropLast = true := by
    rw [isFolder, isFolder, node?_cut_apart h, node?_cut_apart habove]
    exact ⟨hplace, hfolder⟩
  rw [rename?, hp]
  show (if d.readOnly then none else (d.cut p).write? q c) = _
  rw [hopen, write?, hclear.1, hclear.2]
  show (if d.readOnly || false || !true then none else some ((d.cut p).put q (.file c))) = _
  rw [hopen]
  rfl

/-- Whether a folder holds files depends on the files alone. -/
theorem holdsFiles_iff {folder : Path} :
    d.holdsFiles folder = true ↔ ∃ p, p ≠ [] ∧ p.dropLast = folder ∧ d.isFile p = true := by
  unfold holdsFiles
  rw [List.any_eq_true]
  constructor
  · rintro ⟨e, -, he⟩
    simp only [Bool.and_eq_true, decide_eq_true_eq, beq_iff_eq] at he
    exact ⟨e.1, he.1.1, he.1.2, he.2⟩
  · rintro ⟨p, hp, hfolder, hfile⟩
    have hlookup : d.nodes.lookup p ≠ none := by
      rcases isFile_iff.1 hfile with ⟨c, hc⟩
      rw [node?, if_neg hp] at hc
      simp [hc]
    rw [Ne, List.lookup_eq_none_iff, not_forall₂] at hlookup
    rcases hlookup with ⟨e, he, hkey⟩
    have hpath : p = e.1 := by simpa using hkey
    subst hpath
    exact ⟨e, he, by simp [hp, hfolder, hfile]⟩

theorem holdsFiles_congr (folder : Path) (h : SameFiles d d') :
    d'.holdsFiles folder = d.holdsFiles folder := by
  rw [Bool.eq_iff_iff, holdsFiles_iff, holdsFiles_iff]
  apply exists_congr
  intro p
  rw [isFile_congr (h p)]

/-! ## Spare files -/

theorem isFree_iff : d.isFree p = true ↔ ∀ e ∈ d.nodes, p.isPrefixOf e.1 = false := by
  simp [isFree]

theorem enter_of_not_mem {n : Node} {nodes : List (Path × Node)} (h : ∀ e ∈ nodes, e.1 ≠ p) :
    put.enter p n nodes = nodes ++ [(p, n)] := by
  induction nodes with
  | nil => rfl
  | cons e nodes ih =>
    rcases e with ⟨q, m⟩
    have hq : q ≠ p := h (q, m) List.mem_cons_self
    rw [put.enter, if_neg hq, ih fun e he => h e (List.mem_cons_of_mem _ he)]
    rfl

/-- A spare file that is removed again leaves no trace. -/
theorem cut_put_of_isFree {n : Node} (h : d.isFree p = true) : (d.put p n).cut p = d := by
  have hapart := isFree_iff.1 h
  have hself : p.isPrefixOf p = true := List.isPrefixOf_iff_prefix.2 (List.prefix_refl p)
  have hnodes : put.enter p n d.nodes = d.nodes ++ [(p, n)] := by
    apply enter_of_not_mem
    rintro e he rfl
    rw [hapart e he] at hself
    cases hself
  have hkept : d.nodes.filter (fun e => !p.isPrefixOf e.1) = d.nodes := by
    rw [List.filter_eq_self]
    intro e he
    rw [hapart e he]
    rfl
  have hdropped : [(p, n)].filter (fun e => !p.isPrefixOf e.1) = [] := by simp [hself]
  show ({ d with nodes := (put.enter p n d.nodes).filter fun e => !p.isPrefixOf e.1 } : Disk) = d
  rw [hnodes, List.filter_append, hkept, hdropped, List.append_nil]

theorem isFree_of_spare? {folder spare : Path} {names : List String}
    (h : d.spare? folder names = some spare) : d.isFree spare = true ∧ spare ≠ [] := by
  refine ⟨List.find?_some h, ?_⟩
  rcases List.mem_map.1 (List.mem_of_find?_eq_some h) with ⟨name, -, rfl⟩
  exact List.append_ne_nil_of_right_ne_nil folder (List.cons_ne_nil name [])

theorem isFree_of_openSpare? {folder spare : Path} {t : Trial}
    (h : d.openSpare? folder t = some spare) :
    d.readOnly = false ∧ d.isFree spare = true ∧ spare ≠ [] := by
  unfold openSpare? at h
  split at h
  · cases h
  · rename_i hopen
    simp only [Bool.or_eq_true, not_or, Bool.not_eq_true] at hopen
    exact ⟨hopen.1.1, isFree_of_spare? h⟩

/-- A spare file takes the place of the file, if one may be written there, and is gone then. -/
theorem rename?_spare {spare : Path} (hopen : d.readOnly = false) (hfree : d.isFree spare = true)
    (hspare : spare ≠ []) : (d.put spare (.file c)).rename? spare p = d.write? p c := by
  rw [rename?, node?_put_self d (.file c) hspare]
  show (if d.readOnly then none else ((d.put spare (.file c)).cut spare).write? p c) = _
  rw [hopen, cut_put_of_isFree hfree]
  rfl

theorem fillSpare_cases (d : Disk) (spare : Path) (c : Contents) (t : Trial) :
    d.fillSpare spare c t = (true, d.put spare (.file c)) ∨
      ∃ written, d.fillSpare spare c t = (false, d.put spare (.file written)) := by
  unfold fillSpare
  split
  · rename_i written _
    exact Or.inr ⟨written, rfl⟩
  · exact Or.inl rfl

/-- A file is replaced if a spare file can be had and filled and may take its place. -/
theorem replace_of_openSpare? {spare : Path} {t : Trial}
    (h : d.openSpare? p.dropLast t = some spare) :
    d.replace p c t =
      if (d.fillSpare spare c t).1 ∧ t.mishap ≠ some .movingSpare then
        match d.write? p c with
        | some d => (true, d)
        | none => (false, d)
      else (false, d) := by
  rcases isFree_of_openSpare? h with ⟨hopen, hfree, hspare⟩
  simp only [replace, h]
  -- Whatever the spare file holds, the disk without it is the old one.
  have hdropped : ∀ n, (d.put spare n).cut spare = d := fun n => cut_put_of_isFree hfree
  rcases fillSpare_cases d spare c t with hfilled | ⟨written, hfilled⟩
  · rw [hfilled]
    by_cases hmoving : t.mishap = some .movingSpare
    · simp [moveSpare?, hmoving, hdropped]
    · simp only [moveSpare?, if_neg hmoving, rename?_spare hopen hfree hspare]
      cases d.write? p c <;> simp [hdropped, hmoving]
  · rw [hfilled]
    simp [hdropped]

/-- Replacing a file writes it as a whole, or leaves the disk exactly as it was. -/
theorem replace_cases (d : Disk) (p : Path) (c : Contents) (t : Trial) :
    d.replace p c t = (false, d) ∨
      d.write? p c = some (d.put p (.file c)) ∧ d.replace p c t = (true, d.put p (.file c)) := by
  cases h : d.openSpare? p.dropLast t with
  | none =>
    left
    simp only [replace, h]
  | some spare =>
    rw [replace_of_openSpare? h]
    split
    · cases hwritten : d.write? p c with
      | none => exact Or.inl rfl
      | some written =>
        rw [write?_eq_put hwritten]
        exact Or.inr ⟨rfl, rfl⟩
    · exact Or.inl rfl

/-- Where nothing goes wrong and a name for the spare file is free, a file is replaced exactly if it
may be written. -/
theorem replace_of_undisturbed {t : Trial} {name : String} (hmishap : t.mishap = none)
    (hname : name ∈ t.names) (hfree : d.isFree (p.dropLast ++ [name]) = true) :
    (d.replace p c t).1 = (d.write? p c).isSome := by
  cases hclosed : d.readOnly || !d.isFolder p.dropLast with
  | true =>
    -- Neither way can a file be written.
    have hrefused : d.write? p c = none := by
      rw [write?, if_pos]
      cases hreadOnly : d.readOnly with
      | true => rfl
      | false => simpa [hreadOnly] using Or.inr hclosed
    have hnone : d.openSpare? p.dropLast t = none := by
      rw [openSpare?, hclosed]
      rfl
    simp only [replace, hnone, hrefused]
    rfl
  | false =>
    have hspare : ∃ spare, d.openSpare? p.dropLast t = some spare := by
      rw [openSpare?, hclosed, hmishap]
      apply Option.isSome_iff_exists.1
      show (d.spare? p.dropLast t.names).isSome = true
      rw [spare?, List.find?_isSome]
      exact ⟨_, List.mem_map_of_mem hname, hfree⟩
    rcases hspare with ⟨spare, hopened⟩
    have hfilled : (d.fillSpare spare c t).1 = true := by simp only [fillSpare, hmishap]
    rw [replace_of_openSpare? hopened, if_pos ⟨hfilled, by simp [hmishap]⟩]
    cases d.write? p c <;> rfl

end Groovebox.Disk
