import Mathlib.Tactic
import Groovebox.Engine.Call
/-! # Bulk calls carry their pairs

Packing cuts pairs into runs and writes each run as lines; expanding reads the lines again. Where
keys and values are lines, nothing is lost and the order is kept: the main statement is
`Call.flatMap_expand_pack`. -/

namespace Groovebox

/-! ## Lines -/

namespace Text

/-- A text that one line holds as it is: without line feed, and without a carriage return at the
end, which would count as part of the line's end. -/
def IsLine (s : String) : Prop :=
  '\n' ∉ s.toList ∧ s.toList.getLast? ≠ some '\r'

/-- A text without line feeds, and a line feed behind it, make up one line. -/
theorem linesFrom_append {cs : List Char} (rest : List Char) :
    ∀ line : List Char, '\n' ∉ cs → (line.reverse ++ cs).getLast? ≠ some '\r' →
      linesFrom line (cs ++ '\n' :: rest) =
        String.ofList (line.reverse ++ cs) :: linesFrom [] rest := by
  induction cs with
  | nil =>
    intro line _ hlast
    rw [List.append_nil] at hlast
    rw [List.nil_append, List.append_nil, linesFrom]
    -- The line that is closed here does not end in a carriage return.
    rintro before rfl
    exact hlast (by simp)
  | cons c cs ih =>
    intro line hfeed hlast
    -- Any other character joins the line that is open.
    have hc : c ≠ '\n' := fun h => hfeed (h ▸ List.mem_cons_self)
    have hopen : linesFrom line (c :: (cs ++ '\n' :: rest)) =
        linesFrom (c :: line) (cs ++ '\n' :: rest) := by
      rw [linesFrom]
      exact hc
    have hline : (c :: line).reverse ++ cs = line.reverse ++ c :: cs := by simp
    rw [List.cons_append, hopen, ih (c :: line) (fun h => hfeed (List.mem_cons_of_mem _ h)), hline]
    rw [hline]
    exact hlast

end Text

namespace Call

/-- A pair that two lines hold. -/
def IsLines (c : Call) : Prop :=
  Text.IsLine c.key ∧ Text.IsLine c.value

/-- Entries of one line each are taken apart into their keys and values. -/
theorem linesFrom_entries (pairs : List Call) (h : ∀ c ∈ pairs, c.IsLines) :
    Text.linesFrom [] (pairs.flatMap fun c => c.entry.toList) =
      pairs.flatMap fun c => [c.key, c.value] := by
  induction pairs with
  | nil => rfl
  | cons c pairs ih =>
    -- Each pair makes two lines, both closed by its own line feeds.
    rcases h c List.mem_cons_self with ⟨hkey, hvalue⟩
    have hentry : c.entry.toList = c.key.toList ++ '\n' :: (c.value.toList ++ ['\n']) := by
      simp [entry, String.toList_append]
    rw [List.flatMap_cons, hentry, List.append_assoc, List.cons_append, List.append_assoc,
      Text.linesFrom_append _ [] hkey.1 hkey.2, List.singleton_append,
      Text.linesFrom_append _ [] hvalue.1 hvalue.2,
      ih fun d hd => h d (List.mem_cons_of_mem _ hd)]
    simp

/-- Lines are paired up as keys and values. -/
theorem ofLines_flatMap (pairs : List Call) :
    ofLines (pairs.flatMap fun c => [c.key, c.value]) = pairs := by
  induction pairs with
  | nil => rfl
  | cons c pairs ih => rw [List.flatMap_cons, List.cons_append, List.singleton_append, ofLines, ih]

/-- A bulk call is expanded into the pairs it carries. -/
theorem expand_bulk {pairs : List Call} (h : ∀ c ∈ pairs, c.IsLines) :
    (bulk pairs).expand = pairs := by
  have hchars : (String.join (pairs.map entry)).toList = pairs.flatMap fun c => c.entry.toList := by
    rw [String.toList_join, List.flatMap_map]
  show unpack (String.join (pairs.map entry)) = pairs
  rw [unpack, Text.lines, hchars, linesFrom_entries pairs h, ofLines_flatMap]

/-! ## Runs -/

/-- Splitting calls into runs keeps each call and their order. -/
theorem flatten_runsFrom (limit : Nat) (pairs : List Call) :
    ∀ (started : List Call) (filled : Nat),
      (runsFrom limit started filled pairs).flatten = started ++ pairs := by
  induction pairs with
  | nil =>
    intro started filled
    unfold runsFrom
    cases started <;> simp
  | cons c pairs ih =>
    -- Wherever the run is cut, the pairs that wait come out first.
    intro started filled
    unfold runsFrom
    split
    · rw [List.flatten_cons, ih]
      rfl
    · rw [ih]
      simp

/-- Packed pairs come out as they went in. -/
theorem flatMap_expand_pack (limit : Nat) {pairs : List Call} (h : ∀ c ∈ pairs, c.IsLines) :
    (pack limit pairs).flatMap expand = pairs := by
  have hflat : (runsFrom limit [] 0 pairs).flatten = pairs := flatten_runsFrom limit pairs [] 0
  have hrun : ∀ run ∈ runsFrom limit [] 0 pairs, (bulk run).expand = run := by
    intro run hmem
    apply expand_bulk
    intro c hc
    apply h c
    rw [← hflat]
    exact List.mem_flatten_of_mem hmem hc
  calc (pack limit pairs).flatMap expand
      = (runsFrom limit [] 0 pairs).flatMap fun run => (bulk run).expand := by
        rw [pack, List.flatMap_map]
    _ = (runsFrom limit [] 0 pairs).flatMap id := List.flatMap_congr hrun
    _ = pairs := by rw [List.flatMap_id, hflat]

/-- A call with another key than that of bulk calls stands for itself. -/
theorem flatMap_expand_self {calls : List Call} (h : ∀ c ∈ calls, c.key ≠ bulkKey) :
    calls.flatMap expand = calls := by
  induction calls with
  | nil => rfl
  | cons c calls ih =>
    have hc : c.expand = [c] := if_neg (h c List.mem_cons_self)
    rw [List.flatMap_cons, hc, ih fun d hd => h d (List.mem_cons_of_mem _ hd)]
    rfl

end Call
end Groovebox
