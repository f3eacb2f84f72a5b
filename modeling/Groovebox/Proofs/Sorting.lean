import Mathlib.Data.List.Sort
import Mathlib.Tactic
/-! # Stable sorting

Sorting keeps elements that are equal for the order in the order in which they stood. The lemmas
say what this means for an element in front of a list, for a list that some elements are left out
of, and for a list that is sorted by a key and had an order of its own before.

* `Sorting.filterMap_mergeSort_insert`: what is left out of a sorted list does not move the rest.
* `Sorting.pairwise_mergeSort_key`: elements with one key stay in their order.
-/

namespace Groovebox.Sorting

variable {α β : Type} {le : α → α → Bool}

/-- The first element of a list comes before what is not less than it and after the rest. -/
theorem mergeSort_cons_eq (trans : ∀ a b c, le a b = true → le b c = true → le a c = true)
    (total : ∀ a b, (le a b || le b a) = true) (a : α) (l : List α) :
    (a :: l).mergeSort le =
      (l.mergeSort le).filter (fun b => !le a b) ++ a :: (l.mergeSort le).filter (le a) := by
  obtain ⟨before, behind, hcons, hrest, hbefore⟩ := List.mergeSort_cons trans total a l
  have hsorted := List.pairwise_mergeSort trans total (a :: l)
  rw [hcons, List.pairwise_append, List.pairwise_cons] at hsorted
  have hbehind : ∀ b ∈ behind, le a b = true := hsorted.2.1.1
  have hfirst : (before ++ behind).filter (fun b => !le a b) = before := by
    rw [List.filter_append, List.filter_eq_self.2 hbefore, List.filter_eq_nil_iff.2]
    · exact List.append_nil before
    · intro b hb
      simp [hbehind b hb]
  have hlast : (before ++ behind).filter (le a) = behind := by
    rw [List.filter_append, List.filter_eq_self.2 hbehind, List.filter_eq_nil_iff.2]
    · exact List.nil_append behind
    · intro b hb
      simpa using hbefore b hb
  rw [hcons, hrest, hfirst, hlast]

/-- Elements may be left out before or after sorting. -/
theorem filter_mergeSort (trans : ∀ a b c, le a b = true → le b c = true → le a c = true)
    (total : ∀ a b, (le a b || le b a) = true) (p : α → Bool) (l : List α) :
    (l.mergeSort le).filter p = (l.filter p).mergeSort le := by
  induction l with
  | nil => simp
  | cons a l ih =>
    by_cases ha : p a = true
    · rw [List.filter_cons_of_pos ha, mergeSort_cons_eq trans total a (l.filter p), ← ih,
        mergeSort_cons_eq trans total a l, List.filter_append, List.filter_cons_of_pos ha]
      simp only [List.filter_filter, Bool.and_comm]
    · obtain ⟨before, behind, hcons, hrest, -⟩ := List.mergeSort_cons trans total a l
      rw [List.filter_cons_of_neg ha, ← ih, hcons, hrest, List.filter_append, List.filter_append,
        List.filter_cons_of_neg ha]

/-- An element of which nothing is made has no effect on what is made of the others. -/
theorem filterMap_mergeSort_insert
    (trans : ∀ a b c, le a b = true → le b c = true → le a c = true)
    (total : ∀ a b, (le a b || le b a) = true) {f : α → Option β} {x : α} (hx : f x = none)
    (a b : List α) :
    ((a ++ x :: b).mergeSort le).filterMap f = ((a ++ b).mergeSort le).filterMap f := by
  have hkept (l : List α) :
      (l.mergeSort le).filterMap f =
        ((l.filter fun y => (f y).isSome).mergeSort le).filterMap f := by
    rw [← filter_mergeSort trans total, List.filterMap_filter]
    apply List.filterMap_congr
    intro y _
    cases f y <;> rfl
  rw [hkept (a ++ x :: b), hkept (a ++ b), List.filter_append, List.filter_append,
    List.filter_cons_of_neg (by simp [hx])]

/-- Sorting a list by a key keeps the order in which elements with the same key stood. -/
theorem pairwise_mergeSort_key {R : α → α → Prop} (key : α → Nat) {l : List α}
    (h : l.Pairwise R) :
    (l.mergeSort fun a b => decide (key a ≤ key b)).Pairwise fun a b =>
      key a < key b ∨ key a = key b ∧ R a b := by
  have htrans (a b c : α) (hab : decide (key a ≤ key b) = true)
      (hbc : decide (key b ≤ key c) = true) : decide (key a ≤ key c) = true := by
    simp only [decide_eq_true_eq] at hab hbc ⊢
    exact hab.trans hbc
  have htotal (a b : α) : (decide (key a ≤ key b) || decide (key b ≤ key a)) = true := by
    simpa using Nat.le_total (key a) (key b)
  induction h with
  | nil => simp
  | @cons a l hfirst _ ih =>
    rw [mergeSort_cons_eq htrans htotal, List.pairwise_append, List.pairwise_cons]
    refine ⟨ih.filter _, ⟨?_, ih.filter _⟩, ?_⟩
    · intro b hb
      rcases List.mem_filter.1 hb with ⟨hmem, hkey⟩
      have hle : key a ≤ key b := of_decide_eq_true hkey
      rcases Nat.lt_or_eq_of_le hle with hlt | heq
      · exact .inl hlt
      · exact .inr ⟨heq, hfirst b (List.mem_mergeSort.1 hmem)⟩
    · -- What comes before the first element is less than it, and all that comes behind is not.
      intro b hb c hc
      have hbefore : key b < key a := by simpa using (List.mem_filter.1 hb).2
      rcases List.mem_cons.1 hc with rfl | hc
      · exact .inl hbefore
      · have hbehind : key a ≤ key c := of_decide_eq_true (List.mem_filter.1 hc).2
        exact .inl (hbefore.trans_le hbehind)

end Groovebox.Sorting
