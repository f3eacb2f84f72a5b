import Groovebox.Bank
/-! # Every place of a bank

`Bank.All` says that every place of a bank holds something with a property. It survives a change at
one place, so whatever edits and reads one place at a time keeps it. -/

namespace Groovebox.Bank

variable {α : Type} {n : Nat} {P : α → Prop}

/-- Every place of a bank holds something with a property. -/
def All (P : α → Prop) (b : Bank α n) : Prop :=
  ∀ i : Fin n, P (b.get i)

instance [DecidablePred P] (b : Bank α n) : Decidable (b.All P) :=
  inferInstanceAs (Decidable (∀ i : Fin n, P (b.get i)))

/-- Two banks with the same things in the same places are equal. -/
theorem ext_get {b c : Bank α n} (h : ∀ i : Fin n, b.get i = c.get i) : b = c :=
  Vector.ext fun i hi => h ⟨i, hi⟩

/-- Going round, every place is reached from every other. -/
theorem exists_onward (i j : Fin n) : ∃ distance < n, onward i distance = j := by
  refine ⟨(j + (n - i)) % n, Nat.mod_lt _ i.pos, Fin.ext ?_⟩
  have hround : i.val + (j + (n - i)) = j + n := by omega
  show (i.val + (j + (n - i)) % n) % n = j
  rw [Nat.add_mod_mod, hround, Nat.add_mod_right, Nat.mod_eq_of_lt j.isLt]

theorem all_replicate {a : α} (h : P a) : All P (Vector.replicate n a) := by
  intro i
  rw [get, Vector.getElem_replicate]
  exact h

theorem all_ofFn {f : Fin n → α} (h : ∀ i, P (f i)) : All P (Vector.ofFn f) := by
  intro i
  rw [get, Vector.getElem_ofFn]
  exact h i

/-- A change at one place keeps a property of all places that the new thing has. -/
theorem All.put {b : Bank α n} (hb : b.All P) (i : Fin n) {a : α} (ha : P a) :
    (b.put i a).All P := by
  intro j
  by_cases h : i = j
  · rw [← h, get_put_self]
    exact ha
  · rw [get_put_of_ne b a h]
    exact hb j

/-- As `All.put`, for a position that may lie past the bank. -/
theorem All.setIfInBounds {b : Bank α n} (hb : b.All P) (i : Nat) {a : α} (ha : P a) :
    All P (b.setIfInBounds i a) := by
  intro j
  rw [get, Vector.getElem_setIfInBounds]
  split
  · exact ha
  · exact hb j

theorem All.of_mem {b : Bank α n} (hb : b.All P) {a : α} (ha : a ∈ b.toList) : P a := by
  rcases List.getElem_of_mem ha with ⟨i, hi, rfl⟩
  have hin : i < n := by simpa using hi
  rw [Vector.getElem_toList]
  exact hb ⟨i, hin⟩

end Groovebox.Bank
