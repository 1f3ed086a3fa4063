/-
# One-to-one assignments

The demands of a list are assigned one to one to the capacities of another if, in some
order, each is at most the capacity at its place. There are as many orders as there are
permutations, but one of them decides: the capacities descend, so the demands may descend
too (`assignable_iff_sorted`). Sorting is by insertion, and what makes it safe is that a
demand inserted further down only moves demands above it to larger capacities
(`orderedInsert_le`).
-/
import Mathlib

namespace PGCon
namespace Assignment

variable {α : Type*} [LinearOrder α] {a b : α} {demands capacities : List α}

/-- In some order each demand is at most the capacity at its place. -/
def Assignable (demands capacities : List α) : Prop :=
  ∃ order : List α, order.Perm demands ∧ List.Forall₂ (· ≤ ·) order capacities

/-- A capacity in front, no smaller than the others, is enough to insert a demand. -/
theorem orderedInsert_le (h : List.Forall₂ (· ≤ ·) demands capacities) :
    ∀ {b : α}, (b :: capacities).Pairwise (· ≥ ·) → a ≤ b →
      List.Forall₂ (· ≤ ·) (demands.orderedInsert (· ≥ ·) a) (b :: capacities) := by
  induction h with
  | nil =>
    intro b _ hab
    exact .cons hab .nil
  | @cons d c demands capacities hdc htail ih =>
    intro b hdesc hab
    have hcb : c ≤ b := (List.pairwise_cons.mp hdesc).1 c List.mem_cons_self
    rw [List.orderedInsert]
    split
    · exact .cons hab (.cons hdc htail)
    · rename_i had
      exact .cons (hdc.trans hcb) (ih hdesc.of_cons ((not_le.mp had).le.trans hdc))

theorem insertionSort_le (h : List.Forall₂ (· ≤ ·) demands capacities) (hdesc : capacities.Pairwise (· ≥ ·)) :
    List.Forall₂ (· ≤ ·) (demands.insertionSort (· ≥ ·)) capacities := by
  induction h with
  | nil => exact .nil
  | cons hab _ ih => exact orderedInsert_le (ih hdesc.of_cons) hdesc hab

/-- What the demands can be assigned to does not depend on their order. -/
theorem insertionSort_eq_of_perm {l m : List α} (h : l.Perm m) : l.insertionSort (· ≥ ·) = m.insertionSort (· ≥ ·) := by
  have hperm : (l.insertionSort (· ≥ ·)).Perm (m.insertionSort (· ≥ ·)) :=
    (List.perm_insertionSort _ l).trans (h.trans (List.perm_insertionSort _ m).symm)
  exact hperm.eq_of_pairwise' (List.pairwise_insertionSort _ l) (List.pairwise_insertionSort _ m)

/-- The demands can be assigned to descending capacities exactly if they can be in
descending order. -/
theorem assignable_iff_sorted (hdesc : capacities.Pairwise (· ≥ ·)) :
    Assignable demands capacities ↔ List.Forall₂ (· ≤ ·) (demands.insertionSort (· ≥ ·)) capacities := by
  constructor
  · rintro ⟨order, hperm, hle⟩
    rw [← insertionSort_eq_of_perm hperm]
    exact insertionSort_le hle hdesc
  · intro hle
    exact ⟨_, List.perm_insertionSort _ demands, hle⟩

end Assignment
end PGCon
