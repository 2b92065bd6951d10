/-
This file is the library of sweeps: a loop that goes over the entries of a table in their order and
looks for those that are marked, with a count of the marked entries still to come so that it can
stop early. The count of a sweep at an index is the number of marks from there on; passing a marked
entry lowers it by one, passing another one keeps it, and what happens to the entries that the
sweep has passed does not matter.
-/

import Mathlib.Tactic

namespace SocketC.Sweep

variable {size : Nat}

/-- The number of marked entries from an index on. -/
def marksFrom (marks : Fin size → Bool) (index : Nat) : Nat :=
  (Finset.univ.filter fun entry : Fin size => index ≤ entry.val ∧ marks entry = true).card

theorem marksFrom_of_marked {marks : Fin size → Bool} {index : Nat} (bound : index < size)
    (marked : marks ⟨index, bound⟩ = true) :
    marksFrom marks index = marksFrom marks (index + 1) + 1 := by
  have passed : (⟨index, bound⟩ : Fin size) ∉
      Finset.univ.filter fun entry => index + 1 ≤ entry.val ∧ marks entry = true := by simp
  rw [marksFrom, marksFrom, ← Finset.card_insert_of_notMem passed]
  congr 1
  ext entry
  simp only [Finset.mem_filter, Finset.mem_univ, true_and, Finset.mem_insert]
  constructor
  · rintro ⟨later, isMarked⟩
    rcases Nat.eq_or_lt_of_le later with here | behind
    · exact Or.inl (Fin.ext here.symm)
    · exact Or.inr ⟨behind, isMarked⟩
  · rintro (rfl | ⟨behind, isMarked⟩)
    · exact ⟨le_rfl, marked⟩
    · exact ⟨Nat.le_of_succ_le behind, isMarked⟩

/-- The marks of two tables that agree from an index on. -/
theorem marksFrom_congr {marks others : Fin size → Bool} {index : Nat}
    (agree : ∀ entry : Fin size, index ≤ entry.val → marks entry = others entry) :
    marksFrom marks index = marksFrom others index := by
  rw [marksFrom, marksFrom]
  congr 1
  ext entry
  simp only [Finset.mem_filter, Finset.mem_univ, true_and]
  exact and_congr_right fun later => by rw [agree entry later]

theorem marksFrom_of_unmarked {marks : Fin size → Bool} {index : Nat} (bound : index < size)
    (unmarked : marks ⟨index, bound⟩ = false) :
    marksFrom marks index = marksFrom marks (index + 1) := by
  rw [marksFrom, marksFrom]
  congr 1
  ext entry
  simp only [Finset.mem_filter, Finset.mem_univ, true_and]
  refine and_congr_left fun isMarked => ⟨fun later => ?_, Nat.le_of_succ_le⟩
  rcases Nat.eq_or_lt_of_le later with here | behind
  · obtain rfl : entry = ⟨index, bound⟩ := Fin.ext here.symm
    rw [isMarked] at unmarked
    cases unmarked
  · exact behind

theorem marksFrom_eq_zero_iff {marks : Fin size → Bool} {index : Nat} :
    marksFrom marks index = 0 ↔ ∀ entry : Fin size, index ≤ entry.val → marks entry = false := by
  rw [marksFrom, Finset.card_eq_zero, Finset.filter_eq_empty_iff]
  constructor
  · exact fun none_left entry later =>
      Bool.eq_false_of_not_eq_true fun marked => none_left (Finset.mem_univ entry) ⟨later, marked⟩
  · rintro unmarked entry - ⟨later, marked⟩
    rw [unmarked entry later] at marked
    cases marked

end SocketC.Sweep
