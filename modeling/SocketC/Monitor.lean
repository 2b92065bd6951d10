/-
This file is the library of monitors: threads that run critical sections under one
mutex and sleep on condition variables. Every thread stands at a place, a weight on
places is summed over the threads, and a step that moves one thread changes the sum by
the difference of two weights. Counters a program keeps about its threads -- how many
wait, how many hold a lock -- are such sums. A signal wakes sleepers only, and at least
one of them if there is one.
-/

import Mathlib.Tactic

namespace SocketC.Monitor

variable {Thread Place : Type}

/-! ### Sums over the threads -/

section Load

variable [Fintype Thread]

/-- The sum of a weight over the places of all threads. -/
def load (weight : Place → Nat) (places : Thread → Place) : Nat := ∑ thread, weight (places thread)

theorem load_const_zero (weight : Place → Nat) (place : Place) (none_there : weight place = 0) :
    load weight (fun _ : Thread => place) = 0 :=
  Finset.sum_eq_zero fun _ _ => none_there

theorem load_eq_zero_iff (weight : Place → Nat) (places : Thread → Place) :
    load weight places = 0 ↔ ∀ thread, weight (places thread) = 0 := by
  rw [load, Finset.sum_eq_zero_iff]
  exact ⟨fun zero thread => zero thread (Finset.mem_univ thread), fun zero thread _ => zero thread⟩

theorem weight_le_load (weight : Place → Nat) (places : Thread → Place) (thread : Thread) :
    weight (places thread) ≤ load weight places := by
  unfold load
  exact Finset.single_le_sum (f := fun index => weight (places index))
    (fun _ _ => Nat.zero_le _) (Finset.mem_univ thread)

theorem exists_weight_of_load_pos {weight : Place → Nat} {places : Thread → Place}
    (positive : 0 < load weight places) : ∃ thread, 0 < weight (places thread) := by
  by_contra absent
  push Not at absent
  have zero : load weight places = 0 :=
    (load_eq_zero_iff weight places).mpr fun thread => Nat.le_zero.mp (absent thread)
  omega

/-- A change of places that keeps every thread's weight keeps the sum. -/
theorem load_congr {weight : Place → Nat} {places others : Thread → Place}
    (same : ∀ thread, weight (others thread) = weight (places thread)) :
    load weight others = load weight places :=
  Finset.sum_congr rfl fun thread _ => same thread

variable [DecidableEq Thread]

/-- Moving one thread exchanges the weight of the place it leaves for that of its new place. -/
theorem load_update (weight : Place → Nat) (places : Thread → Place) (thread : Thread)
    (place : Place) :
    load weight (Function.update places thread place) + weight (places thread) =
      load weight places + weight place := by
  have split := Finset.add_sum_erase Finset.univ (fun index => weight (places index))
    (Finset.mem_univ thread)
  have splitUpdated := Finset.add_sum_erase Finset.univ
    (fun index => weight (Function.update places thread place index)) (Finset.mem_univ thread)
  have others : ∑ index ∈ Finset.univ.erase thread,
        weight (Function.update places thread place index) =
      ∑ index ∈ Finset.univ.erase thread, weight (places index) :=
    Finset.sum_congr rfl fun index member => by
      rw [Function.update_of_ne (Finset.ne_of_mem_erase member)]
  simp only [Function.update_self] at splitUpdated
  unfold load
  omega

end Load

/-! ### Condition variables -/

/-- The threads a signal may wake: sleepers only, and at least one if there is one. -/
def Wakes (asleep : Thread → Prop) (woken : Finset Thread) : Prop :=
  (∀ thread ∈ woken, asleep thread) ∧ ((∃ thread, asleep thread) → woken.Nonempty)

instance [Fintype Thread] (asleep : Thread → Prop) [DecidablePred asleep]
    (woken : Finset Thread) : Decidable (Wakes asleep woken) :=
  inferInstanceAs (Decidable (_ ∧ _))

/-- Of two threads, the one that runs wakes the other. -/
theorem Wakes.mem_of_le_two {threads : Nat} (two : threads ≤ 2) {asleep : Fin threads → Prop}
    {woken : Finset (Fin threads)} (wakes : Wakes asleep woken) {runs sleeper : Fin threads}
    (awake : ¬ asleep runs) (sleeps : asleep sleeper) : sleeper ∈ woken := by
  obtain ⟨other, member⟩ := wakes.2 ⟨sleeper, sleeps⟩
  have otherRuns : other ≠ runs := fun same => awake (same ▸ wakes.1 other member)
  have sleeperRuns : sleeper ≠ runs := fun same => awake (same ▸ sleeps)
  have same : other = sleeper := by
    refine Fin.ext ?_
    have := Fin.val_ne_of_ne otherRuns
    have := Fin.val_ne_of_ne sleeperRuns
    omega
  exact same ▸ member

end SocketC.Monitor
