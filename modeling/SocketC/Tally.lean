/-
This file is the library of lagging counters. Every worker enters its name into a
common history, and counts the entry later in a counter of its own; until then it
owes one count. The counters are balanced when each is behind the worker's entries by
what the worker owes, and then their sum is behind the length of the history by the
number of workers that owe. Whether a worker owes may be read off a state of it, and a
worker changes its state when it enters its name, when it counts, and in between.
-/

import Mathlib.Tactic
import Mathlib.Algebra.BigOperators.Group.Finset.Basic

namespace SocketC.Tally

variable {Worker : Type} [DecidableEq Worker]

/-- Every counter is behind the worker's entries by what the worker owes. -/
def Balanced (history : List Worker) (count : Worker → Nat) (owes : Worker → Bool) : Prop :=
  ∀ worker, count worker + (owes worker).toNat = history.count worker

variable {history : List Worker} {count : Worker → Nat} {owes : Worker → Bool}

theorem balanced_nil : Balanced ([] : List Worker) (fun _ => 0) fun _ => false :=
  fun _ => rfl

/-- A worker that owes nothing enters its name. -/
theorem Balanced.enter (balanced : Balanced history count owes) {worker : Worker}
    (settled : owes worker = false) :
    Balanced (history ++ [worker]) count (Function.update owes worker true) := by
  intro other
  have before := balanced other
  rw [List.count_append]
  by_cases same : other = worker
  · subst same
    rw [settled] at before
    rw [Function.update_self, List.count_singleton_self, ← before]
    rfl
  · rw [Function.update_of_ne same, List.count_singleton, if_neg (by simpa using Ne.symm same),
      before]
    rfl

/-- A worker counts its last entry. -/
theorem Balanced.settle (balanced : Balanced history count owes) {worker : Worker}
    (owing : owes worker = true) :
    Balanced history (Function.update count worker (count worker + 1))
      (Function.update owes worker false) := by
  intro other
  have before := balanced other
  by_cases same : other = worker
  · subst same
    rw [owing] at before
    rw [Function.update_self, Function.update_self, ← before]
    rfl
  · rw [Function.update_of_ne same, Function.update_of_ne same, before]

theorem Balanced.count_eq (balanced : Balanced history count owes) (worker : Worker) :
    count worker + (if owes worker then 1 else 0) = history.count worker := by
  rw [← balanced worker]
  cases owes worker <;> rfl

/-- The sum of the counters and the number of workers that owe make up the history. -/
theorem Balanced.sum [Fintype Worker] (balanced : Balanced history count owes) :
    ∑ worker, count worker + (Finset.univ.filter fun worker => owes worker = true).card =
      history.length := by
  have owed : ∑ worker, (owes worker).toNat =
      (Finset.univ.filter fun worker => owes worker = true).card := by
    rw [Finset.card_filter]
    refine Finset.sum_congr rfl fun worker _ => ?_
    cases owes worker <;> rfl
  have entries : ∑ worker, history.count worker = history.length := by
    have all := Multiset.sum_count_eq_card (s := Finset.univ) (m := (history : Multiset Worker))
      fun worker _ => Finset.mem_univ worker
    simpa only [Multiset.coe_count, Multiset.coe_card] using all
  rw [← owed, ← Finset.sum_add_distrib, ← entries]
  exact Finset.sum_congr rfl fun worker _ => balanced worker

/-! ### Workers with a state -/

variable {State : Type} {debt : State → Bool} {state : Worker → State} {worker : Worker}
  {next : State}

/-- A worker changes its state and owes what it owed. -/
theorem Balanced.goes (balanced : Balanced history count (debt ∘ state))
    (same : debt next = debt (state worker)) :
    Balanced history count (debt ∘ Function.update state worker next) := by
  have unchanged : Function.update (debt ∘ state) worker (debt (state worker)) = debt ∘ state :=
    Function.update_eq_self worker (debt ∘ state)
  rw [Function.comp_update, same, unchanged]
  exact balanced

/-- A worker enters its name and changes to a state in which it owes. -/
theorem Balanced.enters (balanced : Balanced history count (debt ∘ state))
    (settled : debt (state worker) = false) (owing : debt next = true) :
    Balanced (history ++ [worker]) count (debt ∘ Function.update state worker next) := by
  rw [Function.comp_update, owing]
  exact balanced.enter settled

/-- A worker counts and changes to a state in which it owes nothing. -/
theorem Balanced.counts (balanced : Balanced history count (debt ∘ state))
    (owing : debt (state worker) = true) (settled : debt next = false) :
    Balanced history (Function.update count worker (count worker + 1))
      (debt ∘ Function.update state worker next) := by
  rw [Function.comp_update, settled]
  exact balanced.settle owing

end SocketC.Tally
