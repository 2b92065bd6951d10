/-
This file is the ownership library. Resources are handed from holder to holder
and released; the kernel keeps the set of the open ones. Each holder has a
multiset of resources, and the one invariant is that the sum of these multisets
is the set of open resources. A set has no duplicates, so the equation says at
once that nothing is held twice, that nothing open is forgotten and that nothing
closed is still held.
-/

import Mathlib.Tactic
import Mathlib.Algebra.BigOperators.Group.Multiset.Basic
import Mathlib.Algebra.Order.Group.Multiset

namespace SocketC.Custody

variable {Resource Holder State : Type}

/-- A kernel that, given the open resources, grants only others. -/
def Fresh (grants : Finset Resource → Resource → Bool) : Prop :=
  ∀ opened resource, grants opened resource = true → resource ∉ opened

/-- The resources held are exactly the open ones, each held once. -/
def Owns (held : Multiset Resource) (opened : Finset Resource) : Prop := held = opened.val

section Changes

variable [DecidableEq Resource] {held rest : Multiset Resource} {opened : Finset Resource}
  {resource : Resource}

/-- A resource that was not open is opened and held. -/
theorem Owns.acquire (owns : Owns held opened) (closed : resource ∉ opened) :
    Owns (resource ::ₘ held) (insert resource opened) := by
  unfold Owns at owns ⊢
  rw [Finset.insert_val_of_notMem closed, owns]

/-- A held resource is given up and closed. -/
theorem Owns.release (owns : Owns (resource ::ₘ rest) opened) :
    Owns rest (opened.erase resource) := by
  unfold Owns at owns ⊢
  rw [Finset.erase_val, ← owns, Multiset.erase_cons_head]

end Changes

/-! ### What the invariant says about two holders -/

section Consequences

variable {held first second : Multiset Resource} {opened : Finset Resource}

theorem Owns.nodup (owns : Owns held opened) : held.Nodup := by
  unfold Owns at owns
  exact owns ▸ opened.nodup

theorem Owns.mem_iff (owns : Owns held opened) (resource : Resource) :
    resource ∈ held ↔ resource ∈ opened := by
  unfold Owns at owns
  rw [owns, Finset.mem_val]

theorem disjoint_of_nodup_add (distinct : (first + second).Nodup) : Disjoint first second :=
  (Multiset.nodup_add.mp distinct).2.2

end Consequences

/-! ### Holders indexed by a finite type -/

section Family

variable [Fintype Holder] [DecidableEq Holder] (resources : State → Multiset Resource)

/-- Changing one holder's state exchanges what it held for what it holds now. -/
theorem sum_update_add (states : Holder → State) (holder : Holder) (state : State) :
    (∑ index, resources (Function.update states holder state index)) + resources (states holder) =
      (∑ index, resources (states index)) + resources state := by
  have split := Finset.add_sum_erase Finset.univ (fun index => resources (states index))
    (Finset.mem_univ holder)
  have splitUpdated := Finset.add_sum_erase Finset.univ
    (fun index => resources (Function.update states holder state index)) (Finset.mem_univ holder)
  have others : ∑ index ∈ Finset.univ.erase holder,
        resources (Function.update states holder state index) =
      ∑ index ∈ Finset.univ.erase holder, resources (states index) :=
    Finset.sum_congr rfl fun index member => by
      rw [Function.update_of_ne (Finset.ne_of_mem_erase member)]
  rw [others, Function.update_self] at splitUpdated
  rw [← split, ← splitUpdated]
  abel

/-- A change of state that keeps the holder's resources keeps the sum. -/
theorem sum_update_same (states : Holder → State) (holder : Holder) (state : State)
    (same : resources state = resources (states holder)) :
    ∑ index, resources (Function.update states holder state index) =
      ∑ index, resources (states index) := by
  have exchanged := sum_update_add resources states holder state
  rw [same] at exchanged
  exact add_right_cancel exchanged

/-- A holder with nothing receives one resource. -/
theorem sum_update_cons (states : Holder → State) (holder : Holder) (state : State)
    (resource : Resource) (none : resources (states holder) = 0)
    (one : resources state = {resource}) :
    ∑ index, resources (Function.update states holder state index) =
      resource ::ₘ ∑ index, resources (states index) := by
  have exchanged := sum_update_add resources states holder state
  rw [none, one, add_zero, add_comm, Multiset.singleton_add] at exchanged
  exact exchanged

/-- A holder with one resource gives it up. -/
theorem sum_eq_cons_update (states : Holder → State) (holder : Holder) (state : State)
    (resource : Resource) (one : resources (states holder) = {resource})
    (none : resources state = 0) :
    ∑ index, resources (states index) =
      resource ::ₘ ∑ index, resources (Function.update states holder state index) := by
  have exchanged := sum_update_add resources states holder state
  rw [none, one, add_zero, add_comm, Multiset.singleton_add] at exchanged
  exact exchanged.symm

/-- A holder receives something beside what it has. -/
theorem sum_update_gain (states : Holder → State) (holder : Holder) (state : State)
    (gained : Multiset Resource)
    (holds : resources state = gained + resources (states holder)) :
    ∑ index, resources (Function.update states holder state index) =
      gained + ∑ index, resources (states index) := by
  have exchanged := sum_update_add resources states holder state
  rw [holds, add_left_comm, ← add_assoc] at exchanged
  exact add_right_cancel exchanged

/-- A holder gives something up and keeps the rest. -/
theorem sum_eq_give_update (states : Holder → State) (holder : Holder) (state : State)
    (given : Multiset Resource)
    (held : resources (states holder) = given + resources state) :
    ∑ index, resources (states index) =
      given + ∑ index, resources (Function.update states holder state index) := by
  have exchanged := sum_update_add resources states holder state
  rw [held, add_left_comm, ← add_assoc] at exchanged
  exact (add_right_cancel exchanged).symm

/-- Nothing is held twice, what is held is what is open, no two of the indexed holders share a
resource, and none of them shares one with the common pool. -/
structure Exclusive (common : Multiset Resource) (own : Holder → Multiset Resource)
    (opened : Finset Resource) : Prop where
  distinct : (common + ∑ holder, own holder).Nodup
  exact : ∀ resource, resource ∈ common + ∑ holder, own holder ↔ resource ∈ opened
  apart : ∀ first second, first ≠ second → Disjoint (own first) (own second)
  unshared : ∀ holder, Disjoint common (own holder)

theorem Owns.exclusive {common : Multiset Resource} {own : Holder → Multiset Resource}
    {opened : Finset Resource} (owns : Owns (common + ∑ holder, own holder) opened) :
    Exclusive common own opened := by
  have distinct := owns.nodup
  refine ⟨distinct, owns.mem_iff, fun first second different => ?_, fun holder => ?_⟩
  · have split := Finset.add_sum_erase Finset.univ own (Finset.mem_univ first)
    have member : second ∈ Finset.univ.erase first :=
      Finset.mem_erase.mpr ⟨different.symm, Finset.mem_univ second⟩
    rw [← Finset.add_sum_erase _ own member] at split
    rw [← split, ← add_assoc, ← add_assoc, add_assoc common] at distinct
    exact disjoint_of_nodup_add (Multiset.nodup_of_le
      (le_trans (Multiset.le_add_left _ _) (Multiset.le_add_right _ _)) distinct)
  · have split := Finset.add_sum_erase Finset.univ own (Finset.mem_univ holder)
    rw [← split, ← add_assoc] at distinct
    exact disjoint_of_nodup_add (Multiset.nodup_of_le (Multiset.le_add_right _ _) distinct)

omit [DecidableEq Holder] in
theorem Exclusive.mem_opened {common : Multiset Resource} {own : Holder → Multiset Resource}
    {opened : Finset Resource} (exclusive : Exclusive common own opened) {holder : Holder}
    {resource : Resource} (held : resource ∈ own holder) : resource ∈ opened :=
  (exclusive.exact resource).mp
    (Multiset.mem_add.mpr (Or.inr (Multiset.mem_sum.mpr ⟨holder, Finset.mem_univ holder, held⟩)))

omit [DecidableEq Holder] in
theorem Exclusive.holder_eq {common : Multiset Resource} {own : Holder → Multiset Resource}
    {opened : Finset Resource} (exclusive : Exclusive common own opened) {first second : Holder}
    {resource : Resource} (heldFirst : resource ∈ own first) (heldSecond : resource ∈ own second) :
    first = second := by
  by_contra different
  exact Multiset.disjoint_left.mp (exclusive.apart first second different) heldFirst heldSecond

end Family

end SocketC.Custody
