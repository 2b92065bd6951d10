/-
This file is about the overflow check of the user-scheduled pool. The put section
stores the descriptor and advances `iput` first, and then calls `err_quit` if the two
indices are equal; a worker takes equal indices for an empty ring. The ring has no
element count, so the count that the check is compared with is that of the history:
the descriptors put and not yet taken. It is `(iput - iget) mod MAXNCLI` and never
`MAXNCLI`, which makes both readings of equal indices right.
-/

import SocketC.Handout

namespace SocketC.UserPool

variable {workers : Nat} {kernel : Finset Nat → Nat → Bool}

/-! ### The descriptors that wait -/

/-- The descriptors that were put and not yet taken. -/
def waiting (pool : UserPool workers) : List Nat := pool.puts.drop pool.takes.length

theorem waiting_eq_queued {pool : UserPool workers}
    (reached : (machine workers kernel).Reachable pool) (noOverflow : pool.status ≠ .overflow) :
    pool.waiting = pool.queued := by
  have split := fifo_of_reachable reached noOverflow
  have length : pool.taken.length = pool.takes.length := List.length_map _
  rw [waiting, ← split, ← length, List.drop_left]

theorem length_waiting {pool : UserPool workers}
    (reached : (machine workers kernel).Reachable pool) (noOverflow : pool.status ≠ .overflow) :
    pool.waiting.length = pool.pending := by
  rw [waiting_eq_queued reached noOverflow]
  exact Ring.length_contents _ _ _ _

/-- The descriptor that waits with this many before it is in the slot that many places after
`iget`. -/
theorem clifd_of_waiting {pool : UserPool workers}
    (reached : (machine workers kernel).Reachable pool) (noOverflow : pool.status ≠ .overflow)
    {offset connfd : Nat} (waits : pool.waiting[offset]? = some connfd) :
    pool.clifd ((pool.iget + offset) % maxNCli) = connfd := by
  rw [waiting_eq_queued reached noOverflow, queued, Ring.contents, List.getElem?_map,
    Option.map_eq_some_iff] at waits
  obtain ⟨place, found, same⟩ := waits
  rw [List.getElem?_eq_some_iff] at found
  obtain ⟨inside, rfl⟩ := found
  rwa [List.getElem_range] at same

/-! ### The indices -/

/-- What the two indices say about the descriptors that wait. -/
structure RingExact (pool : UserPool workers) : Prop where
  getBound : pool.iget < maxNCli
  putBound : pool.iput < maxNCli
  count : (pool.waiting.length : Int) = ((pool.iput : Int) - pool.iget) % maxNCli
  most : pool.waiting.length ≤ maxNCli - 1
  empty : pool.iget = pool.iput ↔ pool.waiting = []
  slots : ∀ offset connfd, pool.waiting[offset]? = some connfd →
    pool.clifd ((pool.iget + offset) % maxNCli) = connfd

theorem ringExact_of_reachable {pool : UserPool workers}
    (reached : (machine workers kernel).Reachable pool) (noOverflow : pool.status ≠ .overflow) :
    pool.RingExact := by
  obtain ⟨getBound, putBound⟩ := inRing_of_reachable reached
  have length := length_waiting reached noOverflow
  have below : pool.pending < maxNCli := Ring.pending_lt pool.iget putBound
  refine ⟨getBound, putBound, ?_, by omega, ?_, fun _ _ => clifd_of_waiting reached noOverflow⟩
  · rw [length]
    exact Ring.coe_pending pool.iput getBound
  · rw [← List.length_eq_zero_iff, length]
    exact (Ring.pending_eq_zero_iff getBound putBound).symm

/-! ### The put section -/

/-- What a put does: it stores in the slot `iput` and ends the process when the advanced index
is `iget`. -/
theorem put_stores {pool next : UserPool workers} {woken : Finset (Fin workers)}
    (taken : (machine workers kernel).step pool (.put woken) = some next) :
    ∃ connfd, pool.acceptor = .holding connfd ∧ pool.status = .running ∧
      next.clifd = Function.update pool.clifd pool.iput connfd ∧
      (next.status = .overflow ↔ Ring.advance maxNCli pool.iput = pool.iget) := by
  obtain ⟨running, taken⟩ := Option.ite_none_right_eq_some.mp taken
  simp only [put] at taken
  split at taken
  · cases taken
  · rename_i connfd holding
    refine ⟨connfd, holding, running, ?_⟩
    split at taken
    · rename_i full
      obtain rfl := Option.some.inj taken
      exact ⟨rfl, iff_of_true rfl full⟩
    · rename_i room
      obtain ⟨-, stored⟩ := Option.ite_none_right_eq_some.mp taken
      obtain rfl := Option.some.inj stored
      exact ⟨rfl, iff_of_false (by rw [running]; decide) room⟩

/-- When the advanced index is `iget`, the process ends before the descriptor counts as put. -/
theorem put_full {pool next : UserPool workers} {woken : Finset (Fin workers)}
    (taken : (machine workers kernel).step pool (.put woken) = some next)
    (full : Ring.advance maxNCli pool.iput = pool.iget) :
    next.status = .overflow ∧ next.waiting = pool.waiting ∧
      ∃ connfd, next.acceptor = .holding connfd := by
  obtain ⟨-, taken⟩ := Option.ite_none_right_eq_some.mp taken
  simp only [put] at taken
  split at taken
  · cases taken
  · rename_i connfd holding
    rw [if_pos full] at taken
    obtain rfl := Option.some.inj taken
    exact ⟨rfl, rfl, connfd, holding⟩

/-- A main thread that holds a descriptor can put it: the signal wakes the sleeping workers. -/
theorem put_enabled {pool : UserPool workers} {connfd : Nat} (running : pool.status = .running)
    (holding : pool.acceptor = .holding connfd) :
    ∃ woken next, (machine workers kernel).step pool (.put woken) = some next := by
  refine ⟨Finset.univ.filter fun index => pool.worker index = .blocked, ?_⟩
  have wakes : pool.Wakes (Finset.univ.filter fun index => pool.worker index = .blocked) := by
    refine ⟨fun index member => (Finset.mem_filter.mp member).2, ?_⟩
    rintro ⟨index, blocked⟩
    exact ⟨index, Finset.mem_filter.mpr ⟨Finset.mem_univ _, blocked⟩⟩
  simp only [machine, step, put, running, holding, wakes, if_true]
  split
  · exact ⟨_, rfl⟩
  · exact ⟨_, rfl⟩

/-- A put ends in `err_quit` exactly when one slot is left, and overwrites no descriptor that
waits. -/
structure PutExact (pool next : UserPool workers) : Prop where
  quits : next.status = .overflow ↔ pool.waiting.length = maxNCli - 1
  kept : ∀ offset connfd, pool.waiting[offset]? = some connfd →
    (pool.iget + offset) % maxNCli ≠ pool.iput ∧
      next.clifd ((pool.iget + offset) % maxNCli) = connfd

theorem putExact_of_step {pool next : UserPool workers} {woken : Finset (Fin workers)}
    (reached : (machine workers kernel).Reachable pool)
    (taken : (machine workers kernel).step pool (.put woken) = some next) :
    PutExact pool next := by
  obtain ⟨stored, -, running, clifd, quits⟩ := put_stores taken
  obtain ⟨getBound, putBound⟩ := inRing_of_reachable reached
  have noOverflow : pool.status ≠ .overflow := by
    rw [running]
    decide
  have length := length_waiting reached noOverflow
  refine ⟨?_, fun offset connfd waits => ?_⟩
  · rw [quits, length]
    exact Ring.advance_put_eq_get_iff getBound putBound
  · have inside : offset < pool.pending := by
      rw [← length]
      exact (List.getElem?_eq_some_iff.mp waits).1
    have different := Ring.get_add_mod_ne_put getBound putBound inside
    rw [clifd, Function.update_of_ne different]
    exact ⟨different, clifd_of_waiting reached noOverflow waits⟩

/-- In every reachable state outside the put section's `err_quit`, the indices are slots of the
ring, the number of descriptors that wait is `(iput - iget) mod MAXNCLI` and at most `MAXNCLI - 1`,
and the indices are equal exactly when none waits. Every put ends in `err_quit` exactly when
`MAXNCLI - 1` descriptors wait, overwrites none of them, and can be made. -/
theorem overflow_check_exact (workers : Nat) (kernel : Finset Nat → Nat → Bool)
    (pool : UserPool workers) (reached : (machine workers kernel).Reachable pool) :
    (pool.status ≠ .overflow → pool.RingExact) ∧
    (∀ woken next, (machine workers kernel).step pool (.put woken) = some next →
      PutExact pool next) ∧
    (∀ connfd, pool.status = .running → pool.acceptor = .holding connfd →
      ∃ woken next, (machine workers kernel).step pool (.put woken) = some next) :=
  ⟨ringExact_of_reachable reached, fun _ _ taken => putExact_of_step reached taken,
    fun _ running holding => put_enabled running holding⟩

/-- One connection is put and taken, so that the indices wrap, and then all but one of the slots
are filled and the main thread holds another descriptor. -/
def fillingRun : List (Action 1) :=
  [Action.accept 4, .put ∅, .lock 0] ++
    (List.range 31).flatMap (fun offset => [Action.accept (offset + 5), .put ∅]) ++
      [Action.accept 40]

/-- The next put ends the process. -/
theorem overflow_check_exact_full :
    ∃ pool, (machine 1 unusedDescriptor).Reachable pool ∧ pool.waiting.length = 31 ∧
      pool.iput < pool.iget ∧ pool.RingExact ∧
      ∃ woken next, (machine 1 unusedDescriptor).step pool (.put woken) = some next ∧
        next.status = .overflow := by
  have reached : (machine 1 unusedDescriptor).Reachable ((machine 1 unusedDescriptor).after
      fillingRun) := Machine.reachable_after fillingRun (by decide)
  obtain ⟨ring, exact, enabled⟩ := overflow_check_exact 1 unusedDescriptor _ reached
  have full : ((machine 1 unusedDescriptor).after fillingRun).waiting.length = 31 := by decide
  obtain ⟨woken, next, taken⟩ := enabled 40 (by decide) (by decide)
  exact ⟨_, reached, full, by decide, ring (by decide), woken, next, taken,
    (exact woken next taken).quits.mpr full⟩

end SocketC.UserPool
