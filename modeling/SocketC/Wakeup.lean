/-
This file proves that the user-scheduled pool loses no wake-up. Signals are not
counted and are lost when nobody waits; a signalled worker can be overtaken by a
worker that returns from a client, and several descriptors can be put before any
signalled worker has locked the mutex again. What holds between the critical
sections is that, while some worker sleeps unsignalled, the descriptors in the
ring are covered by workers that are signalled and still on their way to the
mutex. A worker goes to sleep only when it finds the ring empty, and every later
put signals one more worker as long as one sleeps.
-/

import SocketC.Handout

namespace SocketC.UserPool

variable {workers : Nat} {kernel : Finset Nat → Nat → Bool}

/-- The signalled workers that have not locked `clifd_mutex` again. -/
def signalled (pool : UserPool workers) : Finset (Fin workers) :=
  {index | pool.worker index = .signalled}

/-- Some worker is asleep and unsignalled. -/
def Sleeps (pool : UserPool workers) : Prop := ∃ index, pool.worker index = .blocked

theorem mem_signalled {pool : UserPool workers} {index : Fin workers} :
    index ∈ pool.signalled ↔ pool.worker index = .signalled := by
  simp only [signalled, Finset.mem_filter, Finset.mem_univ, true_and]

/-! ### How a step changes the sleepers and the signalled workers -/

/-- Moving one worker to a state other than `blocked` adds no sleeper. -/
theorem sleeps_of_update {pool next : UserPool workers} {index : Fin workers} {state : UserWorker}
    (moved : next.worker = Function.update pool.worker index state) (awake : state ≠ .blocked)
    (sleeps : next.Sleeps) : pool.Sleeps := by
  obtain ⟨sleeper, blocked⟩ := sleeps
  rw [moved] at blocked
  by_cases same : sleeper = index
  · subst same
    rw [Function.update_self] at blocked
    exact absurd blocked awake
  · rw [Function.update_of_ne same] at blocked
    exact ⟨sleeper, blocked⟩

/-- Moving one worker removes at most that worker from the signalled ones. -/
theorem erase_signalled_subset {pool next : UserPool workers} {index : Fin workers}
    {state : UserWorker} (moved : next.worker = Function.update pool.worker index state) :
    pool.signalled.erase index ⊆ next.signalled := by
  intro other member
  obtain ⟨different, signalled⟩ := Finset.mem_erase.mp member
  rw [mem_signalled, moved, Function.update_of_ne different]
  exact mem_signalled.mp signalled

/-- A worker that is not signalled can be moved without losing a signalled one. -/
theorem signalled_subset {pool next : UserPool workers} {index : Fin workers}
    {state : UserWorker} (moved : next.worker = Function.update pool.worker index state)
    (unsignalled : pool.worker index ≠ .signalled) : pool.signalled ⊆ next.signalled := by
  have absent : index ∉ pool.signalled := fun member => unsignalled (mem_signalled.mp member)
  rw [← Finset.erase_eq_of_notMem absent]
  exact erase_signalled_subset moved

/-- A signal adds the workers it wakes to the signalled ones. -/
theorem card_signalled_put {pool next : UserPool workers} {woken : Finset (Fin workers)}
    (wakes : pool.Wakes woken)
    (moved : next.worker = fun index =>
      if index ∈ woken then .signalled else pool.worker index) :
    pool.signalled.card + woken.card ≤ next.signalled.card := by
  have apart : Disjoint pool.signalled woken := by
    refine Finset.disjoint_left.mpr fun index member inWoken => ?_
    have blocked := wakes.1 index inWoken
    rw [mem_signalled.mp member] at blocked
    cases blocked
  rw [← Finset.card_union_of_disjoint apart]
  refine Finset.card_le_card fun index member => ?_
  rw [mem_signalled, moved]
  show (if index ∈ woken then UserWorker.signalled else pool.worker index) = .signalled
  split
  · rfl
  · rename_i outside
    exact mem_signalled.mp ((Finset.mem_union.mp member).resolve_right outside)

/-! ### The ring is covered by signalled workers -/

/-- While some worker sleeps unsignalled, every descriptor in the ring has a signalled worker
that is still to lock the mutex. -/
def Covered (pool : UserPool workers) : Prop :=
  pool.status = .running → pool.Sleeps → pool.pending ≤ pool.signalled.card

theorem Covered.put {pool next : UserPool workers} (inside : pool.InRing)
    (running : pool.status = .running) (covered : pool.Covered) {woken : Finset (Fin workers)}
    (wakes : pool.Wakes woken) (room : Ring.advance maxNCli pool.iput ≠ pool.iget)
    (advanced : next.pending = Ring.pending maxNCli pool.iget (Ring.advance maxNCli pool.iput))
    (moved : next.worker = fun index =>
      if index ∈ woken then .signalled else pool.worker index) :
    next.Covered := by
  intro _ sleeps
  obtain ⟨sleeper, blocked⟩ := sleeps
  have before : pool.worker sleeper = .blocked := by
    rw [moved] at blocked
    change (if sleeper ∈ woken then UserWorker.signalled else pool.worker sleeper) = _ at blocked
    split at blocked
    · cases blocked
    · exact blocked
  -- The sleeper was there before the put, so the signal found somebody to wake.
  have someone : 1 ≤ woken.card := Finset.card_pos.mpr (wakes.2 ⟨sleeper, before⟩)
  have enough : pool.pending ≤ pool.signalled.card := covered running ⟨sleeper, before⟩
  calc next.pending = pool.pending + 1 := by
        rw [advanced]
        exact Ring.pending_advance_put inside.getBound inside.putBound room
    _ ≤ pool.signalled.card + woken.card := add_le_add enough someone
    _ ≤ next.signalled.card := card_signalled_put wakes moved

theorem Covered.take {pool next : UserPool workers} (inside : pool.InRing)
    (running : pool.status = .running) (covered : pool.Covered) {index : Fin workers}
    {connfd : Nat} (nonempty : pool.iget ≠ pool.iput)
    (advanced : next.pending = Ring.pending maxNCli (Ring.advance maxNCli pool.iget) pool.iput)
    (moved : next.worker = Function.update pool.worker index (.taken connfd)) :
    next.Covered := by
  intro _ sleeps
  have enough : pool.pending ≤ pool.signalled.card :=
    covered running (sleeps_of_update moved (by simp) sleeps)
  have removed : pool.pending = next.pending + 1 := by
    rw [advanced]
    exact Ring.pending_advance_get inside.getBound inside.putBound nonempty
  have kept : pool.signalled.card - 1 ≤ next.signalled.card :=
    le_trans Finset.pred_card_le_card_erase (Finset.card_le_card (erase_signalled_subset moved))
  omega

/-- A step that moves one unsignalled worker, adds no sleeper and leaves the ring alone. -/
theorem Covered.move {pool next : UserPool workers} (running : pool.status = .running)
    (covered : pool.Covered) {index : Fin workers} {state : UserWorker}
    (unsignalled : pool.worker index ≠ .signalled) (awake : state ≠ .blocked)
    (same : next.pending = pool.pending)
    (moved : next.worker = Function.update pool.worker index state) : next.Covered := by
  intro _ sleeps
  rw [same]
  exact le_trans (covered running (sleeps_of_update moved awake sleeps))
    (Finset.card_le_card (signalled_subset moved unsignalled))

theorem Covered.moves {pool next : UserPool workers} (inside : pool.InRing)
    (running : pool.status = .running) (covered : pool.Covered)
    (moves : Moves kernel pool next) : next.Covered := by
  cases moves with
  | accept connfd accepting returned => exact covered
  | overflow connfd holding full => exact fun stillRunning => nomatch stillRunning
  | put connfd woken holding room wakes =>
    exact Covered.put inside running covered wakes room rfl rfl
  | block index locks empty =>
    intro _ _
    have none : pool.pending = 0 :=
      (Ring.pending_eq_zero_iff inside.getBound inside.putBound).mpr empty
    exact le_trans (le_of_eq none) (Nat.zero_le _)
  | take index locks nonempty => exact Covered.take inside running covered nonempty rfl rfl
  | wakeup index blocked =>
    exact Covered.move running covered (by rw [blocked]; simp) (by simp) rfl rfl
  | count index connfd taken =>
    exact Covered.move running covered (by rw [taken]; simp) (by simp) rfl rfl
  | close index connfd serving opened =>
    exact Covered.move running covered (by rw [serving]; simp) (by simp) rfl rfl
  | leave => exact fun stillRunning => nomatch stillRunning

theorem covered_of_reachable {pool : UserPool workers}
    (reached : (machine workers kernel).Reachable pool) : pool.Covered := by
  have initial : (start workers).Covered := fun _ sleeps => nomatch sleeps.choose_spec
  refine reached.induction Covered initial fun current action next before covered taken => ?_
  obtain ⟨running, moves⟩ := moves_of_step taken
  exact Covered.moves (inRing_of_reachable before) running covered moves

/-- The worker has no connection: it waits for one, asleep or on its way to the mutex. -/
def Unoccupied (pool : UserPool workers) (index : Fin workers) : Prop :=
  (pool.worker index).Locks ∨ pool.worker index = .blocked

/-- No wake-up is lost: while a worker sleeps unsignalled, at most as many descriptors are in
the ring as there are signalled workers still to lock the mutex. In particular the ring is
empty when all the workers without a connection are asleep and unsignalled. -/
theorem no_lost_wakeup (workers : Nat) (kernel : Finset Nat → Nat → Bool)
    (pool : UserPool workers) (reached : (machine workers kernel).Reachable pool)
    (running : pool.status = .running) :
    (pool.Sleeps → pool.pending ≤ pool.signalled.card) ∧
      ¬ (0 < pool.pending ∧ (∃ index, pool.Unoccupied index) ∧
        ∀ index, pool.Unoccupied index → pool.worker index = .blocked) := by
  have covered : pool.Sleeps → pool.pending ≤ pool.signalled.card :=
    covered_of_reachable reached running
  refine ⟨covered, ?_⟩
  rintro ⟨waiting, ⟨sleeper, unoccupied⟩, asleep⟩
  have someone : 0 < pool.signalled.card :=
    lt_of_lt_of_le waiting (covered ⟨sleeper, asleep sleeper unoccupied⟩)
  obtain ⟨index, member⟩ := Finset.card_pos.mp someone
  have signal := mem_signalled.mp member
  have blocked := asleep index (Or.inl (by rw [signal]; trivial))
  rw [signal] at blocked
  cases blocked

/-- Three workers fall asleep; two descriptors are put and two of the workers signalled. -/
def wakeupRun : List (Action 3) :=
  [.lock 0, .lock 1, .lock 2, .accept 4, .put {0}, .accept 5, .put {2}]

theorem no_lost_wakeup_run :
    ((machine 3 unusedDescriptor).after wakeupRun).Sleeps ∧
      ((machine 3 unusedDescriptor).after wakeupRun).pending = 2 ∧
      ((machine 3 unusedDescriptor).after wakeupRun).pending ≤
        ((machine 3 unusedDescriptor).after wakeupRun).signalled.card :=
  have sleeps : ((machine 3 unusedDescriptor).after wakeupRun).Sleeps := ⟨1, by decide⟩
  have reached := Machine.reachable_after wakeupRun (by decide)
  ⟨sleeps, by decide, (no_lost_wakeup 3 unusedDescriptor _ reached (by decide)).1 sleeps⟩

end SocketC.UserPool
