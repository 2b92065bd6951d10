/-
This file is about the statistics that `sig_int` prints in the two pre-threaded
servers, the `thread_count` of every worker. A worker increments its counter outside
of any lock, after it has obtained a descriptor, so a counter may be one behind. The
descriptors that `Accept` has returned are the counted ones, those of the workers that
are behind, and in the user-scheduled server those on their way through the ring.

In the user-scheduled server the connections a worker has taken are its entries in the
history of the take sections; in the kernel-scheduled one they are its calls of
`Accept` that have returned, in the run that led to the state.
-/

import SocketC.OverflowCheck
import SocketC.Ownership
import SocketC.Tally

namespace SocketC

open Tally

/-! ### The user-scheduled server -/

/-- The worker has taken a descriptor and not yet incremented its counter. -/
def UserWorker.owes : UserWorker → Bool
  | .taken _ => true
  | .idle | .blocked | .signalled | .awake | .serving _ => false

theorem UserWorker.owes_of_locks {worker : UserWorker} (locks : worker.Locks) :
    worker.owes = false := by
  cases worker with
  | idle | signalled | awake => rfl
  | blocked | taken | serving => exact locks.elim

namespace UserPool

variable {workers : Nat} {kernel : Finset Nat → Nat → Bool}

/-- The workers that took a descriptor, one entry for each. -/
def takers (pool : UserPool workers) : List (Fin workers) := pool.takes.map Prod.fst

structure Counted (pool : UserPool workers) : Prop where
  balanced : Balanced pool.takers pool.threadCount (UserWorker.owes ∘ pool.worker)
  accepted : pool.accepts = pool.puts.length + pool.acceptor.held.card
  ahead : pool.takes.length ≤ pool.puts.length

theorem counted_start (workers : Nat) : (start workers).Counted :=
  ⟨balanced_nil, rfl, le_rfl⟩

/-- A signal moves sleeping workers only, and these owe nothing. -/
theorem owes_put {pool : UserPool workers} {woken : Finset (Fin workers)}
    (wakes : pool.Wakes woken) :
    (UserWorker.owes ∘ fun index => if index ∈ woken then .signalled else pool.worker index) =
      UserWorker.owes ∘ pool.worker := by
  funext index
  show (if index ∈ woken then UserWorker.signalled else pool.worker index).owes = _
  split
  · rename_i inWoken
    rw [Function.comp_apply, wakes.1 index inWoken]
    rfl
  · rfl

/-- There is room in the history for one more take when the ring is not empty. -/
theorem takes_lt_puts {pool : UserPool workers} (inside : pool.InRing) (fifo : pool.Fifo)
    (running : pool.status = .running) (nonempty : pool.iget ≠ pool.iput) :
    pool.takes.length < pool.puts.length := by
  have split := fifo (by rw [running]; nofun)
  have length : pool.taken.length = pool.takes.length := List.length_map _
  rw [← split, queued_take pool inside nonempty, List.length_append, length, List.length_cons]
  omega

theorem Counted.moves {pool next : UserPool workers} (counted : pool.Counted)
    (inside : pool.InRing) (fifo : pool.Fifo) (running : pool.status = .running)
    (moves : Moves kernel pool next) : next.Counted := by
  obtain ⟨balanced, accepted, ahead⟩ := counted
  cases moves with
  | accept connfd accepting returned =>
    rw [accepting] at accepted
    exact ⟨balanced, congrArg (· + 1) accepted, ahead⟩
  | put connfd woken holding room wakes =>
    rw [holding] at accepted
    refine ⟨(owes_put wakes).symm ▸ balanced, ?_, ?_⟩
    · rw [List.length_append]
      exact accepted
    · rw [List.length_append]
      exact Nat.le_succ_of_le ahead
  | block index locks empty =>
    have same : UserWorker.blocked.owes = (pool.worker index).owes :=
      (UserWorker.owes_of_locks locks).symm
    exact ⟨balanced.goes same, accepted, ahead⟩
  | take index locks nonempty =>
    refine ⟨?_, accepted, ?_⟩
    · rw [takers, List.map_append]
      exact balanced.enters (UserWorker.owes_of_locks locks) rfl
    · rw [List.length_append]
      exact takes_lt_puts inside fifo running nonempty
  | wakeup index blocked => exact ⟨balanced.goes (by rw [blocked]; rfl), accepted, ahead⟩
  | count index connfd taken =>
    exact ⟨balanced.counts (by rw [taken]; rfl) rfl, accepted, ahead⟩
  | close index connfd serving opened =>
    exact ⟨balanced.goes (by rw [serving]; rfl), accepted, ahead⟩
  | overflow | leave => exact ⟨balanced, accepted, ahead⟩

theorem counted_of_reachable {pool : UserPool workers}
    (reached : (machine workers kernel).Reachable pool) : pool.Counted := by
  refine reached.induction Counted (counted_start workers)
    fun current action next before counted taken => ?_
  obtain ⟨running, moves⟩ := moves_of_step taken
  exact counted.moves (inRing_of_reachable before) (fifo_of_reachable before) running moves

/-- The statistics of the user-scheduled server: every counter is the number of connections the
worker has taken, less one if it owes a count, and the descriptors that `Accept` has returned are
the counted ones, the ones owed, those that wait in the ring and the one of the main thread. -/
structure Conserved (pool : UserPool workers) : Prop where
  worker : ∀ index, pool.threadCount index + (if (pool.worker index).owes then 1 else 0) =
    pool.takers.count index
  total : pool.accepts = ∑ index, pool.threadCount index +
    (Finset.univ.filter fun index => (pool.worker index).owes = true).card +
    pool.waiting.length + pool.acceptor.held.card

theorem Counted.conserved {pool : UserPool workers} (counted : pool.Counted) : pool.Conserved := by
  refine ⟨counted.balanced.count_eq, ?_⟩
  have length : pool.waiting.length = pool.puts.length - pool.takes.length := List.length_drop
  have entries : pool.takers.length = pool.takes.length := List.length_map _
  have sum : ∑ index, pool.threadCount index +
      (Finset.univ.filter fun index => (pool.worker index).owes = true).card =
      pool.takers.length := counted.balanced.sum
  have ahead := counted.ahead
  rw [sum, length, entries, counted.accepted]
  omega

end UserPool

/-! ### The kernel-scheduled server -/

/-- The worker has got a descriptor from `Accept` and not yet incremented its counter. -/
def KernelWorker.owes : KernelWorker → Bool
  | .accepted _ | .taken _ => true
  | .idle | .accepting | .serving _ => false

/-- The worker holds `mlock`. -/
def KernelWorker.Locked : KernelWorker → Prop
  | .accepting | .accepted _ => True
  | .idle | .taken _ | .serving _ => False

namespace KernelPool

variable {workers : Nat} {kernel : Finset Nat → Nat → Bool}

/-- The worker whose `Accept` returns in the step. -/
def Action.acceptor : Action workers → Option (Fin workers)
  | .accept index _ => some index
  | .lock _ | .unlock _ | .count _ | .close _ | .exit => none

/-- The workers whose `Accept` returned in the run, one entry for each connection. -/
def acceptors (actions : List (Action workers)) : List (Fin workers) :=
  actions.filterMap Action.acceptor

theorem acceptors_append (actions : List (Action workers)) (action : Action workers) :
    acceptors (actions ++ [action]) = acceptors actions ++ action.acceptor.toList := by
  rw [acceptors, List.filterMap_append]
  cases acceptor : action.acceptor with
  | none => rw [List.filterMap_cons_none acceptor]; rfl
  | some index => rw [List.filterMap_cons_some acceptor]; rfl

/-- The counters are balanced with the history, and the history has an entry for every descriptor
that `Accept` has returned. -/
structure Counted (history : List (Fin workers)) (pool : KernelPool workers) : Prop where
  balanced : Balanced history pool.threadCount (KernelWorker.owes ∘ pool.worker)
  accepted : pool.accepts = history.length

theorem Counted.step {history : List (Fin workers)} {pool next : KernelPool workers}
    {action : Action workers} (counted : Counted history pool)
    (taken : (machine workers kernel).step pool action = some next) :
    Counted (history ++ action.acceptor.toList) next := by
  obtain ⟨-, taken⟩ := Option.ite_none_right_eq_some.mp taken
  obtain ⟨balanced, accepted⟩ := counted
  cases action with
  | lock index =>
    obtain ⟨⟨idle, -⟩, moved⟩ := Option.ite_none_right_eq_some.mp taken
    obtain rfl := Option.some.inj moved
    rw [Action.acceptor, Option.toList_none, List.append_nil]
    exact ⟨balanced.goes (by rw [idle]; rfl), accepted⟩
  | accept index connfd =>
    obtain ⟨⟨accepting, -⟩, moved⟩ := Option.ite_none_right_eq_some.mp taken
    obtain rfl := Option.some.inj moved
    refine ⟨balanced.enters (by rw [accepting]; rfl) rfl, ?_⟩
    show pool.accepts + 1 = (history ++ [index]).length
    rw [List.length_append, accepted]
    rfl
  | unlock index =>
    simp only [unlock] at taken
    split at taken
    · rename_i connfd held
      obtain rfl := Option.some.inj taken
      rw [Action.acceptor, Option.toList_none, List.append_nil]
      exact ⟨balanced.goes (by rw [held]; rfl), accepted⟩
    · cases taken
  | count index =>
    simp only [count] at taken
    split at taken
    · rename_i connfd held
      obtain rfl := Option.some.inj taken
      rw [Action.acceptor, Option.toList_none, List.append_nil]
      exact ⟨balanced.counts (by rw [held]; rfl) rfl, accepted⟩
    · cases taken
  | close index =>
    simp only [close] at taken
    rw [Action.acceptor, Option.toList_none, List.append_nil]
    split at taken
    · rename_i connfd serving
      split at taken
      · obtain rfl := Option.some.inj taken
        exact ⟨balanced.goes (by rw [serving]; rfl), accepted⟩
      · obtain rfl := Option.some.inj taken
        exact ⟨balanced, accepted⟩
    · cases taken
  | exit =>
    obtain rfl := Option.some.inj taken
    rw [Action.acceptor, Option.toList_none, List.append_nil]
    exact ⟨balanced, accepted⟩

theorem counted_of_run {actions : List (Action workers)} {pool : KernelPool workers}
    (ran : (machine workers kernel).run (machine workers kernel).start actions = some pool) :
    Counted (acceptors actions) pool := by
  refine Machine.run_induction (fun actions pool => Counted (acceptors actions) pool) ?_ ?_ ran
  · exact ⟨balanced_nil, rfl⟩
  · intro actions current action next counted taken
    rw [acceptors_append]
    exact counted.step taken

/-- A worker between the two calls on `mlock` holds it. -/
def Exclusive (pool : KernelPool workers) : Prop :=
  ∀ index, (pool.worker index).Locked → pool.mlock = some index

/-- A worker that does not hold `mlock` goes on without it. -/
theorem Exclusive.goes {pool : KernelPool workers} (exclusive : pool.Exclusive)
    {index other : Fin workers} {state : KernelWorker} (outside : ¬ state.Locked)
    (locked : (Function.update pool.worker index state other).Locked) :
    pool.mlock = some other ∧ other ≠ index := by
  by_cases same : other = index
  · rw [same, Function.update_self] at locked
    exact absurd locked outside
  · rw [Function.update_of_ne same] at locked
    exact ⟨exclusive other locked, same⟩

theorem Exclusive.moves {pool next : KernelPool workers} (exclusive : pool.Exclusive)
    (moves : Moves kernel pool next) : next.Exclusive := by
  cases moves with
  | lock index idle free =>
    intro other locked
    by_cases same : other = index
    · rw [same]
    · have before := exclusive other ((congrArg _ (Function.update_of_ne same _ _)).mp locked)
      rw [free] at before
      cases before
  | accept index connfd accepting returned =>
    intro other locked
    by_cases same : other = index
    · exact same ▸ exclusive index (accepting ▸ trivial)
    · exact exclusive other ((congrArg _ (Function.update_of_ne same _ _)).mp locked)
  | unlock index connfd accepted =>
    intro other locked
    obtain ⟨holder, different⟩ := exclusive.goes id locked
    -- The mutex was held by the worker that unlocks it.
    rw [exclusive index (accepted ▸ trivial)] at holder
    exact absurd (Option.some.inj holder).symm different
  | count index connfd taken => exact fun other locked => (exclusive.goes id locked).1
  | close index connfd serving opened => exact fun other locked => (exclusive.goes id locked).1
  | leave => exact exclusive

theorem exclusive_of_reachable {pool : KernelPool workers}
    (reached : (machine workers kernel).Reachable pool) : pool.Exclusive :=
  reached.invariant Exclusive (fun _ => False.elim) fun _ _ _ exclusive taken =>
    exclusive.moves (moves_of_step taken).2

/-- The statistics of the kernel-scheduled server, after a run in which `Accept` has returned to
these workers; and at most one worker is inside `Accept`. -/
structure Conserved (history : List (Fin workers)) (pool : KernelPool workers) : Prop where
  worker : ∀ index, pool.threadCount index + (if (pool.worker index).owes then 1 else 0) =
    history.count index
  total : pool.accepts = ∑ index, pool.threadCount index +
    (Finset.univ.filter fun index => (pool.worker index).owes = true).card
  single : ∀ index other, pool.worker index = .accepting → pool.worker other = .accepting →
    index = other

theorem conserved_of_run {actions : List (Action workers)} {pool : KernelPool workers}
    (ran : (machine workers kernel).run (machine workers kernel).start actions = some pool) :
    Conserved (acceptors actions) pool := by
  have counted := counted_of_run ran
  have exclusive := exclusive_of_reachable ⟨actions, ran⟩
  refine ⟨counted.balanced.count_eq, ?_, fun index other here there => ?_⟩
  · rw [counted.accepted]
    exact counted.balanced.sum.symm
  · have first := exclusive index (here ▸ trivial)
    have second := exclusive other (there ▸ trivial)
    exact Option.some.inj (first.symm.trans second)

end KernelPool

/-! ### Both servers -/

/-- Whenever `sig_int` is called, in a server with any number of workers and after any
interleaving of their steps, the counters it prints are balanced. -/
theorem statistics_conserved (workers : Nat) (kernel : Finset Nat → Nat → Bool) :
    (∀ pool : UserPool workers, (UserPool.machine workers kernel).Reachable pool →
      pool.Conserved) ∧
    (∀ (actions : List (KernelPool.Action workers)) (pool : KernelPool workers),
      (KernelPool.machine workers kernel).run (KernelPool.machine workers kernel).start actions =
        some pool → KernelPool.Conserved (KernelPool.acceptors actions) pool) :=
  ⟨fun _ reached => (UserPool.counted_of_reachable reached).conserved,
    fun _ _ ran => KernelPool.conserved_of_run ran⟩

/-- One descriptor is taken and not counted, one waits, and the main thread holds a third. -/
def owingRun : List (UserPool.Action 6) :=
  [.accept 4, .put ∅, .lock 0, .accept 5, .put ∅, .accept 6]

/-- One worker is inside `web_child`, and another has just returned from `Accept`. -/
def acceptingRun : List (KernelPool.Action 6) :=
  [.lock 0, .accept 0 4, .unlock 0, .count 0, .lock 1, .accept 1 5]

theorem statistics_conserved_runs :
    ((UserPool.machine 6 unusedDescriptor).after owingRun).accepts = 3 ∧
      ((UserPool.machine 6 unusedDescriptor).after owingRun).Conserved ∧
      ((KernelPool.machine 6 unusedDescriptor).after acceptingRun).accepts = 2 ∧
      KernelPool.Conserved [0, 1] ((KernelPool.machine 6 unusedDescriptor).after acceptingRun) := by
  obtain ⟨user, kernel⟩ := statistics_conserved 6 unusedDescriptor
  exact ⟨by decide, user _ (Machine.reachable_after owingRun (by decide)), by decide,
    kernel acceptingRun _ rfl⟩

end SocketC
