/-
This file proves descriptor ownership for the two pre-threaded servers. The
kernel reuses a number as soon as it is closed, possibly while a stale copy of
the same number is still in a consumed slot of the ring, so the statement is a
joint one: the descriptors held by the main thread, those pending in the ring and
those held by the workers are, as a multiset, the open connected descriptors.
Every accept, put, take and close moves one descriptor between these places.
-/

import SocketC.Handout
import SocketC.KernelPool
import SocketC.Custody

namespace SocketC

open Custody

/-! ### The user-scheduled server -/

/-- The descriptor the main thread holds between `Accept` and the put section. -/
def Acceptor.held : Acceptor → Multiset Nat
  | .accepting => 0
  | .holding connfd => {connfd}

/-- The descriptor a worker holds between the take section and `Close`. -/
def UserWorker.held : UserWorker → Multiset Nat
  | .idle | .blocked | .signalled | .awake => 0
  | .taken connfd | .serving connfd => {connfd}

theorem UserWorker.held_of_locks {worker : UserWorker} (locks : worker.Locks) :
    worker.held = 0 := by
  cases worker with
  | idle => rfl
  | blocked => cases locks
  | signalled => rfl
  | awake => rfl
  | taken connfd => cases locks
  | serving connfd => cases locks

namespace UserPool

variable {workers : Nat} {kernel : Finset Nat → Nat → Bool}

/-- The connections no worker has yet: the main thread's and the ring's. -/
def unserved (pool : UserPool workers) : Multiset Nat :=
  pool.acceptor.held + (pool.queued : Multiset Nat)

/-- The connections of the workers. -/
def served (pool : UserPool workers) : Multiset Nat := ∑ index, (pool.worker index).held

/-- A running server holds exactly the open connected descriptors, each once. -/
def Owned (pool : UserPool workers) : Prop :=
  pool.status = .running → Owns (pool.unserved + pool.served) pool.connected

theorem owned_start (workers : Nat) : (start workers).Owned := by
  intro _
  have none : (start workers).served = 0 := Finset.sum_eq_zero fun _ _ => rfl
  have empty : (start workers).queued = [] :=
    (Ring.contents_eq_nil_iff _ (inRing_start workers).getBound
      (inRing_start workers).putBound).mpr rfl
  unfold unserved
  rw [none, empty]
  rfl

/-- A signal moves sleeping workers only, and these hold nothing. -/
theorem served_put {pool next : UserPool workers} {woken : Finset (Fin workers)}
    (wakes : pool.Wakes woken)
    (moved : next.worker = fun index =>
      if index ∈ woken then .signalled else pool.worker index) :
    next.served = pool.served := by
  refine Finset.sum_congr rfl fun index _ => ?_
  rw [moved]
  show (if index ∈ woken then UserWorker.signalled else pool.worker index).held = _
  split
  · rename_i inWoken
    rw [wakes.1 index inWoken]
    rfl
  · rfl

/-- A worker changes its state and keeps what it holds. -/
theorem Owned.move {pool next : UserPool workers} (running : pool.status = .running)
    (owned : pool.Owned) {index : Fin workers} {state : UserWorker}
    (same : state.held = (pool.worker index).held) (kept : next.unserved = pool.unserved)
    (opened : next.connected = pool.connected)
    (moved : next.worker = Function.update pool.worker index state) : next.Owned := by
  intro _
  have served : next.served = pool.served := by
    unfold UserPool.served
    rw [moved]
    exact sum_update_same UserWorker.held pool.worker index state same
  rw [kept, served, opened]
  exact owned running

theorem Owned.moves {pool next : UserPool workers} (fresh : Fresh kernel) (inside : pool.InRing)
    (running : pool.status = .running) (owned : pool.Owned) (moves : Moves kernel pool next) :
    next.Owned := by
  have owns : Owns (pool.acceptor.held + (pool.queued : Multiset Nat) + pool.served)
      pool.connected := owned running
  cases moves with
  | accept connfd accepting returned =>
    intro _
    rw [accepting] at owns
    show Owns ({connfd} + (pool.queued : Multiset Nat) + pool.served)
      (insert connfd pool.connected)
    rw [add_assoc, Multiset.singleton_add]
    refine Owns.acquire ?_ (fresh _ _ returned)
    rw [show Acceptor.accepting.held = 0 from rfl, zero_add] at owns
    exact owns
  | overflow connfd holding full => exact fun stillRunning => nomatch stillRunning
  | put connfd woken holding room wakes =>
    intro _
    rw [holding] at owns
    show Owns (0 + ((Ring.contents _ maxNCli pool.iget _ : List Nat) : Multiset Nat) +
      UserPool.served _) pool.connected
    rw [queued_put pool inside connfd room, served_put wakes rfl, zero_add,
      ← Multiset.coe_add, add_comm (pool.queued : Multiset Nat)]
    exact owns
  | block index locks empty =>
    have same : UserWorker.blocked.held = (pool.worker index).held :=
      (UserWorker.held_of_locks locks).symm
    exact Owned.move running owned same rfl rfl rfl
  | take index locks nonempty =>
    intro _
    have received := sum_update_cons UserWorker.held pool.worker index
      (.taken (pool.clifd pool.iget)) (pool.clifd pool.iget) (UserWorker.held_of_locks locks) rfl
    rw [queued_take pool inside nonempty, ← Multiset.cons_coe, Multiset.add_cons,
      Multiset.cons_add] at owns
    show Owns (pool.acceptor.held +
      ((Ring.contents _ maxNCli _ pool.iput : List Nat) : Multiset Nat) +
      ∑ other, UserWorker.held _) pool.connected
    rw [received, Multiset.add_cons]
    exact owns
  | wakeup index blocked => exact Owned.move running owned (by rw [blocked]; rfl) rfl rfl rfl
  | count index connfd taken => exact Owned.move running owned (by rw [taken]; rfl) rfl rfl rfl
  | close index connfd serving opened =>
    intro _
    have released := sum_eq_cons_update UserWorker.held pool.worker index .idle connfd
      (by rw [serving]; rfl) rfl
    rw [served, released, Multiset.add_cons] at owns
    exact owns.release
  | leave => exact fun stillRunning => nomatch stillRunning

theorem owned_of_reachable (fresh : Fresh kernel) {pool : UserPool workers}
    (reached : (machine workers kernel).Reachable pool) : pool.Owned := by
  refine reached.induction Owned (owned_start workers)
    fun current action next before owned taken => ?_
  obtain ⟨running, moves⟩ := moves_of_step taken
  exact Owned.moves fresh (inRing_of_reachable before) running owned moves

end UserPool

/-! ### The kernel-scheduled server -/

/-- The descriptor a worker holds between `Accept` and `Close`. -/
def KernelWorker.held : KernelWorker → Multiset Nat
  | .idle | .accepting => 0
  | .accepted connfd | .taken connfd | .serving connfd => {connfd}

namespace KernelPool

variable {workers : Nat} {kernel : Finset Nat → Nat → Bool}

/-- A running server holds exactly the open connected descriptors, each once. -/
def Owned (pool : KernelPool workers) : Prop :=
  pool.running = true → Owns (0 + ∑ index, (pool.worker index).held) pool.connected

theorem owned_start (workers : Nat) : (start workers).Owned := by
  intro _
  have none : ∑ index, ((start workers).worker index).held = 0 :=
    Finset.sum_eq_zero fun _ _ => rfl
  rw [none]
  rfl

/-- A worker changes its state and keeps what it holds. -/
theorem Owned.move {pool next : KernelPool workers} (running : pool.running = true)
    (owned : pool.Owned) {index : Fin workers} {state : KernelWorker}
    (same : state.held = (pool.worker index).held) (opened : next.connected = pool.connected)
    (moved : next.worker = Function.update pool.worker index state) : next.Owned := by
  intro _
  rw [moved, opened, sum_update_same KernelWorker.held pool.worker index state same]
  exact owned running

theorem Owned.moves {pool next : KernelPool workers} (fresh : Fresh kernel)
    (running : pool.running = true) (owned : pool.Owned) (moves : Moves kernel pool next) :
    next.Owned := by
  have owns : Owns (0 + ∑ index, (pool.worker index).held) pool.connected := owned running
  cases moves with
  | lock index idle free => exact Owned.move running owned (by rw [idle]; rfl) rfl rfl
  | accept index connfd accepting returned =>
    intro _
    have received := sum_update_cons KernelWorker.held pool.worker index (.accepted connfd)
      connfd (by rw [accepting]; rfl) rfl
    show Owns (0 + ∑ other, KernelWorker.held _) (insert connfd pool.connected)
    rw [received, Multiset.add_cons]
    exact owns.acquire (fresh _ _ returned)
  | unlock index connfd accepted => exact Owned.move running owned (by rw [accepted]; rfl) rfl rfl
  | count index connfd taken => exact Owned.move running owned (by rw [taken]; rfl) rfl rfl
  | close index connfd serving opened =>
    intro _
    have released := sum_eq_cons_update KernelWorker.held pool.worker index .idle connfd
      (by rw [serving]; rfl) rfl
    rw [released, Multiset.add_cons] at owns
    exact owns.release
  | leave => exact fun stillRunning => nomatch stillRunning

theorem owned_of_reachable (fresh : Fresh kernel) {pool : KernelPool workers}
    (reached : (machine workers kernel).Reachable pool) : pool.Owned := by
  refine reached.invariant Owned (owned_start workers) fun current action next owned taken => ?_
  obtain ⟨running, moves⟩ := moves_of_step taken
  exact Owned.moves fresh running owned moves

end KernelPool

/-! ### Ownership in both servers -/

/-- On a kernel whose `accept` returns no open descriptor, in every reachable state of a running
server, the descriptors of the main thread, of the ring and of the workers are pairwise distinct
and are together the open connected descriptors. So no two workers hold the same connection, and
the descriptor a worker closes is neither queued nor held by anybody else. -/
theorem descriptors_owned (workers : Nat) (kernel : Finset Nat → Nat → Bool)
    (fresh : Fresh kernel) :
    (∀ pool : UserPool workers, (UserPool.machine workers kernel).Reachable pool →
      pool.status = .running →
        Exclusive pool.unserved (fun index => (pool.worker index).held) pool.connected) ∧
    (∀ pool : KernelPool workers, (KernelPool.machine workers kernel).Reachable pool →
      pool.running = true →
        Exclusive 0 (fun index => (pool.worker index).held) pool.connected) := by
  constructor
  · intro pool reached running
    exact Owns.exclusive (UserPool.owned_of_reachable fresh reached running)
  · intro pool reached running
    exact Owns.exclusive (KernelPool.owned_of_reachable fresh reached running)

/-- A worker closes descriptor 4, which the kernel then hands out again. -/
def reuseRun : List (UserPool.Action 4) :=
  [.accept 4, .put ∅, .lock 0, .count 0, .close 0, .accept 4, .put ∅, .lock 1, .accept 5]

/-- Two workers hold a connection, the first one is inside `web_child`. -/
def acceptRun : List (KernelPool.Action 4) :=
  [.lock 0, .accept 0 4, .unlock 0, .count 0, .lock 1, .accept 1 5]

theorem descriptors_owned_runs :
    Exclusive ((UserPool.machine 4 unusedDescriptor).after reuseRun).unserved
        (fun index => (((UserPool.machine 4 unusedDescriptor).after reuseRun).worker index).held)
        ((UserPool.machine 4 unusedDescriptor).after reuseRun).connected ∧
      ((UserPool.machine 4 unusedDescriptor).after reuseRun).connected = {4, 5} ∧
      Exclusive 0
        (fun index => (((KernelPool.machine 4 unusedDescriptor).after acceptRun).worker index).held)
        ((KernelPool.machine 4 unusedDescriptor).after acceptRun).connected ∧
      ((KernelPool.machine 4 unusedDescriptor).after acceptRun).connected = {4, 5} :=
  have fresh : Fresh unusedDescriptor := fun _ _ returned => (of_decide_eq_true returned).2
  have owned := descriptors_owned 4 unusedDescriptor fresh
  ⟨owned.1 _ (Machine.reachable_after reuseRun (by decide)) (by decide),
    by decide,
    owned.2 _ (Machine.reachable_after acceptRun (by decide)) (by decide),
    by decide⟩

end SocketC
