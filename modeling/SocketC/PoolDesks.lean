/-
This file shows that the two pre-threaded servers are schedulers of one desk. The
resources are the connected descriptors; `Accept` opens one, a worker begins to serve
it when it enters `web_child`, and closes it after `web_child` has returned. The ring
and the two mutexes are internal. That a worker begins with a descriptor that is open
and that nobody else serves is the ownership invariant of the pools, for a kernel
whose `accept` returns no open descriptor.
-/

import SocketC.Desk
import SocketC.Ownership

namespace SocketC

open Custody

theorem fresh_unusedDescriptor : Fresh unusedDescriptor := fun _ _ returned =>
  (of_decide_eq_true returned).2

/-! ### Workers whose state says what they serve -/

section Workers

variable {workers : Nat} {State : Type} {inChild : State → Option Nat} {held : State → Multiset Nat}
  {common : Multiset Nat} {opened : Finset Nat} {states : Fin workers → State}
  {index : Fin workers} {state : State} {connfd : Nat}

/-- A worker that goes elsewhere outside `web_child` does not show. -/
theorem desk_goes {event : DeskEvent (Fin workers) Nat} {connected : Finset Nat}
    (same : inChild state = inChild (states index))
    (changed : Desk.Moves ⟨opened, fun other => inChild (states other)⟩ event
      ⟨connected, fun other => inChild (states other)⟩) :
    Desk.Moves ⟨opened, fun other => inChild (states other)⟩ event
      ⟨connected, fun other => inChild (Function.update states index state other)⟩ := by
  rwa [Desk.serving_update, same, Function.update_eq_self]

/-- A worker that holds a descriptor enters `web_child` with it. -/
theorem desk_begins (exclusive : Exclusive common (fun other => held (states other)) opened)
    (holds : ∀ state connfd, inChild state = some connfd → connfd ∈ held state)
    (outside : inChild (states index) = none) (holding : connfd ∈ held (states index))
    (inside : inChild state = some connfd) :
    Desk.Moves ⟨opened, fun other => inChild (states other)⟩ (.begin index)
      ⟨opened, fun other => inChild (Function.update states index state other)⟩ := by
  rw [Desk.serving_update, inside]
  have unserved (other : Fin workers) : inChild (states other) ≠ some connfd := by
    intro serving
    have same := exclusive.holder_eq (holds (states other) connfd serving) holding
    rw [same, outside] at serving
    cases serving
  exact .begin index connfd outside (exclusive.mem_opened holding) unserved

/-- A worker that has left `web_child` closes its descriptor. -/
theorem desk_closes (here : inChild (states index) = some connfd)
    (outside : inChild state = none) :
    Desk.Moves ⟨opened, fun other => inChild (states other)⟩ (.close index)
      ⟨opened.erase connfd, fun other => inChild (Function.update states index state other)⟩ := by
  rw [Desk.serving_update, outside]
  exact .close index connfd here

end Workers

/-! ### The user-scheduled server -/

/-- The descriptor that the worker serves in `web_child`. -/
def UserWorker.inChild : UserWorker → Option Nat
  | .serving connfd => some connfd
  | .idle | .blocked | .signalled | .awake | .taken _ => none

theorem UserWorker.mem_held_of_inChild (worker : UserWorker) (connfd : Nat)
    (serving : worker.inChild = some connfd) : connfd ∈ worker.held := by
  cases worker with
  | serving held =>
    rw [← Option.some.inj serving]
    exact Multiset.mem_singleton_self held
  | idle | blocked | signalled | awake | taken => cases serving

namespace UserPool

variable {workers : Nat} {kernel : Finset Nat → Nat → Bool}

/-- What the desk shows of the pool. -/
def desk (pool : UserPool workers) : Desk (Fin workers) Nat where
  opened := pool.connected
  serving := fun index => (pool.worker index).inChild

/-- What an action does to the desk. -/
def event (pool : UserPool workers) : Action workers → DeskEvent (Fin workers) Nat
  | .accept connfd => .accept connfd
  | .put _ => if Ring.advance maxNCli pool.iput = pool.iget then .exit else .internal
  | .lock _ | .wakeup _ => .internal
  | .count index => .begin index
  | .close index => .close index
  | .exit => .exit

/-- A signal moves sleeping workers only. -/
theorem desk_put {pool next : UserPool workers} {woken : Finset (Fin workers)}
    (wakes : pool.Wakes woken) (opened : next.connected = pool.connected)
    (moved : next.worker = fun index => if index ∈ woken then .signalled else pool.worker index) :
    Desk.Moves pool.desk .internal next.desk := by
  have same (index : Fin workers) : (next.worker index).inChild = (pool.worker index).inChild := by
    simp only [moved]
    split
    · rename_i inWoken
      rw [wakes.1 index inWoken]
      rfl
    · rfl
  have shown : next.desk = pool.desk := by
    unfold desk
    rw [opened, funext same]
  rw [shown]
  exact .internal

theorem inChild_of_locks {worker : UserWorker} (locks : worker.Locks) : worker.inChild = none := by
  cases worker with
  | idle | signalled | awake => rfl
  | blocked | taken | serving => cases locks

/-- Each action does to the desk what `event` says. -/
theorem desk_moves (fresh : Fresh kernel) {pool next : UserPool workers} {action : Action workers}
    (reached : (machine workers kernel).Reachable pool)
    (taken : (machine workers kernel).step pool action = some next) :
    Desk.Moves pool.desk (pool.event action) next.desk := by
  have running := (moves_of_step taken).1
  have exclusive := Owns.exclusive (owned_of_reachable fresh reached running)
  simp only [machine, step, if_pos running] at taken
  cases action with
  | accept connfd =>
    simp only [accept, Option.ite_none_right_eq_some, Option.some.injEq] at taken
    obtain ⟨⟨-, returned⟩, rfl⟩ := taken
    exact .accept connfd (fresh _ _ returned)
  | put woken =>
    simp only [put] at taken
    split at taken
    · cases taken
    · rename_i connfd holding
      simp only [event]
      split at taken
      · rename_i full
        rw [if_pos full, ← Option.some.inj taken]
        exact .exit
      · rename_i room
        rw [if_neg room]
        simp only [Option.ite_none_right_eq_some, Option.some.injEq] at taken
        obtain ⟨wakes, rfl⟩ := taken
        exact desk_put wakes rfl rfl
  | lock index =>
    simp only [lock, Option.ite_none_right_eq_some] at taken
    obtain ⟨locks, taken⟩ := taken
    have outside := inChild_of_locks locks
    split at taken
    · obtain rfl := Option.some.inj taken
      exact desk_goes outside.symm .internal
    · obtain rfl := Option.some.inj taken
      exact desk_goes outside.symm .internal
  | wakeup index =>
    simp only [wakeup, Option.ite_none_right_eq_some, Option.some.injEq] at taken
    obtain ⟨blocked, rfl⟩ := taken
    exact desk_goes (by rw [blocked]; rfl) .internal
  | count index =>
    simp only [count] at taken
    split at taken
    · rename_i connfd holds
      have holding : connfd ∈ (pool.worker index).held := by
        rw [holds]
        exact Multiset.mem_singleton_self connfd
      obtain rfl := Option.some.inj taken
      exact desk_begins exclusive UserWorker.mem_held_of_inChild (by rw [holds]; rfl) holding rfl
    · cases taken
  | close index =>
    simp only [close] at taken
    split at taken
    · rename_i connfd serving
      have here : (pool.worker index).inChild = some connfd := by rw [serving]; rfl
      rw [if_pos (exclusive.mem_opened (UserWorker.mem_held_of_inChild _ connfd here))] at taken
      obtain rfl := Option.some.inj taken
      exact desk_closes here rfl
    · cases taken
  | exit =>
    rw [← Option.some.inj taken]
    exact .exit

/-- The user-scheduled pool as a scheduler; its main thread accepts. -/
def scheduler (workers : Nat) {kernel : Finset Nat → Nat → Bool} (fresh : Fresh kernel) :
    Scheduler (Fin workers) Nat where
  State := UserPool workers
  Action := Action workers
  machine := machine workers kernel
  view := desk
  event := event
  awaits := fun pool => decide (pool.acceptor = .accepting)
  starts := fun _ => rfl
  refines := fun _ _ _ reached taken => desk_moves fresh reached taken

end UserPool

/-! ### The kernel-scheduled server -/

/-- The descriptor that the worker serves in `web_child`. -/
def KernelWorker.inChild : KernelWorker → Option Nat
  | .serving connfd => some connfd
  | .idle | .accepting | .accepted _ | .taken _ => none

theorem KernelWorker.mem_held_of_inChild (worker : KernelWorker) (connfd : Nat)
    (serving : worker.inChild = some connfd) : connfd ∈ worker.held := by
  cases worker with
  | serving held =>
    rw [← Option.some.inj serving]
    exact Multiset.mem_singleton_self held
  | idle | accepting | accepted | taken => cases serving

namespace KernelPool

variable {workers : Nat} {kernel : Finset Nat → Nat → Bool}

/-- What the desk shows of the pool. -/
def desk (pool : KernelPool workers) : Desk (Fin workers) Nat where
  opened := pool.connected
  serving := fun index => (pool.worker index).inChild

/-- What an action does to the desk. -/
def event : Action workers → DeskEvent (Fin workers) Nat
  | .lock _ | .unlock _ => .internal
  | .accept _ connfd => .accept connfd
  | .count index => .begin index
  | .close index => .close index
  | .exit => .exit

/-- Each action does to the desk what `event` says. -/
theorem desk_moves (fresh : Fresh kernel) {pool next : KernelPool workers}
    {action : Action workers} (reached : (machine workers kernel).Reachable pool)
    (taken : (machine workers kernel).step pool action = some next) :
    Desk.Moves pool.desk (event action) next.desk := by
  have running := (moves_of_step taken).1
  have exclusive := Owns.exclusive (owned_of_reachable fresh reached running)
  simp only [machine, step, if_pos running] at taken
  cases action with
  | lock index =>
    simp only [lock, Option.ite_none_right_eq_some, Option.some.injEq] at taken
    obtain ⟨⟨idle, -⟩, rfl⟩ := taken
    exact desk_goes (by rw [idle]; rfl) .internal
  | accept index connfd =>
    simp only [accept, Option.ite_none_right_eq_some, Option.some.injEq] at taken
    obtain ⟨⟨accepting, returned⟩, rfl⟩ := taken
    exact desk_goes (by rw [accepting]; rfl) (.accept connfd (fresh _ _ returned))
  | unlock index =>
    simp only [unlock] at taken
    split at taken
    · rename_i connfd accepted
      obtain rfl := Option.some.inj taken
      exact desk_goes (by rw [accepted]; rfl) .internal
    · cases taken
  | count index =>
    simp only [count] at taken
    split at taken
    · rename_i connfd holds
      have holding : connfd ∈ (pool.worker index).held := by
        rw [holds]
        exact Multiset.mem_singleton_self connfd
      obtain rfl := Option.some.inj taken
      exact desk_begins exclusive KernelWorker.mem_held_of_inChild (by rw [holds]; rfl) holding rfl
    · cases taken
  | close index =>
    simp only [close] at taken
    split at taken
    · rename_i connfd serving
      have here : (pool.worker index).inChild = some connfd := by rw [serving]; rfl
      rw [if_pos (exclusive.mem_opened (KernelWorker.mem_held_of_inChild _ connfd here))] at taken
      obtain rfl := Option.some.inj taken
      exact desk_closes here rfl
    · cases taken
  | exit =>
    rw [← Option.some.inj taken]
    exact .exit

/-- The kernel-scheduled pool as a scheduler; a worker accepts. -/
def scheduler (workers : Nat) {kernel : Finset Nat → Nat → Bool} (fresh : Fresh kernel) :
    Scheduler (Fin workers) Nat where
  State := KernelPool workers
  Action := Action workers
  machine := machine workers kernel
  view := desk
  event := fun _ => event
  awaits := fun pool => decide (∃ index, pool.worker index = .accepting)
  starts := fun _ => rfl
  refines := fun _ _ _ reached taken => desk_moves fresh reached taken

end KernelPool

end SocketC
