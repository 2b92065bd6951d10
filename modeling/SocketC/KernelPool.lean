/-
This file models the pre-threaded server with kernel scheduling,
`server/prethread_server_kernel_schedule.c`. There is no queue: every worker
calls `Accept` itself, one at a time under `mlock`, counts the connection, serves
it with `web_child` and closes it. The main thread only pauses. Which numbers the
kernel may return from `Accept`, given the open ones, is a parameter.
-/

import SocketC.Transition

namespace SocketC

/-! ### The state -/

/-- Where a worker stands in `thread_main`. -/
inductive KernelWorker where
  /-- About to call `Pthread_mutex_lock`. -/
  | idle
  /-- Inside `Accept`, `mlock` held. -/
  | accepting
  /-- `Accept` has returned, `mlock` still held. -/
  | accepted (connfd : Nat)
  /-- `mlock` released, `thread_count` not yet incremented. -/
  | taken (connfd : Nat)
  /-- In `web_child`, or between it and `Close`. -/
  | serving (connfd : Nat)
  deriving DecidableEq

/-- The server process. `mlock` names the worker that holds the mutex; `accepts` counts the
descriptors that `Accept` has returned. -/
structure KernelPool (workers : Nat) where
  mlock : Option (Fin workers)
  worker : Fin workers → KernelWorker
  threadCount : Fin workers → Nat
  connected : Finset Nat
  running : Bool
  accepts : Nat

namespace KernelPool

variable {workers : Nat}

def start (workers : Nat) : KernelPool workers where
  mlock := none
  worker := fun _ => .idle
  threadCount := fun _ => 0
  connected := ∅
  running := true
  accepts := 0

/-! ### The actions -/

/-- `Pthread_mutex_lock(&mlock)` (line 93). -/
def lock (index : Fin workers) (pool : KernelPool workers) : Option (KernelPool workers) :=
  if pool.worker index = .idle ∧ pool.mlock = none then
    some { pool with
      mlock := some index
      worker := Function.update pool.worker index .accepting }
  else none

/-- `Accept` (line 94) returns a number that the kernel may return. -/
def accept (kernel : Finset Nat → Nat → Bool) (index : Fin workers) (connfd : Nat)
    (pool : KernelPool workers) : Option (KernelPool workers) :=
  if pool.worker index = .accepting ∧ kernel pool.connected connfd = true then
    some { pool with
      worker := Function.update pool.worker index (.accepted connfd)
      connected := insert connfd pool.connected
      accepts := pool.accepts + 1 }
  else none

/-- `Pthread_mutex_unlock(&mlock)` (line 95). -/
def unlock (index : Fin workers) (pool : KernelPool workers) : Option (KernelPool workers) :=
  match pool.worker index with
  | .accepted connfd =>
    some { pool with
      mlock := none
      worker := Function.update pool.worker index (.taken connfd) }
  | _ => none

/-- `tptr[i].thread_count++` (line 99). -/
def count (index : Fin workers) (pool : KernelPool workers) : Option (KernelPool workers) :=
  match pool.worker index with
  | .taken connfd =>
    some { pool with
      worker := Function.update pool.worker index (.serving connfd)
      threadCount := Function.update pool.threadCount index (pool.threadCount index + 1) }
  | _ => none

/-- `web_child` has returned and the worker calls `Close` (line 102), which leaves through
`err_sys` when the number is not open. -/
def close (index : Fin workers) (pool : KernelPool workers) : Option (KernelPool workers) :=
  match pool.worker index with
  | .serving connfd =>
    if connfd ∈ pool.connected then
      some { pool with
        worker := Function.update pool.worker index .idle
        connected := pool.connected.erase connfd }
    else some { pool with running := false }
  | _ => none

/-- What the scheduler and the kernel may do next. `exit` is the end of the process in an
error wrapper, in `web_child`'s `err_quit` or in `sig_int`. -/
inductive Action (workers : Nat) where
  | lock (index : Fin workers)
  | accept (index : Fin workers) (connfd : Nat)
  | unlock (index : Fin workers)
  | count (index : Fin workers)
  | close (index : Fin workers)
  | exit

/-- One action of a running process. -/
def step (kernel : Finset Nat → Nat → Bool) (pool : KernelPool workers)
    (action : Action workers) : Option (KernelPool workers) :=
  if pool.running then
    match action with
    | .lock index => pool.lock index
    | .accept index connfd => pool.accept kernel index connfd
    | .unlock index => pool.unlock index
    | .count index => pool.count index
    | .close index => pool.close index
    | .exit => some { pool with running := false }
  else none

/-- The server with the given number of workers on the given kernel. -/
def machine (workers : Nat) (kernel : Finset Nat → Nat → Bool) :
    Machine (KernelPool workers) (Action workers) where
  start := start workers
  step := step kernel

/-! ### Everything one step can do -/

/-- The effects of a step, one constructor per way through an action. -/
inductive Moves (kernel : Finset Nat → Nat → Bool) (pool : KernelPool workers) :
    KernelPool workers → Prop where
  | lock (index : Fin workers) (idle : pool.worker index = .idle) (free : pool.mlock = none) :
      Moves kernel pool { pool with
        mlock := some index
        worker := Function.update pool.worker index .accepting }
  | accept (index : Fin workers) (connfd : Nat) (accepting : pool.worker index = .accepting)
      (returned : kernel pool.connected connfd = true) :
      Moves kernel pool { pool with
        worker := Function.update pool.worker index (.accepted connfd)
        connected := insert connfd pool.connected
        accepts := pool.accepts + 1 }
  | unlock (index : Fin workers) (connfd : Nat) (accepted : pool.worker index = .accepted connfd) :
      Moves kernel pool { pool with
        mlock := none
        worker := Function.update pool.worker index (.taken connfd) }
  | count (index : Fin workers) (connfd : Nat) (taken : pool.worker index = .taken connfd) :
      Moves kernel pool { pool with
        worker := Function.update pool.worker index (.serving connfd)
        threadCount := Function.update pool.threadCount index (pool.threadCount index + 1) }
  | close (index : Fin workers) (connfd : Nat) (serving : pool.worker index = .serving connfd)
      (opened : connfd ∈ pool.connected) :
      Moves kernel pool { pool with
        worker := Function.update pool.worker index .idle
        connected := pool.connected.erase connfd }
  | leave : Moves kernel pool { pool with running := false }

theorem moves_of_step {kernel : Finset Nat → Nat → Bool} {pool next : KernelPool workers}
    {action : Action workers} (taken : (machine workers kernel).step pool action = some next) :
    pool.running = true ∧ Moves kernel pool next := by
  simp only [machine, step] at taken
  split at taken
  · rename_i running
    refine ⟨running, ?_⟩
    cases action with
    | lock index =>
      simp only [lock, Option.ite_none_right_eq_some, Option.some.injEq] at taken
      obtain ⟨⟨idle, free⟩, rfl⟩ := taken
      exact .lock index idle free
    | accept index connfd =>
      simp only [accept, Option.ite_none_right_eq_some, Option.some.injEq] at taken
      obtain ⟨⟨accepting, returned⟩, rfl⟩ := taken
      exact .accept index connfd accepting returned
    | unlock index =>
      simp only [unlock] at taken
      split at taken
      · rename_i connfd accepted
        exact Option.some.inj taken ▸ .unlock index connfd accepted
      · cases taken
    | count index =>
      simp only [count] at taken
      split at taken
      · rename_i connfd holds
        exact Option.some.inj taken ▸ .count index connfd holds
      · cases taken
    | close index =>
      simp only [close] at taken
      split at taken
      · rename_i connfd serving
        split at taken
        · rename_i opened
          exact Option.some.inj taken ▸ .close index connfd serving opened
        · exact Option.some.inj taken ▸ .leave
      · cases taken
    | exit => exact Option.some.inj taken ▸ .leave
  · cases taken

end KernelPool

end SocketC
