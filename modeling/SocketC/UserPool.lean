/-
This file models the pre-threaded server with user scheduling,
`server/prethread_server_user_schedule.c`. The main thread accepts a connection
and puts its descriptor into the ring `clifd`; a pool of workers takes the
descriptors out, serves them with `web_child` and closes them.

The put section of `main` (lines 56-64) and the take section of `thread_main`
(lines 100-108) run under `clifd_mutex` and are one action each. A worker that
finds the ring empty blocks in `Pthread_cond_wait`; it leaves that state by a
signal or spuriously, and in both cases has to lock the mutex again and to test
the indices again. The kernel's part is the set of open connected descriptors:
`Accept` opens a number that the kernel may return, `Close` frees the number. Which
numbers it may return, given the open ones, is a parameter.
-/

import SocketC.Transition
import SocketC.Ring

namespace SocketC

/-- `MAXNCLI`, the number of slots of `clifd`. -/
def maxNCli : Nat := 32

/-- A kernel that returns any number that is not open, above the standard descriptors and
`listenfd`. -/
def unusedDescriptor (connected : Finset Nat) (connfd : Nat) : Bool :=
  decide (3 < connfd ∧ connfd ∉ connected)

/-! ### The state -/

/-- Where the main thread stands: in `Accept`, or between `Accept` and the put section. -/
inductive Acceptor where
  | accepting
  | holding (connfd : Nat)
  deriving DecidableEq

/-- Where a worker stands in `thread_main`. -/
inductive UserWorker where
  /-- About to call `Pthread_mutex_lock` for the next connection. -/
  | idle
  /-- Asleep in `Pthread_cond_wait`, the mutex released. -/
  | blocked
  /-- Signalled, but `clifd_mutex` not yet locked again. -/
  | signalled
  /-- Woken without a signal, and `clifd_mutex` not yet locked again. -/
  | awake
  /-- Past the take section, `thread_count` not yet incremented. -/
  | taken (connfd : Nat)
  /-- In `web_child`, or between it and `Close`. -/
  | serving (connfd : Nat)
  deriving DecidableEq

/-- The worker is about to lock `clifd_mutex`, for the first time or when its wait returns. -/
def UserWorker.Locks : UserWorker → Prop
  | .idle | .signalled | .awake => True
  | .blocked | .taken _ | .serving _ => False

instance : DecidablePred UserWorker.Locks
  | .idle | .signalled | .awake => .isTrue trivial
  | .blocked | .taken _ | .serving _ => .isFalse id

/-- The process runs, has ended in the put section's `err_quit`, or has ended otherwise: in an
error wrapper, in `web_child`'s `err_quit`, or through `sig_int`. -/
inductive PoolStatus where
  | running
  | overflow
  | left
  deriving DecidableEq

/-- The server process. `puts` and `takes` are the history of the two sections and `accepts`
counts the descriptors that `Accept` has returned; the program itself keeps none of them. -/
structure UserPool (workers : Nat) where
  clifd : Nat → Nat
  iget : Nat
  iput : Nat
  acceptor : Acceptor
  worker : Fin workers → UserWorker
  threadCount : Fin workers → Nat
  connected : Finset Nat
  status : PoolStatus
  accepts : Nat
  puts : List Nat
  takes : List (Fin workers × Nat)

namespace UserPool

variable {workers : Nat}

/-- The state when `main` enters its loop: `iget = iput = 0` and zeroed counters. -/
def start (workers : Nat) : UserPool workers where
  clifd := fun _ => 0
  iget := 0
  iput := 0
  acceptor := .accepting
  worker := fun _ => .idle
  threadCount := fun _ => 0
  connected := ∅
  status := .running
  accepts := 0
  puts := []
  takes := []

/-- The descriptors in the ring, read cyclically from `iget` up to `iput`. -/
def queued (pool : UserPool workers) : List Nat :=
  Ring.contents pool.clifd maxNCli pool.iget pool.iput

/-- The number of descriptors in the ring. -/
def pending (pool : UserPool workers) : Nat := Ring.pending maxNCli pool.iget pool.iput

/-- The workers a signal may wake: blocked ones only, and at least one if there is one. -/
def Wakes (pool : UserPool workers) (woken : Finset (Fin workers)) : Prop :=
  (∀ index ∈ woken, pool.worker index = .blocked) ∧
    ((∃ index, pool.worker index = .blocked) → woken.Nonempty)

instance (pool : UserPool workers) (woken : Finset (Fin workers)) :
    Decidable (pool.Wakes woken) :=
  inferInstanceAs (Decidable (_ ∧ _))

/-! ### The actions -/

/-- `Accept` (line 54) returns a number that the kernel may return. -/
def accept (kernel : Finset Nat → Nat → Bool) (connfd : Nat) (pool : UserPool workers) :
    Option (UserPool workers) :=
  if pool.acceptor = .accepting ∧ kernel pool.connected connfd = true then
    some { pool with
      acceptor := .holding connfd
      connected := insert connfd pool.connected
      accepts := pool.accepts + 1 }
  else none

/-- The put section (lines 56-64): store, advance, check for overflow, signal, unlock. -/
def put (woken : Finset (Fin workers)) (pool : UserPool workers) : Option (UserPool workers) :=
  match pool.acceptor with
  | .accepting => none
  | .holding connfd =>
    let clifd := Function.update pool.clifd pool.iput connfd
    let iput := Ring.advance maxNCli pool.iput
    if iput = pool.iget then
      -- `err_quit` ends the process before the signal is sent.
      some { pool with clifd, iput, status := .overflow }
    else if pool.Wakes woken then
      some { pool with
        clifd, iput
        acceptor := .accepting
        worker := fun index => if index ∈ woken then .signalled else pool.worker index
        puts := pool.puts ++ [connfd] }
    else none

/-- A worker locks the mutex (line 100, or at the return of its wait) and runs until it
releases it: it blocks when the ring is empty, and takes a descriptor out when it is not. -/
def lock (index : Fin workers) (pool : UserPool workers) : Option (UserPool workers) :=
  if (pool.worker index).Locks then
    if pool.iget = pool.iput then
      some { pool with worker := Function.update pool.worker index .blocked }
    else
      let connfd := pool.clifd pool.iget
      some { pool with
        iget := Ring.advance maxNCli pool.iget
        worker := Function.update pool.worker index (.taken connfd)
        takes := pool.takes ++ [(index, connfd)] }
  else none

/-- A spurious return of `Pthread_cond_wait`. -/
def wakeup (index : Fin workers) (pool : UserPool workers) : Option (UserPool workers) :=
  if pool.worker index = .blocked then
    some { pool with worker := Function.update pool.worker index .awake }
  else none

/-- `tptr[i].thread_count++` (line 109), outside the mutex. -/
def count (index : Fin workers) (pool : UserPool workers) : Option (UserPool workers) :=
  match pool.worker index with
  | .taken connfd =>
    some { pool with
      worker := Function.update pool.worker index (.serving connfd)
      threadCount := Function.update pool.threadCount index (pool.threadCount index + 1) }
  | _ => none

/-- `web_child` has returned and the worker calls `Close` (line 112), which leaves through
`err_sys` when the number is not open. -/
def close (index : Fin workers) (pool : UserPool workers) : Option (UserPool workers) :=
  match pool.worker index with
  | .serving connfd =>
    if connfd ∈ pool.connected then
      some { pool with
        worker := Function.update pool.worker index .idle
        connected := pool.connected.erase connfd }
    else some { pool with status := .left }
  | _ => none

/-- What the scheduler and the kernel may do next. -/
inductive Action (workers : Nat) where
  | accept (connfd : Nat)
  | put (woken : Finset (Fin workers))
  | lock (index : Fin workers)
  | wakeup (index : Fin workers)
  | count (index : Fin workers)
  | close (index : Fin workers)
  | exit

/-- One action of a running process. -/
def step (kernel : Finset Nat → Nat → Bool) (pool : UserPool workers) (action : Action workers) :
    Option (UserPool workers) :=
  if pool.status = .running then
    match action with
    | .accept connfd => pool.accept kernel connfd
    | .put woken => pool.put woken
    | .lock index => pool.lock index
    | .wakeup index => pool.wakeup index
    | .count index => pool.count index
    | .close index => pool.close index
    | .exit => some { pool with status := .left }
  else none

/-- The server with the given number of workers on the given kernel. -/
def machine (workers : Nat) (kernel : Finset Nat → Nat → Bool) :
    Machine (UserPool workers) (Action workers) where
  start := start workers
  step := step kernel

/-! ### Everything one step can do -/

/-- The effects of a step, one constructor per way through an action. -/
inductive Moves (kernel : Finset Nat → Nat → Bool) (pool : UserPool workers) :
    UserPool workers → Prop where
  | accept (connfd : Nat) (accepting : pool.acceptor = .accepting)
      (returned : kernel pool.connected connfd = true) :
      Moves kernel pool { pool with
        acceptor := .holding connfd
        connected := insert connfd pool.connected
        accepts := pool.accepts + 1 }
  | overflow (connfd : Nat) (holding : pool.acceptor = .holding connfd)
      (full : Ring.advance maxNCli pool.iput = pool.iget) :
      Moves kernel pool { pool with
        clifd := Function.update pool.clifd pool.iput connfd
        iput := Ring.advance maxNCli pool.iput
        status := .overflow }
  | put (connfd : Nat) (woken : Finset (Fin workers)) (holding : pool.acceptor = .holding connfd)
      (room : Ring.advance maxNCli pool.iput ≠ pool.iget) (wakes : pool.Wakes woken) :
      Moves kernel pool { pool with
        clifd := Function.update pool.clifd pool.iput connfd
        iput := Ring.advance maxNCli pool.iput
        acceptor := .accepting
        worker := fun index => if index ∈ woken then .signalled else pool.worker index
        puts := pool.puts ++ [connfd] }
  | block (index : Fin workers) (locks : (pool.worker index).Locks)
      (empty : pool.iget = pool.iput) :
      Moves kernel pool { pool with worker := Function.update pool.worker index .blocked }
  | take (index : Fin workers) (locks : (pool.worker index).Locks)
      (nonempty : pool.iget ≠ pool.iput) :
      Moves kernel pool { pool with
        iget := Ring.advance maxNCli pool.iget
        worker := Function.update pool.worker index (.taken (pool.clifd pool.iget))
        takes := pool.takes ++ [(index, pool.clifd pool.iget)] }
  | wakeup (index : Fin workers) (blocked : pool.worker index = .blocked) :
      Moves kernel pool { pool with worker := Function.update pool.worker index .awake }
  | count (index : Fin workers) (connfd : Nat) (taken : pool.worker index = .taken connfd) :
      Moves kernel pool { pool with
        worker := Function.update pool.worker index (.serving connfd)
        threadCount := Function.update pool.threadCount index (pool.threadCount index + 1) }
  | close (index : Fin workers) (connfd : Nat) (serving : pool.worker index = .serving connfd)
      (opened : connfd ∈ pool.connected) :
      Moves kernel pool { pool with
        worker := Function.update pool.worker index .idle
        connected := pool.connected.erase connfd }
  | leave : Moves kernel pool { pool with status := .left }

theorem moves_of_step {kernel : Finset Nat → Nat → Bool} {pool next : UserPool workers}
    {action : Action workers} (taken : (machine workers kernel).step pool action = some next) :
    pool.status = .running ∧ Moves kernel pool next := by
  simp only [machine, step] at taken
  split at taken
  · rename_i running
    refine ⟨running, ?_⟩
    cases action with
    | accept connfd =>
      simp only [accept, Option.ite_none_right_eq_some, Option.some.injEq] at taken
      obtain ⟨⟨accepting, returned⟩, rfl⟩ := taken
      exact .accept connfd accepting returned
    | put woken =>
      simp only [put] at taken
      split at taken
      · cases taken
      · rename_i connfd holding
        split at taken
        · rename_i full
          exact Option.some.inj taken ▸ .overflow connfd holding full
        · rename_i room
          simp only [Option.ite_none_right_eq_some, Option.some.injEq] at taken
          obtain ⟨wakes, rfl⟩ := taken
          exact .put connfd woken holding room wakes
    | lock index =>
      simp only [lock, Option.ite_none_right_eq_some] at taken
      obtain ⟨locks, taken⟩ := taken
      split at taken
      · rename_i empty
        exact Option.some.inj taken ▸ .block index locks empty
      · rename_i nonempty
        exact Option.some.inj taken ▸ .take index locks nonempty
    | wakeup index =>
      simp only [wakeup, Option.ite_none_right_eq_some, Option.some.injEq] at taken
      obtain ⟨blocked, rfl⟩ := taken
      exact .wakeup index blocked
    | count index =>
      simp only [count] at taken
      split at taken
      · rename_i connfd holds
        exact Option.some.inj taken ▸ .count index connfd holds
      · cases taken
    | close index =>
      simp only [close] at taken
      split at taken
      · rename_i connfd serving
        split at taken
        · rename_i opened
          exact Option.some.inj taken ▸ .close index connfd serving opened
        · exact Option.some.inj taken ▸ .leave
      · cases taken
    | exit => exact Option.some.inj taken ▸ .leave
  · cases taken

end UserPool

end SocketC
