/-
This file models the threaded web client, `client/thread-client.c`: the main loop
of lines 79-137 and the `do_get_read` threads of lines 143-178. The main thread
starts a thread per file while the connection limit allows it, then waits under
`ndone_mutex` for `ndone` to leave zero, scans the flags of all files and joins the
thread of every file whose flag is `F_DONE`.

Every access to a shared variable, every lock, unlock, wait and signal, every
thread creation and every join is one action. `Pthread_join` is enabled only when
its thread has returned. What the threads do on their own (connect, write the
request, read the reply) is one action per call. A wrapper that fails in any
thread ends the process; that is the action `fail`.
-/

import SocketC.Transition

namespace SocketC

/-- `MAXFILES`. -/
def maxFiles : Nat := 20

/-- `F_CONNECTING`, `F_READING` and `F_DONE`, the values of `f_flags` besides zero. -/
def fConnecting : Nat := 1
def fReading : Nat := 2
def fDone : Nat := 4

/-- The arguments of a run: the number of files, `min(argc - 4, MAXFILES)` of line 65, where the
usage check of line 61 has found at least one, and the `#conns` argument as `atoi` reads it. -/
structure WebConfig where
  nfiles : Nat
  maxnconn : Int
  nonempty : 1 ≤ nfiles
  bounded : nfiles ≤ maxFiles

/-! ### The state -/

/-- Where the main thread stands. -/
inductive WebMain where
  /-- Line 79: the test of the outer loop, the start of an iteration. -/
  | outer
  /-- Line 80: the test of the inner loop. -/
  | inner
  /-- Lines 82-83: about to look at the flags of this file. -/
  | find (file : Nat)
  /-- Line 88: about to store `F_CONNECTING`. -/
  | mark (file : Nat)
  /-- Line 89: about to create the thread. -/
  | create (file : Nat)
  /-- Line 90: about to store the thread's identifier in `f_tid`. -/
  | record (file tid : Nat)
  /-- Line 91: about to increment `nconn`. -/
  | countConn
  /-- Line 92: about to decrement `nlefttoconn`. -/
  | countLeft
  /-- Line 123: about to lock `ndone_mutex`. -/
  | lock
  /-- Line 124: the test of `ndone`, mutex held. -/
  | test
  /-- Line 126: asleep in `Pthread_cond_wait`, mutex released. -/
  | waiting
  /-- Line 126: woken, and about to lock the mutex again. -/
  | woken
  /-- Lines 128-129: about to test `F_DONE` of this file, mutex held. -/
  | scan (file : Nat)
  /-- Line 130: in `Pthread_join` on this file's thread, mutex held. -/
  | join (file : Nat)
  /-- Line 132: about to print the joined thread, mutex held. -/
  | report (file : Nat)
  /-- Line 135: about to unlock `ndone_mutex`. -/
  | unlock
  /-- Line 138: `exit(0)`. -/
  | left
  deriving DecidableEq

/-- Where a `do_get_read` thread stands. -/
inductive WebWorker where
  /-- Line 152: `Tcp_connect`. -/
  | connect
  /-- Lines 189-190: the request of `write_get_cmd`. -/
  | request
  /-- Line 193: about to store `F_READING`. -/
  | markReading
  /-- Lines 160-165: reading the reply. -/
  | reading
  /-- Line 167: `Close`. -/
  | close
  /-- Line 170: about to store `F_DONE`. -/
  | markDone
  /-- Line 171: about to lock `ndone_mutex`. -/
  | lock
  /-- Line 172: about to increment `ndone`, mutex held. -/
  | bump
  /-- Line 174: about to signal `ndone_cond`, mutex held. -/
  | signal
  /-- Line 175: about to unlock `ndone_mutex`. -/
  | unlock
  /-- Line 177: about to return. -/
  | leave
  | returned
  deriving DecidableEq

/-- The holder of `ndone_mutex`. -/
inductive WebHolder where
  | main
  | worker (tid : Nat)
  deriving DecidableEq

/-- The client process after line 76. Threads are numbered in the order of their creation:
`threads` of them exist, `threadFile` is the argument each was created with and `worker` is
where it stands. `joins` is the history of the calls of `Pthread_join` that have returned. -/
structure WebClient where
  nconn : Int
  nlefttoconn : Int
  nlefttoread : Int
  ndone : Int
  fFlags : Nat → Nat
  fTid : Nat → Option Nat
  threads : Nat
  threadFile : Nat → Nat
  worker : Nat → WebWorker
  main : WebMain
  owner : Option WebHolder
  joins : List Nat
  running : Bool

namespace WebClient

/-- The state at line 79: all files still to connect and to read, and all flags zero. -/
def start (config : WebConfig) : WebClient where
  nconn := 0
  nlefttoconn := config.nfiles
  nlefttoread := config.nfiles
  ndone := 0
  fFlags := fun _ => 0
  fTid := fun _ => none
  threads := 0
  threadFile := fun tid => tid
  worker := fun _ => .connect
  main := .outer
  owner := none
  joins := []
  running := true

/-! ### The actions -/

/-- The next step of the main thread. -/
def mainStep (config : WebConfig) (client : WebClient) : Option WebClient :=
  match client.main with
  | .outer =>
    if 0 < client.nlefttoread then some { client with main := .inner }
    else some { client with main := .left, running := false }
  | .inner =>
    if client.nconn < config.maxnconn ∧ 0 < client.nlefttoconn then
      some { client with main := .find 0 }
    else some { client with main := .lock }
  | .find file =>
    if file < config.nfiles then
      if client.fFlags file = 0 then some { client with main := .mark file }
      else some { client with main := .find (file + 1) }
    else
      -- `err_quit("nlefttoconn = %d but nothing found", nlefttoconn)`
      some { client with running := false }
  | .mark file =>
    some { client with
      fFlags := Function.update client.fFlags file fConnecting
      main := .create file }
  | .create file =>
    some { client with
      threads := client.threads + 1
      threadFile := Function.update client.threadFile client.threads file
      worker := Function.update client.worker client.threads .connect
      main := .record file client.threads }
  | .record file tid =>
    some { client with
      fTid := Function.update client.fTid file (some tid)
      main := .countConn }
  | .countConn => some { client with nconn := client.nconn + 1, main := .countLeft }
  | .countLeft => some { client with nlefttoconn := client.nlefttoconn - 1, main := .inner }
  | .lock | .woken =>
    if client.owner = none then some { client with owner := some .main, main := .test } else none
  | .test =>
    if client.ndone = 0 then some { client with owner := none, main := .waiting }
    else some { client with main := .scan 0 }
  | .waiting => none
  | .scan file =>
    if file < config.nfiles then
      if client.fFlags file &&& fDone ≠ 0 then some { client with main := .join file }
      else some { client with main := .scan (file + 1) }
    else some { client with main := .unlock }
  | .join file =>
    match client.fTid file with
    | some tid =>
      if client.worker tid = .returned then
        some { client with joins := client.joins ++ [tid], main := .report file }
      else none
    | none => none
  | .report file => some { client with main := .scan (file + 1) }
  | .unlock => some { client with owner := none, main := .outer }
  | .left => none

/-- Where a signal of `ndone_cond` leaves the main thread, the only one that waits for it. -/
def signalled : WebMain → WebMain
  | .waiting => .woken
  | elsewhere => elsewhere

/-- The thread goes to another line of `do_get_read`. -/
def goto (client : WebClient) (tid : Nat) (place : WebWorker) : WebClient :=
  { client with worker := Function.update client.worker tid place }

/-- The thread stores a flag of its file and goes to another line. -/
def store (client : WebClient) (tid flag : Nat) (place : WebWorker) : WebClient :=
  { client with
    fFlags := Function.update client.fFlags (client.threadFile tid) flag
    worker := Function.update client.worker tid place }

/-- The next step of a `do_get_read` thread; in the read loop, the step that sees the end of
the reply. A `Read` that returns data changes nothing that is shared. -/
def workerStep (tid : Nat) (client : WebClient) : Option WebClient :=
  if tid < client.threads then
    match client.worker tid with
    | .connect => some (client.goto tid .request)
    | .request => some (client.goto tid .markReading)
    | .markReading => some (client.store tid fReading .reading)
    | .reading => some (client.goto tid .close)
    | .close => some (client.goto tid .markDone)
    | .markDone => some (client.store tid fDone .lock)
    | .lock =>
      if client.owner = none then
        some { client.goto tid .bump with owner := some (.worker tid) }
      else none
    | .bump => some { client.goto tid .signal with ndone := client.ndone + 1 }
    | .signal => some { client.goto tid .unlock with main := signalled client.main }
    | .unlock => some { client.goto tid .leave with owner := none }
    | .leave => some (client.goto tid .returned)
    | .returned => none
  else none

/-- What the scheduler may do next. `wakeup` is a spurious return of `Pthread_cond_wait`, `fail`
the end of the process in a wrapper's `err_sys`. -/
inductive Action where
  | main
  | worker (tid : Nat)
  | wakeup
  | fail

/-- One action of a running process. -/
def step (config : WebConfig) (client : WebClient) (action : Action) : Option WebClient :=
  if client.running then
    match action with
    | .main => client.mainStep config
    | .worker tid => client.workerStep tid
    | .wakeup => if client.main = .waiting then some { client with main := .woken } else none
    | .fail => some { client with running := false }
  else none

/-- The web client with the given arguments. -/
def machine (config : WebConfig) : Machine WebClient Action where
  start := start config
  step := step config

/-! ### Everything one step can do -/

/-- The steps of a thread that touch nothing shared. -/
inductive Walks : WebWorker → WebWorker → Prop where
  | connected : Walks .connect .request
  | requested : Walks .request .markReading
  | ended : Walks .reading .close
  | closed : Walks .close .markDone
  | left : Walks .leave .returned

/-- The effects of a step, one constructor per way through the two programs. -/
inductive Moves (config : WebConfig) (client : WebClient) : WebClient → Prop where
  | enter (here : client.main = .outer) (more : 0 < client.nlefttoread) :
      Moves config client { client with main := .inner }
  | finish (here : client.main = .outer) (none : ¬ 0 < client.nlefttoread) :
      Moves config client { client with main := .left, running := false }
  | search (here : client.main = .inner) (slot : client.nconn < config.maxnconn)
      (more : 0 < client.nlefttoconn) :
      Moves config client { client with main := .find 0 }
  | settle (here : client.main = .inner)
      (full : ¬ (client.nconn < config.maxnconn ∧ 0 < client.nlefttoconn)) :
      Moves config client { client with main := .lock }
  | hit (file : Nat) (here : client.main = .find file) (inside : file < config.nfiles)
      (zero : client.fFlags file = 0) :
      Moves config client { client with main := .mark file }
  | miss (file : Nat) (here : client.main = .find file) (inside : file < config.nfiles)
      (nonzero : client.fFlags file ≠ 0) :
      Moves config client { client with main := .find (file + 1) }
  | nothing (file : Nat) (here : client.main = .find file) (outside : ¬ file < config.nfiles) :
      Moves config client { client with running := false }
  | mark (file : Nat) (here : client.main = .mark file) :
      Moves config client { client with
        fFlags := Function.update client.fFlags file fConnecting
        main := .create file }
  | create (file : Nat) (here : client.main = .create file) :
      Moves config client { client with
        threads := client.threads + 1
        threadFile := Function.update client.threadFile client.threads file
        worker := Function.update client.worker client.threads .connect
        main := .record file client.threads }
  | record (file tid : Nat) (here : client.main = .record file tid) :
      Moves config client { client with
        fTid := Function.update client.fTid file (some tid)
        main := .countConn }
  | countConn (here : client.main = .countConn) :
      Moves config client { client with nconn := client.nconn + 1, main := .countLeft }
  | countLeft (here : client.main = .countLeft) :
      Moves config client { client with nlefttoconn := client.nlefttoconn - 1, main := .inner }
  | lock (here : client.main = .lock ∨ client.main = .woken) (free : client.owner = none) :
      Moves config client { client with owner := some .main, main := .test }
  | sleep (here : client.main = .test) (zero : client.ndone = 0) :
      Moves config client { client with owner := none, main := .waiting }
  | pass (here : client.main = .test) (nonzero : client.ndone ≠ 0) :
      Moves config client { client with main := .scan 0 }
  | found (file : Nat) (here : client.main = .scan file) (inside : file < config.nfiles)
      (done : client.fFlags file &&& fDone ≠ 0) :
      Moves config client { client with main := .join file }
  | skip (file : Nat) (here : client.main = .scan file) (inside : file < config.nfiles)
      (undone : ¬ client.fFlags file &&& fDone ≠ 0) :
      Moves config client { client with main := .scan (file + 1) }
  | scanned (file : Nat) (here : client.main = .scan file) (outside : ¬ file < config.nfiles) :
      Moves config client { client with main := .unlock }
  | join (file tid : Nat) (here : client.main = .join file) (named : client.fTid file = some tid)
      (returned : client.worker tid = .returned) :
      Moves config client { client with joins := client.joins ++ [tid], main := .report file }
  | report (file : Nat) (here : client.main = .report file) :
      Moves config client { client with main := .scan (file + 1) }
  | unlock (here : client.main = .unlock) :
      Moves config client { client with owner := none, main := .outer }
  | walk (tid : Nat) (place : WebWorker) (created : tid < client.threads)
      (walks : Walks (client.worker tid) place) :
      Moves config client (client.goto tid place)
  | startReading (tid : Nat) (created : tid < client.threads)
      (here : client.worker tid = .markReading) :
      Moves config client (client.store tid fReading .reading)
  | finishReading (tid : Nat) (created : tid < client.threads)
      (here : client.worker tid = .markDone) :
      Moves config client (client.store tid fDone .lock)
  | acquire (tid : Nat) (created : tid < client.threads) (here : client.worker tid = .lock)
      (free : client.owner = none) :
      Moves config client { client.goto tid .bump with owner := some (.worker tid) }
  | bump (tid : Nat) (created : tid < client.threads) (here : client.worker tid = .bump) :
      Moves config client { client.goto tid .signal with ndone := client.ndone + 1 }
  | signal (tid : Nat) (created : tid < client.threads) (here : client.worker tid = .signal) :
      Moves config client { client.goto tid .unlock with main := signalled client.main }
  | release (tid : Nat) (created : tid < client.threads) (here : client.worker tid = .unlock) :
      Moves config client { client.goto tid .leave with owner := none }
  | wakeup (here : client.main = .waiting) :
      Moves config client { client with main := .woken }
  | fail : Moves config client { client with running := false }

theorem moves_of_mainStep {config : WebConfig} {client next : WebClient}
    (taken : client.mainStep config = some next) : Moves config client next := by
  unfold mainStep at taken
  split at taken
  · rename_i here
    split at taken
    · exact Option.some.inj taken ▸ .enter here ‹_›
    · exact Option.some.inj taken ▸ .finish here ‹_›
  · rename_i here
    split at taken
    · rename_i guard
      exact Option.some.inj taken ▸ .search here guard.1 guard.2
    · exact Option.some.inj taken ▸ .settle here ‹_›
  · rename_i file here
    split at taken
    · split at taken
      · exact Option.some.inj taken ▸ .hit file here ‹_› ‹_›
      · exact Option.some.inj taken ▸ .miss file here ‹_› ‹_›
    · exact Option.some.inj taken ▸ .nothing file here ‹_›
  · exact Option.some.inj taken ▸ .mark _ ‹_›
  · exact Option.some.inj taken ▸ .create _ ‹_›
  · exact Option.some.inj taken ▸ .record _ _ ‹_›
  · exact Option.some.inj taken ▸ .countConn ‹_›
  · exact Option.some.inj taken ▸ .countLeft ‹_›
  · rename_i here
    simp only [Option.ite_none_right_eq_some, Option.some.injEq] at taken
    obtain ⟨free, rfl⟩ := taken
    exact .lock (Or.inl here) free
  · rename_i here
    simp only [Option.ite_none_right_eq_some, Option.some.injEq] at taken
    obtain ⟨free, rfl⟩ := taken
    exact .lock (Or.inr here) free
  · rename_i here
    split at taken
    · exact Option.some.inj taken ▸ .sleep here ‹_›
    · exact Option.some.inj taken ▸ .pass here ‹_›
  · cases taken
  · rename_i file here
    split at taken
    · split at taken
      · exact Option.some.inj taken ▸ .found file here ‹_› ‹_›
      · exact Option.some.inj taken ▸ .skip file here ‹_› ‹_›
    · exact Option.some.inj taken ▸ .scanned file here ‹_›
  · rename_i file here
    split at taken
    · rename_i tid named
      simp only [Option.ite_none_right_eq_some, Option.some.injEq] at taken
      obtain ⟨returned, rfl⟩ := taken
      exact .join file tid here named returned
    · cases taken
  · exact Option.some.inj taken ▸ .report _ ‹_›
  · exact Option.some.inj taken ▸ .unlock ‹_›
  · cases taken

theorem moves_of_workerStep {config : WebConfig} {client next : WebClient} {tid : Nat}
    (taken : client.workerStep tid = some next) : Moves config client next := by
  simp only [workerStep, Option.ite_none_right_eq_some] at taken
  obtain ⟨created, taken⟩ := taken
  split at taken
  · rename_i here
    exact Option.some.inj taken ▸ .walk tid _ created (here ▸ .connected)
  · rename_i here
    exact Option.some.inj taken ▸ .walk tid _ created (here ▸ .requested)
  · exact Option.some.inj taken ▸ .startReading tid created ‹_›
  · rename_i here
    exact Option.some.inj taken ▸ .walk tid _ created (here ▸ .ended)
  · rename_i here
    exact Option.some.inj taken ▸ .walk tid _ created (here ▸ .closed)
  · exact Option.some.inj taken ▸ .finishReading tid created ‹_›
  · rename_i here
    simp only [Option.ite_none_right_eq_some, Option.some.injEq] at taken
    obtain ⟨free, rfl⟩ := taken
    exact .acquire tid created here free
  · exact Option.some.inj taken ▸ .bump tid created ‹_›
  · exact Option.some.inj taken ▸ .signal tid created ‹_›
  · exact Option.some.inj taken ▸ .release tid created ‹_›
  · rename_i here
    exact Option.some.inj taken ▸ .walk tid _ created (here ▸ .left)
  · cases taken

theorem moves_of_step {config : WebConfig} {client next : WebClient} {action : Action}
    (taken : (machine config).step client action = some next) :
    client.running = true ∧ Moves config client next := by
  simp only [machine, step] at taken
  split at taken
  · rename_i running
    refine ⟨running, ?_⟩
    cases action with
    | main => exact moves_of_mainStep taken
    | worker tid => exact moves_of_workerStep taken
    | wakeup =>
      simp only [Option.ite_none_right_eq_some, Option.some.injEq] at taken
      obtain ⟨here, rfl⟩ := taken
      exact .wakeup here
    | fail => exact Option.some.inj taken ▸ .fail
  · cases taken

end WebClient

end SocketC
