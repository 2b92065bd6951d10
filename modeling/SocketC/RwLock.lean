/-
This file models the read-write lock of `unpv22e/my_rwlock` and its variant for
cancellable threads, `unpv22e/my_rwlock_cancel`. The lock is three counters behind one
mutex: `rw_refcount`, the number of read locks or -1 for a write lock, and the numbers
of threads that wait to read and to write. Readers sleep on one condition variable and
writers on another; a reader also waits while a writer waits.

Every call tests `rw_magic` first, without the mutex, and then runs under `rw_mutex` to
its unlock or to its wait: the test is one action, the critical section another, and what
follows a wait a third. A sleeper wakes by a signal, by a broadcast or spuriously, and
tests again. A wait can also end for good: in `my_rwlock` `pthread_cond_wait` returns an
error and the loop breaks, in `my_rwlock_cancel` the thread is cancelled and the cleanup
handler runs. Both take the thread off its counter and give up the lock.

`pthread_rwlock_destroy` takes no mutex at all. Each of its tests is an action, and so is
what follows them, lines 14-17; other threads run in between. What they do with the
destroyed mutex is up to the pthread library, and the model lets them go on.

The unlock of `my_rwlock_cancel` signals the writers without the test that the lock is
free (line 25). The writer it wakes too early tests again and sleeps on, as after a
spurious return of its wait, so the actions cover both variants. Not covered are an error
of `pthread_cond_wait` in `my_rwlock_cancel`, whose lock functions then return 0 without
the lock, and errors of `pthread_mutex_lock`.

A thread may hold several read locks. What a thread holds is bookkeeping of the model; the
program keeps the counters only. What is proved here is that the counters are right.
-/

import SocketC.Transition
import SocketC.Monitor

namespace SocketC

open Monitor

/-! ### The state -/

/-- What `pthread_rwlock_destroy` does next, after its test of `rw_refcount`. -/
inductive DestroyStage where
  /-- The test of `rw_nwaitreaders`. -/
  | readers
  /-- The test of `rw_nwaitwriters`. -/
  | writers
  /-- Lines 14-17. -/
  | teardown
  deriving DecidableEq

instance : Fintype DestroyStage :=
  ⟨{.readers, .writers, .teardown}, fun stage => by cases stage <;> decide⟩

/-- Where a thread stands: outside the lock's functions, past the test of `rw_magic` in one of
them, asleep in one of the two waits, woken there and not yet past `rw_mutex` again, or in
`pthread_rwlock_destroy`. -/
inductive RwPhase where
  | running
  | tested
  | readWait
  | readWoken
  | writeWait
  | writeWoken
  | destroying (stage : DestroyStage)
  deriving DecidableEq

/-- A thread: where it stands, and the locks it holds. -/
structure RwThread where
  phase : RwPhase
  reads : Nat
  writes : Bool
  deriving DecidableEq

namespace RwThread

/-- The thread is counted in `rw_nwaitreaders`. -/
def readWaits (thread : RwThread) : Nat :=
  match thread.phase with
  | .readWait | .readWoken => 1
  | .running | .tested | .writeWait | .writeWoken | .destroying _ => 0

/-- The thread is counted in `rw_nwaitwriters`. -/
def writeWaits (thread : RwThread) : Nat :=
  match thread.phase with
  | .writeWait | .writeWoken => 1
  | .running | .tested | .readWait | .readWoken | .destroying _ => 0

/-- The thread is in the wait of `pthread_rwlock_rdlock`. -/
def WaitsToRead (thread : RwThread) : Prop :=
  thread.phase = .readWait ∨ thread.phase = .readWoken

/-- The thread is in the wait of `pthread_rwlock_wrlock`. -/
def WaitsToWrite (thread : RwThread) : Prop :=
  thread.phase = .writeWait ∨ thread.phase = .writeWoken

instance (thread : RwThread) : Decidable thread.WaitsToRead :=
  inferInstanceAs (Decidable (_ ∨ _))

instance (thread : RwThread) : Decidable thread.WaitsToWrite :=
  inferInstanceAs (Decidable (_ ∨ _))

/-- The number of write locks the thread holds. -/
def writeLocks (thread : RwThread) : Nat := thread.writes.toNat

/-- The thread is between a lock call that succeeded and its unlock. -/
def Holds (thread : RwThread) : Prop := thread.writes = true ∨ 0 < thread.reads

instance (thread : RwThread) : Decidable thread.Holds :=
  inferInstanceAs (Decidable (_ ∨ _))

/-- The thread is in neither of the two waits. -/
def Outside (thread : RwThread) : Prop := thread.readWaits = 0 ∧ thread.writeWaits = 0

/-- The caller of `pthread_rwlock_unlock` returns without what it gave up. -/
def release (thread : RwThread) : RwThread :=
  if thread.writes then { thread with phase := .running, writes := false }
  else { thread with phase := .running, reads := thread.reads - 1 }

/-- `pthread_cond_broadcast` on `rw_condreaders`. -/
def wakeReader (thread : RwThread) : RwThread :=
  if thread.phase = .readWait then { thread with phase := .readWoken } else thread

theorem WaitsToRead.counted {thread : RwThread} (waits : thread.WaitsToRead) :
    thread.readWaits = 1 ∧ thread.writeWaits = 0 := by
  rcases waits with phase | phase <;>
    simp only [readWaits, writeWaits, phase, and_self]

theorem WaitsToWrite.counted {thread : RwThread} (waits : thread.WaitsToWrite) :
    thread.readWaits = 0 ∧ thread.writeWaits = 1 := by
  rcases waits with phase | phase <;>
    simp only [readWaits, writeWaits, phase, and_self]

theorem release_phase (thread : RwThread) : thread.release.phase = .running := by
  unfold release
  split <;> rfl

theorem outside_of_running {thread : RwThread} (running : thread.phase = .running) :
    thread.Outside := by
  simp only [Outside, readWaits, writeWaits, running, and_self]

theorem outside_of_tested {thread : RwThread} (tested : thread.phase = .tested) :
    thread.Outside := by
  simp only [Outside, readWaits, writeWaits, tested, and_self]

theorem outside_of_destroying {thread : RwThread} {stage : DestroyStage}
    (destroying : thread.phase = .destroying stage) : thread.Outside := by
  simp only [Outside, readWaits, writeWaits, destroying, and_self]

end RwThread

/-- `pthread_rwlock_t` with the threads of the process. `magic` says that `rw_magic` is
`RW_MAGIC`, `dumped` that `pthread_rwlock_unlock` has called `err_dump`. -/
structure RwLock (threads : Nat) where
  refcount : Int
  nwaitreaders : Int
  nwaitwriters : Int
  magic : Bool
  thread : Fin threads → RwThread
  dumped : Bool

namespace RwLock

variable {threads : Nat}

/-- `PTHREAD_RWLOCK_INITIALIZER`, and threads that hold nothing. -/
def start (threads : Nat) : RwLock threads where
  refcount := 0
  nwaitreaders := 0
  nwaitwriters := 0
  magic := true
  thread := fun _ => ⟨.running, 0, false⟩
  dumped := false

/-- Moves one thread. -/
def setThread (lock : RwLock threads) (index : Fin threads) (thread : RwThread) : RwLock threads :=
  { lock with thread := Function.update lock.thread index thread }

/-- Moves one thread, which keeps its locks. -/
def setPhase (lock : RwLock threads) (index : Fin threads) (phase : RwPhase) : RwLock threads :=
  lock.setThread index { lock.thread index with phase := phase }

theorem setThread_phase (lock : RwLock threads) (index other : Fin threads) (thread : RwThread) :
    ((lock.setThread index thread).thread other).phase =
      if other = index then thread.phase else (lock.thread other).phase := by
  simp only [setThread, Function.update_apply]
  split <;> rfl

/-! ### The calls -/

/-- The loop test of `pthread_rwlock_rdlock` and the test of `pthread_rwlock_tryrdlock`. -/
def ReadBusy (lock : RwLock threads) : Prop := lock.refcount < 0 ∨ 0 < lock.nwaitwriters

/-- The loop test of `pthread_rwlock_wrlock` and the test of `pthread_rwlock_trywrlock`. -/
def WriteBusy (lock : RwLock threads) : Prop := lock.refcount ≠ 0

instance (lock : RwLock threads) : Decidable lock.ReadBusy := inferInstanceAs (Decidable (_ ∨ _))

instance (lock : RwLock threads) : Decidable lock.WriteBusy := inferInstanceAs (Decidable (¬ _))

/-- Takes a read lock: `rw_refcount++`. -/
def grantRead (lock : RwLock threads) (index : Fin threads) : RwLock threads :=
  { lock with refcount := lock.refcount + 1 }.setThread index
    { lock.thread index with phase := .running, reads := (lock.thread index).reads + 1 }

/-- Takes the write lock: `rw_refcount = -1`. -/
def grantWrite (lock : RwLock threads) (index : Fin threads) : RwLock threads :=
  { lock with refcount := -1 }.setThread index
    { lock.thread index with phase := .running, writes := true }

/-- The loop of `pthread_rwlock_rdlock` (lines 17-25), up to the next wait. -/
def enterRead (lock : RwLock threads) (index : Fin threads) : RwLock threads :=
  if lock.ReadBusy then
    { lock with nwaitreaders := lock.nwaitreaders + 1 }.setThread index
      { lock.thread index with phase := .readWait }
  else lock.grantRead index

/-- The loop of `pthread_rwlock_wrlock` (lines 16-24), up to the next wait. -/
def enterWrite (lock : RwLock threads) (index : Fin threads) : RwLock threads :=
  if lock.WriteBusy then
    { lock with nwaitwriters := lock.nwaitwriters + 1 }.setThread index
      { lock.thread index with phase := .writeWait }
  else lock.grantWrite index

/-- `pthread_rwlock_tryrdlock`: `EBUSY` leaves the lock as it is. -/
def tryRead (lock : RwLock threads) (index : Fin threads) : RwLock threads :=
  if lock.ReadBusy then lock.setPhase index .running else lock.grantRead index

/-- `pthread_rwlock_trywrlock`. -/
def tryWrite (lock : RwLock threads) (index : Fin threads) : RwLock threads :=
  if lock.WriteBusy then lock.setPhase index .running else lock.grantWrite index

/-- Takes a thread that waits to read off its counter: what follows `pthread_cond_wait`, and
`rwlock_cancelrdwait`. -/
def leaveReadWait (lock : RwLock threads) (index : Fin threads) : RwLock threads :=
  { lock with nwaitreaders := lock.nwaitreaders - 1 }.setThread index
    { lock.thread index with phase := .running }

/-- The same for a thread that waits to write, and `rwlock_cancelwrwait`. -/
def leaveWriteWait (lock : RwLock threads) (index : Fin threads) : RwLock threads :=
  { lock with nwaitwriters := lock.nwaitwriters - 1 }.setThread index
    { lock.thread index with phase := .running }

/-- The first part of `pthread_rwlock_unlock` (lines 16-21). -/
def release (lock : RwLock threads) (index : Fin threads) : RwLock threads :=
  if 0 < lock.refcount then
    { lock with refcount := lock.refcount - 1 }.setThread index
      (lock.thread index).release
  else if lock.refcount = -1 then
    { lock with refcount := 0 }.setThread index (lock.thread index).release
  else { lock with dumped := true }

/-- The second part (lines 24-28): a signal to the writers, a broadcast to the readers, or
neither. `woken` is whom the signal wakes. -/
def notify (lock : RwLock threads) (woken : Finset (Fin threads)) : Option (RwLock threads) :=
  if 0 < lock.nwaitwriters then
    if lock.refcount = 0 then
      if Wakes (fun index => (lock.thread index).phase = .writeWait) woken then
        some { lock with thread := fun index =>
          if index ∈ woken then { lock.thread index with phase := .writeWoken }
          else lock.thread index }
      else none
    else if woken = ∅ then some lock else none
  else if woken = ∅ then
    if 0 < lock.nwaitreaders then
      some { lock with thread := fun index => (lock.thread index).wakeReader }
    else some lock
  else none

/-- `pthread_rwlock_unlock`; `err_dump` ends the process before anyone is woken. -/
def unlock (lock : RwLock threads) (index : Fin threads) (woken : Finset (Fin threads)) :
    Option (RwLock threads) :=
  if (lock.release index).dumped then some (lock.release index)
  else (lock.release index).notify woken

/-- The counter that `pthread_rwlock_destroy` tests next (lines 10-11), and what follows if it is
zero. -/
def destroyTest (lock : RwLock threads) : RwPhase → Option (Int × DestroyStage)
  | .tested => some (lock.refcount, .readers)
  | .destroying .readers => some (lock.nwaitreaders, .writers)
  | .destroying .writers => some (lock.nwaitwriters, .teardown)
  | .running | .readWait | .readWoken | .writeWait | .writeWoken | .destroying .teardown => none

/-- The next action of `pthread_rwlock_destroy`, behind its test of `rw_magic`. -/
def destroy (lock : RwLock threads) (index : Fin threads) : Option (RwLock threads) :=
  match lock.destroyTest (lock.thread index).phase with
  | some (counter, stage) =>
    -- `EBUSY` unless the counter is zero.
    some (lock.setPhase index (if counter = 0 then .destroying stage else .running))
  | none =>
    if (lock.thread index).phase = .destroying .teardown then
      some { lock.setPhase index .running with magic := false }
    else none

/-! ### The machine -/

/-- What a thread does next. -/
inductive Action (threads : Nat) where
  /-- The test of `rw_magic` at the start of a call. -/
  | call (index : Fin threads)
  | rdlock (index : Fin threads)
  | tryrdlock (index : Fin threads)
  | wrlock (index : Fin threads)
  | trywrlock (index : Fin threads)
  | unlock (index : Fin threads) (woken : Finset (Fin threads))
  /-- The next test of `pthread_rwlock_destroy`, or what follows the tests. -/
  | destroy (index : Fin threads)
  /-- A sleeper wakes without a signal. -/
  | wake (index : Fin threads)
  /-- A woken thread has `rw_mutex` again, and its wait returned 0. -/
  | resume (index : Fin threads)
  /-- A wait ends by an error or by cancellation. -/
  | abandon (index : Fin threads)

/-- The test of `rw_magic`: `EINVAL` leaves everything as it is. -/
def call (lock : RwLock threads) (index : Fin threads) : Option (RwLock threads) :=
  if (lock.thread index).phase = .running then
    some (if lock.magic then lock.setPhase index .tested else lock)
  else none

/-- The critical section of a thread that has passed the test. -/
def enter (lock : RwLock threads) (index : Fin threads) (next : Option (RwLock threads)) :
    Option (RwLock threads) :=
  if (lock.thread index).phase = .tested then next else none

/-- One action; after `err_dump` there is none. -/
def step (lock : RwLock threads) (action : Action threads) : Option (RwLock threads) :=
  if lock.dumped then none else
  match action with
  | .call index => lock.call index
  | .rdlock index => lock.enter index (some (lock.enterRead index))
  | .tryrdlock index => lock.enter index (some (lock.tryRead index))
  | .wrlock index => lock.enter index (some (lock.enterWrite index))
  | .trywrlock index => lock.enter index (some (lock.tryWrite index))
  | .unlock index woken => lock.enter index (lock.unlock index woken)
  | .destroy index => lock.destroy index
  | .wake index =>
    match (lock.thread index).phase with
    | .readWait => some (lock.setPhase index .readWoken)
    | .writeWait => some (lock.setPhase index .writeWoken)
    | .running | .tested | .readWoken | .writeWoken | .destroying _ => none
  | .resume index =>
    match (lock.thread index).phase with
    | .readWoken => some ((lock.leaveReadWait index).enterRead index)
    | .writeWoken => some ((lock.leaveWriteWait index).enterWrite index)
    | .running | .tested | .readWait | .writeWait | .destroying _ => none
  | .abandon index =>
    match (lock.thread index).phase with
    | .readWait | .readWoken => some (lock.leaveReadWait index)
    | .writeWait | .writeWoken => some (lock.leaveWriteWait index)
    | .running | .tested | .destroying _ => none

/-- The lock with any number of threads. -/
def machine (threads : Nat) : Machine (RwLock threads) (Action threads) where
  start := start threads
  step := step

/-- Threads unlock only what they hold. -/
def Disciplined (lock : RwLock threads) : Action threads → Prop
  | .unlock index _ => (lock.thread index).Holds
  | _ => True

instance (lock : RwLock threads) (action : Action threads) :
    Decidable (lock.Disciplined action) :=
  match action with
  | .unlock index _ => inferInstanceAs (Decidable (lock.thread index).Holds)
  | .call _ | .rdlock _ | .tryrdlock _ | .wrlock _ | .trywrlock _ | .destroy _ | .wake _
  | .resume _ | .abandon _ => .isTrue trivial

/-! ### What a step can do -/

/-- The cases of a step. -/
inductive Moves (lock : RwLock threads) : Action threads → RwLock threads → Prop
  /-- The call returns `EINVAL`. -/
  | refused (index : Fin threads) (running : (lock.thread index).phase = .running)
      (gone : lock.magic = false) : Moves lock (.call index) lock
  | call (index : Fin threads) (running : (lock.thread index).phase = .running)
      (usable : lock.magic = true) : Moves lock (.call index) (lock.setPhase index .tested)
  | rdlock (index : Fin threads) (tested : (lock.thread index).phase = .tested) :
      Moves lock (.rdlock index) (lock.enterRead index)
  | tryrdlock (index : Fin threads) (tested : (lock.thread index).phase = .tested) :
      Moves lock (.tryrdlock index) (lock.tryRead index)
  | wrlock (index : Fin threads) (tested : (lock.thread index).phase = .tested) :
      Moves lock (.wrlock index) (lock.enterWrite index)
  | trywrlock (index : Fin threads) (tested : (lock.thread index).phase = .tested) :
      Moves lock (.trywrlock index) (lock.tryWrite index)
  | unlock (index : Fin threads) (woken : Finset (Fin threads)) (next : RwLock threads)
      (tested : (lock.thread index).phase = .tested)
      (unlocked : lock.unlock index woken = some next) : Moves lock (.unlock index woken) next
  | destroyTest (index : Fin threads) (counter : Int) (stage : DestroyStage)
      (tests : lock.destroyTest (lock.thread index).phase = some (counter, stage)) :
      Moves lock (.destroy index)
        (lock.setPhase index (if counter = 0 then .destroying stage else .running))
  | teardown (index : Fin threads) (phase : (lock.thread index).phase = .destroying .teardown) :
      Moves lock (.destroy index) { lock.setPhase index .running with magic := false }
  | wakeReader (index : Fin threads) (phase : (lock.thread index).phase = .readWait) :
      Moves lock (.wake index) (lock.setPhase index .readWoken)
  | wakeWriter (index : Fin threads) (phase : (lock.thread index).phase = .writeWait) :
      Moves lock (.wake index) (lock.setPhase index .writeWoken)
  | resumeReader (index : Fin threads) (phase : (lock.thread index).phase = .readWoken) :
      Moves lock (.resume index) ((lock.leaveReadWait index).enterRead index)
  | resumeWriter (index : Fin threads) (phase : (lock.thread index).phase = .writeWoken) :
      Moves lock (.resume index) ((lock.leaveWriteWait index).enterWrite index)
  | abandonReader (index : Fin threads) (waits : (lock.thread index).WaitsToRead) :
      Moves lock (.abandon index) (lock.leaveReadWait index)
  | abandonWriter (index : Fin threads) (waits : (lock.thread index).WaitsToWrite) :
      Moves lock (.abandon index) (lock.leaveWriteWait index)

theorem moves_of_call {lock next : RwLock threads} {index : Fin threads}
    (called : lock.call index = some next) : lock.Moves (.call index) next := by
  obtain ⟨running, tested⟩ := Option.ite_none_right_eq_some.mp called
  obtain rfl := Option.some.inj tested
  cases magic : lock.magic with
  | true => exact .call index running magic
  | false => exact .refused index running magic

theorem moves_of_destroy {lock next : RwLock threads} {index : Fin threads}
    (destroyed : lock.destroy index = some next) : lock.Moves (.destroy index) next := by
  unfold destroy at destroyed
  split at destroyed
  · rename_i counter stage tests
    exact Option.some.inj destroyed ▸ .destroyTest index counter stage tests
  · obtain ⟨phase, down⟩ := Option.ite_none_right_eq_some.mp destroyed
    exact Option.some.inj down ▸ .teardown index phase

theorem moves_of_step {lock next : RwLock threads} {action : Action threads}
    (taken : lock.step action = some next) : lock.Moves action next := by
  unfold step at taken
  split at taken
  · cases taken
  cases action with
  | call index => exact moves_of_call taken
  | rdlock index =>
    obtain ⟨tested, entered⟩ := Option.ite_none_right_eq_some.mp taken
    exact Option.some.inj entered ▸ .rdlock index tested
  | tryrdlock index =>
    obtain ⟨tested, entered⟩ := Option.ite_none_right_eq_some.mp taken
    exact Option.some.inj entered ▸ .tryrdlock index tested
  | wrlock index =>
    obtain ⟨tested, entered⟩ := Option.ite_none_right_eq_some.mp taken
    exact Option.some.inj entered ▸ .wrlock index tested
  | trywrlock index =>
    obtain ⟨tested, entered⟩ := Option.ite_none_right_eq_some.mp taken
    exact Option.some.inj entered ▸ .trywrlock index tested
  | unlock index woken =>
    obtain ⟨tested, unlocked⟩ := Option.ite_none_right_eq_some.mp taken
    exact .unlock index woken next tested unlocked
  | destroy index => exact moves_of_destroy taken
  | wake index =>
    dsimp only at taken
    split at taken
    · exact Option.some.inj taken ▸ .wakeReader index ‹_›
    · exact Option.some.inj taken ▸ .wakeWriter index ‹_›
    all_goals cases taken
  | resume index =>
    dsimp only at taken
    split at taken
    · exact Option.some.inj taken ▸ .resumeReader index ‹_›
    · exact Option.some.inj taken ▸ .resumeWriter index ‹_›
    all_goals cases taken
  | abandon index =>
    dsimp only at taken
    split at taken
    · exact Option.some.inj taken ▸ .abandonReader index (Or.inl ‹_›)
    · exact Option.some.inj taken ▸ .abandonReader index (Or.inr ‹_›)
    · exact Option.some.inj taken ▸ .abandonWriter index (Or.inl ‹_›)
    · exact Option.some.inj taken ▸ .abandonWriter index (Or.inr ‹_›)
    all_goals cases taken

/-! ### The counters are right -/

/-- What holds between the critical sections: the waiting counters count the waiting threads,
`rw_refcount` is the number of read locks less the number of write locks, and a write lock is
alone. -/
structure Accounts (lock : RwLock threads) : Prop where
  readers : lock.nwaitreaders = load RwThread.readWaits lock.thread
  writers : lock.nwaitwriters = load RwThread.writeWaits lock.thread
  balance : lock.refcount + load RwThread.writeLocks lock.thread = load RwThread.reads lock.thread
  excludes : load RwThread.writeLocks lock.thread = 0 ∨
    load RwThread.writeLocks lock.thread = 1 ∧ load RwThread.reads lock.thread = 0
  intact : lock.dumped = false

/-- Waking sleepers changes no counter: threads keep their locks and stay in their waits. -/
theorem Accounts.of_phases {lock next : RwLock threads} (accounts : lock.Accounts)
    (rest : next = { lock with thread := next.thread })
    (readWaits : ∀ index, (next.thread index).readWaits = (lock.thread index).readWaits)
    (writeWaits : ∀ index, (next.thread index).writeWaits = (lock.thread index).writeWaits)
    (reads : ∀ index, (next.thread index).reads = (lock.thread index).reads)
    (writeLocks : ∀ index, (next.thread index).writeLocks = (lock.thread index).writeLocks) :
    next.Accounts := by
  rw [rest]
  exact {
    readers := by rw [load_congr readWaits]; exact accounts.readers
    writers := by rw [load_congr writeWaits]; exact accounts.writers
    balance := by rw [load_congr writeLocks, load_congr reads]; exact accounts.balance
    excludes := by rw [load_congr writeLocks, load_congr reads]; exact accounts.excludes
    intact := accounts.intact }

/-- Moving one thread: the counters have to change as the thread's own share does. -/
theorem Accounts.move {lock next : RwLock threads} (accounts : lock.Accounts) (index : Fin threads)
    {thread : RwThread} (moved : next.thread = Function.update lock.thread index thread)
    (readers : next.nwaitreaders + (lock.thread index).readWaits =
      lock.nwaitreaders + thread.readWaits)
    (writers : next.nwaitwriters + (lock.thread index).writeWaits =
      lock.nwaitwriters + thread.writeWaits)
    (balance : next.refcount + thread.writeLocks + (lock.thread index).reads =
      lock.refcount + (lock.thread index).writeLocks + thread.reads)
    (excludes : next.refcount = lock.refcount ∧
        thread.writeLocks = (lock.thread index).writeLocks ∨
      0 ≤ next.refcount ∧ thread.writeLocks = 0 ∧
        load RwThread.writeLocks lock.thread = (lock.thread index).writeLocks ∨
      lock.refcount = 0 ∧ thread.writeLocks = 1 ∧ thread.reads = 0)
    (intact : next.dumped = lock.dumped) : next.Accounts := by
  have readersBefore := accounts.readers
  have writersBefore := accounts.writers
  have balanceBefore := accounts.balance
  have excludesBefore := accounts.excludes
  have readersMoved := load_update RwThread.readWaits lock.thread index thread
  have writersMoved := load_update RwThread.writeWaits lock.thread index thread
  have locksMoved := load_update RwThread.writeLocks lock.thread index thread
  have readsMoved := load_update RwThread.reads lock.thread index thread
  rw [← moved] at readersMoved writersMoved locksMoved readsMoved
  have reads_le := weight_le_load RwThread.reads lock.thread index
  exact ⟨by omega, by omega, by omega, by omega, intact.trans accounts.intact⟩

/-- A thread that changes its place without a change of its waits or locks. -/
theorem Accounts.setPhase {lock : RwLock threads} (accounts : lock.Accounts) {index : Fin threads}
    {phase : RwPhase}
    (readWaits : RwThread.readWaits { lock.thread index with phase := phase } =
      (lock.thread index).readWaits)
    (writeWaits : RwThread.writeWaits { lock.thread index with phase := phase } =
      (lock.thread index).writeWaits) : (lock.setPhase index phase).Accounts := by
  refine accounts.move index rfl ?_ ?_ rfl (Or.inl ⟨rfl, rfl⟩) rfl
  · rw [readWaits]; rfl
  · rw [writeWaits]; rfl

/-- A thread that is in no wait goes on outside the waits. -/
theorem Accounts.passes {lock : RwLock threads} (accounts : lock.Accounts) {index : Fin threads}
    (outside : (lock.thread index).Outside) {phase : RwPhase}
    (still : RwThread.Outside { lock.thread index with phase := phase }) :
    (lock.setPhase index phase).Accounts :=
  accounts.setPhase (still.1.trans outside.1.symm) (still.2.trans outside.2.symm)

theorem Accounts.load_writeLocks_eq_zero {lock : RwLock threads} (accounts : lock.Accounts)
    (unwritten : 0 ≤ lock.refcount) : load RwThread.writeLocks lock.thread = 0 := by
  have balance := accounts.balance
  have excludes := accounts.excludes
  omega

/-! ### Every call keeps the counters right -/

section Calls

variable {lock : RwLock threads} {index : Fin threads}

theorem Accounts.grantRead (accounts : lock.Accounts) (outside : (lock.thread index).Outside)
    (unwritten : 0 ≤ lock.refcount) : (lock.grantRead index).Accounts := by
  have noWriter := accounts.load_writeLocks_eq_zero unwritten
  have own := weight_le_load RwThread.writeLocks lock.thread index
  refine accounts.move index rfl ?_ ?_ ?_ (Or.inr (Or.inl ⟨?_, ?_, ?_⟩)) rfl
  · rw [outside.1]; rfl
  · rw [outside.2]; rfl
  · simp only [RwLock.grantRead, setThread, RwThread.writeLocks]
    omega
  · show 0 ≤ lock.refcount + 1
    omega
  · show (lock.thread index).writeLocks = 0
    omega
  · omega

theorem Accounts.grantWrite (accounts : lock.Accounts) (outside : (lock.thread index).Outside)
    (free : lock.refcount = 0) : (lock.grantWrite index).Accounts := by
  have noWriter := accounts.load_writeLocks_eq_zero free.ge
  have balance := accounts.balance
  have ownWrite := weight_le_load RwThread.writeLocks lock.thread index
  have ownRead := weight_le_load RwThread.reads lock.thread index
  have reads : (lock.thread index).reads = 0 := by omega
  have writes : (lock.thread index).writeLocks = 0 := by omega
  refine accounts.move index rfl ?_ ?_ ?_ (Or.inr (Or.inr ⟨free, rfl, reads⟩)) rfl
  · rw [outside.1]; rfl
  · rw [outside.2]; rfl
  · show (-1 : Int) + (1 : Nat) + (lock.thread index).reads =
      lock.refcount + (lock.thread index).writeLocks + (lock.thread index).reads
    omega

theorem not_readBusy_iff : ¬ lock.ReadBusy ↔ 0 ≤ lock.refcount ∧ lock.nwaitwriters ≤ 0 := by
  unfold ReadBusy
  omega

theorem not_writeBusy_iff : ¬ lock.WriteBusy ↔ lock.refcount = 0 := not_not

theorem Accounts.enterRead (accounts : lock.Accounts) (outside : (lock.thread index).Outside) :
    (lock.enterRead index).Accounts := by
  unfold RwLock.enterRead
  split
  · refine accounts.move index rfl ?_ ?_ rfl (Or.inl ⟨rfl, rfl⟩) rfl
    · show lock.nwaitreaders + 1 + (lock.thread index).readWaits = lock.nwaitreaders + (1 : Nat)
      rw [outside.1]
      omega
    · rw [outside.2]; rfl
  · rename_i grants
    exact accounts.grantRead outside (not_readBusy_iff.mp grants).1

theorem Accounts.enterWrite (accounts : lock.Accounts) (outside : (lock.thread index).Outside) :
    (lock.enterWrite index).Accounts := by
  unfold RwLock.enterWrite
  split
  · refine accounts.move index rfl ?_ ?_ rfl (Or.inl ⟨rfl, rfl⟩) rfl
    · rw [outside.1]; rfl
    · show lock.nwaitwriters + 1 + (lock.thread index).writeWaits = lock.nwaitwriters + (1 : Nat)
      rw [outside.2]
      omega
  · rename_i grants
    exact accounts.grantWrite outside (not_writeBusy_iff.mp grants)

theorem Accounts.tryRead (accounts : lock.Accounts) (outside : (lock.thread index).Outside) :
    (lock.tryRead index).Accounts := by
  unfold RwLock.tryRead
  split
  · exact accounts.passes outside (RwThread.outside_of_running rfl)
  · rename_i grants
    exact accounts.grantRead outside (not_readBusy_iff.mp grants).1

theorem Accounts.tryWrite (accounts : lock.Accounts) (outside : (lock.thread index).Outside) :
    (lock.tryWrite index).Accounts := by
  unfold RwLock.tryWrite
  split
  · exact accounts.passes outside (RwThread.outside_of_running rfl)
  · rename_i grants
    exact accounts.grantWrite outside (not_writeBusy_iff.mp grants)

theorem Accounts.leaveReadWait (accounts : lock.Accounts)
    (waits : (lock.thread index).WaitsToRead) : (lock.leaveReadWait index).Accounts := by
  obtain ⟨counted, elsewhere⟩ := waits.counted
  refine accounts.move index rfl ?_ ?_ rfl (Or.inl ⟨rfl, rfl⟩) rfl
  · show lock.nwaitreaders - 1 + (lock.thread index).readWaits = lock.nwaitreaders + (0 : Nat)
    omega
  · show lock.nwaitwriters + (lock.thread index).writeWaits = lock.nwaitwriters + (0 : Nat)
    omega

theorem Accounts.leaveWriteWait (accounts : lock.Accounts)
    (waits : (lock.thread index).WaitsToWrite) : (lock.leaveWriteWait index).Accounts := by
  obtain ⟨elsewhere, counted⟩ := waits.counted
  refine accounts.move index rfl ?_ ?_ rfl (Or.inl ⟨rfl, rfl⟩) rfl
  · show lock.nwaitreaders + (lock.thread index).readWaits = lock.nwaitreaders + (0 : Nat)
    omega
  · show lock.nwaitwriters - 1 + (lock.thread index).writeWaits = lock.nwaitwriters + (0 : Nat)
    omega

/-- A caller that holds a lock finds `rw_refcount` positive or -1, and gives up what it holds. -/
theorem Accounts.release (accounts : lock.Accounts)
    (outside : (lock.thread index).Outside) (holds : (lock.thread index).Holds) :
    (lock.release index).Accounts := by
  have balance := accounts.balance
  have excludes := accounts.excludes
  have ownWrite := weight_le_load RwThread.writeLocks lock.thread index
  have ownRead := weight_le_load RwThread.reads lock.thread index
  obtain ⟨readWaitsBefore, writeWaitsBefore⟩ := outside
  obtain ⟨readWaits, writeWaits⟩ :=
    RwThread.outside_of_running (lock.thread index).release_phase
  unfold RwLock.release
  rcases holds with writes | reads
  · -- The writer: nobody else holds anything.
    have own : (lock.thread index).writeLocks = 1 := by simp only [RwThread.writeLocks, writes,
      Bool.toNat_true]
    have noReader : (lock.thread index).reads = 0 := by omega
    have released : (lock.thread index).release.writeLocks = 0 ∧
        (lock.thread index).release.reads = 0 := by
      simp [RwThread.release, writes, RwThread.writeLocks, noReader]
    rw [if_neg (by omega), if_pos (by omega)]
    refine accounts.move index rfl ?_ ?_ ?_ (Or.inr (Or.inl ⟨le_refl 0, released.1, ?_⟩)) rfl
    · rw [readWaits, readWaitsBefore]; rfl
    · rw [writeWaits, writeWaitsBefore]; rfl
    · simp only [setThread]
      omega
    · omega
  · have own : (lock.thread index).writeLocks = 0 := by omega
    have notWriter : (lock.thread index).writes = false := by
      simpa [RwThread.writeLocks] using own
    have released : (lock.thread index).release.writeLocks = 0 ∧
        (lock.thread index).release.reads + 1 = (lock.thread index).reads := by
      simp only [RwThread.release, notWriter, RwThread.writeLocks]
      exact ⟨rfl, Nat.sub_add_cancel reads⟩
    rw [if_pos (by omega)]
    refine accounts.move index rfl ?_ ?_ ?_ (Or.inr (Or.inl ⟨?_, released.1, ?_⟩)) rfl
    · rw [readWaits, readWaitsBefore]; rfl
    · rw [writeWaits, writeWaitsBefore]; rfl
    · simp only [setThread]
      omega
    · simp only [setThread]
      omega
    · omega

theorem Accounts.notify (accounts : lock.Accounts) {woken : Finset (Fin threads)}
    {next : RwLock threads} (notified : lock.notify woken = some next) : next.Accounts := by
  unfold RwLock.notify at notified
  split at notified
  · split at notified
    · obtain ⟨wakes, signalled⟩ := Option.ite_none_right_eq_some.mp notified
      obtain rfl := Option.some.inj signalled
      refine accounts.of_phases rfl ?_ ?_ ?_ ?_
      all_goals
        intro other
        dsimp only
        split
        · rename_i member
          simp [RwThread.readWaits, RwThread.writeWaits, RwThread.writeLocks, wakes.1 other member]
        · rfl
    · obtain ⟨-, same⟩ := Option.ite_none_right_eq_some.mp notified
      exact Option.some.inj same ▸ accounts
  · obtain ⟨-, notified⟩ := Option.ite_none_right_eq_some.mp notified
    split at notified
    · obtain rfl := Option.some.inj notified
      refine accounts.of_phases rfl ?_ ?_ ?_ ?_
      all_goals
        intro other
        dsimp only [RwThread.wakeReader]
        split
        · rename_i phase
          simp [RwThread.readWaits, RwThread.writeWaits, RwThread.writeLocks, phase]
        · rfl
    · exact Option.some.inj notified ▸ accounts

theorem Accounts.unlock (accounts : lock.Accounts) (outside : (lock.thread index).Outside)
    (holds : (lock.thread index).Holds) {woken : Finset (Fin threads)} {next : RwLock threads}
    (unlocked : lock.unlock index woken = some next) : next.Accounts := by
  have released := accounts.release outside holds
  unfold RwLock.unlock at unlocked
  rw [released.intact] at unlocked
  exact released.notify unlocked

/-- A thread in a test of `pthread_rwlock_destroy` is in no wait. -/
theorem outside_of_destroyTest {counter : Int} {stage : DestroyStage}
    (tests : lock.destroyTest (lock.thread index).phase = some (counter, stage)) :
    (lock.thread index).Outside := by
  cases phase : (lock.thread index).phase with
  | tested => exact RwThread.outside_of_tested phase
  | destroying current => exact RwThread.outside_of_destroying phase
  | running | readWait | readWoken | writeWait | writeWoken =>
    rw [phase] at tests
    cases tests

theorem Accounts.destroyTest (accounts : lock.Accounts) {counter : Int} {stage : DestroyStage}
    (tests : lock.destroyTest (lock.thread index).phase = some (counter, stage)) :
    (lock.setPhase index (if counter = 0 then .destroying stage else .running)).Accounts := by
  refine accounts.passes (outside_of_destroyTest tests) ?_
  split
  · exact RwThread.outside_of_destroying rfl
  · exact RwThread.outside_of_running rfl

theorem Accounts.teardown (accounts : lock.Accounts)
    (phase : (lock.thread index).phase = .destroying .teardown) :
    ({ lock.setPhase index .running with magic := false } : RwLock threads).Accounts := by
  have passed : (lock.setPhase index .running).Accounts :=
    accounts.passes (RwThread.outside_of_destroying phase) (RwThread.outside_of_running rfl)
  exact ⟨passed.readers, passed.writers, passed.balance, passed.excludes, passed.intact⟩

end Calls

/-! ### Every run keeps the counters right -/

theorem leaveReadWait_phase (lock : RwLock threads) (index : Fin threads) :
    ((lock.leaveReadWait index).thread index).phase = .running := by
  simp only [leaveReadWait, setThread, Function.update_self]

theorem leaveWriteWait_phase (lock : RwLock threads) (index : Fin threads) :
    ((lock.leaveWriteWait index).thread index).phase = .running := by
  simp only [leaveWriteWait, setThread, Function.update_self]

theorem Accounts.step {lock next : RwLock threads} {action : Action threads}
    (accounts : lock.Accounts) (disciplined : lock.Disciplined action)
    (taken : lock.step action = some next) : next.Accounts := by
  cases moves_of_step taken with
  | refused => exact accounts
  | call index running =>
    exact accounts.passes (RwThread.outside_of_running running) (RwThread.outside_of_tested rfl)
  | rdlock index tested => exact accounts.enterRead (RwThread.outside_of_tested tested)
  | tryrdlock index tested => exact accounts.tryRead (RwThread.outside_of_tested tested)
  | wrlock index tested => exact accounts.enterWrite (RwThread.outside_of_tested tested)
  | trywrlock index tested => exact accounts.tryWrite (RwThread.outside_of_tested tested)
  | unlock index woken next tested unlocked =>
    exact accounts.unlock (RwThread.outside_of_tested tested) disciplined unlocked
  | destroyTest index counter stage tests => exact accounts.destroyTest tests
  | teardown index phase => exact accounts.teardown phase
  | wakeReader index phase =>
    refine accounts.setPhase ?_ ?_ <;> simp only [RwThread.readWaits, RwThread.writeWaits, phase]
  | wakeWriter index phase =>
    refine accounts.setPhase ?_ ?_ <;> simp only [RwThread.readWaits, RwThread.writeWaits, phase]
  | resumeReader index phase =>
    -- The thread leaves the wait and then runs the loop again, like a new caller.
    exact (accounts.leaveReadWait (Or.inr phase)).enterRead
      (RwThread.outside_of_running (leaveReadWait_phase lock index))
  | resumeWriter index phase =>
    exact (accounts.leaveWriteWait (Or.inr phase)).enterWrite
      (RwThread.outside_of_running (leaveWriteWait_phase lock index))
  | abandonReader index waits => exact accounts.leaveReadWait waits
  | abandonWriter index waits => exact accounts.leaveWriteWait waits

end RwLock

end SocketC
