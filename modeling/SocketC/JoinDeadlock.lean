/-
This file settles when the main thread of the web client and a finishing thread
can wait for each other. A thread stores `F_DONE` at line 170, before it locks
`ndone_mutex` at line 171; the main thread tests `F_DONE` and joins with the mutex
held. If the scan was let through by another thread's `ndone++`, the main thread
can join a thread that still has to lock the mutex. That takes two threads, and
`nconn` is never decremented, so two threads exist in some run exactly when both
the files and the connection limit allow two.
-/

import SocketC.WebBooks
import SocketC.WebRuns

namespace SocketC

/-- The thread still has to lock `ndone_mutex` before it can return. -/
def WebWorker.BeforeLock : WebWorker → Prop
  | .connect | .request | .markReading | .reading | .close | .markDone | .lock => True
  | .bump | .signal | .unlock | .leave | .returned => False

/-- The thread is between its lock and its unlock of `ndone_mutex`. -/
def WebWorker.Locked : WebWorker → Prop
  | .bump | .signal | .unlock => True
  | _ => False

/-- The main thread is between its lock and its unlock, and not asleep. -/
def WebMain.Locked : WebMain → Prop
  | .test | .scan _ | .join _ | .report _ | .unlock => True
  | _ => False

namespace WebClient

open Machine (Leads)

/-- The main thread holds `ndone_mutex` and is in `Pthread_join` on a thread that still has to
lock it. -/
def Deadlocked (client : WebClient) : Prop :=
  client.owner = some .main ∧ ∃ file tid, client.main = .join file ∧
    client.fTid file = some tid ∧ (client.worker tid).BeforeLock

/-! ### A deadlock is for good -/

/-- `ndone_mutex` excludes: whoever is between its lock and its unlock owns it. -/
structure Guarded (client : WebClient) : Prop where
  main : client.main.Locked → client.owner = some .main
  worker : ∀ tid, (client.worker tid).Locked → client.owner = some (.worker tid)

/-- A thread that does not own the mutex is not between its lock and its unlock, -/
theorem Guarded.worker_outside {client : WebClient} (guarded : client.Guarded) {tid : Nat}
    (disowned : client.owner ≠ some (.worker tid)) : ¬ (client.worker tid).Locked :=
  mt (guarded.worker tid) disowned

/-- and neither is the main thread. -/
theorem Guarded.main_outside {client : WebClient} (guarded : client.Guarded)
    (disowned : client.owner ≠ some .main) : ¬ client.main.Locked :=
  mt guarded.main disowned

theorem Guarded.main_goes {client next : WebClient} (guarded : client.Guarded)
    (owner : next.owner = client.owner) (worker : next.worker = client.worker)
    (inside : next.main.Locked → client.main.Locked) : next.Guarded where
  main := fun locked => owner ▸ guarded.main (inside locked)
  worker := by
    rw [owner, worker]
    exact guarded.worker

theorem Guarded.worker_goes {client next : WebClient} {tid : Nat} {place : WebWorker}
    (guarded : client.Guarded) (owner : next.owner = client.owner)
    (moved : next.worker = Function.update client.worker tid place)
    (main : next.main.Locked → client.main.Locked)
    (inside : place.Locked → (client.worker tid).Locked) : next.Guarded where
  main := fun locked => owner ▸ guarded.main (main locked)
  worker := by
    intro other locked
    rw [owner]
    rw [moved] at locked
    by_cases same : other = tid
    · subst same
      rw [Function.update_self] at locked
      exact guarded.worker other (inside locked)
    · rw [Function.update_of_ne same] at locked
      exact guarded.worker other locked

/-- The main thread gives the mutex up. -/
theorem Guarded.main_releases {client next : WebClient} (guarded : client.Guarded)
    (here : client.main.Locked) (worker : next.worker = client.worker)
    (outside : ¬ next.main.Locked) : next.Guarded where
  main := fun locked => absurd locked outside
  worker := by
    intro tid locked
    rw [worker] at locked
    exact absurd locked (guarded.worker_outside (by rw [guarded.main here]; nofun))

/-- A thread takes the mutex, which nobody owned. -/
theorem Guarded.worker_acquires {client next : WebClient} {tid : Nat} {place : WebWorker}
    (guarded : client.Guarded) (free : client.owner = none)
    (owner : next.owner = some (.worker tid)) (main : next.main = client.main)
    (moved : next.worker = Function.update client.worker tid place) : next.Guarded where
  main := by
    intro locked
    rw [main] at locked
    exact absurd locked (guarded.main_outside (by rw [free]; nofun))
  worker := by
    intro other locked
    rw [moved] at locked
    by_cases same : other = tid
    · rw [same, owner]
    · rw [Function.update_of_ne same] at locked
      exact absurd locked (guarded.worker_outside (by rw [free]; nofun))

/-- A thread gives the mutex up. -/
theorem Guarded.worker_releases {client next : WebClient} {tid : Nat} {place : WebWorker}
    (guarded : client.Guarded) (here : (client.worker tid).Locked) (main : next.main = client.main)
    (moved : next.worker = Function.update client.worker tid place)
    (outside : ¬ place.Locked) : next.Guarded where
  main := by
    intro locked
    rw [main] at locked
    exact absurd locked (guarded.main_outside (by rw [guarded.worker tid here]; nofun))
  worker := by
    intro other locked
    rw [moved] at locked
    by_cases same : other = tid
    · rw [same, Function.update_self] at locked
      exact absurd locked outside
    · rw [Function.update_of_ne same] at locked
      have owned := guarded.worker other locked
      rw [guarded.worker tid here, Option.some.injEq, WebHolder.worker.injEq] at owned
      exact absurd owned.symm same

theorem Walks.unlocked {before after : WebWorker} (walks : Walks before after) :
    ¬ after.Locked := by
  cases walks <;> exact id

theorem Guarded.moves {config : WebConfig} {client next : WebClient} (guarded : client.Guarded)
    (moves : Moves config client next) : next.Guarded := by
  cases moves
  case lock here free =>
    refine ⟨fun _ => rfl, fun tid locked => ?_⟩
    exact absurd locked (guarded.worker_outside (by rw [free]; nofun))
  case sleep here zero => exact guarded.main_releases (here ▸ trivial) rfl id
  case unlock here => exact guarded.main_releases (here ▸ trivial) rfl id
  case pass here nonzero => exact guarded.main_goes rfl rfl fun _ => here ▸ trivial
  case found file here inside done => exact guarded.main_goes rfl rfl fun _ => here ▸ trivial
  case skip file here inside undone => exact guarded.main_goes rfl rfl fun _ => here ▸ trivial
  case scanned file here outside => exact guarded.main_goes rfl rfl fun _ => here ▸ trivial
  case join file tid here named returned =>
    exact guarded.main_goes rfl rfl fun _ => here ▸ trivial
  case report file here => exact guarded.main_goes rfl rfl fun _ => here ▸ trivial
  case create file here =>
    exact guarded.worker_goes rfl rfl False.elim False.elim
  case walk tid place created walks =>
    exact guarded.worker_goes rfl rfl id fun locked => absurd locked walks.unlocked
  case startReading tid created here => exact guarded.worker_goes rfl rfl id False.elim
  case finishReading tid created here => exact guarded.worker_goes rfl rfl id False.elim
  case bump tid created here => exact guarded.worker_goes rfl rfl id fun _ => here ▸ trivial
  case signal tid created here =>
    refine guarded.worker_goes rfl rfl (fun locked => ?_) fun _ => here ▸ trivial
    change (signalled client.main).Locked at locked
    cases place : client.main <;> rw [place] at locked <;> exact locked
  case acquire tid created here free => exact guarded.worker_acquires free rfl rfl rfl
  case release tid created here => exact guarded.worker_releases (here ▸ trivial) rfl rfl id
  case nothing file here outside => exact guarded.main_goes rfl rfl id
  case fail => exact guarded.main_goes rfl rfl id
  all_goals exact guarded.main_goes rfl rfl False.elim

theorem guarded_of_reachable {config : WebConfig} {client : WebClient}
    (reached : (machine config).Reachable client) : client.Guarded :=
  reached.invariant Guarded ⟨nofun, nofun⟩ fun _ _ _ guarded taken =>
    guarded.moves (moves_of_step taken).2

theorem Walks.beforeLock {before after : WebWorker} (walks : Walks before after)
    (early : before.BeforeLock) : after.BeforeLock := by
  cases walks <;> exact early

/-- The thread that is waited for may still walk up to the lock. -/
theorem Deadlocked.worker_goes {client next : WebClient} {tid : Nat} {place : WebWorker}
    (deadlocked : client.Deadlocked) (owner : next.owner = client.owner)
    (main : next.main = client.main) (fTid : next.fTid = client.fTid)
    (moved : next.worker = Function.update client.worker tid place)
    (early : (client.worker tid).BeforeLock → place.BeforeLock) : next.Deadlocked := by
  obtain ⟨held, file, waited, here, named, before⟩ := deadlocked
  refine ⟨owner ▸ held, file, waited, main ▸ here, fTid ▸ named, ?_⟩
  rw [moved]
  by_cases same : waited = tid
  · rw [same, Function.update_self]
    exact early (same ▸ before)
  · rw [Function.update_of_ne same]
    exact before

theorem Deadlocked.moves {config : WebConfig} {client next : WebClient}
    (deadlocked : client.Deadlocked) (guarded : client.Guarded)
    (moves : Moves config client next) : next.Deadlocked := by
  obtain ⟨held, file, waited, waiting, named, before⟩ := id deadlocked
  have excluded : ∀ tid, ¬ (client.worker tid).Locked :=
    fun tid => guarded.worker_outside (by rw [held]; nofun)
  cases moves
  case join other tid here other_named returned =>
    rw [waiting, WebMain.join.injEq] at here
    rw [here, other_named, Option.some.injEq] at named
    rw [← named, returned] at before
    exact before.elim
  case walk tid place created walks =>
    exact deadlocked.worker_goes rfl rfl rfl rfl walks.beforeLock
  case startReading tid created here =>
    exact deadlocked.worker_goes rfl rfl rfl rfl fun _ => trivial
  case finishReading tid created here =>
    exact deadlocked.worker_goes rfl rfl rfl rfl fun _ => trivial
  case acquire tid created here free =>
    rw [held] at free
    nomatch free
  case bump tid created here => exact absurd (here ▸ trivial) (excluded tid)
  case signal tid created here => exact absurd (here ▸ trivial) (excluded tid)
  case release tid created here => exact absurd (here ▸ trivial) (excluded tid)
  case nothing other here outside => exact deadlocked
  case fail => exact deadlocked
  case lock here free =>
    rw [held] at free
    nomatch free
  -- The other moves of the main thread start elsewhere.
  all_goals
    have elsewhere := waiting.symm.trans ‹client.main = _›
    nomatch elsewhere

/-- No step of a run gets the two threads out of the deadlock. -/
theorem Deadlocked.leads {config : WebConfig} {client later : WebClient}
    (deadlocked : client.Deadlocked) (reached : (machine config).Reachable client)
    (onward : (machine config).Leads client later) : later.Deadlocked := by
  have both : later.Guarded ∧ later.Deadlocked := by
    refine onward.invariant (fun client => client.Guarded ∧ client.Deadlocked)
      ⟨guarded_of_reachable reached, deadlocked⟩ fun current action next kept taken => ?_
    have moves := (moves_of_step taken).2
    exact ⟨kept.1.moves moves, kept.2.moves kept.1 moves⟩
  exact both.2

/-! ### When the deadlock can be reached -/

/-- With at most one thread, the thread the main thread joins is the one that let it through. -/
theorem Booked.not_deadlocked {config : WebConfig} {client : WebClient}
    (booked : Booked config client) (single : client.threads ≤ 1) : ¬ client.Deadlocked := by
  rintro ⟨-, file, tid, here, named, before⟩
  obtain ⟨counted, member⟩ := booked.scanning (by rw [here]; trivial)
  obtain ⟨created, past⟩ := mem_finished.mp member
  have joined : tid < client.threads := booked.named file tid named
  have same : counted = tid := by omega
  rw [same] at past
  cases place : client.worker tid <;> rw [place] at before past <;>
    first | exact before | exact past

/-- The first two threads of a run that starts at least two. -/
theorem two_allowed {config : WebConfig} (files : 1 < config.nfiles)
    (conns : 1 < config.maxnconn) : 1 < allowed config := by
  unfold allowed
  omega

/-- With two threads, the first one finishes, the second one stores `F_DONE`, and the main thread
joins the first and then waits for the second. -/
theorem deadlocked_reachable (config : WebConfig) (two : 1 < allowed config) :
    ∃ client, (machine config).Reachable client ∧ client.Deadlocked := by
  have files : 1 < config.nfiles := lt_of_lt_of_le two (min_le_left _ _)
  have one : 0 < allowed config := lt_trans Nat.zero_lt_one two
  -- The first thread runs to its return, the second one up to the lock of line 171.
  have marked := (reachable_started config).leads (worker_marks config _ 0 rfl one rfl)
  have counted := marked.leads (worker_counts config _ 0 rfl one (by simp) rfl (by simp [started]))
  have both := counted.leads (worker_marks config _ 1 rfl two (by simp [started]))
  -- The main thread is let through, joins the first thread and finds the second one done.
  have scanning := both.leads (lock_scans config _ rfl rfl rfl (by simp [started]))
  have joined := scanning.leads (scan_joins config _ rfl 0 0 rfl (by omega)
    (by simp [started, fDone]) (by simp [started, one]) (by simp))
  have blocked := joined.leads (main_step rfl (by
    simp only [mainStep, started, if_pos files]
    exact if_pos (by simp [fDone])))
  refine ⟨_, blocked, rfl, 1, 1, rfl, ?_, ?_⟩
  · simp [two]
  · simp [WebWorker.BeforeLock]

/-- The main thread and a finishing thread never wait for each other exactly when the files or
the connection limit allow one thread at most. -/
theorem no_join_deadlock_iff (config : WebConfig) :
    (∀ client, (machine config).Reachable client → ¬ client.Deadlocked) ↔
      config.nfiles ≤ 1 ∨ config.maxnconn ≤ 1 := by
  constructor
  · intro safe
    by_contra more
    obtain ⟨files, conns⟩ := not_or.mp more
    obtain ⟨client, reached, deadlocked⟩ :=
      deadlocked_reachable config (two_allowed (not_le.mp files) (not_le.mp conns))
    exact safe client reached deadlocked
  · intro few client reached
    have booked := booked_of_reachable reached
    refine booked.not_deadlocked ?_
    have limit := booked.limit
    have left := booked.left
    have remaining := booked.remaining
    omega

/-- Two files and two connections. -/
def twoFiles : WebConfig := ⟨2, 2, by decide, by decide⟩

/-- The schedule of the deadlock: both threads are started, the first one returns, the second one
stores `F_DONE`, and the main thread scans. -/
def deadlockRun : List Action :=
  List.replicate 17 Action.main ++ List.replicate 11 (Action.worker 0) ++
    List.replicate 6 (Action.worker 1) ++ List.replicate 6 Action.main

/-- The first thread has returned and been joined, the second one is at the lock of line 171, and
the main thread holds the mutex and waits for the second one, for good. -/
theorem two_files_deadlock :
    ∃ client, (machine twoFiles).Reachable client ∧ client.Deadlocked ∧
      ∀ later, (machine twoFiles).Leads client later → later.Deadlocked := by
  have reached : (machine twoFiles).Reachable ((machine twoFiles).after deadlockRun) :=
    Machine.reachable_after deadlockRun (by decide)
  have deadlocked : ((machine twoFiles).after deadlockRun).Deadlocked :=
    ⟨by decide, 1, 1, by decide, by decide, trivial⟩
  exact ⟨_, reached, deadlocked, fun later onward => deadlocked.leads reached onward⟩

end WebClient

end SocketC
