/-
This file builds runs of the web client. The main thread, left alone, starts as
many threads as the files and the connection limit allow and arrives at the lock
of line 123; a thread, left alone, goes through `do_get_read` to its return; and
the scan passes over files whose flag is not `F_DONE`. The runs that reach the bad
states of the next files are assembled from these three.
-/

import SocketC.WebClient

namespace SocketC.WebClient

open Machine (Leads)

variable {config : WebConfig}

/-! ### The main thread starts the threads -/

/-- The state in which the main thread has started `count` threads, one for each of the first
files, and none of them has run. -/
def started (config : WebConfig) (count : Nat) (main : WebMain) : WebClient where
  nconn := count
  nlefttoconn := config.nfiles - count
  nlefttoread := config.nfiles
  ndone := 0
  fFlags := fun file => if file < count then fConnecting else 0
  fTid := fun file => if file < count then some file else none
  threads := count
  threadFile := fun tid => tid
  worker := fun _ => .connect
  main := main
  owner := none
  joins := []
  running := true

theorem started_zero (config : WebConfig) : started config 0 .outer = start config := by
  simp only [started, start, Nat.not_lt_zero, if_false, Nat.cast_zero, sub_zero]

theorem main_step {client next : WebClient} (running : client.running = true)
    (taken : client.mainStep config = some next) : (machine config).Leads client next := by
  refine Leads.of_step Action.main ?_
  show step config client .main = some next
  rw [step, if_pos running]
  exact taken

/-- The search passes over the files that already have a thread. -/
theorem started_find (count file : Nat) (inside : count < config.nfiles) (before : file ≤ count) :
    (machine config).Leads (started config count (.find file))
      (started config count (.find count)) := by
  induction before using Nat.decreasingInduction with
  | self => exact Leads.refl _
  | of_succ file before inductionHypothesis =>
    refine Leads.trans (main_step rfl ?_) inductionHypothesis
    have bound : file < config.nfiles := lt_trans before inside
    simp only [mainStep, started, if_pos bound, if_pos before, fConnecting, one_ne_zero, if_false]

theorem update_lt_count {Value : Type} (count : Nat) (value : Nat → Value) (other : Value) :
    Function.update (fun file => if file < count then value file else other) count (value count) =
      fun file => if file < count + 1 then value file else other := by
  funext file
  by_cases same : file = count
  · rw [same, Function.update_self, if_pos (Nat.lt_succ_self count)]
  · rw [Function.update_of_ne same]
    have bounds : file < count + 1 ↔ file < count := by omega
    simp only [bounds]

/-- One round of the inner loop. -/
theorem started_succ (count : Nat) (inside : count < config.nfiles)
    (slot : (count : Int) < config.maxnconn) :
    (machine config).Leads (started config count .inner) (started config (count + 1) .inner) := by
  have guard : (count : Int) < config.maxnconn ∧ (0 : Int) < config.nfiles - count :=
    ⟨slot, by omega⟩
  have search : (machine config).Leads (started config count .inner)
      (started config count (.find count)) := by
    refine Leads.trans (main_step rfl ?_) (started_find count 0 inside (Nat.zero_le _))
    simp only [mainStep, started]
    exact if_pos guard
  have flags := update_lt_count count (fun _ => fConnecting) 0
  have tids := update_lt_count count (fun file => some file) none
  refine Leads.trans search ?_
  refine ⟨[.main, .main, .main, .main, .main, .main], ?_⟩
  simp only [Machine.run_cons, machine, step, mainStep, started, if_true, if_pos inside,
    lt_self_iff_false, if_false, Option.bind_some, Machine.run_nil, Function.update_eq_self,
    Option.some.injEq, mk.injEq, and_true, true_and, flags, tids, Nat.cast_add, Nat.cast_one]
  omega

/-- The number of threads that the files and the connection limit allow. -/
def allowed (config : WebConfig) : Nat := min config.nfiles config.maxnconn.toNat

theorem started_inner (count : Nat) (within : count ≤ allowed config) :
    (machine config).Leads (started config 0 .inner) (started config count .inner) := by
  induction count with
  | zero => exact Leads.refl _
  | succ count inductionHypothesis =>
    have files : count < config.nfiles := lt_of_lt_of_le within (min_le_left _ _)
    have conns : count < config.maxnconn.toNat := lt_of_lt_of_le within (min_le_right _ _)
    exact Leads.trans (inductionHypothesis (Nat.le_of_succ_le within))
      (started_succ count files (by omega))

/-- Left alone, the main thread starts all threads it may start and goes to line 123. -/
theorem reachable_started (config : WebConfig) :
    (machine config).Reachable (started config (allowed config) .lock) := by
  have positive := config.nonempty
  have enter : (machine config).Leads (start config) (started config 0 .inner) := by
    rw [← started_zero]
    refine main_step rfl ?_
    have more : (0 : Int) < config.nfiles := by omega
    simp only [mainStep, started]
    exact if_pos more
  have settle : (machine config).Leads (started config (allowed config) .inner)
      (started config (allowed config) .lock) := by
    refine main_step rfl ?_
    have full : ¬ ((allowed config : Int) < config.maxnconn ∧
        (0 : Int) < config.nfiles - allowed config) := by
      unfold allowed
      omega
    simp only [mainStep, started]
    exact if_neg full
  exact Leads.trans enter (Leads.trans (started_inner _ le_rfl) settle)

/-! ### A thread runs on its own -/

/-- Left alone, a thread goes from its start to the lock of line 171, its flag stored. -/
theorem worker_marks (config : WebConfig) (client : WebClient) (tid : Nat)
    (running : client.running = true) (created : tid < client.threads)
    (here : client.worker tid = .connect) :
    (machine config).Leads client { client with
      fFlags := Function.update client.fFlags (client.threadFile tid) fDone
      worker := Function.update client.worker tid .lock } := by
  refine ⟨List.replicate 6 (.worker tid), ?_⟩
  simp only [List.replicate, Machine.run_cons, Machine.run_nil, machine, step, workerStep, goto,
    store, running, created, here, if_true, Option.bind_some, Function.update_self,
    Function.update_idem]

/-- With the mutex free, a thread at line 171 counts itself, signals and returns. The main thread
is not asleep, so the signal is lost. -/
theorem worker_counts (config : WebConfig) (client : WebClient) (tid : Nat)
    (running : client.running = true) (created : tid < client.threads)
    (here : client.worker tid = .lock)
    (free : client.owner = none) (awake : client.main ≠ .waiting) :
    (machine config).Leads client { client with
      ndone := client.ndone + 1
      worker := Function.update client.worker tid .returned } := by
  have stays : signalled client.main = client.main := by
    cases place : client.main <;> first | rfl | exact absurd place awake
  refine ⟨List.replicate 5 (.worker tid), ?_⟩
  simp only [List.replicate, Machine.run_cons, Machine.run_nil, machine, step, workerStep, goto,
    running, created, here, free, stays, if_true, Option.bind_some, Function.update_self,
    Function.update_idem]

/-! ### The scan -/

/-- The scan passes over files that are not done. -/
theorem scan_skips (config : WebConfig) (client : WebClient) (running : client.running = true)
    (file : Nat) (here : client.main = .scan file) (inside : file ≤ config.nfiles)
    (undone : ∀ other, file ≤ other → client.fFlags other &&& fDone = 0) :
    (machine config).Leads client { client with main := .scan config.nfiles } := by
  induction inside using Nat.decreasingInduction generalizing client with
  | self => exact here ▸ Leads.refl _
  | of_succ file bound inductionHypothesis =>
    refine Leads.trans (main_step running ?_)
      (inductionHypothesis { client with main := .scan (file + 1) } running rfl
        fun other later => undone other (Nat.le_of_succ_le later))
    have skip : ¬ client.fFlags file &&& fDone ≠ 0 := not_not.mpr (undone file le_rfl)
    simp only [mainStep, here, if_pos bound, if_neg skip]

/-- With the mutex free and a thread counted, the main thread at line 123 begins its scan. -/
theorem lock_scans (config : WebConfig) (client : WebClient) (running : client.running = true)
    (here : client.main = .lock) (free : client.owner = none) (counted : client.ndone ≠ 0) :
    (machine config).Leads client { client with owner := some .main, main := .scan 0 } := by
  refine ⟨[.main, .main], ?_⟩
  simp only [Machine.run_cons, Machine.run_nil, machine, step, mainStep, running, here, free,
    counted, if_true, if_false, Option.bind_some]

/-- The scan joins the thread of a file that is done, and goes on to the next file. -/
theorem scan_joins (config : WebConfig) (client : WebClient) (running : client.running = true)
    (file tid : Nat) (here : client.main = .scan file) (inside : file < config.nfiles)
    (done : client.fFlags file &&& fDone ≠ 0) (named : client.fTid file = some tid)
    (returned : client.worker tid = .returned) :
    (machine config).Leads client
      { client with joins := client.joins ++ [tid], main := .scan (file + 1) } := by
  refine ⟨[.main, .main, .main], ?_⟩
  simp only [Machine.run_cons, Machine.run_nil, machine, step, mainStep, running, here, inside,
    done, named, returned, if_true, Option.bind_some, ne_eq, not_false_eq_true]

end SocketC.WebClient
