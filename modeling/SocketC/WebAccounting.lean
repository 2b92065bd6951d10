/-
This file compares the counters of the web client with what its main loop reads
them as: the connections in use, the files still to read and the threads that are
done and not yet joined. The scan of lines 128-134 joins threads and updates none
of the three, so the first join of a run already leaves all of them wrong at the
next iteration, unless the connection limit lets no thread start.
-/

import SocketC.WebBooks
import SocketC.WebRuns

namespace SocketC.WebClient

open Machine (Leads)

variable {config : WebConfig}

/-- The threads that have been joined. -/
def joined (client : WebClient) : Finset Nat := client.joins.toFinset

/-- What the main loop takes its counters for at the start of an iteration. -/
structure Accounted (config : WebConfig) (client : WebClient) : Prop where
  /-- `nconn` is the number of threads created and not yet joined, -/
  conn : client.nconn = client.threads - client.joined.card
  /-- and within the limit. -/
  limit : client.nconn ≤ max config.maxnconn 0
  /-- `nlefttoread` is the number of files less the threads joined. -/
  read : client.nlefttoread = config.nfiles - client.joined.card
  /-- `ndone` is the number of threads past their completion section and not yet joined. -/
  done : client.ndone = (client.finished \ client.joined).card
  /-- A joined thread frees its slot: while files are left, the inner loop goes on. -/
  slot : (client.threads : Int) - client.joined.card < config.maxnconn →
    client.threads < config.nfiles → client.nconn < config.maxnconn ∧ 0 < client.nlefttoconn
  /-- The outer loop ends exactly when all files have been read. -/
  ends : ¬ 0 < client.nlefttoread ↔ client.joined.card = config.nfiles

/-! ### Without threads -/

/-- Only threads that exist are joined. -/
def JoinsCreated (client : WebClient) : Prop := ∀ tid ∈ client.joined, tid < client.threads

theorem JoinsCreated.moves {client next : WebClient} (created : client.JoinsCreated)
    (booked : Booked config client) (moves : Moves config client next) : next.JoinsCreated := by
  cases moves
  case create file here => exact fun tid member => Nat.lt_succ_of_lt (created tid member)
  case join file tid here named returned =>
    intro other member
    rw [joined, List.toFinset_append, Finset.mem_union] at member
    rcases member with earlier | now
    · exact created other earlier
    · rw [List.mem_toFinset, List.mem_singleton] at now
      exact now ▸ booked.named file tid named
  all_goals exact created

theorem joinsCreated_of_reachable {client : WebClient}
    (reached : (machine config).Reachable client) : client.JoinsCreated := by
  refine reached.induction JoinsCreated nofun fun current action next before created taken => ?_
  exact created.moves (booked_of_reachable before) (moves_of_step taken).2

/-- Without a connection slot no thread ever exists and nothing is ever joined. -/
theorem idle_of_reachable {client : WebClient} (slotless : config.maxnconn ≤ 0)
    (reached : (machine config).Reachable client) :
    client.threads = 0 ∧ client.finished = ∅ ∧ client.joined = ∅ := by
  have limit := (booked_of_reachable reached).limit
  have threadless : client.threads = 0 := by omega
  refine ⟨threadless, ?_, ?_⟩
  · rw [Finset.eq_empty_iff_forall_notMem]
    intro tid member
    have created := (mem_finished.mp member).1
    omega
  · rw [Finset.eq_empty_iff_forall_notMem]
    intro tid member
    have created := joinsCreated_of_reachable reached tid member
    omega

theorem accounted_of_slotless {client : WebClient} (slotless : config.maxnconn ≤ 0)
    (reached : (machine config).Reachable client) (here : client.main = .outer) :
    Accounted config client := by
  have booked := booked_of_reachable reached
  obtain ⟨threads, finished, joined⟩ := idle_of_reachable slotless reached
  have nonempty := config.nonempty
  have conn := booked.conn
  have done := booked.done
  have unread := booked.unread
  simp only [here, WebMain.connLag, threads] at conn
  simp only [finished, Finset.card_empty] at done
  refine ⟨?_, ?_, ?_, ?_, ?_, ?_⟩
  · rw [threads, joined, Finset.card_empty]
    omega
  · exact le_trans (by omega) (le_max_right config.maxnconn 0)
  · rw [unread, joined, Finset.card_empty]
    omega
  · rw [done, finished, joined]
    rfl
  · intro slot
    rw [threads, joined, Finset.card_empty] at slot
    omega
  · rw [unread, joined, Finset.card_empty]
    omega

/-! ### With a thread -/

/-- All threads are started, the first one has returned and been joined, and the main thread is
back at line 79. -/
def firstJoined (config : WebConfig) : WebClient :=
  { started config (allowed config) .outer with
    ndone := 1
    fFlags := Function.update (started config (allowed config) .outer).fFlags 0 fDone
    worker := Function.update (fun _ => .connect) 0 .returned
    joins := [0] }

theorem reachable_firstJoined (config : WebConfig) (one : 0 < allowed config) :
    (machine config).Reachable (firstJoined config) := by
  have files : 0 < config.nfiles := config.nonempty
  have marked := (reachable_started config).leads (worker_marks config _ 0 rfl one rfl)
  have counted := marked.leads
    (worker_counts config _ 0 rfl one (by simp) rfl (by simp [started]))
  have scanning := counted.leads (lock_scans config _ rfl rfl rfl (by simp [started]))
  have joining := scanning.leads (scan_joins config _ rfl 0 0 rfl files
    (by simp [started, fDone]) (by simp [started, one]) (by simp))
  have passed := joining.leads (scan_skips config _ rfl 1 rfl files (by
    intro other later
    have different : other ≠ 0 := by omega
    simp only [started, Function.update_of_ne different]
    split <;> rfl))
  have unlocking := passed.leads (main_step rfl (if_neg (lt_irrefl config.nfiles)))
  have back := unlocking.leads (main_step rfl rfl)
  simp only [Function.update_idem] at back
  exact back

/-- One thread runs to its return, the main thread joins it and comes back to line 79. -/
theorem joined_reachable (config : WebConfig) (one : 0 < allowed config) :
    ∃ client, (machine config).Reachable client ∧ client.main = .outer ∧
      client.joined = {0} ∧ client.nconn = client.threads :=
  ⟨firstJoined config, reachable_firstJoined config one, rfl, rfl, rfl⟩

/-- The counters of the web client are what the main loop takes them for, at every start of an
iteration of every run, exactly when the connection limit lets no thread start. -/
theorem accounted_iff_slotless (config : WebConfig) :
    (∀ client, (machine config).Reachable client → client.main = .outer →
      Accounted config client) ↔ config.maxnconn ≤ 0 := by
  constructor
  · intro accounted
    by_contra slots
    have one : 0 < allowed config := by
      have files := config.nonempty
      unfold allowed
      omega
    obtain ⟨client, reached, here, joins, conn⟩ := joined_reachable config one
    have claimed := (accounted client reached here).conn
    rw [joins, Finset.card_singleton, conn] at claimed
    omega
  · exact fun slotless client reached here => accounted_of_slotless slotless reached here

/-- One file and one connection. -/
def oneFile : WebConfig := ⟨1, 1, by decide, by decide⟩

/-- The only thread is started, runs to its return and is joined. -/
def oneFileRun : List Action :=
  List.replicate 9 Action.main ++ List.replicate 11 (Action.worker 0) ++
    List.replicate 7 Action.main

/-- The only file has been read and its thread joined, and the main loop still counts one
connection in use, one file to read and one thread to join. -/
theorem one_file_miscounted :
    ∃ client, (machine oneFile).Reachable client ∧ client.main = .outer ∧ client.threads = 1 ∧
      client.joins = [0] ∧ client.nconn = 1 ∧ client.nlefttoread = 1 ∧ client.ndone = 1 ∧
      ¬ Accounted oneFile client := by
  have conn : ((machine oneFile).after oneFileRun).nconn = 1 := by decide
  have threads : ((machine oneFile).after oneFileRun).threads = 1 := by decide
  have joins : ((machine oneFile).after oneFileRun).joins = [0] := by decide
  refine ⟨(machine oneFile).after oneFileRun, Machine.reachable_after oneFileRun (by decide),
    by decide, threads, joins, conn, by decide, by decide, fun accounted => ?_⟩
  have claimed := accounted.conn
  rw [conn, threads, joined, joins] at claimed
  exact absurd claimed (by decide)

end SocketC.WebClient
