/-
This file follows the calls of `Pthread_join` in the web client. The scan of lines
128-134 decides by the flag alone, and after a join the flag stays `F_DONE`: the
update of the file that the comment of line 131 announces is not there. A call
always names a thread that was created, but every scan after a join calls
`Pthread_join` again for the same thread, and since `nlefttoread` does not go down
either there is always another scan.
-/

import SocketC.WebDistribution
import SocketC.WebAccounting

namespace SocketC.WebClient

variable {config : WebConfig}

/-- The threads for which `Pthread_join` has been called, with the call that has not returned
yet; `none` stands for an `f_tid` that was never stored. -/
def joinCalls (client : WebClient) : List (Option Nat) :=
  client.joins.map some ++
    match client.main with
    | .join file => [client.fTid file]
    | _ => []

/-- Every call is for a thread that was created, and no two calls are for the same. -/
structure JoinsOnce (client : WebClient) : Prop where
  created : ∀ call ∈ client.joinCalls, ∃ tid < client.threads, call = some tid
  once : client.joinCalls.Nodup

/-! ### Every call is for a thread that was created -/

/-- Line 90 or line 130: the main thread is about to store an identifier, or to use one. -/
def Naming : WebMain → Prop
  | .record _ _ | .join _ => True
  | _ => False

/-- The identifiers of all threads but the newest are stored, and the main thread calls
`Pthread_join` only for a file that was given to a thread. -/
structure Identified (client : WebClient) : Prop where
  stored : ∀ tid < client.threads, (∀ file, client.main ≠ .record file tid) →
    client.fTid (client.threadFile tid) = some tid
  storing : ∀ file tid, client.main = .record file tid →
    tid < client.threads ∧ client.threadFile tid = file
  joining : ∀ file, client.main = .join file → client.Given file

theorem identified_start (config : WebConfig) : Identified (start config) where
  stored := fun _ impossible => absurd impossible (Nat.not_lt_zero _)
  storing := fun _ _ impossible => nomatch impossible
  joining := fun _ impossible => nomatch impossible

/-- A step that stores no identifier and creates no thread. -/
theorem Identified.control {client next : WebClient} (identified : client.Identified)
    (main : SameAt Naming client next) (fTid : next.fTid = client.fTid)
    (threads : next.threads = client.threads) (threadFile : next.threadFile = client.threadFile) :
    next.Identified where
  stored := by
    intro tid created elsewhere
    rw [threads] at created
    rw [fTid, threadFile]
    refine identified.stored tid created fun file here => elsewhere file ?_
    exact (main (.record file tid) trivial).mpr here
  storing := by
    intro file tid here
    rw [threads, threadFile]
    exact identified.storing file tid ((main (.record file tid) trivial).mp here)
  joining := by
    intro file here
    rw [Given.congr threads threadFile]
    exact identified.joining file ((main (.join file) trivial).mp here)

theorem Identified.create {client next : WebClient} (identified : client.Identified) {file : Nat}
    (here : client.main = .create file) (main : next.main = .record file client.threads)
    (fTid : next.fTid = client.fTid) (threads : next.threads = client.threads + 1)
    (threadFile : next.threadFile = Function.update client.threadFile client.threads file) :
    next.Identified where
  stored := by
    intro tid created elsewhere
    rw [main] at elsewhere
    have older : tid < client.threads := by
      have different : tid ≠ client.threads := by
        rintro rfl
        exact elsewhere file rfl
      rw [threads] at created
      omega
    rw [fTid, threadFile, Function.update_of_ne (Nat.ne_of_lt older)]
    exact identified.stored tid older (by rw [here]; exact nofun)
  storing := by
    intro other tid there
    rw [main] at there
    cases there
    rw [threads, threadFile, Function.update_self]
    exact ⟨Nat.lt_succ_self _, rfl⟩
  joining := by
    intro other there
    rw [main] at there
    cases there

theorem Identified.record {client : WebClient} (identified : client.Identified)
    (distributed : Distributed config client) {file tid : Nat}
    (here : client.main = .record file tid) :
    Identified { client with
      fTid := Function.update client.fTid file (some tid)
      main := .countConn } where
  stored := by
    intro other created _
    obtain ⟨newest, given⟩ := identified.storing file tid here
    by_cases same : other = tid
    · subst same
      simp only [given, Function.update_self]
    · have apart : client.threadFile other ≠ file := by
        rw [← given]
        exact fun equal => same (distributed.once other created tid newest equal)
      simp only [Function.update_of_ne apart]
      refine identified.stored other created fun another there => same ?_
      rw [here] at there
      cases there
      rfl
  storing := fun _ _ impossible => nomatch impossible
  joining := fun _ impossible => nomatch impossible

/-- The scan finds `F_DONE`, so the file has a thread. -/
theorem Identified.found {client : WebClient} (identified : client.Identified)
    (distributed : Distributed config client) {file : Nat} (here : client.main = .scan file)
    (done : client.fFlags file &&& fDone ≠ 0) :
    Identified { client with main := .join file } where
  stored := fun tid created _ => identified.stored tid created (by rw [here]; exact nofun)
  storing := fun _ _ impossible => nomatch impossible
  joining := by
    intro other there
    cases there
    by_contra free
    have zero := (distributed.zero_iff (by rw [here]; exact nofun) file).mpr free
    rw [zero, Nat.zero_and] at done
    exact done rfl

theorem Identified.moves {client next : WebClient} (identified : client.Identified)
    (distributed : Distributed config client) (moves : Moves config client next) :
    next.Identified := by
  cases moves with
  | create file here => exact identified.create here rfl rfl rfl rfl
  | record file tid here => exact identified.record distributed here
  | found file here inside done => exact identified.found distributed here done
  | join file tid here named returned =>
    exact {
      stored := fun other created _ => identified.stored other created (by rw [here]; exact nofun)
      storing := fun _ _ impossible => nomatch impossible
      joining := fun _ impossible => nomatch impossible }
  | enter here more => exact identified.control (.of_not here rfl id id) rfl rfl rfl
  | finish here none => exact identified.control (.of_not here rfl id id) rfl rfl rfl
  | search here slot more => exact identified.control (.of_not here rfl id id) rfl rfl rfl
  | settle here full => exact identified.control (.of_not here rfl id id) rfl rfl rfl
  | hit file here inside zero => exact identified.control (.of_not here rfl id id) rfl rfl rfl
  | miss file here inside nonzero => exact identified.control (.of_not here rfl id id) rfl rfl rfl
  | nothing file here outside => exact identified.control (.of_eq rfl) rfl rfl rfl
  | mark file here => exact identified.control (.of_not here rfl id id) rfl rfl rfl
  | countConn here => exact identified.control (.of_not here rfl id id) rfl rfl rfl
  | countLeft here => exact identified.control (.of_not here rfl id id) rfl rfl rfl
  | lock here free =>
    rcases here with here | here
    · exact identified.control (.of_not here rfl id id) rfl rfl rfl
    · exact identified.control (.of_not here rfl id id) rfl rfl rfl
  | sleep here zero => exact identified.control (.of_not here rfl id id) rfl rfl rfl
  | pass here nonzero => exact identified.control (.of_not here rfl id id) rfl rfl rfl
  | skip file here inside undone => exact identified.control (.of_not here rfl id id) rfl rfl rfl
  | scanned file here outside => exact identified.control (.of_not here rfl id id) rfl rfl rfl
  | report file here => exact identified.control (.of_not here rfl id id) rfl rfl rfl
  | unlock here => exact identified.control (.of_not here rfl id id) rfl rfl rfl
  | signal tid created here => exact identified.control (.signalled rfl id id) rfl rfl rfl
  | wakeup here => exact identified.control (.of_not here rfl id id) rfl rfl rfl
  | walk | startReading | finishReading | acquire | bump | release | fail =>
    exact identified.control (.of_eq rfl) rfl rfl rfl

theorem identified_of_reachable {client : WebClient} (reached : (machine config).Reachable client) :
    client.Identified := by
  refine reached.induction Identified (identified_start config)
    fun current action next before identified taken => ?_
  exact identified.moves (distributed_of_reachable before) (moves_of_step taken).2

theorem joinCalls_created {client : WebClient} (reached : (machine config).Reachable client) :
    ∀ call ∈ client.joinCalls, ∃ tid < client.threads, call = some tid := by
  intro call member
  rw [joinCalls, List.mem_append, List.mem_map] at member
  rcases member with ⟨tid, joined, rfl⟩ | pending
  · exact ⟨tid, joinsCreated_of_reachable reached tid (List.mem_toFinset.mpr joined), rfl⟩
  · split at pending
    · rename_i file here
      have identified := identified_of_reachable reached
      obtain ⟨tid, created, rfl⟩ := identified.joining file here
      rw [List.mem_singleton] at pending
      have stored := identified.stored tid created (by rw [here]; exact nofun)
      exact ⟨tid, created, pending.trans stored⟩
    · cases pending

/-! ### A joined thread is joined again -/

/-- After the first join, the main thread goes through another iteration and calls `Pthread_join`
again for the thread it has joined. -/
theorem reachable_rejoining (config : WebConfig) (one : 0 < allowed config) :
    ∃ client, (machine config).Reachable client ∧ client.joinCalls = [some 0, some 0] := by
  have files : 0 < config.nfiles := config.nonempty
  have unread : (0 : Int) < config.nfiles := by omega
  have full : ¬ ((allowed config : Int) < config.maxnconn ∧
      (0 : Int) < config.nfiles - allowed config) := by
    unfold allowed
    omega
  have entered := (reachable_firstJoined config one).leads (main_step rfl (if_pos unread))
  have settled := entered.leads (main_step rfl (if_neg full))
  have scanning := settled.leads (lock_scans config _ rfl rfl rfl one_ne_zero)
  have found : mainStep config { firstJoined config with owner := some .main, main := .scan 0 } =
      some { firstJoined config with owner := some .main, main := .join 0 } := by
    simp [mainStep, firstJoined, files, fDone]
  have calling := scanning.leads (main_step rfl found)
  refine ⟨_, calling, ?_⟩
  simp [joinCalls, firstJoined, started, one]

/-- In every run of the web client, every call of `Pthread_join` is for a thread that was created;
that no thread is named by two calls holds in all runs exactly when the connection limit lets no
thread start. -/
theorem joins_once_iff_slotless (config : WebConfig) :
    (∀ client, (machine config).Reachable client →
      ∀ call ∈ client.joinCalls, ∃ tid < client.threads, call = some tid) ∧
    ((∀ client, (machine config).Reachable client → client.JoinsOnce) ↔ config.maxnconn ≤ 0) := by
  refine ⟨fun client reached => joinCalls_created reached, ?_, ?_⟩
  · intro once
    by_contra slots
    have one : 0 < allowed config := by
      have files := config.nonempty
      unfold allowed
      omega
    obtain ⟨client, reached, calls⟩ := reachable_rejoining config one
    have distinct := (once client reached).once
    rw [calls] at distinct
    exact absurd distinct (by decide)
  · intro slotless client reached
    have created := joinCalls_created reached
    have threadless := (idle_of_reachable slotless reached).1
    have none : client.joinCalls = [] := by
      rw [List.eq_nil_iff_forall_not_mem]
      intro call member
      obtain ⟨tid, exists_, _⟩ := created call member
      omega
    exact ⟨created, by rw [none]; exact List.nodup_nil⟩

/-- The only thread has been joined, and the main thread scans again and is in `Pthread_join` for
it a second time. -/
theorem one_file_joined_twice :
    ∃ client, (machine oneFile).Reachable client ∧ client.threads = 1 ∧ client.joins = [0] ∧
      client.main = .join 0 ∧ client.fTid 0 = some 0 ∧ ¬ client.JoinsOnce := by
  refine ⟨(machine oneFile).after (oneFileRun ++ List.replicate 5 .main),
    Machine.reachable_after _ (by decide), by decide, by decide, by decide, by decide,
    fun once => ?_⟩
  exact absurd once.once (by decide)

end SocketC.WebClient
