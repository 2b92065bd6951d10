/-
This file proves what the counters of the web client really count. `nconn` is the
number of threads ever created, because nothing decrements it: line 131 announces
an update for a joined thread that the code does not make. The number of threads
is therefore bounded once and for all by the connection limit, and `ndone` is the
number of threads that have ever run their completion section.
-/

import SocketC.WebClient

namespace SocketC

/-! ### Places of the two programs -/

/-- The threads created and not yet counted by `nconn`. -/
def WebMain.connLag : WebMain → Int
  | .record _ _ | .countConn => 1
  | _ => 0

/-- The threads created and not yet subtracted from `nlefttoconn`. -/
def WebMain.leftLag : WebMain → Int
  | .record _ _ | .countConn | .countLeft => 1
  | _ => 0

/-- Between the test of the inner loop and the creation of the thread. -/
def WebMain.Starting : WebMain → Prop
  | .find _ | .mark _ | .create _ => True
  | _ => False

/-- Past the wait for `ndone`, inside the critical section. -/
def WebMain.Scanning : WebMain → Prop
  | .scan _ | .join _ | .report _ | .unlock => True
  | _ => False

/-- The thread has incremented `ndone`. -/
def WebWorker.Counted : WebWorker → Prop
  | .signal | .unlock | .leave | .returned => True
  | _ => False

instance : DecidablePred WebWorker.Counted
  | .signal | .unlock | .leave | .returned => .isTrue trivial
  | .connect | .request | .markReading | .reading | .close | .markDone | .lock | .bump =>
    .isFalse id

namespace WebClient

variable {config : WebConfig}

/-- The threads that have incremented `ndone`. -/
def finished (client : WebClient) : Finset Nat :=
  {tid ∈ Finset.range client.threads | (client.worker tid).Counted}

theorem mem_finished {client : WebClient} {tid : Nat} :
    tid ∈ client.finished ↔ tid < client.threads ∧ (client.worker tid).Counted := by
  simp only [finished, Finset.mem_filter, Finset.mem_range]

/-- A thread that goes to a place on the same side of `ndone++` changes nothing. -/
theorem finished_goto {client next : WebClient} {tid : Nat} {place : WebWorker}
    (threads : next.threads = client.threads)
    (moved : next.worker = Function.update client.worker tid place)
    (same : place.Counted ↔ (client.worker tid).Counted) :
    next.finished = client.finished := by
  ext other
  rw [mem_finished, mem_finished, threads, moved]
  by_cases equal : other = tid
  · rw [equal, Function.update_self, same]
  · rw [Function.update_of_ne equal]

/-- A new thread has not incremented `ndone`. -/
theorem finished_create {client next : WebClient} (threads : next.threads = client.threads + 1)
    (moved : next.worker = Function.update client.worker client.threads .connect) :
    next.finished = client.finished := by
  ext tid
  rw [mem_finished, mem_finished, threads, moved]
  by_cases equal : tid = client.threads
  · rw [equal, Function.update_self]
    simp only [WebWorker.Counted, and_false, lt_self_iff_false, false_and]
  · rw [Function.update_of_ne equal]
    have bounds : tid < client.threads + 1 ↔ tid < client.threads := by omega
    rw [bounds]

/-- `ndone++` adds its thread. -/
theorem finished_bump {client next : WebClient} {tid : Nat} (created : tid < client.threads)
    (threads : next.threads = client.threads)
    (moved : next.worker = Function.update client.worker tid .signal) :
    next.finished = insert tid client.finished := by
  ext other
  rw [Finset.mem_insert, mem_finished, mem_finished, threads, moved]
  by_cases equal : other = tid
  · rw [equal, Function.update_self]
    simp only [created, WebWorker.Counted, and_self, true_or]
  · rw [Function.update_of_ne equal]
    simp only [equal, false_or]

/-! ### The invariant -/

/-- What the counters count, at every place of the main thread. -/
structure Booked (config : WebConfig) (client : WebClient) : Prop where
  conn : (client.threads : Int) = client.nconn + client.main.connLag
  left : (config.nfiles : Int) + client.main.leftLag = client.threads + client.nlefttoconn
  remaining : client.main.leftLag ≤ client.nlefttoconn
  starting : client.main.Starting → client.nconn < config.maxnconn ∧ 0 < client.nlefttoconn
  limit : (client.threads : Int) ≤ max config.maxnconn 0
  unread : client.nlefttoread = config.nfiles
  named : ∀ file tid, client.fTid file = some tid → tid < client.threads
  recorded : ∀ file tid, client.main = .record file tid → tid < client.threads
  done : client.ndone = client.finished.card
  scanning : client.main.Scanning → client.finished.Nonempty

theorem booked_start (config : WebConfig) : Booked config (start config) where
  conn := rfl
  left := by
    show (config.nfiles : Int) + 0 = 0 + config.nfiles
    omega
  remaining := by
    show (0 : Int) ≤ config.nfiles
    omega
  starting := fun impossible => impossible.elim
  limit := le_max_right _ _
  unread := rfl
  named := fun _ _ impossible => nomatch impossible
  recorded := fun _ _ impossible => nomatch impossible
  done := rfl
  scanning := fun impossible => impossible.elim

/-- The step changes no counter, no identifier and no thread. -/
structure Untouched (client next : WebClient) : Prop where
  nconn : next.nconn = client.nconn
  nlefttoconn : next.nlefttoconn = client.nlefttoconn
  nlefttoread : next.nlefttoread = client.nlefttoread
  ndone : next.ndone = client.ndone
  fTid : next.fTid = client.fTid
  threads : next.threads = client.threads
  finished : next.finished = client.finished

/-- The main thread goes from one place to another of the same accounting. -/
theorem Booked.control {client next : WebClient} (booked : Booked config client)
    (untouched : Untouched client next) (conn : next.main.connLag = client.main.connLag)
    (left : next.main.leftLag = client.main.leftLag)
    (starting : next.main.Starting → client.nconn < config.maxnconn ∧ 0 < client.nlefttoconn)
    (scanning : next.main.Scanning → client.finished.Nonempty)
    (recorded : ∀ file tid, next.main = .record file tid → tid < client.threads) :
    Booked config next where
  conn := by
    rw [untouched.threads, untouched.nconn, conn]
    exact booked.conn
  left := by
    rw [untouched.threads, untouched.nlefttoconn, left]
    exact booked.left
  remaining := by
    rw [untouched.nlefttoconn, left]
    exact booked.remaining
  starting := by
    rw [untouched.nconn, untouched.nlefttoconn]
    exact starting
  limit := by
    rw [untouched.threads]
    exact booked.limit
  unread := by
    rw [untouched.nlefttoread]
    exact booked.unread
  named := by
    rw [untouched.fTid, untouched.threads]
    exact booked.named
  recorded := by
    rw [untouched.threads]
    exact recorded
  done := by
    rw [untouched.ndone, untouched.finished]
    exact booked.done
  scanning := by
    rw [untouched.finished]
    exact scanning

/-- A step of a thread that neither counts nor wakes the main thread. -/
theorem Booked.stroll {client next : WebClient} (booked : Booked config client)
    (untouched : Untouched client next) (main : next.main = client.main) :
    Booked config next := by
  refine booked.control untouched (by rw [main]) (by rw [main]) ?_ ?_ ?_
  · rw [main]
    exact booked.starting
  · rw [main]
    exact booked.scanning
  · rw [main]
    exact booked.recorded

theorem untouched_goto {client next : WebClient} {tid : Nat} {place : WebWorker}
    (moved : next.worker = Function.update client.worker tid place)
    (same : place.Counted ↔ (client.worker tid).Counted)
    (nconn : next.nconn = client.nconn) (nlefttoconn : next.nlefttoconn = client.nlefttoconn)
    (nlefttoread : next.nlefttoread = client.nlefttoread) (ndone : next.ndone = client.ndone)
    (fTid : next.fTid = client.fTid) (threads : next.threads = client.threads) :
    Untouched client next :=
  ⟨nconn, nlefttoconn, nlefttoread, ndone, fTid, threads, finished_goto threads moved same⟩

theorem Walks.counted_iff {before after : WebWorker} (walks : Walks before after) :
    after.Counted ↔ before.Counted := by
  cases walks <;> exact Iff.rfl

/-- The main thread creates a thread: one more than `nconn` says, and still within the limit. -/
theorem Booked.create {client next : WebClient} (booked : Booked config client) {file : Nat}
    (here : client.main = .create file) (main : next.main = .record file client.threads)
    (threads : next.threads = client.threads + 1)
    (moved : next.worker = Function.update client.worker client.threads .connect)
    (nconn : next.nconn = client.nconn) (nlefttoconn : next.nlefttoconn = client.nlefttoconn)
    (nlefttoread : next.nlefttoread = client.nlefttoread) (ndone : next.ndone = client.ndone)
    (fTid : next.fTid = client.fTid) : Booked config next := by
  have conn := booked.conn
  have left := booked.left
  obtain ⟨slot, more⟩ := booked.starting (by rw [here]; trivial)
  simp only [here, WebMain.connLag, WebMain.leftLag] at conn left
  have created : (next.threads : Int) = client.threads + 1 := by rw [threads]; push_cast; rfl
  exact {
    conn := by
      rw [created, nconn, main]
      show (client.threads : Int) + 1 = client.nconn + 1
      omega
    left := by
      rw [created, nlefttoconn, main]
      show (config.nfiles : Int) + 1 = _
      omega
    remaining := by
      rw [nlefttoconn, main]
      exact more
    starting := by
      rw [main]
      exact fun impossible => impossible.elim
    limit := by
      rw [created]
      exact le_trans (by omega) (le_max_left config.maxnconn 0)
    unread := by
      rw [nlefttoread]
      exact booked.unread
    named := by
      intro other tid found
      rw [fTid] at found
      rw [threads]
      exact Nat.lt_succ_of_lt (booked.named other tid found)
    recorded := by
      intro other tid recorded
      rw [main] at recorded
      cases recorded
      rw [threads]
      exact Nat.lt_succ_self _
    done := by
      rw [ndone, finished_create threads moved]
      exact booked.done
    scanning := by
      rw [main]
      exact fun impossible => impossible.elim }

theorem Booked.record {client : WebClient} (booked : Booked config client) {file tid : Nat}
    (here : client.main = .record file tid) :
    Booked config { client with
      fTid := Function.update client.fTid file (some tid)
      main := .countConn } := by
  have conn := booked.conn
  have left := booked.left
  have remaining := booked.remaining
  simp only [here, WebMain.connLag, WebMain.leftLag] at conn left remaining
  refine { booked with
    conn := conn
    left := left
    remaining := remaining
    starting := fun impossible => impossible.elim
    named := fun other otherTid found => ?_
    recorded := fun _ _ impossible => nomatch impossible
    scanning := fun impossible => impossible.elim }
  by_cases same : other = file
  · subst same
    simp only [Function.update_self, Option.some.injEq] at found
    exact found ▸ booked.recorded other tid here
  · simp only [Function.update_of_ne same] at found
    exact booked.named other otherTid found

theorem Booked.countConn {client : WebClient} (booked : Booked config client)
    (here : client.main = .countConn) :
    Booked config { client with nconn := client.nconn + 1, main := .countLeft } := by
  have conn := booked.conn
  have left := booked.left
  have remaining := booked.remaining
  simp only [here, WebMain.connLag, WebMain.leftLag] at conn left remaining
  refine { booked with
    conn := ?_
    left := left
    remaining := remaining
    starting := fun impossible => impossible.elim
    recorded := fun _ _ impossible => nomatch impossible
    scanning := fun impossible => impossible.elim }
  show (client.threads : Int) = client.nconn + 1 + 0
  omega

theorem Booked.countLeft {client : WebClient} (booked : Booked config client)
    (here : client.main = .countLeft) :
    Booked config { client with nlefttoconn := client.nlefttoconn - 1, main := .inner } := by
  have conn := booked.conn
  have left := booked.left
  have remaining := booked.remaining
  simp only [here, WebMain.connLag, WebMain.leftLag] at conn left remaining
  refine { booked with
    conn := conn
    left := ?_
    remaining := ?_
    starting := fun impossible => impossible.elim
    recorded := fun _ _ impossible => nomatch impossible
    scanning := fun impossible => impossible.elim }
  · show (config.nfiles : Int) + 0 = client.threads + (client.nlefttoconn - 1)
    omega
  · show (0 : Int) ≤ client.nlefttoconn - 1
    omega

/-- A thread increments `ndone` and joins the finished ones. -/
theorem Booked.bump {client next : WebClient} (booked : Booked config client) {tid : Nat}
    (created : tid < client.threads) (here : client.worker tid = .bump)
    (main : next.main = client.main) (threads : next.threads = client.threads)
    (moved : next.worker = Function.update client.worker tid .signal)
    (nconn : next.nconn = client.nconn) (nlefttoconn : next.nlefttoconn = client.nlefttoconn)
    (nlefttoread : next.nlefttoread = client.nlefttoread) (ndone : next.ndone = client.ndone + 1)
    (fTid : next.fTid = client.fTid) : Booked config next := by
  have fresh : tid ∉ client.finished := by
    rw [mem_finished, here]
    exact fun member => member.2
  have finished := finished_bump created threads moved
  exact {
    conn := by
      rw [threads, nconn, main]
      exact booked.conn
    left := by
      rw [threads, nlefttoconn, main]
      exact booked.left
    remaining := by
      rw [nlefttoconn, main]
      exact booked.remaining
    starting := by
      rw [nconn, nlefttoconn, main]
      exact booked.starting
    limit := by
      rw [threads]
      exact booked.limit
    unread := by
      rw [nlefttoread]
      exact booked.unread
    named := by
      rw [fTid, threads]
      exact booked.named
    recorded := by
      rw [main, threads]
      exact booked.recorded
    done := by
      rw [ndone, finished, Finset.card_insert_of_notMem fresh, booked.done]
      push_cast
      rfl
    scanning := by
      intro _
      rw [finished]
      exact Finset.insert_nonempty _ _ }

/-- The main thread goes to another place of the same accounting, and touches at most the
mutex, the history of joins and the flags. -/
theorem Booked.goto {client : WebClient} (booked : Booked config client) {here place : WebMain}
    {owner : Option WebHolder} {joins : List Nat} {fFlags : Nat → Nat} {running : Bool}
    (located : client.main = here) (conn : place.connLag = here.connLag)
    (left : place.leftLag = here.leftLag)
    (starting : place.Starting → client.nconn < config.maxnconn ∧ 0 < client.nlefttoconn)
    (scanning : place.Scanning → client.finished.Nonempty)
    (plain : ∀ file tid, place ≠ .record file tid) :
    Booked config { client with
      main := place, owner := owner, joins := joins, fFlags := fFlags, running := running } := by
  refine booked.control ⟨rfl, rfl, rfl, rfl, rfl, rfl, rfl⟩ ?_ ?_ starting scanning ?_
  · rw [located]
    exact conn
  · rw [located]
    exact left
  · exact fun file tid impossible => absurd impossible (plain file tid)

/-- A signal changes the main thread's place only from one wait to the other. -/
theorem Booked.signal {client next : WebClient} (booked : Booked config client)
    (untouched : Untouched client next) (main : next.main = signalled client.main) :
    Booked config next := by
  have elsewhere : client.main = .waiting ∨ signalled client.main = client.main := by
    cases client.main <;> first | exact Or.inl rfl | exact Or.inr rfl
  rcases elsewhere with waiting | same
  · rw [waiting] at main
    refine booked.control untouched ?_ ?_ ?_ ?_ ?_
    · rw [main, waiting]
      rfl
    · rw [main, waiting]
      rfl
    · rw [main]
      exact nofun
    · rw [main]
      exact nofun
    · rw [main]
      exact nofun
  · exact booked.stroll untouched (main.trans same)

theorem Booked.moves {client next : WebClient} (booked : Booked config client)
    (moves : Moves config client next) : Booked config next := by
  cases moves with
  | enter here more => exact booked.goto here rfl rfl nofun nofun nofun
  | finish here none => exact booked.goto here rfl rfl nofun nofun nofun
  | search here slot more => exact booked.goto here rfl rfl (fun _ => ⟨slot, more⟩) nofun nofun
  | settle here full => exact booked.goto here rfl rfl nofun nofun nofun
  | hit file here inside zero =>
    exact booked.goto here rfl rfl (fun _ => booked.starting (by rw [here]; trivial)) nofun nofun
  | miss file here inside nonzero =>
    exact booked.goto here rfl rfl (fun _ => booked.starting (by rw [here]; trivial)) nofun nofun
  | nothing file here outside => exact booked.stroll ⟨rfl, rfl, rfl, rfl, rfl, rfl, rfl⟩ rfl
  | mark file here =>
    exact booked.goto here rfl rfl (fun _ => booked.starting (by rw [here]; trivial)) nofun nofun
  | create file here => exact booked.create here rfl rfl rfl rfl rfl rfl rfl rfl
  | record file tid here => exact booked.record here
  | countConn here => exact booked.countConn here
  | countLeft here => exact booked.countLeft here
  | lock here free =>
    rcases here with here | here
    · exact booked.goto here rfl rfl nofun nofun nofun
    · exact booked.goto here rfl rfl nofun nofun nofun
  | sleep here zero => exact booked.goto here rfl rfl nofun nofun nofun
  | pass here nonzero =>
    have someone : client.finished.Nonempty := by
      rw [← Finset.card_pos]
      have counted := booked.done
      omega
    exact booked.goto here rfl rfl nofun (fun _ => someone) nofun
  | found file here inside done =>
    exact booked.goto here rfl rfl nofun (fun _ => booked.scanning (by rw [here]; trivial)) nofun
  | skip file here inside undone =>
    exact booked.goto here rfl rfl nofun (fun _ => booked.scanning (by rw [here]; trivial)) nofun
  | scanned file here outside =>
    exact booked.goto here rfl rfl nofun (fun _ => booked.scanning (by rw [here]; trivial)) nofun
  | join file tid here named returned =>
    exact booked.goto here rfl rfl nofun (fun _ => booked.scanning (by rw [here]; trivial)) nofun
  | report file here =>
    exact booked.goto here rfl rfl nofun (fun _ => booked.scanning (by rw [here]; trivial)) nofun
  | unlock here => exact booked.goto here rfl rfl nofun nofun nofun
  | walk tid place created walks =>
    exact booked.stroll (untouched_goto rfl walks.counted_iff rfl rfl rfl rfl rfl rfl) rfl
  | startReading tid created here =>
    exact booked.stroll (untouched_goto rfl (by rw [here]; rfl) rfl rfl rfl rfl rfl rfl) rfl
  | finishReading tid created here =>
    exact booked.stroll (untouched_goto rfl (by rw [here]; rfl) rfl rfl rfl rfl rfl rfl) rfl
  | acquire tid created here free =>
    exact booked.stroll (untouched_goto rfl (by rw [here]; rfl) rfl rfl rfl rfl rfl rfl) rfl
  | bump tid created here => exact booked.bump created here rfl rfl rfl rfl rfl rfl rfl rfl
  | signal tid created here =>
    exact booked.signal (untouched_goto rfl (by rw [here]; rfl) rfl rfl rfl rfl rfl rfl) rfl
  | release tid created here =>
    exact booked.stroll (untouched_goto rfl (by rw [here]; rfl) rfl rfl rfl rfl rfl rfl) rfl
  | wakeup here => exact booked.goto here rfl rfl nofun nofun nofun
  | fail => exact booked.stroll ⟨rfl, rfl, rfl, rfl, rfl, rfl, rfl⟩ rfl

theorem booked_of_reachable {client : WebClient} (reached : (machine config).Reachable client) :
    Booked config client := by
  refine reached.invariant (Booked config) (booked_start config)
    fun current action next booked taken => ?_
  exact booked.moves (moves_of_step taken).2

end WebClient

end SocketC
