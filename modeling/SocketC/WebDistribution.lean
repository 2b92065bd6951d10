/-
This file proves how the web client hands its files to threads. The flag of a file
with a thread is determined by the line the thread stands at, because nothing else
stores into it: the main thread stores `F_CONNECTING` before the thread exists, and
the thread's own two stores follow. A file without a thread has flag zero, except
between the store and the creation. So `nlefttoconn` counts the files with flag
zero, the search of lines 82-83 always finds one, and a flag only goes forward.
-/

import SocketC.WebBooks

namespace SocketC

/-! ### The flag that belongs to a place -/

/-- The flag of the file of a thread that stands here. -/
def WebWorker.flag : WebWorker → Nat
  | .connect | .request | .markReading => fConnecting
  | .reading | .close | .markDone => fReading
  | .lock | .bump | .signal | .unlock | .leave | .returned => fDone

/-- The main thread is inside the start sequence of lines 88-92. -/
def WebMain.InStartSequence : WebMain → Prop
  | .mark _ | .create _ | .record _ _ | .countConn | .countLeft => True
  | _ => False

/-- The order of the values of a flag. -/
inductive NextFlag : Nat → Nat → Prop where
  | connecting : NextFlag 0 fConnecting
  | reading : NextFlag fConnecting fReading
  | done : NextFlag fReading fDone

theorem NextFlag.lt {before after : Nat} (next : NextFlag before after) : before < after := by
  cases next <;> decide

theorem WebWorker.flag_ne_zero (place : WebWorker) : place.flag ≠ 0 := by
  cases place <;> decide

theorem WebClient.Walks.flag_eq {before after : WebWorker} (walks : Walks before after) :
    after.flag = before.flag := by
  cases walks <;> rfl

namespace WebClient

variable {config : WebConfig}

/-- The file has been given to a thread. -/
def Given (client : WebClient) (file : Nat) : Prop :=
  ∃ tid < client.threads, client.threadFile tid = file

/-- The files whose flag is zero. -/
def unstarted (config : WebConfig) (client : WebClient) : Finset Nat :=
  {file ∈ Finset.range config.nfiles | client.fFlags file = 0}

theorem mem_unstarted {client : WebClient} {file : Nat} :
    file ∈ client.unstarted config ↔ file < config.nfiles ∧ client.fFlags file = 0 := by
  simp only [unstarted, Finset.mem_filter, Finset.mem_range]

/-! ### The invariant -/

/-- Who has which file, and what its flag says. -/
structure Distributed (config : WebConfig) (client : WebClient) : Prop where
  flag : ∀ tid < client.threads, client.fFlags (client.threadFile tid) = (client.worker tid).flag
  inside : ∀ tid < client.threads, client.threadFile tid < config.nfiles
  once : ∀ tid < client.threads, ∀ other < client.threads,
    client.threadFile tid = client.threadFile other → tid = other
  free : ∀ file, ¬ client.Given file →
    client.fFlags file = if client.main = .create file then fConnecting else 0
  chosen : ∀ file, client.main = .mark file ∨ client.main = .create file →
    file < config.nfiles ∧ ¬ client.Given file
  searching : ∀ file, client.main = .find file →
    ∃ spare, file ≤ spare ∧ spare < config.nfiles ∧ client.fFlags spare = 0

theorem distributed_start (config : WebConfig) : Distributed config (start config) where
  flag := fun _ impossible => absurd impossible (Nat.not_lt_zero _)
  inside := fun _ impossible => absurd impossible (Nat.not_lt_zero _)
  once := fun _ impossible => absurd impossible (Nat.not_lt_zero _)
  free := fun _ _ => rfl
  chosen := fun _ impossible => impossible.elim nofun nofun
  searching := fun _ impossible => nomatch impossible

theorem Distributed.ne_zero_of_given {client : WebClient} (distributed : Distributed config client)
    {file : Nat} (given : client.Given file) : client.fFlags file ≠ 0 := by
  obtain ⟨tid, created, rfl⟩ := given
  rw [distributed.flag tid created]
  exact (client.worker tid).flag_ne_zero

/-- Away from line 89, the files with flag zero are those without a thread. -/
theorem Distributed.zero_iff {client : WebClient} (distributed : Distributed config client)
    (elsewhere : ∀ file, client.main ≠ .create file) (file : Nat) :
    client.fFlags file = 0 ↔ ¬ client.Given file := by
  constructor
  · exact fun zero given => distributed.ne_zero_of_given given zero
  · intro free
    rw [distributed.free file free, if_neg (elsewhere file)]

/-- Away from line 89, all files but one per thread have flag zero. -/
theorem Distributed.card_unstarted {client : WebClient} (distributed : Distributed config client)
    (elsewhere : ∀ file, client.main ≠ .create file) :
    client.threads + (client.unstarted config).card = config.nfiles := by
  have given : (Finset.range client.threads).image client.threadFile =
      {file ∈ Finset.range config.nfiles | ¬ client.fFlags file = 0} := by
    ext file
    rw [Finset.mem_image, Finset.mem_filter, Finset.mem_range, distributed.zero_iff elsewhere,
      not_not]
    constructor
    · rintro ⟨tid, created, rfl⟩
      rw [Finset.mem_range] at created
      exact ⟨distributed.inside tid created, tid, created, rfl⟩
    · rintro ⟨_, tid, created, same⟩
      exact ⟨tid, Finset.mem_range.mpr created, same⟩
  have count : ((Finset.range client.threads).image client.threadFile).card = client.threads := by
    rw [Finset.card_image_of_injOn, Finset.card_range]
    intro tid created other otherCreated same
    exact distributed.once tid (List.mem_range.mp created) other
      (List.mem_range.mp otherCreated) same
  have split := Finset.card_filter_add_card_filter_not
    (s := Finset.range config.nfiles) (fun file => client.fFlags file = 0)
  rw [Finset.card_range] at split
  rw [given] at count
  unfold unstarted
  omega

/-- Outside the start sequence `nlefttoconn` counts the files with flag zero. -/
theorem Distributed.nlefttoconn_eq {client : WebClient} (distributed : Distributed config client)
    (booked : Booked config client) (outside : ¬ client.main.InStartSequence) :
    client.nlefttoconn = (client.unstarted config).card := by
  have elsewhere : ∀ file, client.main ≠ .create file := by
    intro file here
    rw [here] at outside
    exact outside trivial
  have settled : client.main.leftLag = 0 := by
    cases place : client.main with
    | record | countConn | countLeft =>
      rw [place] at outside
      exact absurd trivial outside
    | _ => rfl
  have count := distributed.card_unstarted elsewhere
  have left := booked.left
  rw [settled] at left
  omega

/-! ### The steps -/

/-- The main thread is at one of the places in question after the step exactly if it was at that
place before. -/
def SameAt (Marked : WebMain → Prop) (client next : WebClient) : Prop :=
  ∀ place, Marked place → (next.main = place ↔ client.main = place)

section SameAt

variable {Marked : WebMain → Prop} {client next : WebClient}

theorem SameAt.of_eq (main : next.main = client.main) : SameAt Marked client next :=
  fun _ _ => by rw [main]

theorem SameAt.of_not {before after : WebMain} (here : client.main = before)
    (there : next.main = after) (notBefore : ¬ Marked before) (notAfter : ¬ Marked after) :
    SameAt Marked client next := by
  intro place marked
  rw [here, there]
  constructor
  · rintro rfl
    exact absurd marked notAfter
  · rintro rfl
    exact absurd marked notBefore

theorem SameAt.signalled (main : next.main = signalled client.main)
    (notWaiting : ¬ Marked .waiting) (notWoken : ¬ Marked .woken) :
    SameAt Marked client next := by
  cases place : client.main with
  | waiting =>
    rw [place] at main
    exact .of_not place main notWaiting notWoken
  | _ =>
    rw [place] at main
    exact .of_eq (main.trans place.symm)

end SameAt

theorem Given.congr {client next : WebClient} (threads : next.threads = client.threads)
    (threadFile : next.threadFile = client.threadFile) (file : Nat) :
    next.Given file ↔ client.Given file := by
  unfold Given
  rw [threads, threadFile]

/-- A step that changes no flag and no thread. -/
theorem Distributed.control {client next : WebClient} (distributed : Distributed config client)
    (main : SameAt WebMain.Starting client next) (fFlags : next.fFlags = client.fFlags)
    (threads : next.threads = client.threads) (threadFile : next.threadFile = client.threadFile)
    (worker : next.worker = client.worker) : Distributed config next where
  flag := by
    rw [fFlags, threads, threadFile, worker]
    exact distributed.flag
  inside := by
    rw [threads, threadFile]
    exact distributed.inside
  once := by
    rw [threads, threadFile]
    exact distributed.once
  free := by
    intro file free
    rw [Given.congr threads threadFile] at free
    simp only [fFlags, main (.create file) trivial]
    exact distributed.free file free
  chosen := by
    intro file here
    rw [main (.mark file) trivial, main (.create file) trivial] at here
    rw [Given.congr threads threadFile]
    exact distributed.chosen file here
  searching := by
    intro file here
    rw [fFlags]
    exact distributed.searching file ((main (.find file) trivial).mp here)

/-- A thread goes to another line and its flag to the value that belongs there. -/
theorem Distributed.advance {client next : WebClient} (distributed : Distributed config client)
    {tid : Nat} {place : WebWorker} (created : tid < client.threads)
    (main : SameAt WebMain.Starting client next) (threads : next.threads = client.threads)
    (threadFile : next.threadFile = client.threadFile)
    (worker : next.worker = Function.update client.worker tid place)
    (fFlags : next.fFlags =
      Function.update client.fFlags (client.threadFile tid) place.flag) :
    Distributed config next where
  flag := by
    intro other otherCreated
    rw [threads] at otherCreated
    rw [fFlags, worker, threadFile]
    by_cases same : other = tid
    · rw [same, Function.update_self, Function.update_self]
    · have apart : client.threadFile other ≠ client.threadFile tid :=
        fun equal => same (distributed.once other otherCreated tid created equal)
      rw [Function.update_of_ne same, Function.update_of_ne apart]
      exact distributed.flag other otherCreated
  inside := by
    rw [threads, threadFile]
    exact distributed.inside
  once := by
    rw [threads, threadFile]
    exact distributed.once
  free := by
    intro file free
    rw [Given.congr threads threadFile] at free
    have apart : file ≠ client.threadFile tid := fun equal => free ⟨tid, created, equal.symm⟩
    simp only [fFlags, main (.create file) trivial, Function.update_of_ne apart]
    exact distributed.free file free
  chosen := by
    intro file here
    rw [main (.mark file) trivial, main (.create file) trivial] at here
    rw [Given.congr threads threadFile]
    exact distributed.chosen file here
  searching := by
    intro file here
    obtain ⟨spare, ahead, bound, flag⟩ :=
      distributed.searching file ((main (.find file) trivial).mp here)
    -- The thread's own file is not the one the search will find.
    have apart : spare ≠ client.threadFile tid := by
      rintro rfl
      exact distributed.ne_zero_of_given ⟨tid, created, rfl⟩ flag
    exact ⟨spare, ahead, bound, by rw [fFlags, Function.update_of_ne apart, flag]⟩

/-- A step of a thread that does not store a flag. -/
theorem Distributed.stroll {client next : WebClient} (distributed : Distributed config client)
    {tid : Nat} {place : WebWorker} (created : tid < client.threads)
    (same : place.flag = (client.worker tid).flag)
    (main : SameAt WebMain.Starting client next) (threads : next.threads = client.threads)
    (threadFile : next.threadFile = client.threadFile)
    (worker : next.worker = Function.update client.worker tid place)
    (fFlags : next.fFlags = client.fFlags) : Distributed config next := by
  refine distributed.advance created main threads threadFile worker ?_
  rw [same, ← distributed.flag tid created, Function.update_eq_self, fFlags]

theorem Distributed.search {client : WebClient} (distributed : Distributed config client)
    (booked : Booked config client) (here : client.main = .inner)
    (more : 0 < client.nlefttoconn) : Distributed config { client with main := .find 0 } := by
  have count := distributed.nlefttoconn_eq booked (by rw [here]; exact id)
  have positive : 0 < (client.unstarted config).card := by omega
  obtain ⟨spare, member⟩ := Finset.card_pos.mp positive
  obtain ⟨bound, flag⟩ := mem_unstarted.mp member
  refine { distributed with
    free := fun file free => ?_
    chosen := fun _ impossible => impossible.elim nofun nofun
    searching := fun file there => ?_ }
  · have zeroed := distributed.free file free
    rw [here] at zeroed
    exact zeroed
  · cases there
    exact ⟨spare, Nat.zero_le _, bound, flag⟩

theorem Distributed.hit {client : WebClient} (distributed : Distributed config client) {file : Nat}
    (here : client.main = .find file) (inside : file < config.nfiles)
    (zero : client.fFlags file = 0) : Distributed config { client with main := .mark file } := by
  refine { distributed with
    free := fun other free => ?_
    chosen := fun other there => ?_
    searching := fun _ impossible => nomatch impossible }
  · have zeroed := distributed.free other free
    rw [here] at zeroed
    exact zeroed
  · rcases there with there | there
    · cases there
      exact ⟨inside, (distributed.zero_iff (by rw [here]; exact nofun) file).mp zero⟩
    · cases there

theorem Distributed.miss {client : WebClient} (distributed : Distributed config client) {file : Nat}
    (here : client.main = .find file) (nonzero : client.fFlags file ≠ 0) :
    Distributed config { client with main := .find (file + 1) } := by
  refine { distributed with
    free := fun other free => ?_
    chosen := fun _ impossible => impossible.elim nofun nofun
    searching := fun other there => ?_ }
  · have zeroed := distributed.free other free
    rw [here] at zeroed
    exact zeroed
  · cases there
    obtain ⟨spare, ahead, bound, flag⟩ := distributed.searching file here
    refine ⟨spare, Nat.lt_of_le_of_ne ahead ?_, bound, flag⟩
    rintro rfl
    exact nonzero flag

/-- Line 88: the flag goes to `F_CONNECTING` before the thread exists. -/
theorem Distributed.mark {client : WebClient} (distributed : Distributed config client) {file : Nat}
    (here : client.main = .mark file) :
    Distributed config { client with
      fFlags := Function.update client.fFlags file fConnecting
      main := .create file } := by
  obtain ⟨inside, free⟩ := distributed.chosen file (Or.inl here)
  refine { distributed with
    flag := fun tid created => ?_
    free := fun other otherFree => ?_
    chosen := fun other there => ?_
    searching := fun _ impossible => nomatch impossible }
  · have apart : client.threadFile tid ≠ file := fun equal => free ⟨tid, created, equal⟩
    exact (Function.update_of_ne apart _ _).trans (distributed.flag tid created)
  · by_cases same : other = file
    · subst same
      simp only [Function.update_self, if_true]
    · have zeroed := distributed.free other otherFree
      rw [here] at zeroed
      have elsewhere : ¬ WebMain.create file = .create other :=
        fun equal => same (WebMain.create.inj equal).symm
      simp only [Function.update_of_ne same, if_neg elsewhere]
      exact zeroed
  · rcases there with there | there
    · cases there
    · cases there
      exact ⟨inside, free⟩

/-- Line 89: the file that was marked is given to the new thread. -/
theorem Distributed.create {client next : WebClient} (distributed : Distributed config client)
    {file : Nat} (here : client.main = .create file)
    (main : next.main = .record file client.threads) (fFlags : next.fFlags = client.fFlags)
    (threads : next.threads = client.threads + 1)
    (threadFile : next.threadFile = Function.update client.threadFile client.threads file)
    (worker : next.worker = Function.update client.worker client.threads .connect) :
    Distributed config next := by
  obtain ⟨inside, free⟩ := distributed.chosen file (Or.inr here)
  have marked : client.fFlags file = fConnecting := by
    rw [distributed.free file free, if_pos here]
  have own : next.threadFile client.threads = file := by
    rw [threadFile, Function.update_self]
  -- Below the new thread nothing changes.
  have old : ∀ tid, tid < client.threads → next.threadFile tid = client.threadFile tid := by
    intro tid created
    rw [threadFile, Function.update_of_ne (Nat.ne_of_lt created)]
  have split : ∀ tid, tid < next.threads → tid < client.threads ∨ tid = client.threads := by
    intro tid created
    rw [threads] at created
    omega
  refine ⟨?_, ?_, ?_, ?_, ?_, ?_⟩
  · intro tid created
    rcases split tid created with earlier | rfl
    · rw [fFlags, old tid earlier, worker, Function.update_of_ne (Nat.ne_of_lt earlier)]
      exact distributed.flag tid earlier
    · rw [fFlags, own, worker, Function.update_self]
      exact marked
  · intro tid created
    rcases split tid created with earlier | rfl
    · rw [old tid earlier]
      exact distributed.inside tid earlier
    · rw [own]
      exact inside
  · intro tid created other otherCreated same
    rcases split tid created with earlier | rfl
    · rcases split other otherCreated with otherEarlier | rfl
      · rw [old tid earlier, old other otherEarlier] at same
        exact distributed.once tid earlier other otherEarlier same
      · rw [old tid earlier, own] at same
        exact absurd ⟨tid, earlier, same⟩ free
    · rcases split other otherCreated with otherEarlier | rfl
      · rw [old other otherEarlier, own] at same
        exact absurd ⟨other, otherEarlier, same.symm⟩ free
      · rfl
  · intro other otherFree
    have apart : other ≠ file := by
      rintro rfl
      exact otherFree ⟨client.threads, by rw [threads]; exact Nat.lt_succ_self _, own⟩
    have free : ¬ client.Given other := by
      rintro ⟨tid, earlier, same⟩
      exact otherFree ⟨tid, by rw [threads]; exact Nat.lt_succ_of_lt earlier,
        (old tid earlier).trans same⟩
    have elsewhere : ¬ client.main = .create other := by
      rw [here]
      exact fun equal => apart (WebMain.create.inj equal).symm
    have zeroed := distributed.free other free
    rw [if_neg elsewhere] at zeroed
    rw [fFlags, main]
    exact zeroed
  · intro other there
    rw [main] at there
    exact there.elim nofun nofun
  · intro other there
    rw [main] at there
    cases there

theorem Distributed.moves {client next : WebClient} (distributed : Distributed config client)
    (booked : Booked config client) (moves : Moves config client next) :
    Distributed config next := by
  cases moves with
  | search here slot more => exact distributed.search booked here more
  | hit file here inside zero => exact distributed.hit here inside zero
  | miss file here inside nonzero => exact distributed.miss here nonzero
  | mark file here => exact distributed.mark here
  | create file here => exact distributed.create here rfl rfl rfl rfl rfl
  | enter here more => exact distributed.control (.of_not here rfl id id) rfl rfl rfl rfl
  | finish here none => exact distributed.control (.of_not here rfl id id) rfl rfl rfl rfl
  | settle here full => exact distributed.control (.of_not here rfl id id) rfl rfl rfl rfl
  | nothing file here outside => exact distributed.control (.of_eq rfl) rfl rfl rfl rfl
  | record file tid here => exact distributed.control (.of_not here rfl id id) rfl rfl rfl rfl
  | countConn here => exact distributed.control (.of_not here rfl id id) rfl rfl rfl rfl
  | countLeft here => exact distributed.control (.of_not here rfl id id) rfl rfl rfl rfl
  | lock here free =>
    rcases here with here | here
    · exact distributed.control (.of_not here rfl id id) rfl rfl rfl rfl
    · exact distributed.control (.of_not here rfl id id) rfl rfl rfl rfl
  | sleep here zero => exact distributed.control (.of_not here rfl id id) rfl rfl rfl rfl
  | pass here nonzero => exact distributed.control (.of_not here rfl id id) rfl rfl rfl rfl
  | found file here inside done =>
    exact distributed.control (.of_not here rfl id id) rfl rfl rfl rfl
  | skip file here inside undone =>
    exact distributed.control (.of_not here rfl id id) rfl rfl rfl rfl
  | scanned file here outside =>
    exact distributed.control (.of_not here rfl id id) rfl rfl rfl rfl
  | join file tid here named returned =>
    exact distributed.control (.of_not here rfl id id) rfl rfl rfl rfl
  | report file here => exact distributed.control (.of_not here rfl id id) rfl rfl rfl rfl
  | unlock here => exact distributed.control (.of_not here rfl id id) rfl rfl rfl rfl
  | walk tid place created walks =>
    exact distributed.stroll created walks.flag_eq (.of_eq rfl) rfl rfl rfl rfl
  | startReading tid created here => exact distributed.advance created (.of_eq rfl) rfl rfl rfl rfl
  | finishReading tid created here =>
    exact distributed.advance created (.of_eq rfl) rfl rfl rfl rfl
  | acquire tid created here free =>
    exact distributed.stroll created (by rw [here]; rfl) (.of_eq rfl) rfl rfl rfl rfl
  | bump tid created here =>
    exact distributed.stroll created (by rw [here]; rfl) (.of_eq rfl) rfl rfl rfl rfl
  | signal tid created here =>
    exact distributed.stroll created (by rw [here]; rfl) (.signalled rfl id id) rfl rfl rfl rfl
  | release tid created here =>
    exact distributed.stroll created (by rw [here]; rfl) (.of_eq rfl) rfl rfl rfl rfl
  | wakeup here => exact distributed.control (.of_not here rfl id id) rfl rfl rfl rfl
  | fail => exact distributed.control (.of_eq rfl) rfl rfl rfl rfl

theorem distributed_of_reachable {client : WebClient}
    (reached : (machine config).Reachable client) : Distributed config client := by
  refine reached.induction (Distributed config) (distributed_start config)
    fun current action next before distributed taken => ?_
  exact distributed.moves (booked_of_reachable before) (moves_of_step taken).2

/-! ### The flags go forward -/

/-- Storing the next value of one flag. -/
theorem flag_of_update {flags : Nat → Nat} {changed value : Nat}
    (forward : NextFlag (flags changed) value) (file : Nat) :
    Function.update flags changed value file = flags file ∨
      NextFlag (flags file) (Function.update flags changed value file) := by
  by_cases same : file = changed
  · rw [same, Function.update_self]
    exact Or.inr forward
  · rw [Function.update_of_ne same]
    exact Or.inl rfl

/-- A step leaves a flag as it is or takes it to the next value. -/
theorem Distributed.flag_step {client next : WebClient} (distributed : Distributed config client)
    (moves : Moves config client next) (file : Nat) :
    next.fFlags file = client.fFlags file ∨ NextFlag (client.fFlags file) (next.fFlags file) := by
  cases moves
  case mark marked here =>
    have zero : client.fFlags marked = 0 := by
      rw [distributed.free marked (distributed.chosen marked (Or.inl here)).2, here]
      rfl
    exact flag_of_update (by rw [zero]; exact .connecting) file
  case startReading tid created here =>
    have before := distributed.flag tid created
    rw [here] at before
    exact flag_of_update (by rw [before]; exact .reading) file
  case finishReading tid created here =>
    have before := distributed.flag tid created
    rw [here] at before
    exact flag_of_update (by rw [before]; exact .done) file
  all_goals exact Or.inl rfl

theorem flag_le_of_leads {client later : WebClient} (reached : (machine config).Reachable client)
    (leads : (machine config).Leads client later) (file : Nat) :
    client.fFlags file ≤ later.fFlags file := by
  have both : (machine config).Reachable later ∧ client.fFlags file ≤ later.fFlags file := by
    refine leads.invariant
      (fun later => (machine config).Reachable later ∧ client.fFlags file ≤ later.fFlags file)
      ⟨reached, le_rfl⟩ fun current action next before taken => ?_
    refine ⟨before.1.leads (.of_step action taken), le_trans before.2 ?_⟩
    rcases (distributed_of_reachable before.1).flag_step (moves_of_step taken).2 file with
      same | forward
    · exact le_of_eq same.symm
    · exact le_of_lt forward.lt
  exact both.2

theorem Distributed.flag_mem {client : WebClient} (distributed : Distributed config client)
    (file : Nat) : client.fFlags file ∈ [0, fConnecting, fReading, fDone] := by
  by_cases given : client.Given file
  · obtain ⟨tid, created, rfl⟩ := given
    rw [distributed.flag tid created]
    cases client.worker tid <;> decide
  · rw [distributed.free file given]
    split <;> decide

/-- In every reachable state of the web client, outside the start sequence `nlefttoconn` is the
number of files with flag zero, no file has been given to two threads, every flag has one of the
four values and goes forward by one of them at a time and never back, and the search of lines
82-83 does not run past the last file. -/
theorem work_distribution {client : WebClient} (reached : (machine config).Reachable client) :
    (¬ client.main.InStartSequence →
      client.nlefttoconn = ({file ∈ Finset.range config.nfiles | client.fFlags file = 0}).card) ∧
    (∀ tid < client.threads, ∀ other < client.threads,
      client.threadFile tid = client.threadFile other → tid = other) ∧
    (∀ file, client.fFlags file ∈ [0, fConnecting, fReading, fDone]) ∧
    (∀ action next, (machine config).step client action = some next → ∀ file,
      next.fFlags file = client.fFlags file ∨
        NextFlag (client.fFlags file) (next.fFlags file)) ∧
    (∀ later, (machine config).Leads client later → ∀ file,
      client.fFlags file ≤ later.fFlags file) ∧
    (∀ file, client.main = .find file → file < config.nfiles) := by
  have distributed := distributed_of_reachable reached
  refine ⟨distributed.nlefttoconn_eq (booked_of_reachable reached), distributed.once,
    distributed.flag_mem, ?_, fun later leads => flag_le_of_leads reached leads, ?_⟩
  · exact fun action next taken => distributed.flag_step (moves_of_step taken).2
  · intro file here
    obtain ⟨spare, ahead, bound, _⟩ := distributed.searching file here
    exact lt_of_le_of_lt ahead bound

/-- Three files and two connections. -/
def threeFiles : WebConfig := ⟨3, 2, by decide, by decide⟩

/-- The first thread is started and reads its file while the main thread searches for the next
file. -/
def threeFilesRun : List Action :=
  List.replicate 8 Action.main ++ List.replicate 3 (Action.worker 0) ++
    List.replicate 2 Action.main

theorem three_files_distribution :
    ∃ client, (machine threeFiles).Reachable client ∧ client.main = .find 1 ∧
      client.worker 0 = .reading ∧ client.fFlags 0 = fReading ∧ client.nlefttoconn = 2 ∧
      ({file ∈ Finset.range 3 | client.fFlags file = 0}).card = 2 := by
  have reached : (machine threeFiles).Reachable ((machine threeFiles).after threeFilesRun) :=
    Machine.reachable_after threeFilesRun (by decide)
  have here : ((machine threeFiles).after threeFilesRun).main = .find 1 := by decide
  have left : ((machine threeFiles).after threeFilesRun).nlefttoconn = 2 := by decide
  have count := (work_distribution reached).1 (by rw [here]; exact id)
  rw [left] at count
  exact ⟨_, reached, here, by decide, by decide, left, (Int.ofNat_inj.mp count).symm⟩

end WebClient

end SocketC
