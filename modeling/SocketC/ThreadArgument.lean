/-
This file proves on which descriptors the threads of the thread-per-client server
work. The accept loop does its part: the cell passed to the thread of the k-th
`Accept` holds the descriptor of that `Accept` for good, however `connfd` is reused
and wherever `malloc` puts the cells. Whether the thread serves that descriptor is
another matter, because `doit` converts the cell's address instead of reading the
cell. The two agree exactly when every address in use, cut to an `int`, happens to
be the number in its own cell.
-/

import SocketC.ThreadServer

namespace SocketC.ThreadServer

/-! ### The properties -/

/-- How often a thread has called `Close`. -/
def closes (server : ThreadServer) (thread : Nat) : Nat :=
  server.calls.countP fun call => call.thread = thread ∧ call.op = .close

/-- Every thread serves the connection it was created for. -/
structure Served (server : ThreadServer) : Prop where
  /-- The calls of the k-th thread are on the descriptor of the k-th `Accept`, which refers to
  that connection when the call is made. -/
  own : ∀ call ∈ server.calls, server.accepted[call.thread]? = some call.fd ∧
    call.target = some (.connection call.thread)
  /-- A connection stays open until its own thread closes it. -/
  kept : ∀ thread fd, server.accepted[thread]? = some fd → server.doit thread ≠ .ended →
    server.table fd = some (.connection thread)
  /-- A thread closes once, at its end. -/
  once : ∀ thread, server.closes thread = if server.doit thread = .ended then 1 else 0

/-- The threads that have called anything got a cell whose address, converted to `int`, is the
number in the cell. -/
def Matching (server : ThreadServer) : Prop :=
  ∀ call ∈ server.calls, server.heap (server.arg call.thread) = some (server.fd call.thread)

/-! ### The accept loop -/

/-- The k-th thread's cell holds what the k-th `Accept` returned. -/
structure Wired (server : ThreadServer) : Prop where
  idle : server.main = .accept → server.accepted.length = server.threads
  busy : server.main ≠ .accept → server.accepted.length = server.threads + 1 ∧
    server.accepted[server.threads]? = some server.connfd
  cells : ∀ thread < server.threads, server.heap (server.arg thread) = server.accepted[thread]?
  apart : server.main = .store → ∀ thread < server.threads, server.arg thread ≠ server.iptr
  filled : server.main = .create → server.heap server.iptr = some server.connfd
  called : ∀ call ∈ server.calls, call.thread < server.threads ∧ call.fd = server.fd call.thread
  unborn : ∀ thread, server.threads ≤ thread → server.doit thread = .detach

theorem wired_start (others : Finset Int) : (start others).Wired where
  idle := fun _ => rfl
  busy := fun busy => absurd rfl busy
  cells := nofun
  apart := nofun
  filled := nofun
  called := nofun
  unborn := fun _ _ => rfl

theorem Wired.threads_le {server : ThreadServer} (wired : server.Wired) :
    server.threads ≤ server.accepted.length := by
  by_cases here : server.main = .accept
  · rw [wired.idle here]
  · rw [(wired.busy here).1]
    exact Nat.le_succ _

/-- The cells of the threads are allocated. -/
theorem Wired.allocated {server : ThreadServer} (wired : server.Wired) {thread : Nat}
    (created : thread < server.threads) : server.heap (server.arg thread) ≠ none := by
  rw [wired.cells thread created]
  exact mt List.getElem?_eq_none_iff.mp (not_le.mpr (lt_of_lt_of_le created wired.threads_le))

/-- What a step leaves alone: the calls made before, and the arguments and cells of the threads
that exist. -/
structure Extends (server next : ThreadServer) : Prop where
  calls : server.calls ⊆ next.calls
  args : ∀ thread < server.threads, next.arg thread = server.arg thread
  cells : ∀ thread < server.threads,
    next.heap (server.arg thread) = server.heap (server.arg thread)

theorem extends_of_moves {server next : ThreadServer} {action : Action} (wired : server.Wired)
    (moves : Moves server action next) : Extends server next := by
  cases moves with
  | accept fd here fresh => exact ⟨fun _ => id, fun _ _ => rfl, fun _ _ => rfl⟩
  | malloc address contents here fresh =>
    refine ⟨fun _ => id, fun _ _ => rfl, fun thread created => Function.update_of_ne ?_ ..⟩
    intro same
    exact wired.allocated created (same ▸ fresh)
  | store here =>
    exact ⟨fun _ => id, fun _ _ => rfl,
      fun thread created => Function.update_of_ne (wired.apart here thread created) ..⟩
  | create here =>
    exact ⟨fun _ => id, fun thread created => Function.update_of_ne (ne_of_lt created) ..,
      fun _ _ => rfl⟩
  | detach thread created here => exact ⟨fun _ => id, fun _ _ => rfl, fun _ _ => rfl⟩
  | call thread op place created live going other =>
    exact ⟨List.subset_append_left _ _, fun _ _ => rfl, fun _ _ => rfl⟩
  | close thread created here =>
    exact ⟨List.subset_append_left _ _, fun _ _ => rfl, fun _ _ => rfl⟩
  | failedCall thread op created live unopened =>
    exact ⟨List.subset_append_left _ _, fun _ _ => rfl, fun _ _ => rfl⟩
  | fail => exact ⟨fun _ => id, fun _ _ => rfl, fun _ _ => rfl⟩

/-- One more call by a thread that exists. -/
theorem Wired.called_append {server : ThreadServer} (wired : server.Wired) {thread : Nat}
    (created : thread < server.threads) (op : SocketOp) :
    ∀ call ∈ server.calls ++ [server.callOf thread op],
      call.thread < server.threads ∧ call.fd = server.fd call.thread := by
  intro call member
  rcases List.mem_append.mp member with earlier | now
  · exact wired.called call earlier
  · rw [List.mem_singleton.mp now]
    exact ⟨created, rfl⟩

/-- A thread that exists goes to another place. -/
theorem Wired.unborn_update {server : ThreadServer} (wired : server.Wired) {thread : Nat}
    (created : thread < server.threads) (place : Doit) :
    ∀ other, server.threads ≤ other →
      Function.update server.doit thread place other = .detach := by
  intro other later
  rw [Function.update_of_ne (by omega)]
  exact wired.unborn other later

theorem Wired.moves {server next : ThreadServer} {action : Action} (wired : server.Wired)
    (moves : Moves server action next) : next.Wired := by
  have kept := extends_of_moves wired moves
  cases moves with
  | accept fd here fresh =>
    have length := wired.idle here
    refine { wired with
      idle := nofun, busy := fun _ => ⟨?_, ?_⟩, cells := fun thread created => ?_
      apart := nofun, filled := nofun }
    · rw [List.length_append, length, List.length_singleton]
    · rw [← length]
      exact List.getElem?_concat_length
    · rw [List.getElem?_append_left (length ▸ created)]
      exact wired.cells thread created
  | malloc address contents here fresh =>
    refine { wired with
      idle := nofun, busy := fun _ => wired.busy (by rw [here]; nofun)
      cells := fun thread created => (kept.cells thread created).trans (wired.cells thread created)
      apart := fun _ thread created same => ?_, filled := nofun }
    exact wired.allocated created (same ▸ fresh)
  | store here =>
    exact { wired with
      idle := nofun
      busy := fun _ => wired.busy (by rw [here]; nofun)
      cells := fun thread created => (kept.cells thread created).trans (wired.cells thread created)
      apart := nofun
      filled := fun _ => Function.update_self .. }
  | create here =>
    have busy := wired.busy (by rw [here]; nofun)
    refine { wired with
      idle := fun _ => busy.1, busy := fun busy => absurd rfl busy
      cells := fun thread created => ?_, apart := nofun, filled := nofun
      called := fun call member => ?_, unborn := fun thread later => ?_ }
    · rcases Nat.lt_succ_iff_lt_or_eq.mp created with before | new
      · rw [kept.args thread before]
        exact wired.cells thread before
      · simp only [new, Function.update_self, busy.2]
        exact wired.filled here
    · obtain ⟨created, same⟩ := wired.called call member
      refine ⟨Nat.lt_succ_of_lt created, ?_⟩
      rw [same, fd, fd, kept.args call.thread created]
    · have different : thread ≠ server.threads := ne_of_gt later
      exact (Function.update_of_ne different ..).trans
        (wired.unborn thread (Nat.le_of_succ_le later))
  | detach thread created here =>
    exact { wired with unborn := wired.unborn_update created .recv }
  | call thread op place created live going other =>
    exact { wired with
      called := wired.called_append created op, unborn := wired.unborn_update created place }
  | close thread created here =>
    exact { wired with
      called := wired.called_append created .close
      unborn := wired.unborn_update created .ended }
  | failedCall thread op created live unopened =>
    exact { wired with called := wired.called_append created op }
  | fail => exact { wired with }

theorem wired_of_reachable {others : Finset Int} {server : ThreadServer}
    (reached : (machine others).Reachable server) : server.Wired := by
  refine reached.invariant Wired (wired_start others) fun current action next wired taken => ?_
  exact wired.moves (moves_of_step taken)

/-! ### The threads -/

theorem Matching.before {server next : ThreadServer} (matching : next.Matching)
    (wired : server.Wired) (kept : Extends server next) : server.Matching := by
  intro call member
  have created := (wired.called call member).1
  have later := matching call (kept.calls member)
  rw [fd, kept.args call.thread created, kept.cells call.thread created] at later
  exact later

/-- A thread whose cell's address and contents agree works on its own connection. -/
theorem Served.target {server : ThreadServer} (served : server.Served) (wired : server.Wired)
    {thread : Nat} (created : thread < server.threads) (live : server.doit thread ≠ .ended)
    (same : server.heap (server.arg thread) = some (server.fd thread)) :
    server.accepted[thread]? = some (server.fd thread) ∧
      server.table (server.fd thread) = some (.connection thread) := by
  rw [wired.cells thread created] at same
  exact ⟨same, served.kept thread _ same live⟩

theorem Served.own_append {server : ThreadServer} (served : server.Served) {thread : Nat}
    (target : server.accepted[thread]? = some (server.fd thread) ∧
      server.table (server.fd thread) = some (.connection thread)) (op : SocketOp) :
    ∀ call ∈ server.calls ++ [server.callOf thread op],
      server.accepted[call.thread]? = some call.fd ∧
        call.target = some (.connection call.thread) := by
  intro call member
  rcases List.mem_append.mp member with earlier | now
  · exact served.own call earlier
  · rw [List.mem_singleton.mp now]
    exact target

/-- A thread that is not at its end goes to a place that is not the end. -/
theorem ended_update_iff {server : ThreadServer} {thread : Nat} {place : Doit}
    (live : server.doit thread ≠ .ended) (going : place ≠ .ended) (other : Nat) :
    Function.update server.doit thread place other = .ended ↔ server.doit other = .ended := by
  by_cases same : other = thread
  · rw [same, Function.update_self]
    exact iff_of_false going live
  · rw [Function.update_of_ne same]

theorem closes_append {server next : ThreadServer} {call : SocketCall}
    (calls : next.calls = server.calls ++ [call]) (thread : Nat) :
    next.closes thread =
      server.closes thread + if call.thread = thread ∧ call.op = .close then 1 else 0 := by
  simp only [closes, calls, List.countP_append, List.countP_singleton, decide_eq_true_eq]

/-- A thread makes a call other than `Close`, or only goes on. -/
theorem Served.goes {server next : ThreadServer} (served : server.Served)
    (accepted : next.accepted = server.accepted) (table : next.table = server.table)
    (ended : ∀ thread, next.doit thread = .ended ↔ server.doit thread = .ended)
    (own : ∀ call ∈ next.calls, server.accepted[call.thread]? = some call.fd ∧
      call.target = some (.connection call.thread))
    (closed : ∀ thread, next.closes thread = server.closes thread) : next.Served where
  own := by
    rw [accepted]
    exact own
  kept := by
    intro thread fd found live
    rw [accepted] at found
    rw [table]
    exact served.kept thread fd found (mt (ended thread).mpr live)
  once := by
    intro thread
    simp only [closed thread, ended thread]
    exact served.once thread

theorem Served.accept {server : ThreadServer} (served : server.Served) (wired : server.Wired)
    {fd : Int} (fresh : server.table fd = none) :
    Served { server with
      main := .malloc
      connfd := fd
      table := Function.update server.table fd (some (.connection server.accepted.length))
      accepted := server.accepted ++ [fd] } where
  own := by
    intro call member
    have within := lt_of_lt_of_le (wired.called call member).1 wired.threads_le
    rw [List.getElem?_append_left within]
    exact served.own call member
  kept := by
    intro thread other found live
    by_cases before : thread < server.accepted.length
    · rw [List.getElem?_append_left before] at found
      have still := served.kept thread other found live
      -- The new descriptor was free, so it is not the one of an open connection.
      have different : other ≠ fd := by
        intro same
        rw [same, fresh] at still
        nomatch still
      exact (Function.update_of_ne different ..).trans still
    · have new : thread = server.accepted.length := by
        obtain ⟨bound, -⟩ := List.getElem?_eq_some_iff.mp found
        rw [List.length_append, List.length_singleton] at bound
        omega
      rw [new, List.getElem?_concat_length, Option.some.injEq] at found
      rw [new, ← found]
      exact Function.update_self ..
  once := served.once

theorem Served.close {server next : ThreadServer} (served : server.Served) {thread : Nat}
    (here : server.doit thread = .close)
    (target : server.accepted[thread]? = some (server.fd thread) ∧
      server.table (server.fd thread) = some (.connection thread))
    (accepted : next.accepted = server.accepted)
    (table : next.table = Function.update server.table (server.fd thread) none)
    (doit : next.doit = Function.update server.doit thread .ended)
    (calls : next.calls = server.calls ++ [server.callOf thread .close]) : next.Served where
  own := by
    rw [accepted, calls]
    exact served.own_append target .close
  kept := by
    intro other fd found live
    rw [accepted] at found
    rw [doit] at live
    have different : other ≠ thread := by
      intro same
      rw [same, Function.update_self] at live
      exact live rfl
    rw [Function.update_of_ne different] at live
    have still := served.kept other fd found live
    have apart : fd ≠ server.fd thread := by
      intro same
      rw [same, target.2, Option.some.injEq, OpenFile.connection.injEq] at still
      exact different still.symm
    rw [table, Function.update_of_ne apart]
    exact still
  once := by
    intro other
    rw [closes_append calls, served.once other, doit]
    by_cases same : other = thread
    · rw [same, Function.update_self, here]
      simp only [callOf, reduceCtorEq, and_self, if_true, if_false, Nat.zero_add]
    · rw [Function.update_of_ne same]
      simp only [callOf, Ne.symm same, false_and, if_false, Nat.add_zero]

theorem Served.moves {server next : ThreadServer} {action : Action} (served : server.Served)
    (wired : server.Wired) (moves : Moves server action next) (matching : next.Matching) :
    next.Served := by
  have unlogged {op : SocketOp} (other : op ≠ .close) (maker thread : Nat) :
      ¬ ((server.callOf maker op).thread = thread ∧ (server.callOf maker op).op = .close) :=
    fun both => other both.2
  cases moves with
  | accept fd here fresh => exact served.accept wired fresh
  | malloc address contents here fresh =>
    exact served.goes rfl rfl (fun _ => Iff.rfl) served.own fun _ => rfl
  | store here => exact served.goes rfl rfl (fun _ => Iff.rfl) served.own fun _ => rfl
  | create here =>
    refine served.goes rfl rfl (ended_update_iff ?_ nofun) served.own fun _ => rfl
    rw [wired.unborn server.threads le_rfl]
    nofun
  | detach thread created here =>
    exact served.goes rfl rfl (ended_update_iff (by rw [here]; nofun) nofun) served.own
      fun _ => rfl
  | call thread op place created live going other =>
    have same := matching (server.callOf thread op) List.mem_concat_self
    refine served.goes rfl rfl (ended_update_iff live going)
      (served.own_append (served.target wired created live same) op) fun closer => ?_
    rw [closes_append rfl, if_neg (unlogged other thread closer), Nat.add_zero]
  | close thread created here =>
    have same := matching (server.callOf thread .close) List.mem_concat_self
    have target := served.target wired created (by rw [here]; nofun) same
    exact served.close here target rfl rfl rfl rfl
  | failedCall thread op created live unopened =>
    have same := matching (server.callOf thread op) List.mem_concat_self
    have target := served.target wired created live same
    -- The descriptor is open, so the call that failed is not `Close`.
    have other : op ≠ .close := by
      intro closing
      have gone := unopened closing
      rw [target.2] at gone
      nomatch gone
    refine served.goes rfl rfl (fun _ => Iff.rfl) (served.own_append target op) fun closer => ?_
    rw [closes_append rfl, if_neg (unlogged other thread closer), Nat.add_zero]
  | fail => exact served.goes rfl rfl (fun _ => Iff.rfl) served.own fun _ => rfl

theorem served_start (others : Finset Int) : (start others).Served where
  own := nofun
  kept := nofun
  once := fun _ => rfl

theorem served_of_matching {others : Finset Int} {server : ThreadServer}
    (reached : (machine others).Reachable server) : server.Matching → server.Served := by
  refine reached.induction (fun server => server.Matching → server.Served)
    (fun _ => served_start others) fun current action next before served taken matching => ?_
  have wired := wired_of_reachable before
  have moves := moves_of_step taken
  have earlier := matching.before wired (extends_of_moves wired moves)
  exact (served earlier).moves wired moves matching

/-! ### The addresses -/

/-- A condition on the allocator: the address that `malloc` returns, converted to `int`, is the
descriptor that the cell is for. -/
def Fits (server : ThreadServer) : Action → Prop
  | .malloc address _ => intOfPointer address = server.connfd
  | _ => True

instance (server : ThreadServer) : (action : Action) → Decidable (server.Fits action)
  | .malloc address _ => inferInstanceAs (Decidable (intOfPointer address = server.connfd))
  | .accept _ | .store | .create | .doit _ _ _ | .fail => .isTrue trivial

/-- Every thread works on the number that its `Accept` returned. -/
structure Fitted (server : ThreadServer) : Prop where
  cells : ∀ thread < server.threads, server.accepted[thread]? = some (server.fd thread)
  cell : server.main = .store ∨ server.main = .create → intOfPointer server.iptr = server.connfd

theorem Fitted.matching {server : ThreadServer} (fitted : server.Fitted) (wired : server.Wired) :
    server.Matching := by
  intro call member
  have created := (wired.called call member).1
  rw [wired.cells call.thread created, fitted.cells call.thread created]

theorem Fitted.moves {server next : ThreadServer} {action : Action} (fitted : server.Fitted)
    (wired : server.Wired) (fits : server.Fits action) (moves : Moves server action next) :
    next.Fitted := by
  cases moves with
  | accept fd here fresh =>
    refine ⟨fun thread created => ?_, nofun⟩
    exact (List.getElem?_append_left (lt_of_lt_of_le created wired.threads_le)).trans
      (fitted.cells thread created)
  | malloc address contents here fresh => exact ⟨fitted.cells, fun _ => fits⟩
  | store here => exact ⟨fitted.cells, fun _ => fitted.cell (Or.inl here)⟩
  | create here =>
    refine ⟨fun thread created => ?_, nofun⟩
    rcases Nat.lt_succ_iff_lt_or_eq.mp created with before | new
    · simp only [fd, Function.update_of_ne (ne_of_lt before)]
      exact fitted.cells thread before
    · simp only [new, fd, Function.update_self, fitted.cell (Or.inr here)]
      exact (wired.busy (by rw [here]; nofun)).2
  | detach thread created here => exact ⟨fitted.cells, fitted.cell⟩
  | call thread op place created live going other => exact ⟨fitted.cells, fitted.cell⟩
  | close thread created here => exact ⟨fitted.cells, fitted.cell⟩
  | failedCall thread op created live unopened => exact ⟨fitted.cells, fitted.cell⟩
  | fail => exact ⟨fitted.cells, fitted.cell⟩

theorem fitted_of_reachable {others : Finset Int} {server : ThreadServer}
    (reached : ((machine others).restrict Fits).Reachable server) : server.Fitted := by
  refine reached.induction Fitted ⟨nofun, nofun⟩
    fun current action next before fitted taken => ?_
  obtain ⟨fits, taken⟩ := Machine.restrict_step taken
  exact fitted.moves (wired_of_reachable before.of_restrict) fits (moves_of_step taken)

/-- However a receive ends, it is a call on the thread's number. -/
theorem recvStep_called (server : ThreadServer) (thread : Nat) (answer : Received) :
    server.callOf thread .recv ∈ (server.recvStep thread answer).calls ∧
      (server.recvStep thread answer).accepted = server.accepted := by
  unfold recvStep
  simp only
  split <;> exact ⟨List.mem_concat_self, rfl⟩

/-- The state in which the accept loop has passed a cell at the given address to a new thread, and
the thread is about to receive. -/
def begun (server : ThreadServer) (address : BitVec 64) : ThreadServer :=
  { server with
    main := .accept
    iptr := address
    heap := Function.update server.heap address (some server.connfd)
    threads := server.threads + 1
    arg := Function.update server.arg server.threads address
    doit := Function.update server.doit server.threads .recv }

theorem leads_begun {others : Finset Int} {server next : ThreadServer} {address : BitVec 64}
    {contents : Int} (running : server.running = true)
    (taken : (machine others).step server (.malloc address contents) = some next) :
    (machine others).Leads next (server.begun address) := by
  simp only [machine, step, Option.ite_none_right_eq_some, Option.some.injEq] at taken
  obtain ⟨-, -, rfl⟩ := taken
  refine ⟨[.store, .create, .doit server.threads .eof true], ?_⟩
  simp only [Machine.run_cons, Machine.run_nil, machine, step, doitStep, begun, running, if_true,
    Option.bind_some, Nat.lt_succ_self, Function.update_self, Function.update_idem]

/-- Behind an address that does not fit, the new thread can be the next to run, and its first
receive is on a number that is not its connection's. -/
theorem unserved_of_unfit {others : Finset Int} {server next : ThreadServer}
    {address : BitVec 64} {contents : Int} (reached : (machine others).Reachable server)
    (taken : (machine others).step server (.malloc address contents) = some next)
    (unfit : intOfPointer address ≠ server.connfd) :
    ∃ later, (machine others).Leads next later ∧ ¬ later.Served := by
  have wired := wired_of_reachable reached
  obtain ⟨running, ⟨here, -⟩, -⟩ :
      server.running = true ∧ (server.main = .malloc ∧ _) ∧ _ = next := by
    simpa only [machine, step, Option.ite_none_right_eq_some, Option.some.injEq] using taken
  have receives : (machine others).step (server.begun address) (.doit server.threads .eof true) =
      some ((server.begun address).recvStep server.threads .eof) := by
    simp only [machine, step, doitStep, begun, running, if_true, Nat.lt_succ_self,
      Function.update_self]
  refine ⟨_, (leads_begun running taken).step _ receives, fun served => ?_⟩
  obtain ⟨called, accepted⟩ := recvStep_called (server.begun address) server.threads .eof
  have own := (served.own _ called).1
  have fd : (server.begun address).fd server.threads = intOfPointer address := by
    simp only [ThreadServer.fd, begun, Function.update_self]
  rw [accepted, callOf, fd] at own
  have mine := (wired.busy (by rw [here]; decide)).2
  exact unfit (Option.some.inj (own.symm.trans mine))

/-- Every thread serves the connection it was created for in every run in which every address
that `malloc` returns fits; and from every step at which one does not fit, a run goes on to a
state in which this is wrong. -/
theorem served_when_addresses_fit (others : Finset Int) :
    (∀ server, ((machine others).restrict Fits).Reachable server → server.Served) ∧
    ∀ server address contents next, (machine others).Reachable server →
      (machine others).step server (.malloc address contents) = some next →
      ¬ server.Fits (.malloc address contents) →
      ∃ later, (machine others).Leads next later ∧ ¬ later.Served := by
  constructor
  · intro server reached
    have fitted := fitted_of_reachable reached
    have ran := reached.of_restrict
    exact served_of_matching ran (fitted.matching (wired_of_reachable ran))
  · intro server address contents next reached taken unfit
    exact unserved_of_unfit reached taken unfit

/-- One client, accepted as descriptor 16, in a process whose allocator returns an address with
the low half 16. -/
def luckyRun : List Action :=
  [.accept 16, .malloc 0x7f5500000010 0, .store, .create, .doit 0 .eof true,
    .doit 0 (.data [33]) true, .doit 0 .eof true, .doit 0 .eof true, .doit 0 .eof true]

theorem served_when_addresses_fit_run :
    (((machine {3}).restrict Fits).after luckyRun).doit 0 = .ended ∧
      (((machine {3}).restrict Fits).after luckyRun).Served :=
  ⟨by decide,
    (served_when_addresses_fit {3}).1 _ (Machine.reachable_after luckyRun (by decide))⟩

/-- One client, accepted as descriptor 4, and an address as allocators return them. -/
def firstClientRun : List Action :=
  [.accept 4, .malloc 0x55d0c0de12a0 0, .store, .create, .doit 0 .eof true, .doit 0 .eof true]

/-- The thread of the first client calls `recv` on a number that is not open, and the server
ends. -/
theorem first_client_unserved :
    ∃ server, (machine {3}).Reachable server ∧ server.accepted = [4] ∧
      server.calls = [⟨0, .recv, -1059188064, none⟩] ∧ server.running = false ∧
      ¬ server.Served := by
  refine ⟨(machine {3}).after firstClientRun, Machine.reachable_after firstClientRun (by decide),
    by decide, by decide, by decide, fun served => ?_⟩
  have call : (⟨0, .recv, -1059188064, none⟩ : SocketCall) ∈
      ((machine {3}).after firstClientRun).calls := by decide
  nomatch (served.own _ call).2

end SocketC.ThreadServer
