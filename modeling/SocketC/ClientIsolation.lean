/-
This file is about what one client of a pre-threaded server can do to another. The
bytes that a client is sent are the answer to its own stream, whoever else is
connected and whatever the others send: at every moment an initial part of it, and
all of it once the connection is closed. As long as the process goes on, every session
can take its next step. What the others can do is to end the process, and there are five
ways: `web_child` calls `err_quit` on a request out of range, the wrappers call `err_sys`
when a receive, a send or `accept` fails, the main thread of the user-scheduled server
calls `err_quit` when all but one slot of its ring is taken and another connection comes
in, and whatever is left, another wrapper or `sig_int`.

The invariant ties each worker's `web_child` to the client of its descriptor. A
descriptor refers to one client at a time and is served by one worker at a time, so a
step of a `web_child` moves one client's session and no other.
-/

import SocketC.OverflowCheck
import SocketC.PoolDesks
import SocketC.WebServer

namespace SocketC

namespace WebServer

variable {Worker : Type} [DecidableEq Worker] {scheduler : Scheduler Worker Nat} {Client : Type}

/-! ### The invariant -/

/-- A session is as far as this: what was sent and what is still due are the answer, and what is
still unread makes `web_child` quit if the whole stream does. -/
structure Progress (traffic : WebTraffic Client) (client : Client) (child : WebChild)
    (unread sent : List UInt8) : Prop where
  answer : sent ++ child.due (traffic.result client) unread = traffic.answer client
  quits : child.quits unread = (script (traffic.stream client)).quit

structure Answering (traffic : WebTraffic Client) (server : WebServer scheduler Client) :
    Prop where
  opened : ∀ connfd client, server.owner connfd = some client →
    connfd ∈ (scheduler.view server.pool).opened ∧ server.known client = true ∧
      server.closed client = false
  single : ∀ connfd other client, server.owner connfd = some client →
    server.owner other = some client → connfd = other
  unknown : ∀ client, server.known client = false → server.closed client = false
  waiting : ∀ client, (∀ worker, server.clientOf worker ≠ some client) →
    server.closed client = false →
      server.unread client = traffic.stream client ∧ server.sent client = []
  serving : ∀ worker client, server.clientOf worker = some client →
    Progress traffic client (server.child worker) (server.unread client) (server.sent client)
  closed : ∀ client, server.closed client = true → server.sent client = traffic.answer client
  quit : ∀ client ntowrite, server.ended = some (.request client ntowrite) →
    (script (traffic.stream client)).quit = some ntowrite

theorem answering_start (scheduler : Scheduler Worker Nat) (traffic : WebTraffic Client) :
    Answering traffic (start scheduler traffic) where
  opened := nofun
  single := nofun
  unknown := fun _ _ => rfl
  waiting := fun _ _ _ => ⟨rfl, rfl⟩
  serving := by
    intro worker client serves
    rw [clientOf, serving, show (start scheduler traffic).pool = scheduler.machine.start from rfl,
      scheduler.starts] at serves
    cases serves
  closed := nofun
  quit := nofun

theorem clientOf_eq_some {server : WebServer scheduler Client} {worker : Worker} {client : Client} :
    server.clientOf worker = some client ↔
      ∃ connfd, server.serving worker = some connfd ∧ server.owner connfd = some client :=
  Option.bind_eq_some_iff

/-- One worker serves a client. -/
theorem Answering.worker_eq {traffic : WebTraffic Client} {server : WebServer scheduler Client}
    (answering : Answering traffic server) (orderly : (scheduler.view server.pool).Orderly)
    {worker other : Worker} {client : Client} (serves : server.clientOf worker = some client)
    (also : server.clientOf other = some client) : worker = other := by
  obtain ⟨connfd, serving, owner⟩ := clientOf_eq_some.mp serves
  obtain ⟨second, servingSecond, ownerSecond⟩ := clientOf_eq_some.mp also
  obtain rfl := answering.single connfd second client owner ownerSecond
  exact orderly.single worker other connfd serving servingSecond

/-- A new session has everything before it. -/
theorem progress_start (traffic : WebTraffic Client) (client : Client) :
    Progress traffic client (.readline 1 []) (traffic.stream client) [] := ⟨rfl, rfl⟩

/-! ### Steps of a `web_child` -/

/-- A step of a worker's `web_child` is a matter of its client alone. -/
theorem Answering.session {traffic : WebTraffic Client} {server : WebServer scheduler Client}
    (answering : Answering traffic server) (orderly : (scheduler.view server.pool).Orderly)
    {worker : Worker} {client : Client} (serves : server.clientOf worker = some client)
    {unread sent : Client → List UInt8} {child : Worker → WebChild}
    (sameUnread : ∀ other, other ≠ client → unread other = server.unread other)
    (sameSent : ∀ other, other ≠ client → sent other = server.sent other)
    (sameChild : ∀ other, other ≠ worker → child other = server.child other)
    (progress : Progress traffic client (child worker) (unread client) (sent client)) :
    Answering traffic { server with unread := unread, sent := sent, child := child } := by
  obtain ⟨connfd, -, owner⟩ := clientOf_eq_some.mp serves
  have unclosed := (answering.opened connfd client owner).2.2
  refine ⟨answering.opened, answering.single, answering.unknown, fun other unserved open_ => ?_,
    fun index other servesOther => ?_, fun other closed => ?_, answering.quit⟩
  · have different : other ≠ client := fun same => unserved worker (same ▸ serves)
    show unread other = traffic.stream other ∧ sent other = []
    rw [sameUnread other different, sameSent other different]
    exact answering.waiting other unserved open_
  · by_cases same : index = worker
    · subst same
      obtain rfl := Option.some.inj (serves.symm.trans servesOther)
      exact progress
    · have different : other ≠ client := fun sameClient =>
        same (answering.worker_eq orderly servesOther (sameClient ▸ serves))
      show Progress traffic other (child index) (unread other) (sent other)
      rw [sameUnread other different, sameSent other different, sameChild index same]
      exact answering.serving index other servesOther
  · have different : other ≠ client := by
      rintro rfl
      rw [unclosed] at closed
      cases closed
    show sent other = traffic.answer other
    rw [sameSent other different]
    exact answering.closed other closed

theorem Answering.again {traffic : WebTraffic Client} {server : WebServer scheduler Client}
    (answering : Answering traffic server) (orderly : (scheduler.view server.pool).Orderly)
    {worker : Worker} {client : Client} (serves : server.clientOf worker = some client)
    (here : server.child worker = .writen []) :
    Answering traffic
      { server with child := Function.update server.child worker (.readline 1 []) } := by
  refine answering.session orderly serves (fun _ _ => rfl) (fun _ _ => rfl)
    (fun _ different => Function.update_of_ne different _ _) ?_
  rw [Function.update_self]
  have before := answering.serving worker client serves
  rw [here] at before
  exact ⟨before.answer, before.quits⟩

/-- The end of the process changes nothing else. -/
theorem Answering.ends {traffic : WebTraffic Client} {server : WebServer scheduler Client}
    (answering : Answering traffic server) {reason : WebEnd Client}
    (quit : ∀ client ntowrite, some reason = some (.request client ntowrite) →
      (script (traffic.stream client)).quit = some ntowrite) :
    Answering traffic { server with ended := some reason } :=
  ⟨answering.opened, answering.single, answering.unknown, answering.waiting, answering.serving,
    answering.closed, quit⟩

theorem Answering.quit_of_line {traffic : WebTraffic Client} {server : WebServer scheduler Client}
    (answering : Answering traffic server) {worker : Worker} {client : Client} {n : Nat}
    {stored : List UInt8} {ntowrite : Int} (serves : server.clientOf worker = some client)
    (here : server.child worker = .readline n stored)
    (used : webChildLine (readline maxLine n stored (recvOf (server.unread client))) =
      .quit ntowrite) :
    Answering traffic { server with ended := some (.request client ntowrite) } := by
  refine answering.ends ?_
  rintro _ _ ⟨⟩
  have before := (answering.serving worker client serves).quits
  rw [here, quits_recv (traffic.result client), used] at before
  exact before.symm

/-! ### Steps of the scheduler -/

/-- A step that the desk does not show. -/
theorem Answering.idle {traffic : WebTraffic Client} {server : WebServer scheduler Client}
    (answering : Answering traffic server) {pool : scheduler.State}
    (same : scheduler.view pool = scheduler.view server.pool) :
    Answering traffic { server with pool := pool } := by
  have clients (worker : Worker) :
      ({ server with pool := pool } : WebServer scheduler Client).clientOf worker =
        server.clientOf worker := by
    simp only [clientOf, WebServer.serving, same]
  refine ⟨fun connfd client owner => ?_, answering.single, answering.unknown,
    fun client unserved => ?_, fun worker client serves => ?_, answering.closed, answering.quit⟩
  · rw [same]
    exact answering.opened connfd client owner
  · exact answering.waiting client fun worker => clients worker ▸ unserved worker
  · exact answering.serving worker client (clients worker ▸ serves)

/-- A worker begins with a client that nobody has served. -/
theorem Answering.begin {traffic : WebTraffic Client} {server : WebServer scheduler Client}
    (answering : Answering traffic server) {pool : scheduler.State} {worker : Worker}
    (moved : (scheduler.view server.pool).Moves (.begin worker) (scheduler.view pool)) :
    Answering traffic { server with
      pool := pool
      child := Function.update server.child worker (.readline 1 []) } := by
  obtain ⟨connfd, free, unserved, opened, serving⟩ := moved.of_begin
  have idle : server.clientOf worker = none := by
    simp only [clientOf, WebServer.serving, free, Option.bind_none]
  have own : ({ server with
      pool := pool
      child := Function.update server.child worker (.readline 1 []) } :
        WebServer scheduler Client).clientOf worker = server.owner connfd := by
    simp only [clientOf, WebServer.serving, serving, Function.update_self, Option.bind_some]
  have others (index : Worker) (different : index ≠ worker) : ({ server with
      pool := pool
      child := Function.update server.child worker (.readline 1 []) } :
        WebServer scheduler Client).clientOf index = server.clientOf index := by
    simp only [clientOf, WebServer.serving, serving, Function.update_of_ne different]
  refine ⟨fun other client owner => ?_, answering.single, answering.unknown,
    fun client unservedNow unclosed => ?_, fun index client serves => ?_, answering.closed,
    answering.quit⟩
  · rw [opened]
    exact answering.opened other client owner
  · refine answering.waiting client (fun index served => ?_) unclosed
    by_cases same : index = worker
    · rw [same, idle] at served
      cases served
    · exact unservedNow index ((others index same).trans served)
  · show Progress traffic client (Function.update server.child worker (.readline 1 []) index) _ _
    by_cases same : index = worker
    · subst same
      rw [own] at serves
      have unclosed := (answering.opened connfd client serves).2.2
      have waited : ∀ other, server.clientOf other ≠ some client := by
        intro other servesOther
        obtain ⟨second, servingSecond, owner⟩ := clientOf_eq_some.mp servesOther
        obtain rfl := answering.single connfd second client serves owner
        exact unserved other servingSecond
      obtain ⟨unread, sent⟩ := answering.waiting client waited unclosed
      rw [Function.update_self, unread, sent]
      exact progress_start traffic client
    · rw [Function.update_of_ne same]
      exact answering.serving index client ((others index same).symm.trans serves)

/-! ### Steps that change the entries of a client -/

/-- An entry of a table in which one entry was replaced. -/
theorem update_eq_some {owner : Nat → Option Client} {connfd other : Nat} {entry : Option Client}
    {client : Client} :
    Function.update owner connfd entry other = some client ↔
      (other = connfd ∧ entry = some client) ∨ (other ≠ connfd ∧ owner other = some client) := by
  by_cases same : other = connfd
  · rw [same, Function.update_self]
    simp
  · rw [Function.update_of_ne same]
    simp [same]

variable [DecidableEq Client]

theorem Answering.read {traffic : WebTraffic Client} {server : WebServer scheduler Client}
    (answering : Answering traffic server) (orderly : (scheduler.view server.pool).Orderly)
    {worker : Worker} {client : Client} {n : Nat} {stored : List UInt8} {use : LineUse}
    (serves : server.clientOf worker = some client)
    (here : server.child worker = .readline n stored)
    (used : webChildLine (readline maxLine n stored (recvOf (server.unread client))) = use)
    (going : ∀ ntowrite, use ≠ .quit ntowrite) :
    Answering traffic { server with
      unread := Function.update server.unread client (server.unread client).tail
      child := Function.update server.child worker (use.place (traffic.result client)) } := by
  refine answering.session orderly serves (fun _ different => Function.update_of_ne different _ _)
    (fun _ _ => rfl) (fun _ different => Function.update_of_ne different _ _) ?_
  rw [Function.update_self, Function.update_self]
  have before := answering.serving worker client serves
  rw [here] at before
  have due := due_recv (traffic.result client) n stored (server.unread client)
  have quits := quits_recv (traffic.result client) n stored (server.unread client)
  rw [used] at due quits
  refine ⟨by rw [due]; exact before.answer, ?_⟩
  rw [← before.quits, quits]
  cases use with
  | quit ntowrite => exact absurd rfl (going ntowrite)
  | again | close | write => rfl

theorem Answering.write {traffic : WebTraffic Client} {server : WebServer scheduler Client}
    (answering : Answering traffic server) (orderly : (scheduler.view server.pool).Orderly)
    {worker : Worker} {client : Client} {rest : List UInt8} (count : Nat)
    (serves : server.clientOf worker = some client) (here : server.child worker = .writen rest) :
    Answering traffic { server with
      sent := Function.update server.sent client (server.sent client ++ rest.take count)
      child := Function.update server.child worker (.writen (rest.drop count)) } := by
  refine answering.session orderly serves (fun _ _ => rfl)
    (fun _ different => Function.update_of_ne different _ _)
    (fun _ different => Function.update_of_ne different _ _) ?_
  rw [Function.update_self, Function.update_self]
  have before := answering.serving worker client serves
  rw [here] at before
  refine ⟨?_, before.quits⟩
  have answer := before.answer
  simp only [WebChild.due] at answer ⊢
  rw [List.append_assoc, ← List.append_assoc (rest.take count), List.take_append_drop, answer]

/-- The workers serve whom they served, because the descriptor of the new client was free. -/
theorem clientOf_accepts {server : WebServer scheduler Client}
    (orderly : (scheduler.view server.pool).Orderly) {pool : scheduler.State} {connfd : Nat}
    (client : Client) (fresh : connfd ∉ (scheduler.view server.pool).opened)
    (serving : (scheduler.view pool).serving = (scheduler.view server.pool).serving)
    (worker : Worker) :
    (server.accepts pool connfd client).clientOf worker = server.clientOf worker := by
  simp only [clientOf, WebServer.serving, accepts, serving]
  cases served : (scheduler.view server.pool).serving worker with
  | none => rfl
  | some other =>
    have different : other ≠ connfd := by
      rintro rfl
      exact fresh (orderly.isOpen worker other served)
    exact Function.update_of_ne different _ _

/-- `Accept` gives a client a descriptor that nobody serves. -/
theorem Answering.accept {traffic : WebTraffic Client} {server : WebServer scheduler Client}
    (answering : Answering traffic server) (orderly : (scheduler.view server.pool).Orderly)
    {pool : scheduler.State} {connfd : Nat} {client : Client}
    (moved : (scheduler.view server.pool).Moves (.accept connfd) (scheduler.view pool))
    (new : server.known client = false) :
    Answering traffic (server.accepts pool connfd client) := by
  obtain ⟨fresh, opened, serving⟩ := moved.of_accept
  have clients := clientOf_accepts orderly client fresh serving
  have unowned (other : Nat) : server.owner other ≠ some client := by
    intro owner
    have known := (answering.opened other client owner).2.1
    rw [new] at known
    cases known
  refine ⟨fun other whose owner => ?_, fun first second whose owner ownerSecond => ?_,
    fun other unknown => ?_, fun other unserved => ?_, fun worker other serves => ?_,
    answering.closed, answering.quit⟩
  · show other ∈ (scheduler.view pool).opened ∧ Function.update server.known client true whose =
      true ∧ server.closed whose = false
    rw [opened]
    obtain ⟨rfl, ⟨⟩⟩ | ⟨-, before⟩ := update_eq_some.mp owner
    · exact ⟨Finset.mem_insert_self _ _, Function.update_self _ _ _, answering.unknown _ new⟩
    · obtain ⟨isOpen, known, unclosed⟩ := answering.opened other whose before
      have different : whose ≠ client := fun same => unowned other (same ▸ before)
      exact ⟨Finset.mem_insert_of_mem isOpen, (Function.update_of_ne different _ _).trans known,
        unclosed⟩
  · obtain ⟨rfl, ⟨⟩⟩ | ⟨-, before⟩ := update_eq_some.mp owner <;>
      obtain ⟨rfl, same⟩ | ⟨-, beforeSecond⟩ := update_eq_some.mp ownerSecond
    · rfl
    · exact absurd beforeSecond (unowned second)
    · exact absurd (before.trans same.symm) (unowned first)
    · exact answering.single first second whose before beforeSecond
  · by_cases same : other = client
    · exact same ▸ answering.unknown client new
    · exact answering.unknown other ((Function.update_of_ne same _ _).symm.trans unknown)
  · exact answering.waiting other fun worker => clients worker ▸ unserved worker
  · exact answering.serving worker other (clients worker ▸ serves)

/-- `Close` frees the descriptor, and closes the connection of the client that it referred to. -/
theorem closes_eq {server : WebServer scheduler Client} {worker : Worker} {connfd : Nat}
    (serves : server.serving worker = some connfd) (pool : scheduler.State) :
    ∃ closed : Client → Bool,
      server.closes pool worker = { server with
        pool := pool
        owner := Function.update server.owner connfd none
        closed := closed } ∧
      ∀ client, closed client = true ↔
        server.closed client = true ∨ server.owner connfd = some client := by
  unfold closes
  rw [serves]
  refine ⟨_, rfl, fun client => ?_⟩
  cases owner : server.owner connfd with
  | none => exact (or_iff_left nofun).symm
  | some whose =>
    by_cases same : client = whose
    · rw [same]
      exact iff_of_true (Function.update_self _ _ _) (Or.inr rfl)
    · show Function.update server.closed whose true client = true ↔ _
      rw [Function.update_of_ne same, or_iff_left]
      exact fun other => same (Option.some.inj other).symm

/-- The other workers serve whom they served, because they serve other descriptors. -/
theorem clientOf_closes {server : WebServer scheduler Client}
    (orderly : (scheduler.view server.pool).Orderly) {pool : scheduler.State} {worker : Worker}
    {connfd : Nat} (serves : server.serving worker = some connfd)
    (serving : (scheduler.view pool).serving =
      Function.update (scheduler.view server.pool).serving worker none)
    (index : Worker) (client : Client) :
    (server.closes pool worker).clientOf index = some client ↔
      index ≠ worker ∧ server.clientOf index = some client := by
  obtain ⟨closed, shape, -⟩ := closes_eq serves pool
  rw [shape]
  simp only [clientOf, WebServer.serving, serving]
  by_cases same : index = worker
  · rw [same, Function.update_self]
    exact iff_of_false nofun fun both => both.1 rfl
  · rw [Function.update_of_ne same, and_iff_right same]
    cases served : (scheduler.view server.pool).serving index with
    | none => exact Iff.rfl
    | some other =>
      have different : other ≠ connfd := by
        rintro rfl
        exact same (orderly.single index worker other served serves)
      rw [Option.bind_some, Option.bind_some, Function.update_of_ne different]

/-- A worker closes the connection of the client that it has served. -/
theorem Answering.close {traffic : WebTraffic Client} {server : WebServer scheduler Client}
    (answering : Answering traffic server) (orderly : (scheduler.view server.pool).Orderly)
    {pool : scheduler.State} {worker : Worker}
    (moved : (scheduler.view server.pool).Moves (.close worker) (scheduler.view pool))
    (returned : server.child worker = .returned) :
    Answering traffic (server.closes pool worker) := by
  obtain ⟨connfd, serves, opened, serving⟩ := moved.of_close
  obtain ⟨closed, shape, closed_iff⟩ := closes_eq serves pool
  have others := clientOf_closes orderly serves serving
  have owners {other : Nat} {client : Client}
      (owner : Function.update server.owner connfd none other = some client) :
      other ≠ connfd ∧ server.owner other = some client :=
    (update_eq_some.mp owner).resolve_left fun replaced => nomatch replaced.2
  have unclosed {client : Client} (still : closed client = false) :
      server.closed client = false ∧ server.owner connfd ≠ some client := by
    have neither := mt (closed_iff client).mpr (by rw [still]; nofun)
    rw [not_or, Bool.not_eq_true] at neither
    exact neither
  rw [shape] at others ⊢
  refine ⟨fun other client owner => ?_, fun first second client owner ownerSecond => ?_,
    fun client unknown => ?_, fun client unserved still => ?_, fun index client servesNow => ?_,
    fun client closedNow => ?_, answering.quit⟩
  · obtain ⟨different, before⟩ := owners owner
    obtain ⟨isOpen, known, open_⟩ := answering.opened other client before
    refine ⟨?_, known, ?_⟩
    · rw [opened]
      exact Finset.mem_erase.mpr ⟨different, isOpen⟩
    · rw [← Bool.not_eq_true, closed_iff, open_]
      rintro (impossible | ownerHere)
      · cases impossible
      · exact different (answering.single other connfd client before ownerHere)
  · exact answering.single first second client (owners owner).2 (owners ownerSecond).2
  · rw [← Bool.not_eq_true, closed_iff, answering.unknown client unknown]
    rintro (impossible | ownerHere)
    · cases impossible
    · have known := (answering.opened connfd client ownerHere).2.1
      rw [unknown] at known
      cases known
  · obtain ⟨open_, notOwner⟩ := unclosed still
    refine answering.waiting client (fun index servesIndex => ?_) open_
    by_cases same : index = worker
    · obtain ⟨other, servesOther, owner⟩ := clientOf_eq_some.mp servesIndex
      rw [same] at servesOther
      obtain rfl := Option.some.inj (serves.symm.trans servesOther)
      exact notOwner owner
    · exact unserved index ((others index client).mpr ⟨same, servesIndex⟩)
  · exact answering.serving index client ((others index client).mp servesNow).2
  · obtain before | owner := (closed_iff client).mp closedNow
    · exact answering.closed client before
    · have progress := answering.serving worker client
        (clientOf_eq_some.mpr ⟨connfd, serves, owner⟩)
      rw [returned] at progress
      have answer := progress.answer
      rwa [WebChild.due, List.append_nil] at answer

/-- What every step keeps. -/
theorem Answering.moves {traffic : WebTraffic Client} {server next : WebServer scheduler Client}
    (answering : Answering traffic server) (orderly : (scheduler.view server.pool).Orderly)
    (moves : Moves traffic server next) : Answering traffic next := by
  cases moves with
  | accept pool connfd client moved new => exact answering.accept orderly moved new
  | begin pool worker moved => exact answering.begin moved
  | close pool worker moved returned => exact answering.close orderly moved returned
  | internal pool moved => exact answering.idle moved.of_internal
  | exit pool action moved => exact (answering.idle moved.of_exit).ends nofun
  | read worker client n stored use serves here used going =>
    exact answering.read orderly serves here used going
  | quit worker client n stored ntowrite serves here used =>
    exact answering.quit_of_line serves here used
  | again worker client serves here => exact answering.again orderly serves here
  | write worker client rest count serves here => exact answering.write orderly count serves here
  | fail worker client serves => exact answering.ends nofun
  | abort awaits => exact answering.ends nofun

theorem answering_of_reachable {traffic : WebTraffic Client} {server : WebServer scheduler Client}
    (reached : (machine scheduler traffic).Reachable server) : Answering traffic server := by
  have both : scheduler.machine.Reachable server.pool ∧ Answering traffic server := by
    refine reached.invariant
      (fun server => scheduler.machine.Reachable server.pool ∧ Answering traffic server)
      ⟨.start, answering_start scheduler traffic⟩ fun current action next before taken => ?_
    obtain ⟨-, moves, onward⟩ := moves_of_step before.1 taken
    exact ⟨onward, before.2.moves (scheduler.orderly_of_reachable before.1) moves⟩
  exact both.2

/-! ### How the process ends -/

/-- The ways in which the process comes to its end. -/
inductive EndedBy (server : WebServer scheduler Client) : WebEnd Client → Prop where
  | request (worker : Worker) (client : Client) (ntowrite : Int)
      (serves : server.clientOf worker = some client) (outside : ¬ InRange ntowrite) :
      EndedBy server (.request client ntowrite)
  | connection (worker : Worker) (client : Client) (serves : server.clientOf worker = some client)
      (busy : server.child worker ≠ .returned) : EndedBy server (.connection client)
  | accept (awaits : scheduler.awaits server.pool = true) : EndedBy server .accept
  | scheduler (before : scheduler.State) (action : scheduler.Action)
      (reached : scheduler.machine.Reachable before)
      (stepped : scheduler.machine.step before action = some server.pool)
      (exits : scheduler.event before action = .exit) : EndedBy server .scheduler

theorem endedBy_of_moves {traffic : WebTraffic Client} {server next : WebServer scheduler Client}
    (reached : scheduler.machine.Reachable server.pool) (alive : server.ended = none)
    (moves : Moves traffic server next) :
    ∀ reason, next.ended = some reason → EndedBy next reason := by
  -- A step that does not end the process leaves `ended` as it was.
  have goes (reason : WebEnd Client) : server.ended ≠ some reason := by
    rw [alive]
    nofun
  intro reason ended
  cases moves with
  | accept | begin | internal | read | again | write => exact absurd ended (goes reason)
  | close pool worker =>
    unfold closes at ended
    split at ended <;> exact absurd ended (goes reason)
  | exit pool action moved stepped exits =>
    obtain rfl := Option.some.inj ended
    exact .scheduler server.pool action reached stepped exits
  | quit worker client n stored ntowrite serves here used =>
    obtain rfl := Option.some.inj ended
    exact .request worker client ntowrite serves (not_inRange_of_quit used)
  | fail worker client serves busy =>
    obtain rfl := Option.some.inj ended
    exact .connection worker client serves busy
  | abort awaits =>
    obtain rfl := Option.some.inj ended
    exact .accept awaits

theorem endedBy_of_reachable {traffic : WebTraffic Client} {server : WebServer scheduler Client}
    (reached : (machine scheduler traffic).Reachable server) {reason : WebEnd Client}
    (ended : server.ended = some reason) : EndedBy server reason := by
  have both : scheduler.machine.Reachable server.pool ∧
      ∀ reason, server.ended = some reason → EndedBy server reason := by
    refine reached.invariant
      (fun server => scheduler.machine.Reachable server.pool ∧
        ∀ reason, server.ended = some reason → EndedBy server reason)
      ⟨.start, nofun⟩ fun current action next before taken => ?_
    obtain ⟨alive, moves, onward⟩ := moves_of_step before.1 taken
    exact ⟨onward, endedBy_of_moves before.1 alive moves⟩
  exact both.2 reason ended

/-- A session in progress can go on. -/
theorem child_enabled {traffic : WebTraffic Client} {server : WebServer scheduler Client}
    (alive : server.ended = none) {worker : Worker} {client : Client}
    (serves : server.clientOf worker = some client) (busy : server.child worker ≠ .returned) :
    ∃ count next, (machine scheduler traffic).step server (.child worker count) = some next := by
  cases here : server.child worker with
  | returned => exact absurd here busy
  | readline n stored =>
    refine ⟨0, server.readStep traffic worker client n stored, ?_⟩
    simp only [machine, step, alive, if_true, childStep, serves, here]
  | writen rest =>
    cases rest with
    | nil =>
      refine ⟨0, { server with child := Function.update server.child worker (.readline 1 []) }, ?_⟩
      simp only [machine, step, alive, if_true, childStep, serves, here]
    | cons byte rest =>
      have within : 0 < 1 ∧ 1 ≤ (byte :: rest).length := ⟨Nat.one_pos, Nat.succ_pos rest.length⟩
      simp only [machine, step, alive, if_true, childStep, serves, here]
      exact ⟨1, _, if_pos within⟩

/-! ### What a client is sent -/

/-- Every client is sent the answer to its own stream, and nothing else, and as long as the process
goes on so does every session. If the process ends, it ends in one of these ways: on a request out
of range in the stream of a client that is being served, on a failure in the connection of such a
client, in `Accept`, or as the scheduler does. A stream of valid requests makes `web_child` quit
never. -/
structure Isolated (traffic : WebTraffic Client) (Exited : scheduler.State → Prop)
    (server : WebServer scheduler Client) : Prop where
  sent : ∀ client, server.sent client <+: traffic.answer client
  whole : ∀ client, server.closed client = true → server.sent client = traffic.answer client
  goes : server.ended = none → ∀ worker client, server.clientOf worker = some client →
    server.child worker ≠ .returned →
      ∃ count next, (machine scheduler traffic).step server (.child worker count) = some next
  ends : ∀ reason, server.ended = some reason →
    match reason with
    | .request client ntowrite => (∃ worker, server.clientOf worker = some client) ∧
        (script (traffic.stream client)).quit = some ntowrite ∧ ¬ InRange ntowrite
    | .connection client =>
        ∃ worker, server.clientOf worker = some client ∧ server.child worker ≠ .returned
    | .accept => scheduler.awaits server.pool = true
    | .scheduler => Exited server.pool
  valid : ∀ client numerals, ValidRequests numerals →
    traffic.stream client = numerals.flatMap Numeral.line →
    traffic.answer client =
        answer (traffic.result client) (numerals.map fun numeral => numeral.value.toNat) ∧
      ∀ ntowrite, server.ended ≠ some (.request client ntowrite)

omit [DecidableEq Client] in
theorem Answering.sent_prefix {traffic : WebTraffic Client} {server : WebServer scheduler Client}
    (answering : Answering traffic server) (client : Client) :
    server.sent client <+: traffic.answer client := by
  by_cases served : ∃ worker, server.clientOf worker = some client
  · obtain ⟨worker, serves⟩ := served
    exact ⟨_, (answering.serving worker client serves).answer⟩
  · cases closed : server.closed client with
    | true => rw [answering.closed client closed]
    | false =>
      rw [(answering.waiting client (not_exists.mp served) closed).2]
      exact List.nil_prefix

/-- The states in which the scheduler leaves the process after its exits. -/
def ExitsTo (scheduler : Scheduler Worker Nat) (Exited : scheduler.State → Prop) : Prop :=
  ∀ state action next, scheduler.machine.Reachable state →
    scheduler.machine.step state action = some next → scheduler.event state action = .exit →
    Exited next

theorem isolated_of_reachable {traffic : WebTraffic Client} {Exited : scheduler.State → Prop}
    (exits : ExitsTo scheduler Exited) {server : WebServer scheduler Client}
    (reached : (machine scheduler traffic).Reachable server) :
    Isolated traffic Exited server := by
  have answering := answering_of_reachable reached
  refine ⟨answering.sent_prefix, answering.closed,
    fun alive _ _ serves busy => child_enabled alive serves busy, fun reason ended => ?_,
    fun client numerals valid lines => ?_⟩
  · cases endedBy_of_reachable reached ended with
    | request worker client ntowrite serves outside =>
      exact ⟨⟨worker, serves⟩, answering.quit client ntowrite ended, outside⟩
    | connection worker client serves busy => exact ⟨worker, serves, busy⟩
    | accept awaits => exact awaits
    | scheduler before action reached stepped exit =>
      exact exits before action _ reached stepped exit
  · have summary := script_of_valid valid
    refine ⟨by rw [WebTraffic.answer, lines, summary], fun ntowrite ended => ?_⟩
    have quit := answering.quit client ntowrite ended
    rw [lines, summary] at quit
    cases quit

/-- In any two runs of the servers of one scheduler, a client with the same stream is sent the
same bytes, as far as the runs go, whatever the other clients do; if the arrays hold different
bytes, then at least the same number of them. -/
def Isolates (scheduler : Scheduler Worker Nat) (Exited : scheduler.State → Prop) (Client : Type)
    [DecidableEq Client] : Prop :=
  ∀ (first second : WebTraffic Client) (server other : WebServer scheduler Client),
    (machine scheduler first).Reachable server → (machine scheduler second).Reachable other →
    Isolated first Exited server ∧
    ∀ client, first.stream client = second.stream client →
      (first.result client = second.result client →
        server.sent client <+: other.sent client ∨ other.sent client <+: server.sent client) ∧
      (server.closed client = true → other.closed client = true →
        (server.sent client).length = (other.sent client).length ∧
        (first.result client = second.result client → server.sent client = other.sent client))

theorem isolates {scheduler : Scheduler Worker Nat} {Exited : scheduler.State → Prop}
    (exits : ExitsTo scheduler Exited) : Isolates scheduler Exited Client := by
  intro first second server other reached reachedOther
  have here := isolated_of_reachable exits reached
  have there := isolated_of_reachable exits reachedOther
  refine ⟨here, fun client sameStream => ⟨fun sameResult => ?_, fun closed closedOther => ?_⟩⟩
  · have sameAnswer : first.answer client = second.answer client := by
      rw [WebTraffic.answer, WebTraffic.answer, sameStream, sameResult]
    have initial := here.sent client
    rw [sameAnswer] at initial
    exact List.prefix_or_prefix_of_prefix initial (there.sent client)
  · rw [here.whole client closed, there.whole client closedOther, WebTraffic.answer,
      WebTraffic.answer, sameStream, length_answer, length_answer]
    exact ⟨rfl, fun sameResult => by rw [sameResult]⟩

end WebServer

/-! ### How the pools exit -/

/-- The user-scheduled pool has ended in `err_quit` with one slot of its ring free and another
descriptor to put, or elsewhere. -/
def UserPool.Exited {workers : Nat} (pool : UserPool workers) : Prop :=
  pool.status = .left ∨
    pool.status = .overflow ∧ pool.waiting.length = maxNCli - 1 ∧
      ∃ connfd, pool.acceptor = .holding connfd

/-- The kernel-scheduled pool has ended. -/
def KernelPool.Exited {workers : Nat} (pool : KernelPool workers) : Prop := pool.running = false

open Custody WebServer

theorem UserPool.exitsTo {workers : Nat} {kernel : Finset Nat → Nat → Bool} (fresh : Fresh kernel) :
    ExitsTo (UserPool.scheduler workers fresh) UserPool.Exited := by
  intro pool action next reached stepped exits
  cases action with
  | put woken =>
    have full : Ring.advance maxNCli pool.iput = pool.iget := by
      by_contra room
      exact absurd (exits.symm.trans (if_neg room)) nofun
    obtain ⟨overflow, same, holding⟩ := UserPool.put_full stepped full
    have most := (UserPool.putExact_of_step reached stepped).quits.mp overflow
    exact Or.inr ⟨overflow, same ▸ most, holding⟩
  | exit =>
    obtain ⟨-, left⟩ := Option.ite_none_right_eq_some.mp stepped
    exact Or.inl (Option.some.inj left ▸ rfl)
  | accept | lock | wakeup | count | close => cases exits

theorem KernelPool.exitsTo {workers : Nat} {kernel : Finset Nat → Nat → Bool}
    (fresh : Fresh kernel) : ExitsTo (KernelPool.scheduler workers fresh) KernelPool.Exited := by
  intro pool action next reached stepped exits
  cases action with
  | exit =>
    obtain ⟨-, left⟩ := Option.ite_none_right_eq_some.mp stepped
    exact Option.some.inj left ▸ rfl
  | lock | accept | unlock | count | close => cases exits

/-- On a kernel whose `accept` returns no open descriptor, both pre-threaded servers send every
client the answer to its own stream: in every run an initial part of it, and all of it once the
connection is closed. Two runs in which a client sends the same stream send it the same bytes, as
far as they go. The process ends on a request out of range or on a failed connection of a client
that is being served, in `Accept`, in the full ring of the user-scheduled server, or elsewhere in
the scheduler. -/
theorem clients_isolated (workers : Nat) (kernel : Finset Nat → Nat → Bool) (fresh : Fresh kernel)
    (Client : Type) [DecidableEq Client] :
    Isolates (UserPool.scheduler workers fresh) UserPool.Exited Client ∧
      Isolates (KernelPool.scheduler workers fresh) KernelPool.Exited Client :=
  ⟨isolates (UserPool.exitsTo fresh), isolates (KernelPool.exitsTo fresh)⟩

/-! ### Two clients -/

/-- The second client asks for three bytes; the first one sends the given stream. -/
def twoClients (stream : List UInt8) : WebTraffic Bool where
  stream := fun client => if client then [51, 10] else stream
  result := fun _ _ => 88

/-- The two pools, with workers to spare. -/
def userPool : Scheduler (Fin 5) Nat := UserPool.scheduler 5 fresh_unusedDescriptor

def kernelPool : Scheduler (Fin 5) Nat := KernelPool.scheduler 5 fresh_unusedDescriptor

/-- A worker gets the second client, and another one the first. -/
def userArrivals : List (WebServer.Action userPool Bool) :=
  [.schedule (.accept 4) (some true), .schedule (.put ∅) none, .schedule (.lock 0) none,
    .schedule (.count 0) none, .schedule (.accept 5) (some false), .schedule (.put ∅) none,
    .schedule (.lock 1) none, .schedule (.count 1) none]

def kernelArrivals : List (WebServer.Action kernelPool Bool) :=
  [.schedule (.lock 0) none, .schedule (.accept 0 4) (some true), .schedule (.unlock 0) none,
    .schedule (.count 0) none, .schedule (.lock 1) none, .schedule (.accept 1 5) (some false),
    .schedule (.unlock 1) none, .schedule (.count 1) none]

/-- The session of the second client, up to the given call of `Close`. -/
def wholeSession (scheduler : Scheduler (Fin 5) Nat) (close : scheduler.Action) :
    List (WebServer.Action scheduler Bool) :=
  [.child 0 0, .child 0 0, .child 0 3, .child 0 0, .child 0 0, .schedule close none]

/-- Two bytes of the first client are read. -/
def firstLine (scheduler : Scheduler (Fin 5) Nat) : List (WebServer.Action scheduler Bool) :=
  [.child 1 0, .child 1 0]

/-- The second client is served, and then the first one's line is read: a request for one byte in
one run and for none in the other. -/
def kernelRun : List (WebServer.Action kernelPool Bool) :=
  kernelArrivals ++ wholeSession kernelPool (KernelPool.Action.close 0) ++ firstLine kernelPool

theorem clients_isolated_runs :
    ∃ server other, (machine kernelPool (twoClients [49, 10])).Reachable server ∧
      (machine kernelPool (twoClients [48, 10])).Reachable other ∧
      other.ended = some (.request false 0) ∧ server.sent true = other.sent true := by
  have reached : (machine kernelPool (twoClients [49, 10])).Reachable
      ((machine kernelPool (twoClients [49, 10])).after kernelRun) :=
    Machine.reachable_after _ (by decide)
  have reachedOther : (machine kernelPool (twoClients [48, 10])).Reachable
      ((machine kernelPool (twoClients [48, 10])).after kernelRun) :=
    Machine.reachable_after _ (by decide)
  refine ⟨_, _, reached, reachedOther, by decide, ?_⟩
  have isolates := (clients_isolated 5 unusedDescriptor fresh_unusedDescriptor Bool).2
  have same := (isolates _ _ _ _ reached reachedOther).2 true rfl
  exact (same.2 (by decide) (by decide)).2 rfl

/-- After both clients have arrived, the first one's line is read, a request for one byte, and both
sessions go on to their end. -/
def validRun (scheduler : Scheduler (Fin 5) Nat) (arrivals : List (WebServer.Action scheduler Bool))
    (close : Fin 5 → scheduler.Action) : List (WebServer.Action scheduler Bool) :=
  arrivals ++ firstLine scheduler ++ wholeSession scheduler (close 0) ++
    [.child 1 1, .child 1 0, .child 1 0, .schedule (close 1) none]

/-- The first client's request for no byte ends the process while the second one's session is in
progress and nothing was sent to it; if it asks for one byte instead, the second one is sent the
three bytes it has asked for. -/
theorem request_ends_other_session :
    (∃ server, (machine userPool (twoClients [48, 10])).Reachable server ∧
      server.ended = some (.request false 0) ∧ server.clientOf 0 = some true ∧
      server.sent true = [] ∧
      ∀ action, (machine userPool (twoClients [48, 10])).step server action = none) ∧
    (∃ server, (machine kernelPool (twoClients [48, 10])).Reachable server ∧
      server.ended = some (.request false 0) ∧ server.clientOf 0 = some true ∧
      server.sent true = [] ∧
      ∀ action, (machine kernelPool (twoClients [48, 10])).step server action = none) ∧
    (∃ server, (machine userPool (twoClients [49, 10])).Reachable server ∧
      server.closed false = true ∧ server.closed true = true ∧
      server.sent true = [88, 88, 88]) ∧
    ∃ server, (machine kernelPool (twoClients [49, 10])).Reachable server ∧
      server.closed false = true ∧ server.closed true = true ∧
      server.sent true = [88, 88, 88] := by
  refine ⟨?_, ?_, ?_, ?_⟩
  · exact ⟨_, Machine.reachable_after (userArrivals ++ firstLine userPool) (by decide),
      by decide, by decide, by decide, fun _ => rfl⟩
  · exact ⟨_, Machine.reachable_after (kernelArrivals ++ firstLine kernelPool) (by decide),
      by decide, by decide, by decide, fun _ => rfl⟩
  · exact ⟨_, Machine.reachable_after (validRun userPool userArrivals UserPool.Action.close)
      (by decide), by decide, by decide, by decide⟩
  · exact ⟨_, Machine.reachable_after (validRun kernelPool kernelArrivals KernelPool.Action.close)
      (by decide), by decide, by decide, by decide⟩

end SocketC
