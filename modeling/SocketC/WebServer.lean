/-
This file puts `web_child` to work in a pool. The server is any scheduler of
connected descriptors with one `web_child` in each worker: a descriptor refers to the
connection of some client from its `Accept` to its `Close`, the worker that serves it
reads that client's stream and writes to that client, and the worker may call `Close`
only when its `web_child` has returned.

A client is one connection. The bytes it will ever send, and what the array `result`
holds in the call of `web_child` that serves it, are parameters; when they arrive is
up to the run. Any call in `web_child` may fail, which ends the process in a wrapper;
so does a request out of range, in `err_quit`. `Accept` may fail too, as it does for a
client that aborts its connection too early: the retry in the wrapper is commented out,
so this ends the process. And so does whatever ends the scheduler.
-/

import SocketC.Desk
import SocketC.WebRequests

namespace SocketC

/-! ### The state -/

/-- What the clients send, and what the arrays hold. -/
structure WebTraffic (Client : Type) where
  stream : Client → List UInt8
  result : Client → Nat → UInt8

/-- The answer to a client's requests. -/
def WebTraffic.answer {Client : Type} (traffic : WebTraffic Client) (client : Client) :
    List UInt8 :=
  SocketC.answer (traffic.result client) (script (traffic.stream client)).counts

/-- How the process ends. -/
inductive WebEnd (Client : Type) where
  /-- In the `err_quit` of `web_child`, on this client's request. -/
  | request (client : Client) (ntowrite : Int)
  /-- In a wrapper around a receive or a send on this client's connection. -/
  | connection (client : Client)
  /-- In `Accept`. -/
  | accept
  /-- Elsewhere: in a full ring, in another wrapper, or in `sig_int`. -/
  | scheduler
  deriving DecidableEq

/-- The server process. `owner` says whose connection an open descriptor refers to, `known` and
`closed` which connections were accepted and closed, and `sent` what each client was sent. -/
structure WebServer {Worker : Type} [DecidableEq Worker] (scheduler : Scheduler Worker Nat)
    (Client : Type) where
  pool : scheduler.State
  owner : Nat → Option Client
  known : Client → Bool
  closed : Client → Bool
  unread : Client → List UInt8
  sent : Client → List UInt8
  child : Worker → WebChild
  ended : Option (WebEnd Client)

namespace WebServer

variable {Worker : Type} [DecidableEq Worker] {scheduler : Scheduler Worker Nat} {Client : Type}

/-- The pool before its first action; every client has its whole stream to send. -/
def start (scheduler : Scheduler Worker Nat) (traffic : WebTraffic Client) :
    WebServer scheduler Client where
  pool := scheduler.machine.start
  owner := fun _ => none
  known := fun _ => false
  closed := fun _ => false
  unread := traffic.stream
  sent := fun _ => []
  child := fun _ => .returned
  ended := none

/-- The descriptor that a worker serves. -/
def serving (server : WebServer scheduler Client) (worker : Worker) : Option Nat :=
  (scheduler.view server.pool).serving worker

/-- The client whose connection a worker serves. -/
def clientOf (server : WebServer scheduler Client) (worker : Worker) : Option Client :=
  (server.serving worker).bind server.owner

/-! ### The actions -/

variable [DecidableEq Client]

/-- `Accept` has returned a client's connection. -/
def accepts (server : WebServer scheduler Client) (pool : scheduler.State) (connfd : Nat)
    (client : Client) : WebServer scheduler Client :=
  { server with
    pool := pool
    owner := Function.update server.owner connfd (some client)
    known := Function.update server.known client true }

/-- A worker calls `Close`. -/
def closes (server : WebServer scheduler Client) (pool : scheduler.State) (worker : Worker) :
    WebServer scheduler Client :=
  match server.serving worker with
  | none => { server with pool := pool }
  | some connfd =>
    { server with
      pool := pool
      owner := Function.update server.owner connfd none
      closed := match server.owner connfd with
        | none => server.closed
        | some client => Function.update server.closed client true }

/-- A step of the scheduler; `client` is the one whose connection it accepts, if it does. -/
def schedule (server : WebServer scheduler Client) (action : scheduler.Action)
    (client : Option Client) : Option (WebServer scheduler Client) :=
  match scheduler.machine.step server.pool action with
  | none => none
  | some pool =>
    match scheduler.event server.pool action, client with
    | .accept _, none => none
    | .accept connfd, some client =>
      if server.known client then none else some (server.accepts pool connfd client)
    | .begin worker, _ =>
      some { server with
        pool := pool
        child := Function.update server.child worker (.readline 1 []) }
    | .close worker, _ =>
      if server.child worker = .returned then some (server.closes pool worker) else none
    | .internal, _ => some { server with pool := pool }
    | .exit, _ => some { server with pool := pool, ended := some .scheduler }

/-- A turn of `Readline` in a worker's `web_child`, and what follows from it. -/
def readStep (traffic : WebTraffic Client) (server : WebServer scheduler Client) (worker : Worker)
    (client : Client) (n : Nat) (stored : List UInt8) : WebServer scheduler Client :=
  match webChildLine (readline maxLine n stored (recvOf (server.unread client))) with
  | .quit ntowrite => { server with ended := some (.request client ntowrite) }
  | use =>
    { server with
      unread := Function.update server.unread client (server.unread client).tail
      child := Function.update server.child worker (use.place (traffic.result client)) }

/-- The next step of a worker's `web_child`; in `Writen`, `count` bytes go out. -/
def childStep (traffic : WebTraffic Client) (server : WebServer scheduler Client) (worker : Worker)
    (count : Nat) : Option (WebServer scheduler Client) :=
  match server.clientOf worker with
  | none => none
  | some client =>
    match server.child worker with
    | .readline n stored => some (server.readStep traffic worker client n stored)
    | .writen [] =>
      some { server with child := Function.update server.child worker (.readline 1 []) }
    | .writen rest =>
      if 0 < count ∧ count ≤ rest.length then
        some { server with
          sent := Function.update server.sent client (server.sent client ++ rest.take count)
          child := Function.update server.child worker (.writen (rest.drop count)) }
      else none
    | .returned => none

/-- The receive or the send that a worker's `web_child` is in fails. -/
def failStep (server : WebServer scheduler Client) (worker : Worker) :
    Option (WebServer scheduler Client) :=
  match server.clientOf worker with
  | none => none
  | some client =>
    if server.child worker = .returned then none
    else some { server with ended := some (.connection client) }

/-- `accept` fails in a thread that is in `Accept`. -/
def abortStep (server : WebServer scheduler Client) : Option (WebServer scheduler Client) :=
  if scheduler.awaits server.pool then some { server with ended := some .accept } else none

/-- What may happen next: a step of the scheduler, a step of the `web_child` of a worker, the
failure of the call that it is in, or a failure of `accept`. -/
inductive Action (scheduler : Scheduler Worker Nat) (Client : Type) where
  | schedule (action : scheduler.Action) (client : Option Client)
  | child (worker : Worker) (count : Nat)
  | fail (worker : Worker)
  | abort

/-- One action of a process that has not ended. -/
def step (traffic : WebTraffic Client) (server : WebServer scheduler Client)
    (action : Action scheduler Client) : Option (WebServer scheduler Client) :=
  if server.ended = none then
    match action with
    | .schedule action client => server.schedule action client
    | .child worker count => server.childStep traffic worker count
    | .fail worker => server.failStep worker
    | .abort => server.abortStep
  else none

/-- The server of a pool with the given traffic. -/
def machine (scheduler : Scheduler Worker Nat) (traffic : WebTraffic Client) :
    Machine (WebServer scheduler Client) (Action scheduler Client) where
  start := start scheduler traffic
  step := step traffic

/-! ### Everything one step can do -/

/-- The effects of a step. -/
inductive Moves (traffic : WebTraffic Client) (server : WebServer scheduler Client) :
    WebServer scheduler Client → Prop where
  | accept (pool : scheduler.State) (connfd : Nat) (client : Client)
      (moved : (scheduler.view server.pool).Moves (.accept connfd) (scheduler.view pool))
      (new : server.known client = false) : Moves traffic server (server.accepts pool connfd client)
  | begin (pool : scheduler.State) (worker : Worker)
      (moved : (scheduler.view server.pool).Moves (.begin worker) (scheduler.view pool)) :
      Moves traffic server { server with
        pool := pool
        child := Function.update server.child worker (.readline 1 []) }
  | close (pool : scheduler.State) (worker : Worker)
      (moved : (scheduler.view server.pool).Moves (.close worker) (scheduler.view pool))
      (returned : server.child worker = .returned) :
      Moves traffic server (server.closes pool worker)
  | internal (pool : scheduler.State)
      (moved : (scheduler.view server.pool).Moves .internal (scheduler.view pool)) :
      Moves traffic server { server with pool := pool }
  | exit (pool : scheduler.State) (action : scheduler.Action)
      (moved : (scheduler.view server.pool).Moves .exit (scheduler.view pool))
      (stepped : scheduler.machine.step server.pool action = some pool)
      (exits : scheduler.event server.pool action = .exit) :
      Moves traffic server { server with pool := pool, ended := some .scheduler }
  | read (worker : Worker) (client : Client) (n : Nat) (stored : List UInt8) (use : LineUse)
      (serves : server.clientOf worker = some client)
      (here : server.child worker = .readline n stored)
      (used : webChildLine (readline maxLine n stored (recvOf (server.unread client))) = use)
      (going : ∀ ntowrite, use ≠ .quit ntowrite) :
      Moves traffic server { server with
        unread := Function.update server.unread client (server.unread client).tail
        child := Function.update server.child worker (use.place (traffic.result client)) }
  | quit (worker : Worker) (client : Client) (n : Nat) (stored : List UInt8) (ntowrite : Int)
      (serves : server.clientOf worker = some client)
      (here : server.child worker = .readline n stored)
      (used : webChildLine (readline maxLine n stored (recvOf (server.unread client))) =
        .quit ntowrite) :
      Moves traffic server { server with ended := some (.request client ntowrite) }
  | again (worker : Worker) (client : Client) (serves : server.clientOf worker = some client)
      (here : server.child worker = .writen []) :
      Moves traffic server
        { server with child := Function.update server.child worker (.readline 1 []) }
  | write (worker : Worker) (client : Client) (rest : List UInt8) (count : Nat)
      (serves : server.clientOf worker = some client) (here : server.child worker = .writen rest) :
      Moves traffic server { server with
        sent := Function.update server.sent client (server.sent client ++ rest.take count)
        child := Function.update server.child worker (.writen (rest.drop count)) }
  | fail (worker : Worker) (client : Client) (serves : server.clientOf worker = some client)
      (busy : server.child worker ≠ .returned) :
      Moves traffic server { server with ended := some (.connection client) }
  | abort (awaits : scheduler.awaits server.pool = true) :
      Moves traffic server { server with ended := some .accept }

variable {traffic : WebTraffic Client}

theorem moves_of_schedule {server next : WebServer scheduler Client} {action : scheduler.Action}
    {client : Option Client} (reached : scheduler.machine.Reachable server.pool)
    (taken : server.schedule action client = some next) :
    Moves traffic server next ∧ scheduler.machine.Reachable next.pool := by
  unfold schedule at taken
  split at taken
  · cases taken
  · rename_i pool stepped
    have moved := scheduler.refines server.pool action pool reached stepped
    have onward : scheduler.machine.Reachable pool := reached.leads (.of_step action stepped)
    split at taken
    · cases taken
    · rename_i connfd client event
      rw [event] at moved
      simp only [Option.ite_none_left_eq_some, Bool.not_eq_true, Option.some.injEq] at taken
      obtain ⟨new, rfl⟩ := taken
      exact ⟨.accept pool connfd client moved new, onward⟩
    · rename_i worker event
      rw [event] at moved
      obtain rfl := Option.some.inj taken
      exact ⟨.begin pool worker moved, onward⟩
    · rename_i worker event
      rw [event] at moved
      simp only [Option.ite_none_right_eq_some, Option.some.injEq] at taken
      obtain ⟨returned, rfl⟩ := taken
      refine ⟨.close pool worker moved returned, ?_⟩
      unfold closes
      split <;> exact onward
    · rename_i event
      rw [event] at moved
      obtain rfl := Option.some.inj taken
      exact ⟨.internal pool moved, onward⟩
    · rename_i event
      rw [event] at moved
      obtain rfl := Option.some.inj taken
      exact ⟨.exit pool action moved stepped event, onward⟩

theorem moves_of_childStep {server next : WebServer scheduler Client} {worker : Worker}
    {count : Nat} (taken : server.childStep traffic worker count = some next) :
    Moves traffic server next ∧ next.pool = server.pool := by
  unfold childStep at taken
  split at taken
  · cases taken
  · rename_i client serves
    split at taken
    · rename_i n stored here
      obtain rfl := Option.some.inj taken
      simp only [readStep]
      split
      · exact ⟨.quit worker client n stored _ serves here ‹_›, rfl⟩
      · rename_i going
        exact ⟨.read worker client n stored _ serves here rfl going, rfl⟩
    · rename_i here
      obtain rfl := Option.some.inj taken
      exact ⟨.again worker client serves here, rfl⟩
    · rename_i rest nonempty here
      simp only [Option.ite_none_right_eq_some, Option.some.injEq] at taken
      obtain ⟨-, rfl⟩ := taken
      exact ⟨.write worker client rest count serves here, rfl⟩
    · cases taken

theorem moves_of_failStep {server next : WebServer scheduler Client} {worker : Worker}
    (taken : server.failStep worker = some next) :
    Moves traffic server next ∧ next.pool = server.pool := by
  unfold failStep at taken
  split at taken
  · cases taken
  · rename_i client serves
    simp only [Option.ite_none_left_eq_some, Option.some.injEq] at taken
    obtain ⟨busy, rfl⟩ := taken
    exact ⟨.fail worker client serves busy, rfl⟩

/-- Every step has one of these effects, and the pool stays reachable on its own. -/
theorem moves_of_step {server next : WebServer scheduler Client} {action : Action scheduler Client}
    (reached : scheduler.machine.Reachable server.pool)
    (taken : (machine scheduler traffic).step server action = some next) :
    server.ended = none ∧ Moves traffic server next ∧
      scheduler.machine.Reachable next.pool := by
  simp only [machine, step] at taken
  split at taken
  · rename_i alive
    refine ⟨alive, ?_⟩
    cases action with
    | schedule action client => exact moves_of_schedule reached taken
    | child worker count =>
      obtain ⟨moves, same⟩ := moves_of_childStep taken
      exact ⟨moves, same ▸ reached⟩
    | fail worker =>
      obtain ⟨moves, same⟩ := moves_of_failStep taken
      exact ⟨moves, same ▸ reached⟩
    | abort =>
      obtain ⟨awaits, aborted⟩ := Option.ite_none_right_eq_some.mp taken
      obtain rfl := Option.some.inj aborted
      exact ⟨.abort awaits, reached⟩
  · cases taken

end WebServer

end SocketC
