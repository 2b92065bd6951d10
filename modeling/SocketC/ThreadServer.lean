/-
This file models the echo server with one thread per client,
`server/threads-server.c`: the accept loop of lines 83-132 and the `doit` threads.
The accept loop stores the descriptor in a cell from `Malloc` and passes the cell
to the thread. `doit` does not read the cell: it calls `str_echo((int) arg)` and
`Close((int) arg)`, so the descriptor it works on is the low half of the cell's
address.

The descriptor table, the heap and the allocator are explicit. The descriptor that
`accept` returns, the address that `malloc` returns and what the kernel answers to
a receive on a connected socket are part of the action. A receive, a send or a
close on a number that is not open (or a receive or send on one that is no
connection) fails, and the wrapper ends the process.
-/

import SocketC.EchoLoop
import SocketC.Transition

namespace SocketC

/-- What an open descriptor refers to: the connection of the given `Accept`, or anything else the
process has open, such as the listening socket. -/
inductive OpenFile where
  | connection (index : Nat)
  | other
  deriving DecidableEq

/-- Where the accept loop stands. -/
inductive AcceptLoop where
  /-- Line 93: about to call `Accept`. -/
  | accept
  /-- Line 111: about to call `Malloc`. -/
  | malloc
  /-- Line 112: about to store `connfd` in the cell. -/
  | store
  /-- Line 113: about to create the thread. -/
  | create
  deriving DecidableEq

/-- Where a `doit` thread stands. -/
inductive Doit where
  /-- Line 139: about to detach itself. -/
  | detach
  /-- Line 156: about to receive. -/
  | recv
  /-- Line 160: about to send what it received. -/
  | send
  /-- Line 141: about to close. -/
  | close
  | ended
  deriving DecidableEq

/-- The calls that `doit` makes on its descriptor. -/
inductive SocketOp where
  | recv
  | send
  | close
  deriving DecidableEq

/-- A call that was made: by which thread, on which number, and what the number referred to. -/
structure SocketCall where
  thread : Nat
  op : SocketOp
  fd : Int
  target : Option OpenFile
  deriving DecidableEq

/-- The conversion `(int) arg` of a pointer: its low 32 bits, as a signed number. -/
def intOfPointer (arg : BitVec 64) : Int := (arg.setWidth 32).toInt

/-- The server process. Threads are numbered in the order of their creation; `accepted` is the
history of the values `Accept` returned, and `calls` that of the threads' socket calls. -/
structure ThreadServer where
  main : AcceptLoop
  connfd : Int
  iptr : BitVec 64
  heap : BitVec 64 → Option Int
  table : Int → Option OpenFile
  threads : Nat
  arg : Nat → BitVec 64
  doit : Nat → Doit
  running : Bool
  accepted : List Int
  calls : List SocketCall

namespace ThreadServer

/-- The state at line 83, with the listening socket and whatever else is open. -/
def start (others : Finset Int) : ThreadServer where
  main := .accept
  connfd := 0
  iptr := 0
  heap := fun _ => none
  table := fun fd => if fd ∈ others then some .other else none
  threads := 0
  arg := fun _ => 0
  doit := fun _ => .detach
  running := true
  accepted := []
  calls := []

/-- The number a thread works on. -/
def fd (server : ThreadServer) (thread : Nat) : Int := intOfPointer (server.arg thread)

/-- The call that a thread makes now. -/
def callOf (server : ThreadServer) (thread : Nat) (op : SocketOp) : SocketCall :=
  ⟨thread, op, server.fd thread, server.table (server.fd thread)⟩

/-- A thread makes a call, and goes on at another place. -/
def call (server : ThreadServer) (thread : Nat) (op : SocketOp) (place : Doit) : ThreadServer :=
  { server with
    doit := Function.update server.doit thread place
    calls := server.calls ++ [server.callOf thread op] }

/-- A thread makes a call that fails, and `err_sys` ends the process. -/
def failedCall (server : ThreadServer) (thread : Nat) (op : SocketOp) : ThreadServer :=
  { server with calls := server.calls ++ [server.callOf thread op], running := false }

/-! ### The actions -/

/-- The receive of `str_echo`: on a connection the kernel answers, elsewhere it is an error. -/
def recvStep (server : ThreadServer) (thread : Nat) (answer : Received) : ThreadServer :=
  let received := match server.table (server.fd thread) with
    | some (.connection _) => answer
    | _ => .error
  match strEcho .fork received with
  | .send _ => server.call thread .recv .send
  | .receive => server.call thread .recv .recv
  | .leave => server.call thread .recv .close
  | .errSys => server.failedCall thread .recv

/-- The send of `str_echo`, which `done` says the kernel accepts in full. -/
def sendStep (server : ThreadServer) (thread : Nat) (done : Bool) : ThreadServer :=
  match server.table (server.fd thread), done with
  | some (.connection _), true => server.call thread .send .recv
  | _, _ => server.failedCall thread .send

/-- The close of `doit`. -/
def closeStep (server : ThreadServer) (thread : Nat) : ThreadServer :=
  match server.table (server.fd thread) with
  | some _ =>
    { server.call thread .close .ended with
      table := Function.update server.table (server.fd thread) none }
  | none => server.failedCall thread .close

/-- The next step of a `doit` thread. -/
def doitStep (server : ThreadServer) (thread : Nat) (answer : Received) (done : Bool) :
    Option ThreadServer :=
  if thread < server.threads then
    match server.doit thread with
    | .detach => some { server with doit := Function.update server.doit thread .recv }
    | .recv => some (server.recvStep thread answer)
    | .send => some (server.sendStep thread done)
    | .close => some (server.closeStep thread)
    | .ended => none
  else none

/-- What may happen next: a step of the accept loop, with the value the kernel or the allocator
returns, a step of a thread, or the end of the process in a wrapper. -/
inductive Action where
  | accept (fd : Int)
  | malloc (address : BitVec 64) (contents : Int)
  | store
  | create
  | doit (thread : Nat) (answer : Received) (done : Bool)
  | fail

/-- One action of a running process. -/
def step (server : ThreadServer) (action : Action) : Option ThreadServer :=
  if server.running then
    match action with
    | .accept fd =>
      if server.main = .accept ∧ 0 ≤ fd ∧ server.table fd = none then
        some { server with
          main := .malloc
          connfd := fd
          table := Function.update server.table fd
            (some (.connection server.accepted.length))
          accepted := server.accepted ++ [fd] }
      else none
    | .malloc address contents =>
      if server.main = .malloc ∧ address ≠ 0 ∧ server.heap address = none then
        some { server with
          main := .store
          iptr := address
          heap := Function.update server.heap address (some contents) }
      else none
    | .store =>
      if server.main = .store then
        some { server with
          main := .create
          heap := Function.update server.heap server.iptr (some server.connfd) }
      else none
    | .create =>
      if server.main = .create then
        some { server with
          main := .accept
          threads := server.threads + 1
          arg := Function.update server.arg server.threads server.iptr
          doit := Function.update server.doit server.threads .detach }
      else none
    | .doit thread answer done => server.doitStep thread answer done
    | .fail => some { server with running := false }
  else none

/-- The server, started with some descriptors open. -/
def machine (others : Finset Int) : Machine ThreadServer Action where
  start := start others
  step := step

/-! ### Everything one step can do -/

/-- The effects of a step. -/
inductive Moves (server : ThreadServer) : Action → ThreadServer → Prop where
  | accept (fd : Int) (here : server.main = .accept) (fresh : server.table fd = none) :
      Moves server (.accept fd) { server with
        main := .malloc
        connfd := fd
        table := Function.update server.table fd (some (.connection server.accepted.length))
        accepted := server.accepted ++ [fd] }
  | malloc (address : BitVec 64) (contents : Int) (here : server.main = .malloc)
      (fresh : server.heap address = none) :
      Moves server (.malloc address contents) { server with
        main := .store
        iptr := address
        heap := Function.update server.heap address (some contents) }
  | store (here : server.main = .store) :
      Moves server .store { server with
        main := .create
        heap := Function.update server.heap server.iptr (some server.connfd) }
  | create (here : server.main = .create) :
      Moves server .create { server with
        main := .accept
        threads := server.threads + 1
        arg := Function.update server.arg server.threads server.iptr
        doit := Function.update server.doit server.threads .detach }
  | detach (thread : Nat) {answer : Received} {done : Bool} (created : thread < server.threads)
      (here : server.doit thread = .detach) :
      Moves server (.doit thread answer done)
        { server with doit := Function.update server.doit thread .recv }
  | call (thread : Nat) {answer : Received} {done : Bool} (op : SocketOp) (place : Doit)
      (created : thread < server.threads) (live : server.doit thread ≠ .ended)
      (going : place ≠ .ended) (other : op ≠ .close) :
      Moves server (.doit thread answer done) (server.call thread op place)
  | close (thread : Nat) {answer : Received} {done : Bool} (created : thread < server.threads)
      (here : server.doit thread = .close) :
      Moves server (.doit thread answer done) { server.call thread .close .ended with
        table := Function.update server.table (server.fd thread) none }
  | failedCall (thread : Nat) {answer : Received} {done : Bool} (op : SocketOp)
      (created : thread < server.threads) (live : server.doit thread ≠ .ended)
      (unopened : op = .close → server.table (server.fd thread) = none) :
      Moves server (.doit thread answer done) (server.failedCall thread op)
  | fail : Moves server .fail { server with running := false }

theorem moves_of_recvStep {server : ThreadServer} {thread : Nat} (answer : Received) {done : Bool}
    (created : thread < server.threads) (here : server.doit thread = .recv) :
    Moves server (.doit thread answer done) (server.recvStep thread answer) := by
  have live : server.doit thread ≠ .ended := by rw [here]; nofun
  unfold recvStep
  simp only
  split
  · exact .call thread .recv .send created live nofun nofun
  · exact .call thread .recv .recv created live nofun nofun
  · exact .call thread .recv .close created live nofun nofun
  · exact .failedCall thread .recv created live nofun

theorem moves_of_sendStep {server : ThreadServer} {thread : Nat} {answer : Received} (done : Bool)
    (created : thread < server.threads) (here : server.doit thread = .send) :
    Moves server (.doit thread answer done) (server.sendStep thread done) := by
  have live : server.doit thread ≠ .ended := by rw [here]; nofun
  unfold sendStep
  split
  · exact .call thread .send .recv created live nofun nofun
  · exact .failedCall thread .send created live nofun

theorem moves_of_closeStep {server : ThreadServer} {thread : Nat} {answer : Received} {done : Bool}
    (created : thread < server.threads) (here : server.doit thread = .close) :
    Moves server (.doit thread answer done) (server.closeStep thread) := by
  have live : server.doit thread ≠ .ended := by rw [here]; nofun
  unfold closeStep
  split
  · exact .close thread created here
  · rename_i unopened
    exact .failedCall thread .close created live fun _ => unopened

theorem moves_of_step {others : Finset Int} {server next : ThreadServer} {action : Action}
    (taken : (machine others).step server action = some next) : Moves server action next := by
  change step server action = some next at taken
  simp only [step, Option.ite_none_right_eq_some] at taken
  obtain ⟨-, taken⟩ := taken
  cases action with
  | accept fd =>
    simp only [Option.ite_none_right_eq_some, Option.some.injEq] at taken
    exact taken.2 ▸ .accept fd taken.1.1 taken.1.2.2
  | malloc address contents =>
    simp only [Option.ite_none_right_eq_some, Option.some.injEq] at taken
    exact taken.2 ▸ .malloc address contents taken.1.1 taken.1.2.2
  | store =>
    simp only [Option.ite_none_right_eq_some, Option.some.injEq] at taken
    exact taken.2 ▸ .store taken.1
  | create =>
    simp only [Option.ite_none_right_eq_some, Option.some.injEq] at taken
    exact taken.2 ▸ .create taken.1
  | doit thread answer done =>
    simp only [doitStep, Option.ite_none_right_eq_some] at taken
    obtain ⟨created, taken⟩ := taken
    split at taken
    · exact Option.some.inj taken ▸ .detach thread created ‹_›
    · exact Option.some.inj taken ▸ moves_of_recvStep answer created ‹_›
    · exact Option.some.inj taken ▸ moves_of_sendStep done created ‹_›
    · exact Option.some.inj taken ▸ moves_of_closeStep created ‹_›
    · nomatch taken
  | fail => exact Option.some.inj taken ▸ .fail

end ThreadServer

end SocketC
