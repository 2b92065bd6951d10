/-
This file models the echo server with one process per client,
`server/fork-server.c`: the accept loop of lines 95-123 in the parent, the children
that it forks, and the signal handler `sig_chld`, which interrupts the parent.

Every process has its own descriptor table and its own copy of `connfd`; a fork
copies both. The descriptor that `accept` returns, what the kernel answers to a
receive and to a send, and which zombie `waitpid` finds are part of the action. A
call on a number that is not open fails, and the wrapper ends the process that made
it; a process may also be killed at any point. An exit closes every descriptor of
the process and, in a child, leaves a zombie and sets the pending bit of `SIGCHLD`;
the children of a parent that has ended are adopted and waited for by another
process.
-/

import SocketC.ThreadServer

namespace SocketC

/-! ### The state -/

/-- Where the parent stands. -/
inductive ForkParent where
  /-- Line 104: about to call `Accept`. -/
  | accept
  /-- Line 117: about to call `Fork`. -/
  | fork
  /-- Line 122: about to close `connfd`. -/
  | close
  | ended
  deriving DecidableEq

/-- Where a child stands. -/
inductive ForkChild where
  /-- Line 118: about to close `listenfd`. -/
  | closeListen
  /-- Line 137: about to receive. -/
  | recv
  /-- Line 141: about to send these bytes. -/
  | send (bytes : List UInt8)
  /-- Line 120: about to exit. -/
  | exit
  /-- Exited, and not waited for yet. -/
  | zombie
  | reaped
  deriving DecidableEq

/-- Where `sig_chld` stands. -/
inductive SigChld where
  /-- It is not running. -/
  | idle
  /-- Line 163: about to call `waitpid`. -/
  | waitpid
  /-- Line 164: about to log the child it has waited for. -/
  | log (child : Nat)
  /-- Line 165: `waitpid` has found no zombie. -/
  | leave
  deriving DecidableEq

/-- The child's process is still there. -/
def ForkChild.Live : ForkChild → Prop
  | .zombie | .reaped => False
  | _ => True

/-- The table of a process: what its open descriptors refer to. -/
abbrev DescriptorTable := Int → Option OpenFile

/-- The processes of the server. Connections are numbered in the order of the calls of `Accept`,
and children in the order of the calls of `Fork`; `closed` is the history of what the parent
closed, and `pending` the pending bit of `SIGCHLD`. -/
structure ForkServer where
  listenfd : Int
  parent : ForkParent
  connfd : Int
  table : DescriptorTable
  accepted : Nat
  closed : List OpenFile
  forked : Nat
  child : Nat → ForkChild
  childConnfd : Nat → Int
  childTable : Nat → DescriptorTable
  pending : Bool
  handler : SigChld

namespace ForkServer

/-- The parent at line 95, with the listening socket and whatever else is open. -/
def start (listenfd : Int) (others : Finset Int) : ForkServer where
  listenfd := listenfd
  parent := .accept
  connfd := 0
  table := fun fd => if fd = listenfd ∨ fd ∈ others then some .other else none
  accepted := 0
  closed := []
  forked := 0
  child := fun _ => .closeListen
  childConnfd := fun _ => 0
  childTable := fun _ _ => none
  pending := false
  handler := .idle

/-! ### The actions -/

/-- A child goes on at another place. -/
def childGoes (server : ForkServer) (child : Nat) (place : ForkChild) : ForkServer :=
  { server with child := Function.update server.child child place }

/-- A child exits. -/
def childExits (server : ForkServer) (child : Nat) : ForkServer :=
  if server.parent = .ended then
    { server.childGoes child .reaped with
      childTable := Function.update server.childTable child fun _ => none }
  else
    { server.childGoes child .zombie with
      childTable := Function.update server.childTable child fun _ => none
      pending := true }

/-- The parent ends. -/
def parentEnds (server : ForkServer) : ForkServer :=
  { server with
    parent := .ended
    table := fun _ => none
    child := fun child => if server.child child = .zombie then .reaped else server.child child
    pending := false
    handler := .idle }

/-- Line 122: the parent closes `connfd`. -/
def closeStep (server : ForkServer) : ForkServer :=
  match server.table server.connfd with
  | some file =>
    { server with
      parent := .accept
      table := Function.update server.table server.connfd none
      closed := server.closed ++ [file] }
  | none => server.parentEnds

/-- Line 118: a child closes `listenfd`. -/
def closeListenStep (server : ForkServer) (child : Nat) : ForkServer :=
  match server.childTable child server.listenfd with
  | some _ =>
    { server.childGoes child .recv with
      childTable := Function.update server.childTable child
        (Function.update (server.childTable child) server.listenfd none) }
  | none => server.childExits child

/-- The receive of `str_echo`: on a connection the kernel answers, elsewhere it is an error. -/
def recvStep (server : ForkServer) (child : Nat) (answer : Received) : ForkServer :=
  let received := match server.childTable child (server.childConnfd child) with
    | some (.connection _) => answer
    | _ => .error
  match strEcho .fork received with
  | .send bytes => server.childGoes child (.send bytes)
  | .receive => server.childGoes child .recv
  | .leave => server.childGoes child .exit
  | .errSys => server.childExits child

/-- The send of `str_echo`, which `done` says the kernel accepts in full. -/
def sendStep (server : ForkServer) (child : Nat) (done : Bool) : ForkServer :=
  match server.childTable child (server.childConnfd child), done with
  | some (.connection _), true => server.childGoes child .recv
  | _, _ => server.childExits child

/-- The next step of a child. -/
def childStep (server : ForkServer) (child : Nat) (answer : Received) (done : Bool) :
    Option ForkServer :=
  if child < server.forked then
    match server.child child with
    | .closeListen => some (server.closeListenStep child)
    | .recv => some (server.recvStep child answer)
    | .send _ => some (server.sendStep child done)
    | .exit => some (server.childExits child)
    | .zombie | .reaped => none
  else none

/-- Some child is a zombie. -/
def HasZombie (server : ForkServer) : Prop :=
  ∃ child, child < server.forked ∧ server.child child = .zombie

instance (server : ForkServer) : Decidable server.HasZombie :=
  decidable_of_iff (∃ child < server.forked, server.child child = .zombie) Iff.rfl

/-- The next step of the handler; `found` is what `waitpid` returns. -/
def handlerStep (server : ForkServer) (found : Option Nat) : Option ForkServer :=
  match server.handler, found with
  | .idle, _ =>
    if server.pending then some { server with pending := false, handler := .waitpid } else none
  | .waitpid, some child =>
    if child < server.forked ∧ server.child child = .zombie then
      some { server.childGoes child .reaped with handler := .log child }
    else none
  | .waitpid, none => if server.HasZombie then none else some { server with handler := .leave }
  | .log _, _ => some { server with handler := .waitpid }
  | .leave, _ => some { server with handler := .idle }

/-- What may happen next: a step of the parent, with the value the kernel returns, a step of a
child, the end of a child or of the parent in a wrapper or by a signal, or a step of the handler. -/
inductive Action where
  | accept (fd : Int)
  | fork
  | close
  | failParent
  | child (child : Nat) (answer : Received) (done : Bool)
  | failChild (child : Nat)
  | handler (found : Option Nat)

instance (place : ForkChild) : Decidable place.Live :=
  match place with
  | .zombie | .reaped => .isFalse id
  | .closeListen | .recv | .send _ | .exit => .isTrue trivial

/-- One action. The parent's own code stands still while the handler runs. -/
def step (server : ForkServer) (action : Action) : Option ForkServer :=
  match action with
  | .accept fd =>
    if server.handler = .idle ∧ server.parent = .accept ∧ 0 ≤ fd ∧ server.table fd = none then
      some { server with
        parent := .fork
        connfd := fd
        table := Function.update server.table fd (some (.connection server.accepted))
        accepted := server.accepted + 1 }
    else none
  | .fork =>
    if server.handler = .idle ∧ server.parent = .fork then
      some { server with
        parent := .close
        forked := server.forked + 1
        child := Function.update server.child server.forked .closeListen
        childConnfd := Function.update server.childConnfd server.forked server.connfd
        childTable := Function.update server.childTable server.forked server.table }
    else none
  | .close =>
    if server.handler = .idle ∧ server.parent = .close then some server.closeStep else none
  | .failParent => if server.parent = .ended then none else some server.parentEnds
  | .child child answer done => server.childStep child answer done
  | .failChild child =>
    if child < server.forked ∧ (server.child child).Live then some (server.childExits child)
    else none
  | .handler found => server.handlerStep found

/-- The server, started with its listening socket and some other descriptors open. -/
def machine (listenfd : Int) (others : Finset Int) : Machine ForkServer Action where
  start := start listenfd others
  step := step

/-! ### Everything one step can do -/

/-- The effects of a step. -/
inductive Moves (server : ForkServer) : ForkServer → Prop where
  | accept (fd : Int) (here : server.parent = .accept) (fresh : server.table fd = none) :
      Moves server { server with
        parent := .fork
        connfd := fd
        table := Function.update server.table fd (some (.connection server.accepted))
        accepted := server.accepted + 1 }
  | fork (here : server.parent = .fork) :
      Moves server { server with
        parent := .close
        forked := server.forked + 1
        child := Function.update server.child server.forked .closeListen
        childConnfd := Function.update server.childConnfd server.forked server.connfd
        childTable := Function.update server.childTable server.forked server.table }
  | close (file : OpenFile) (here : server.parent = .close)
      (found : server.table server.connfd = some file) :
      Moves server { server with
        parent := .accept
        table := Function.update server.table server.connfd none
        closed := server.closed ++ [file] }
  | parentEnds : Moves server server.parentEnds
  | closeListen (child : Nat) (created : child < server.forked)
      (here : server.child child = .closeListen) :
      Moves server { server.childGoes child .recv with
        childTable := Function.update server.childTable child
          (Function.update (server.childTable child) server.listenfd none) }
  | childGoes (child : Nat) (place : ForkChild) (created : child < server.forked)
      (before : (server.child child).Live) (away : server.child child ≠ .closeListen)
      (after : place.Live) (later : place ≠ .closeListen) :
      Moves server (server.childGoes child place)
  | childExits (child : Nat) (created : child < server.forked)
      (before : (server.child child).Live) : Moves server (server.childExits child)
  | enters (idle : server.handler = .idle) (pending : server.pending = true) :
      Moves server { server with pending := false, handler := .waitpid }
  | reaps (child : Nat) (here : server.handler = .waitpid) (created : child < server.forked)
      (zombie : server.child child = .zombie) :
      Moves server { server.childGoes child .reaped with handler := .log child }
  | noneLeft (here : server.handler = .waitpid) (none : ¬ server.HasZombie) :
      Moves server { server with handler := .leave }
  | logged (child : Nat) (here : server.handler = .log child) :
      Moves server { server with handler := .waitpid }
  | handlerReturns (here : server.handler = .leave) : Moves server { server with handler := .idle }

theorem moves_of_childStep {server next : ForkServer} {child : Nat} {answer : Received}
    {done : Bool} (taken : server.childStep child answer done = some next) : Moves server next := by
  simp only [childStep, Option.ite_none_right_eq_some] at taken
  obtain ⟨created, taken⟩ := taken
  cases here : server.child child with
  | closeListen =>
    simp only [here, Option.some.injEq] at taken
    subst taken
    unfold closeListenStep
    split
    · exact .closeListen child created here
    · exact .childExits child created (by rw [here]; trivial)
  | recv =>
    have live : (server.child child).Live := by rw [here]; trivial
    have away : server.child child ≠ .closeListen := by rw [here]; nofun
    simp only [here, Option.some.injEq] at taken
    subst taken
    simp only [recvStep]
    split
    · exact .childGoes child _ created live away trivial nofun
    · exact .childGoes child .recv created live away trivial nofun
    · exact .childGoes child .exit created live away trivial nofun
    · exact .childExits child created live
  | send bytes =>
    have live : (server.child child).Live := by rw [here]; trivial
    have away : server.child child ≠ .closeListen := by rw [here]; nofun
    simp only [here, Option.some.injEq] at taken
    subst taken
    unfold sendStep
    split
    · exact .childGoes child .recv created live away trivial nofun
    · exact .childExits child created live
  | exit =>
    simp only [here, Option.some.injEq] at taken
    exact taken ▸ .childExits child created (by rw [here]; trivial)
  | zombie | reaped => simp only [here, reduceCtorEq] at taken

theorem moves_of_handlerStep {server next : ForkServer} {found : Option Nat}
    (taken : server.handlerStep found = some next) : Moves server next := by
  unfold handlerStep at taken
  split at taken
  · simp only [Option.ite_none_right_eq_some, Option.some.injEq] at taken
    exact taken.2 ▸ .enters ‹_› taken.1
  · simp only [Option.ite_none_right_eq_some, Option.some.injEq] at taken
    exact taken.2 ▸ .reaps _ ‹_› taken.1.1 taken.1.2
  · simp only [Option.ite_none_left_eq_some, Option.some.injEq] at taken
    exact taken.2 ▸ .noneLeft ‹_› taken.1
  · exact Option.some.inj taken ▸ .logged _ ‹_›
  · exact Option.some.inj taken ▸ .handlerReturns ‹_›

theorem moves_of_step {listenfd : Int} {others : Finset Int} {server next : ForkServer}
    {action : Action} (taken : (machine listenfd others).step server action = some next) :
    Moves server next := by
  change step server action = some next at taken
  cases action with
  | accept fd =>
    simp only [step, Option.ite_none_right_eq_some, Option.some.injEq] at taken
    exact taken.2 ▸ .accept fd taken.1.2.1 taken.1.2.2.2
  | fork =>
    simp only [step, Option.ite_none_right_eq_some, Option.some.injEq] at taken
    exact taken.2 ▸ .fork taken.1.2
  | close =>
    simp only [step, Option.ite_none_right_eq_some, Option.some.injEq] at taken
    obtain ⟨⟨-, here⟩, rfl⟩ := taken
    unfold closeStep
    split
    · exact .close _ here ‹_›
    · exact .parentEnds
  | failParent =>
    simp only [step, Option.ite_none_left_eq_some, Option.some.injEq] at taken
    exact taken.2 ▸ .parentEnds
  | child child answer done => exact moves_of_childStep taken
  | failChild child =>
    simp only [step, Option.ite_none_right_eq_some, Option.some.injEq] at taken
    exact taken.2 ▸ .childExits child taken.1.1 taken.1.2
  | handler found => exact moves_of_handlerStep taken

end ForkServer

end SocketC
