/-
This file models the accept loop and the session threads of
`server/coroutine_tasks_server.cpp`, and says which failures the process survives.
`accept`, `remote_endpoint` and the creation of the thread throw inside the `try`
block of the loop, which goes on; the unwinding destroys `client_sock`, which closes
the connection. `read_some` reports through `ec`, and `str_echo` leaves its loop. The
call of `asio::write` is the overload that throws, and nothing in `str_echo` or
`doit` catches: a failed write ends the process, with every other session in it.

Which calls fail is part of the action. The sockets are values: `str_echo` owns the
connection of its session and closes it when it returns, and the `close` at the end
of `doit` is on a socket that was moved from, which does nothing.
-/

import SocketC.EchoLoop
import SocketC.Transition

namespace SocketC

/-! ### The state -/

/-- Where the accept loop stands. -/
inductive AsioMain where
  /-- Line 43: about to accept. -/
  | accept
  /-- Line 45: about to ask for the remote endpoint. -/
  | remoteEndpoint
  /-- Line 52: about to create the thread. -/
  | createThread
  /-- Line 54: about to detach it. -/
  | detach
  deriving DecidableEq

/-- Where the thread of a session stands. -/
inductive AsioSession where
  /-- Line 66: about to call `str_echo`. -/
  | begin
  /-- Line 116: about to read. -/
  | read
  /-- Line 120: about to write these bytes. -/
  | write (bytes : List UInt8)
  /-- Line 139: about to return from `str_echo`, which destroys `sock`. -/
  | leave
  /-- Line 67: about to close the socket that was moved from. -/
  | close
  | ended
  deriving DecidableEq

/-- The server process. Connections are numbered in the order in which they were accepted;
`client` is the one in `client_sock`, and a connection has a session once its thread exists. -/
structure AsioServer where
  main : AsioMain
  client : Nat
  accepted : Nat
  isOpen : Nat → Bool
  session : Nat → Option AsioSession
  terminated : Bool

namespace AsioServer

/-- The state at line 37, after the setup. -/
def start : AsioServer where
  main := .accept
  client := 0
  accepted := 0
  isOpen := fun _ => false
  session := fun _ => none
  terminated := false

/-! ### The actions -/

/-- Lines 56-59: the exception is caught, and the unwinding has destroyed `client_sock`. -/
def caught (server : AsioServer) : AsioServer :=
  { server with main := .accept, isOpen := Function.update server.isOpen server.client false }

/-- The next step of the accept loop, whose call succeeds or throws. -/
def mainStep (server : AsioServer) (ok : Bool) : AsioServer :=
  match server.main, ok with
  | .accept, true =>
    { server with
      main := .remoteEndpoint
      client := server.accepted
      accepted := server.accepted + 1
      isOpen := Function.update server.isOpen server.accepted true }
  -- `client_sock` holds no connection yet, so there is nothing to close.
  | .accept, false => server
  | .remoteEndpoint, true => { server with main := .createThread }
  | .remoteEndpoint, false => server.caught
  | .createThread, true =>
    { server with
      main := .detach
      session := Function.update server.session server.client (some .begin) }
  | .createThread, false => server.caught
  | .detach, _ => { server with main := .accept }

/-- The session of a connection goes on at another place. -/
def goes (server : AsioServer) (client : Nat) (place : AsioSession) : AsioServer :=
  { server with session := Function.update server.session client (some place) }

/-- What the loop of `str_echo` does after a read. -/
def afterRead : EchoNext → AsioSession
  | .send bytes => .write bytes
  | .receive => .read
  | .leave | .errSys => .leave

/-- The next step of a session; `answer` is what the kernel answers to a read, and `ok` whether a
write succeeds. -/
def sessionStep (server : AsioServer) (client : Nat) (answer : Received) (ok : Bool) :
    Option AsioServer :=
  match server.session client with
  | none | some .ended => none
  | some .begin => some (server.goes client .read)
  | some .read => some (server.goes client (afterRead (strEcho .asio answer)))
  | some (.write _) =>
    if ok then some (server.goes client .read) else some { server with terminated := true }
  | some .leave =>
    some { server.goes client .close with isOpen := Function.update server.isOpen client false }
  | some .close => some (server.goes client .ended)

/-- What may happen next: a step of the accept loop or of a session. -/
inductive Action where
  | main (ok : Bool)
  | session (client : Nat) (answer : Received) (ok : Bool)

/-- One action of a process that was not terminated. -/
def step (server : AsioServer) (action : Action) : Option AsioServer :=
  if server.terminated then none
  else
    match action with
    | .main ok => some (server.mainStep ok)
    | .session client answer ok => server.sessionStep client answer ok

def machine : Machine AsioServer Action where
  start := start
  step := step

/-! ### Everything one step can do -/

/-- The steps of a session that change nothing but its place. -/
inductive SessionGoes : AsioSession → AsioSession → Prop where
  | begin : SessionGoes .begin .read
  | read (next : EchoNext) : SessionGoes .read (afterRead next)
  | written (bytes : List UInt8) : SessionGoes (.write bytes) .read
  | closed : SessionGoes .close .ended

/-- The effects of a step, with the action they belong to. -/
inductive Moves (server : AsioServer) : Action → AsioServer → Prop where
  | accept (here : server.main = .accept) :
      Moves server (.main true) { server with
        main := .remoteEndpoint
        client := server.accepted
        accepted := server.accepted + 1
        isOpen := Function.update server.isOpen server.accepted true }
  | refused (here : server.main = .accept) : Moves server (.main false) server
  | endpoint (here : server.main = .remoteEndpoint) :
      Moves server (.main true) { server with main := .createThread }
  | create (here : server.main = .createThread) :
      Moves server (.main true) { server with
        main := .detach
        session := Function.update server.session server.client (some .begin) }
  | caught (here : server.main = .remoteEndpoint ∨ server.main = .createThread) :
      Moves server (.main false) server.caught
  | detach (ok : Bool) (here : server.main = .detach) :
      Moves server (.main ok) { server with main := .accept }
  | goes (client : Nat) (answer : Received) (ok : Bool) (before after : AsioSession)
      (here : server.session client = some before) (goes : SessionGoes before after) :
      Moves server (.session client answer ok) (server.goes client after)
  | leave (client : Nat) (answer : Received) (ok : Bool)
      (here : server.session client = some .leave) :
      Moves server (.session client answer ok) { server.goes client .close with
        isOpen := Function.update server.isOpen client false }
  | throws (client : Nat) (answer : Received) (bytes : List UInt8)
      (here : server.session client = some (.write bytes)) :
      Moves server (.session client answer false) { server with terminated := true }

theorem moves_of_mainStep (server : AsioServer) (ok : Bool) :
    Moves server (.main ok) (server.mainStep ok) := by
  unfold mainStep
  split
  · exact .accept ‹_›
  · exact .refused ‹_›
  · exact .endpoint ‹_›
  · exact .caught (Or.inl ‹_›)
  · exact .create ‹_›
  · exact .caught (Or.inr ‹_›)
  · exact .detach _ ‹_›

theorem moves_of_sessionStep {server next : AsioServer} {client : Nat} {answer : Received}
    {ok : Bool} (taken : server.sessionStep client answer ok = some next) :
    Moves server (.session client answer ok) next := by
  unfold sessionStep at taken
  split at taken
  · cases taken
  · cases taken
  · exact Option.some.inj taken ▸ .goes client answer ok _ _ ‹_› .begin
  · exact Option.some.inj taken ▸ .goes client answer ok _ _ ‹_› (.read _)
  · rename_i bytes here
    cases ok with
    | true => exact Option.some.inj taken ▸ .goes client answer true _ _ here (.written bytes)
    | false => exact Option.some.inj taken ▸ .throws client answer bytes here
  · exact Option.some.inj taken ▸ .leave client answer ok ‹_›
  · exact Option.some.inj taken ▸ .goes client answer ok _ _ ‹_› .closed

theorem moves_of_step {server next : AsioServer} {action : Action}
    (taken : machine.step server action = some next) :
    server.terminated = false ∧ Moves server action next := by
  simp only [machine, step, Option.ite_none_left_eq_some, Bool.not_eq_true] at taken
  obtain ⟨alive, taken⟩ := taken
  refine ⟨alive, ?_⟩
  cases action with
  | main ok => exact Option.some.inj taken ▸ moves_of_mainStep server ok
  | session client answer ok => exact moves_of_sessionStep taken

/-! ### Which sockets are open -/

/-- `client_sock` holds a connection. -/
def Holding : AsioMain → Prop
  | .remoteEndpoint | .createThread => True
  | .accept | .detach => False

/-- The session owns its connection. -/
def HasSocket : Option AsioSession → Prop
  | some .begin | some .read | some (.write _) | some .leave => True
  | none | some .close | some .ended => False

/-- The open connections are those that the accept loop holds or a session owns. -/
structure Owned (server : AsioServer) : Prop where
  unborn : ∀ client, server.accepted ≤ client → server.session client = none
  held : Holding server.main → server.client < server.accepted ∧
    server.session server.client = none
  isOpen : ∀ client, server.isOpen client = true ↔
    (Holding server.main ∧ client = server.client) ∨ HasSocket (server.session client)

theorem owned_start : start.Owned :=
  ⟨fun _ _ => rfl, False.elim, fun _ => iff_of_false nofun fun owner => owner.elim And.left id⟩

theorem SessionGoes.hasSocket {before after : AsioSession} (goes : SessionGoes before after) :
    HasSocket (some after) ↔ HasSocket (some before) := by
  cases goes with
  | begin | written | closed => exact Iff.rfl
  | read next => cases next <;> exact Iff.rfl

/-- A step of a session changes its own entries only. -/
theorem Owned.session {server : AsioServer} (owned : server.Owned) {client : Nat}
    {before after : AsioSession} {isOpen : Nat → Bool} (here : server.session client = some before)
    (others : ∀ other, other ≠ client → isOpen other = server.isOpen other)
    (own : isOpen client = true ↔ HasSocket (some after)) :
    ({ server.goes client after with isOpen := isOpen } : AsioServer).Owned := by
  have notHeld : Holding server.main → server.client ≠ client := by
    rintro holding rfl
    rw [(owned.held holding).2] at here
    cases here
  refine ⟨fun other above => ?_, fun holding => ⟨(owned.held holding).1, ?_⟩, fun other => ?_⟩
  · have different : other ≠ client := by
      rintro rfl
      rw [owned.unborn other above] at here
      cases here
    exact (Function.update_of_ne different _ _).trans (owned.unborn other above)
  · exact (Function.update_of_ne (notHeld holding) _ _).trans (owned.held holding).2
  · show isOpen other = true ↔ (Holding server.main ∧ other = server.client) ∨
      HasSocket (Function.update server.session client (some after) other)
    by_cases same : other = client
    · subst same
      rw [Function.update_self, own, or_iff_right]
      exact fun both => notHeld both.1 both.2.symm
    · rw [Function.update_of_ne same, others other same]
      exact owned.isOpen other

theorem Owned.accept {server : AsioServer} (owned : server.Owned) (here : server.main = .accept) :
    ({ server with
        main := .remoteEndpoint
        client := server.accepted
        accepted := server.accepted + 1
        isOpen := Function.update server.isOpen server.accepted true } : AsioServer).Owned := by
  refine ⟨fun client above => owned.unborn client (Nat.le_of_succ_le above),
    fun _ => ⟨Nat.lt_succ_self _, owned.unborn _ le_rfl⟩, fun client => ?_⟩
  show Function.update server.isOpen server.accepted true client = true ↔
    (True ∧ client = server.accepted) ∨ HasSocket (server.session client)
  by_cases new : client = server.accepted
  · rw [new, Function.update_self]
    exact iff_of_true rfl (Or.inl ⟨trivial, rfl⟩)
  · rw [Function.update_of_ne new, owned.isOpen, here]
    exact or_congr_left (iff_of_false And.left fun both => new both.2)

theorem Owned.caught {server : AsioServer} (owned : server.Owned)
    (holding : Holding server.main) : server.caught.Owned := by
  refine ⟨owned.unborn, False.elim, fun client => ?_⟩
  show Function.update server.isOpen server.client false client = true ↔
    (False ∧ client = server.client) ∨ HasSocket (server.session client)
  by_cases same : client = server.client
  · rw [same, Function.update_self, (owned.held holding).2]
    exact iff_of_false nofun fun owner => owner.elim And.left id
  · rw [Function.update_of_ne same, owned.isOpen]
    exact or_congr_left (iff_of_false (fun both => same both.2) And.left)

theorem Owned.create {server : AsioServer} (owned : server.Owned)
    (here : server.main = .createThread) :
    ({ server with
        main := .detach
        session := Function.update server.session server.client (some .begin) } :
      AsioServer).Owned := by
  have holding : Holding server.main := by rw [here]; trivial
  have created := (owned.held holding).1
  refine ⟨fun client above => ?_, False.elim, fun client => ?_⟩
  · exact (Function.update_of_ne (created.trans_le above).ne' _ _).trans (owned.unborn client above)
  · show server.isOpen client = true ↔ (False ∧ client = server.client) ∨
      HasSocket (Function.update server.session server.client (some .begin) client)
    rw [owned.isOpen]
    by_cases same : client = server.client
    · rw [same, Function.update_self]
      exact iff_of_true (Or.inl ⟨holding, rfl⟩) (Or.inr trivial)
    · rw [Function.update_of_ne same]
      exact or_congr_left (iff_of_false (fun both => same both.2) And.left)

theorem Owned.moves {server next : AsioServer} {action : Action} (owned : server.Owned)
    (moves : Moves server action next) : next.Owned := by
  cases moves with
  | accept here => exact owned.accept here
  | refused here => exact owned
  | endpoint here =>
    have holding : Holding server.main := by rw [here]; trivial
    refine ⟨owned.unborn, fun _ => owned.held holding, fun client => ?_⟩
    rw [owned.isOpen, here]
    exact Iff.rfl
  | create here => exact owned.create here
  | caught here =>
    have holding : Holding server.main := by
      obtain endpoint | create := here
      · rw [endpoint]; trivial
      · rw [create]; trivial
    exact owned.caught holding
  | detach ok here =>
    refine ⟨owned.unborn, False.elim, fun client => ?_⟩
    rw [owned.isOpen, here]
    exact Iff.rfl
  | goes client answer ok before after here goes =>
    refine owned.session here (fun _ _ => rfl) ?_
    have own := owned.isOpen client
    rw [here] at own
    rw [goes.hasSocket, own, or_iff_right]
    rintro ⟨holding, rfl⟩
    rw [(owned.held holding).2] at here
    cases here
  | leave client answer ok here =>
    refine owned.session here (fun other different => Function.update_of_ne different _ _) ?_
    rw [Function.update_self]
    exact iff_of_false nofun id
  | throws client answer bytes here => exact ⟨owned.unborn, owned.held, owned.isOpen⟩

theorem owned_of_reachable {server : AsioServer} (reached : machine.Reachable server) :
    server.Owned :=
  reached.invariant Owned owned_start fun _ _ _ owned taken => owned.moves (moves_of_step taken).2

/-- The socket of a session that has left `str_echo` is closed. -/
theorem Owned.closed {server : AsioServer} (owned : server.Owned) {client : Nat}
    {place : AsioSession} (here : server.session client = some place)
    (left : ¬ HasSocket (some place)) : server.isOpen client = false := by
  rw [← Bool.not_eq_true, owned.isOpen, here]
  rintro (⟨holding, rfl⟩ | socket)
  · rw [(owned.held holding).2] at here
    cases here
  · exact left socket

end AsioServer

end SocketC
