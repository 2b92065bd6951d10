/-
This file says what a failure does to the threaded asio server. As long as no call
of `asio::write` fails, the process is never terminated, the accept loop gets to its
next call of `accept` whatever fails on the way, and a step of a session, a failed
read included, changes that session alone; the failed session ends with its socket
closed. One failed write, in any state, terminates the process.
-/

import SocketC.AsioServer

namespace SocketC.AsioServer

/-! ### What a step leaves alone -/

/-- The two states differ at most in the session of this connection and its socket. -/
structure OnlySession (server next : AsioServer) (index : Nat) : Prop where
  main : next.main = server.main
  client : next.client = server.client
  accepted : next.accepted = server.accepted
  terminated : next.terminated = server.terminated
  session : ∀ other, other ≠ index → next.session other = server.session other
  isOpen : ∀ other, other ≠ index → next.isOpen other = server.isOpen other

theorem OnlySession.trans {first second third : AsioServer} {client : Nat}
    (front : OnlySession first second client) (back : OnlySession second third client) :
    OnlySession first third client where
  main := back.main.trans front.main
  client := back.client.trans front.client
  accepted := back.accepted.trans front.accepted
  terminated := back.terminated.trans front.terminated
  session := fun other different =>
    (back.session other different).trans (front.session other different)
  isOpen := fun other different =>
    (back.isOpen other different).trans (front.isOpen other different)

theorem onlySession_goes (server : AsioServer) (client : Nat) (place : AsioSession) :
    OnlySession server (server.goes client place) client :=
  ⟨rfl, rfl, rfl, rfl, fun _ different => Function.update_of_ne different _ _, fun _ _ => rfl⟩

theorem onlySession_leave (server : AsioServer) (client : Nat) :
    OnlySession server { server.goes client .close with
      isOpen := Function.update server.isOpen client false } client :=
  ⟨rfl, rfl, rfl, rfl, fun _ different => Function.update_of_ne different _ _,
    fun _ different => Function.update_of_ne different _ _⟩

/-! ### Runs in which no write fails -/

/-- If the action is a call of `asio::write`, it succeeds. -/
def WritesSucceed (server : AsioServer) : Action → Prop
  | .main _ => True
  | .session client _ ok => ∀ bytes, server.session client = some (.write bytes) → ok = true

instance (server : AsioServer) (action : Action) : Decidable (WritesSucceed server action) :=
  match action with
  | .main _ => .isTrue trivial
  | .session _ _ true => .isTrue fun _ _ => rfl
  | .session client _ false =>
    match here : server.session client with
    | some (.write bytes) => .isFalse fun succeed => by cases succeed bytes here
    | none | some .begin | some .read | some .leave | some .close | some .ended =>
      .isTrue fun bytes found => by rw [here] at found; cases found

/-- The process goes on, and failures stay where they happen. -/
structure Contained (server : AsioServer) : Prop where
  alive : server.terminated = false
  /-- Whatever fails, the accept loop gets to its next call of `accept`. -/
  accepts : ∀ first second third : Bool, ∃ count next,
    machine.run server ([Action.main first, .main second, .main third].take count) = some next ∧
      next.main = .accept
  /-- An exception in the accept loop costs the connection it has just accepted. -/
  caught : Holding server.main → ∃ next, machine.step server (.main false) = some next ∧
    next.main = .accept ∧ OnlySession { server with main := .accept } next server.client ∧
    next.session = server.session ∧ next.isOpen server.client = false
  /-- A step of a session changes that session only, -/
  confined : ∀ client answer ok next, WritesSucceed server (.session client answer ok) →
    machine.step server (.session client answer ok) = some next → OnlySession server next client
  /-- a failed read ends it, -/
  ends : ∀ client ok, server.session client = some .read → ∃ next,
    machine.run server (List.replicate 3 (.session client .error ok)) = some next ∧
      OnlySession server next client ∧ next.session client = some .ended
  /-- and a session that has ended has closed its socket. -/
  closed : ∀ client, server.session client = some .ended → server.isOpen client = false

theorem step_main {server : AsioServer} (alive : server.terminated = false) (ok : Bool) :
    machine.step server (.main ok) = some (server.mainStep ok) := by
  simp only [machine, step, alive, Bool.false_eq_true, if_false]

theorem step_session {server : AsioServer} (alive : server.terminated = false) (client : Nat)
    (answer : Received) (ok : Bool) :
    machine.step server (.session client answer ok) = server.sessionStep client answer ok := by
  simp only [machine, step, alive, Bool.false_eq_true, if_false]

theorem mainStep_alive {server : AsioServer} (alive : server.terminated = false) (ok : Bool) :
    (server.mainStep ok).terminated = false := by
  unfold mainStep
  split <;> exact alive

theorem alive_of_writesSucceed {server : AsioServer}
    (reached : (machine.restrict WritesSucceed).Reachable server) : server.terminated = false := by
  refine reached.invariant (fun server => server.terminated = false) rfl
    fun current action next alive taken => ?_
  obtain ⟨succeed, taken⟩ := Machine.restrict_step taken
  cases (moves_of_step taken).2 with
  | throws client answer bytes here => cases succeed bytes here
  | accept | refused | endpoint | create | caught | detach | goes | leave => exact alive

/-! ### Each clause from being alive -/

/-- Three calls at most separate the accept loop from its next `accept`. -/
theorem accepts_of_alive {server : AsioServer} (alive : server.terminated = false)
    (first second third : Bool) : ∃ count next,
    machine.run server ([Action.main first, .main second, .main third].take count) = some next ∧
      next.main = .accept := by
  have one : machine.run server [Action.main first] = some (server.mainStep first) := by
    rw [Machine.run_cons, step_main alive]
    rfl
  have two : machine.run server [Action.main first, .main second] =
      some ((server.mainStep first).mainStep second) := by
    rw [Machine.run_cons, step_main alive, Option.bind_some, Machine.run_cons,
      step_main (mainStep_alive alive first)]
    rfl
  have three : machine.run server [Action.main first, .main second, .main third] =
      some (((server.mainStep first).mainStep second).mainStep third) := by
    rw [Machine.run_cons, step_main alive, Option.bind_some, Machine.run_cons,
      step_main (mainStep_alive alive first), Option.bind_some, Machine.run_cons,
      step_main (mainStep_alive (mainStep_alive alive first) second)]
    rfl
  cases here : server.main with
  | accept => exact ⟨0, server, rfl, here⟩
  | detach => exact ⟨1, _, one, by simp only [mainStep, here]⟩
  | createThread =>
    cases first with
    | true => exact ⟨2, _, two, by simp only [mainStep, here]⟩
    | false => exact ⟨1, _, one, by simp only [mainStep, here, AsioServer.caught]⟩
  | remoteEndpoint =>
    cases first with
    | false => exact ⟨1, _, one, by simp only [mainStep, here, AsioServer.caught]⟩
    | true =>
      cases second with
      | true => exact ⟨3, _, three, by simp only [mainStep, here]⟩
      | false => exact ⟨2, _, two, by simp only [mainStep, here, AsioServer.caught]⟩

theorem caught_of_alive {server : AsioServer} (alive : server.terminated = false)
    (holding : Holding server.main) : ∃ next, machine.step server (.main false) = some next ∧
    next.main = .accept ∧ OnlySession { server with main := .accept } next server.client ∧
    next.session = server.session ∧ next.isOpen server.client = false := by
  have fails : server.mainStep false = server.caught := by
    cases here : server.main with
    | remoteEndpoint | createThread => simp only [mainStep, here]
    | accept | detach =>
      rw [here] at holding
      exact holding.elim
  refine ⟨server.caught, by rw [step_main alive, fails], rfl, ?_, rfl, Function.update_self _ _ _⟩
  exact ⟨rfl, rfl, rfl, rfl, fun _ _ => rfl, fun _ different => Function.update_of_ne different _ _⟩

theorem confined_of_alive {server next : AsioServer} {client : Nat} {answer : Received} {ok : Bool}
    (succeed : WritesSucceed server (.session client answer ok))
    (taken : machine.step server (.session client answer ok) = some next) :
    OnlySession server next client := by
  cases (moves_of_step taken).2 with
  | goes _ _ _ before after here goes => exact onlySession_goes server client after
  | leave _ _ _ here => exact onlySession_leave server client
  | throws _ _ bytes here => cases succeed bytes here

/-- After a failed read, `str_echo` returns, which closes the socket, and `doit` ends. -/
theorem ends_of_alive {server : AsioServer} (alive : server.terminated = false) {client : Nat}
    (ok : Bool) (here : server.session client = some .read) : ∃ next,
    machine.run server (List.replicate 3 (.session client .error ok)) = some next ∧
      OnlySession server next client ∧ next.session client = some .ended := by
  let failed := server.goes client .leave
  let returned := { failed.goes client .close with
    isOpen := Function.update failed.isOpen client false }
  have first : machine.step server (.session client .error ok) = some failed := by
    rw [step_session alive, sessionStep, here]
    rfl
  have second : machine.step failed (.session client .error ok) = some returned := by
    have place : failed.session client = some .leave := Function.update_self _ _ _
    have going : failed.terminated = false := alive
    rw [step_session going, sessionStep, place]
  have third : machine.step returned (.session client .error ok) =
      some (returned.goes client .ended) := by
    have place : returned.session client = some .close := Function.update_self _ _ _
    have going : returned.terminated = false := alive
    rw [step_session going, sessionStep, place]
  refine ⟨returned.goes client .ended, ?_, ?_, Function.update_self _ _ _⟩
  · simp only [List.replicate, Machine.run_cons, first, second, third, Option.bind_some,
      Machine.run_nil]
  · exact ((onlySession_goes server client .leave).trans (onlySession_leave failed client)).trans
      (onlySession_goes returned client .ended)

/-- In every run in which no call of `asio::write` fails, whatever else does, the process goes on
and failures stay where they happen. In every state in which a session is about to write, a failed
write terminates the process. -/
theorem faults_contained (server : AsioServer) :
    ((machine.restrict WritesSucceed).Reachable server → server.Contained) ∧
    (machine.Reachable server → server.terminated = false → ∀ client bytes answer,
      server.session client = some (.write bytes) →
      ∃ next, machine.step server (.session client answer false) = some next ∧
        next.terminated = true) := by
  constructor
  · intro reached
    have alive := alive_of_writesSucceed reached
    have owned := owned_of_reachable reached.of_restrict
    exact ⟨alive, accepts_of_alive alive, caught_of_alive alive,
      fun _ _ _ _ succeed taken => confined_of_alive succeed taken,
      fun _ ok here => ends_of_alive alive ok here, fun _ here => owned.closed here id⟩
  · intro _ alive client bytes answer here
    refine ⟨{ server with terminated := true }, ?_, rfl⟩
    rw [step_session alive, sessionStep, here]
    rfl

/-- Of three clients the first is lost in `remote_endpoint`, the second one's read fails, and the
third is served. -/
theorem faults_contained_run :
    ∃ server, (machine.restrict WritesSucceed).Reachable server ∧
      server.session 1 = some .ended ∧ server.session 2 = some .read ∧ server.Contained := by
  have reached : (machine.restrict WritesSucceed).Reachable
      ((machine.restrict WritesSucceed).after
        [.main false, .main true, .main false, .main true, .main true, .main true,
          .session 1 .eof true, .main true, .main true, .main true, .session 1 .error true,
          .main true, .main true, .session 1 .eof true, .session 1 .eof true, .main true,
          .session 2 .eof true, .session 2 (.data [104, 105]) true, .session 2 .eof true]) :=
    Machine.reachable_after _ (by decide)
  exact ⟨_, reached, by decide, by decide, (faults_contained _).1 reached⟩

/-- The first client's write fails while the second one's session is in progress. -/
theorem failed_write_terminates :
    ∃ server, machine.Reachable server ∧ server.session 1 = some .read ∧
      server.isOpen 1 = true ∧ server.terminated = true ∧ ¬ server.Contained := by
  have terminated : (machine.after
      [.main true, .main true, .main true, .main true, .main true, .main true, .main true,
        .main true, .session 0 .eof true, .session 1 .eof true, .session 0 (.data [104]) true,
        .session 0 .eof false]).terminated = true := by decide
  refine ⟨_, Machine.reachable_after _ (by decide), by decide, by decide, terminated, ?_⟩
  intro contained
  rw [contained.alive] at terminated
  cases terminated

end SocketC.AsioServer
