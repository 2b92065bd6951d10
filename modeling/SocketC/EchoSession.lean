/-
This file models one echo session end to end: the two threads of
`client/echo_client.c`, the server loop `str_echo`, and the two directions of the
connection between them. `copyto` sends the standard input line by line and then
shuts its direction down; `str_cli` prints the lines that come back until
`Readline` reports the end; the server is the `recv` loop of
`server/fork-server.c` or the `read_some` loop of
`server/coroutine_tasks_server.cpp`.

A direction of the connection is a queue of bytes with a flag for the peer's FIN.
How many bytes a receive returns, and how many bytes of a send have gone out
before the next thing happens, is part of the action. A receive of the server may
also be interrupted; an interrupted receive of the client ends it in `err_sys`.
The actions `failClient` and `failServer` are the ends of the two processes in
`err_sys` or by an exception, at any point.
-/

import SocketC.EchoLoop
import SocketC.Lines
import SocketC.Transition

namespace SocketC

/-! ### The state -/

/-- One direction of the connection: the bytes on their way, and whether the sender's end is
closed. -/
structure Channel where
  queue : List UInt8
  closed : Bool

/-- Where `copyto` stands. -/
inductive Copyto where
  /-- Line 64: about to call `Fgets`. -/
  | fgets
  /-- Line 65: in `Writen`, with these bytes still to write. -/
  | writen (rest : List UInt8)
  /-- Line 67: about to call `Shutdown`. -/
  | shutdown
  | done
  deriving DecidableEq

/-- Where `str_cli` stands. -/
inductive StrCli where
  /-- Line 55: in `Readline`, with this `n` and these bytes stored. -/
  | readline (n : Nat) (stored : List UInt8)
  /-- Line 56: about to print this line. -/
  | fputs (line : List UInt8)
  | returned
  deriving DecidableEq

/-- Where the server's `str_echo` stands. -/
inductive Echo where
  | receive
  /-- In `Send` or `write`, with these bytes still to send. -/
  | send (rest : List UInt8)
  /-- Out of the loop, the connection still open. -/
  | leave
  | closed
  deriving DecidableEq

/-- The two processes and the connection. `stdin` is what `fgets` has not taken yet. -/
structure Session where
  stdin : List UInt8
  copyto : Copyto
  toServer : Channel
  echo : Echo
  toClient : Channel
  strCli : StrCli
  stdout : List UInt8
  clientRuns : Bool
  serverRuns : Bool
  failed : Bool

namespace Session

/-- Connected, and nothing sent. -/
def start (input : List UInt8) : Session where
  stdin := input
  copyto := .fgets
  toServer := ⟨[], false⟩
  echo := .receive
  toClient := ⟨[], false⟩
  strCli := .readline 1 []
  stdout := []
  clientRuns := true
  serverRuns := true
  failed := false

/-! ### The actions -/

/-- The next step of `copyto`; in `Writen`, `count` bytes go out. -/
def copytoStep (count : Nat) (session : Session) : Option Session :=
  match session.copyto with
  | .fgets =>
    match fgets maxLine session.stdin with
    | some (sendline, rest) =>
      some { session with stdin := rest, copyto := .writen (cString sendline) }
    | none => some { session with copyto := .shutdown }
  | .writen [] => some { session with copyto := .fgets }
  | .writen rest =>
    if 0 < count ∧ count ≤ rest.length then
      some { session with
        toServer := ⟨session.toServer.queue ++ rest.take count, session.toServer.closed⟩
        copyto := .writen (rest.drop count) }
    else none
  | .shutdown =>
    some { session with toServer := ⟨session.toServer.queue, true⟩, copyto := .done }
  | .done => none

/-- The loop of `str_cli`, by what `Readline` does. -/
def strCliNext : LineStep → StrCli
  | .again n stored => .readline n stored
  | .returned value stored => if 0 < value then .fputs stored else .returned

/-- The next step of `str_cli`. In `Readline` it takes a byte, sees the end of the stream, or is
blocked. -/
def strCliStep (session : Session) : Option Session :=
  match session.strCli with
  | .readline n stored =>
    match session.toClient.queue with
    | byte :: rest =>
      some { session with
        toClient := ⟨rest, session.toClient.closed⟩
        strCli := strCliNext (readline maxLine n stored (.ofByte byte)) }
    | [] =>
      if session.toClient.closed then
        some { session with strCli := strCliNext (readline maxLine n stored .eof) }
      else none
  | .fputs line =>
    some { session with stdout := session.stdout ++ cString line, strCli := .readline 1 [] }
  | .returned => none

/-- The server goes on after a receive. -/
def echoNext (session : Session) : EchoNext → Session
  | .send bytes => { session with echo := .send bytes }
  | .receive => session
  | .leave => { session with echo := .leave }
  | .errSys =>
    { session with
      toClient := ⟨session.toClient.queue, true⟩, serverRuns := false, failed := true }

/-- The server's receive returns `count` bytes of the queue, at most its buffer's size. -/
def receiveStep (server : EchoServer) (count : Nat) (session : Session) : Option Session :=
  if session.echo = .receive ∧ 0 < count ∧ count ≤ server.bufferSize ∧
      count ≤ session.toServer.queue.length then
    some (echoNext
      { session with toServer := ⟨session.toServer.queue.drop count, session.toServer.closed⟩ }
      (strEcho server (.data (session.toServer.queue.take count))))
  else none

/-- The server's receive sees the end of the stream. -/
def eofStep (server : EchoServer) (session : Session) : Option Session :=
  if session.echo = .receive ∧ session.toServer.closed = true ∧ session.toServer.queue = [] then
    some (echoNext session (strEcho server .eof))
  else none

/-- The server's receive is interrupted. -/
def interruptStep (server : EchoServer) (session : Session) : Option Session :=
  if session.echo = .receive then some (echoNext session (strEcho server .interrupted)) else none

/-- Outside its receive, the server sends `count` bytes, or closes the connection. -/
def serverStep (count : Nat) (session : Session) : Option Session :=
  match session.echo with
  | .receive => none
  | .send [] => some { session with echo := .receive }
  | .send rest =>
    if 0 < count ∧ count ≤ rest.length then
      some { session with
        toClient := ⟨session.toClient.queue ++ rest.take count, session.toClient.closed⟩
        echo := .send (rest.drop count) }
    else none
  | .leave =>
    some { session with toClient := ⟨session.toClient.queue, true⟩, echo := .closed }
  | .closed => none

/-- What may happen next. -/
inductive Action where
  | copyto (count : Nat)
  | strCli
  /-- `exit(0)` behind `str_cli`, which ends `copyto` too. -/
  | exit
  | receive (count : Nat)
  | eof
  | interrupt
  | server (count : Nat)
  | failClient
  | failServer

/-- One action of a running process. -/
def step (server : EchoServer) (session : Session) : Action → Option Session
  | .copyto count => if session.clientRuns then session.copytoStep count else none
  | .strCli => if session.clientRuns then session.strCliStep else none
  | .exit =>
    if session.clientRuns ∧ session.strCli = .returned then
      some { session with toServer := ⟨session.toServer.queue, true⟩, clientRuns := false }
    else none
  | .receive count => if session.serverRuns then session.receiveStep server count else none
  | .eof => if session.serverRuns then session.eofStep server else none
  | .interrupt => if session.serverRuns then session.interruptStep server else none
  | .server count => if session.serverRuns then session.serverStep count else none
  | .failClient =>
    if session.clientRuns then
      some { session with
        toServer := ⟨session.toServer.queue, true⟩, clientRuns := false, failed := true }
    else none
  | .failServer =>
    if session.serverRuns then
      some { session with
        toClient := ⟨session.toClient.queue, true⟩, serverRuns := false, failed := true }
    else none

/-- The session with one of the servers, on some standard input. -/
def machine (server : EchoServer) (input : List UInt8) : Machine Session Action where
  start := start input
  step := step server

/-! ### Everything one step can do -/

/-- The effects of a step, one constructor per way through the three loops. -/
inductive Moves (server : EchoServer) (session : Session) : Session → Prop where
  | fgets (sendline rest : List UInt8) (here : session.copyto = .fgets)
      (line : SocketC.fgets maxLine session.stdin = some (sendline, rest)) :
      Moves server session { session with stdin := rest, copyto := .writen (cString sendline) }
  | ended (here : session.copyto = .fgets)
      (ended : SocketC.fgets maxLine session.stdin = none) :
      Moves server session { session with copyto := .shutdown }
  | write (rest : List UInt8) (count : Nat) (runs : session.clientRuns = true)
      (here : session.copyto = .writen rest) :
      Moves server session { session with
        toServer := ⟨session.toServer.queue ++ rest.take count, session.toServer.closed⟩
        copyto := .writen (rest.drop count) }
  | written (here : session.copyto = .writen []) :
      Moves server session { session with copyto := .fgets }
  | shutdown (here : session.copyto = .shutdown) :
      Moves server session { session with
        toServer := ⟨session.toServer.queue, true⟩, copyto := .done }
  | byte (n : Nat) (stored : List UInt8) (byte : UInt8) (rest : List UInt8)
      (here : session.strCli = .readline n stored)
      (queued : session.toClient.queue = byte :: rest) :
      Moves server session { session with
        toClient := ⟨rest, session.toClient.closed⟩
        strCli := strCliNext (readline maxLine n stored (.ofByte byte)) }
  | lineEnd (n : Nat) (stored : List UInt8) (here : session.strCli = .readline n stored)
      (empty : session.toClient.queue = []) (closed : session.toClient.closed = true) :
      Moves server session { session with
        strCli := strCliNext (readline maxLine n stored .eof) }
  | fputs (line : List UInt8) (here : session.strCli = .fputs line) :
      Moves server session { session with
        stdout := session.stdout ++ cString line, strCli := .readline 1 [] }
  | exit (here : session.strCli = .returned) :
      Moves server session { session with
        toServer := ⟨session.toServer.queue, true⟩, clientRuns := false }
  | receive (count : Nat) (here : session.echo = .receive) :
      Moves server session { session with
        toServer := ⟨session.toServer.queue.drop count, session.toServer.closed⟩
        echo := .send (session.toServer.queue.take count) }
  | eof (here : session.echo = .receive) (closed : session.toServer.closed = true)
      (empty : session.toServer.queue = []) :
      Moves server session { session with echo := .leave }
  | interrupt : Moves server session session
  | send (rest : List UInt8) (count : Nat) (runs : session.serverRuns = true)
      (here : session.echo = .send rest) :
      Moves server session { session with
        toClient := ⟨session.toClient.queue ++ rest.take count, session.toClient.closed⟩
        echo := .send (rest.drop count) }
  | sent (here : session.echo = .send []) :
      Moves server session { session with echo := .receive }
  | close (here : session.echo = .leave) :
      Moves server session { session with
        toClient := ⟨session.toClient.queue, true⟩, echo := .closed }
  | failClient :
      Moves server session { session with
        toServer := ⟨session.toServer.queue, true⟩, clientRuns := false, failed := true }
  | failServer :
      Moves server session { session with
        toClient := ⟨session.toClient.queue, true⟩, serverRuns := false, failed := true }

variable {server : EchoServer}

theorem moves_of_copytoStep {session next : Session} {count : Nat}
    (runs : session.clientRuns = true) (taken : session.copytoStep count = some next) :
    Moves server session next := by
  unfold copytoStep at taken
  split at taken
  · rename_i here
    split at taken
    · exact Option.some.inj taken ▸ .fgets _ _ here ‹_›
    · exact Option.some.inj taken ▸ .ended here ‹_›
  · exact Option.some.inj taken ▸ .written ‹_›
  · rename_i rest nonempty here
    simp only [Option.ite_none_right_eq_some, Option.some.injEq] at taken
    exact taken.2 ▸ .write rest count runs here
  · exact Option.some.inj taken ▸ .shutdown ‹_›
  · nomatch taken

theorem moves_of_strCliStep {session next : Session}
    (taken : session.strCliStep = some next) : Moves server session next := by
  unfold strCliStep at taken
  split at taken
  · rename_i n stored here
    split at taken
    · exact Option.some.inj taken ▸ .byte n stored _ _ here ‹_›
    · simp only [Option.ite_none_right_eq_some, Option.some.injEq] at taken
      exact taken.2 ▸ .lineEnd n stored here ‹_› taken.1
  · exact Option.some.inj taken ▸ .fputs _ ‹_›
  · nomatch taken

theorem moves_of_receiveStep {session next : Session} {count : Nat}
    (taken : session.receiveStep server count = some next) : Moves server session next := by
  simp only [receiveStep, Option.ite_none_right_eq_some, Option.some.injEq] at taken
  obtain ⟨⟨here, positive, -, within⟩, rfl⟩ := taken
  have nonempty : session.toServer.queue.take count ≠ [] := by
    rw [← List.length_pos_iff, List.length_take]
    omega
  rw [strEcho_data server nonempty]
  exact .receive count here

theorem moves_of_serverStep {session next : Session} {count : Nat}
    (runs : session.serverRuns = true) (taken : session.serverStep count = some next) :
    Moves server session next := by
  unfold serverStep at taken
  split at taken
  · nomatch taken
  · exact Option.some.inj taken ▸ .sent ‹_›
  · rename_i rest nonempty here
    simp only [Option.ite_none_right_eq_some, Option.some.injEq] at taken
    exact taken.2 ▸ .send rest count runs here
  · exact Option.some.inj taken ▸ .close ‹_›
  · nomatch taken

theorem moves_of_step {input : List UInt8} {session next : Session} {action : Action}
    (taken : (machine server input).step session action = some next) :
    Moves server session next := by
  change step server session action = some next at taken
  cases action with
  | copyto count =>
    simp only [step, Option.ite_none_right_eq_some] at taken
    exact moves_of_copytoStep taken.1 taken.2
  | strCli =>
    simp only [step, Option.ite_none_right_eq_some] at taken
    exact moves_of_strCliStep taken.2
  | exit =>
    simp only [step, Option.ite_none_right_eq_some, Option.some.injEq] at taken
    exact taken.2 ▸ .exit taken.1.2
  | receive count =>
    simp only [step, Option.ite_none_right_eq_some] at taken
    exact moves_of_receiveStep taken.2
  | eof =>
    simp only [step, eofStep, Option.ite_none_right_eq_some, Option.some.injEq] at taken
    obtain ⟨-, ⟨here, closed, empty⟩, rfl⟩ := taken
    rw [strEcho_eof]
    exact .eof here closed empty
  | interrupt =>
    simp only [step, interruptStep, Option.ite_none_right_eq_some, Option.some.injEq] at taken
    obtain ⟨-, -, rfl⟩ := taken
    rw [strEcho_interrupted]
    exact .interrupt
  | server count =>
    simp only [step, Option.ite_none_right_eq_some] at taken
    exact moves_of_serverStep taken.1 taken.2
  | failClient =>
    simp only [step, Option.ite_none_right_eq_some, Option.some.injEq] at taken
    exact taken.2 ▸ .failClient
  | failServer =>
    simp only [step, Option.ite_none_right_eq_some, Option.some.injEq] at taken
    exact taken.2 ▸ .failServer

end Session

end SocketC
