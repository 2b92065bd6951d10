/-
This file proves what an echo session delivers. Every byte of the standard input
is, at every moment, in exactly one of seven places in a row: printed, in the line
`str_cli` is collecting, on its way back, in the server's buffer, on its way to the
server, in the line `copyto` is sending, or not read yet; every step moves bytes
from one place to its neighbour. The ends are in order too: the server leaves its
loop only behind the client's FIN and `str_cli` returns only behind the server's,
so when it has returned all places but the first are empty.
-/

import SocketC.EchoSession

namespace SocketC

/-- The bytes `copyto` has read and not sent. -/
def Copyto.held : Copyto → List UInt8
  | .writen rest => rest
  | .fgets | .shutdown | .done => []

/-- The bytes the server has received and not sent. -/
def Echo.held : Echo → List UInt8
  | .send rest => rest
  | .receive | .leave | .closed => []

/-- The bytes `str_cli` has received and not printed. -/
def StrCli.held : StrCli → List UInt8
  | .readline _ stored => stored
  | .fputs line => line
  | .returned => []

/-- `copyto` has seen the end of the standard input. -/
def Copyto.Ended : Copyto → Prop
  | .shutdown | .done => True
  | .fgets | .writen _ => False

/-- The server is out of its loop. -/
def Echo.Ended : Echo → Prop
  | .leave | .closed => True
  | .receive | .send _ => False

namespace Session

/-- All bytes of the session, from the first to reach the standard output to the last. -/
def bytes (session : Session) : List UInt8 :=
  session.stdout ++ (session.strCli.held ++ (session.toClient.queue ++ (session.echo.held ++
    (session.toServer.queue ++ (session.copyto.held ++ session.stdin)))))

/-! ### The ends of the streams -/

/-- The order in which the two directions end, and the count of `Readline`. -/
structure Ordered (session : Session) : Prop where
  counted : ∀ n stored, session.strCli = .readline n stored → n = stored.length + 1
  drained : session.copyto.Ended → session.stdin = []
  halfClosed : session.toServer.closed = true →
    session.copyto = .done ∨ session.clientRuns = false
  served : session.echo.Ended → session.toServer.closed = true ∧ session.toServer.queue = []
  hungUp : session.toClient.closed = true → session.echo = .closed ∨ session.serverRuns = false
  ended : session.strCli = .returned →
    session.toClient.closed = true ∧ session.toClient.queue = []
  alive : session.serverRuns = false → session.failed = true

theorem ordered_start (input : List UInt8) : (start input).Ordered where
  counted := by
    intro n stored here
    cases here
    rfl
  drained := False.elim
  halfClosed := nofun
  served := False.elim
  hungUp := nofun
  ended := nofun
  alive := nofun

/-- Before its `Shutdown`, the client's direction is closed only by the end of the process. -/
theorem Ordered.exited {session : Session} (ordered : session.Ordered)
    (early : session.copyto ≠ .done) (closed : session.toServer.closed = true) :
    session.clientRuns = false :=
  (ordered.halfClosed closed).resolve_left early

/-- So is the server's direction before its close. -/
theorem Ordered.stopped {session : Session} (ordered : session.Ordered)
    (early : session.echo ≠ .closed) (closed : session.toClient.closed = true) :
    session.serverRuns = false :=
  (ordered.hungUp closed).resolve_left early

/-- A byte goes to `Readline`, which then has it in its line or has it to print. -/
theorem strCliNext_byte {n : Nat} {stored : List UInt8} (counted : n = stored.length + 1)
    (byte : UInt8) :
    strCliNext (readline maxLine n stored (.ofByte byte)) =
        .readline (n + 1) (stored ++ [byte]) ∨
      strCliNext (readline maxLine n stored (.ofByte byte)) = .fputs (stored ++ [byte]) := by
  rcases readline_ofByte maxLine n stored byte with again | ⟨value, least, returned⟩
  · rw [again]
    exact Or.inl rfl
  · rw [returned, strCliNext, if_pos (by omega)]
    exact Or.inr rfl

/-- At the end of the stream `str_cli` prints what it has, and returns when it has nothing. -/
theorem strCliNext_eof {n : Nat} {stored : List UInt8} (counted : n = stored.length + 1) :
    strCliNext (readline maxLine n stored .eof) = .fputs stored ∨
      (stored = [] ∧ strCliNext (readline maxLine n stored .eof) = .returned) := by
  rw [readline_eof, strCliNext]
  by_cases empty : stored = []
  · refine Or.inr ⟨empty, if_neg ?_⟩
    rw [counted, empty]
    decide
  · have positive : 0 < stored.length := List.length_pos_iff.mpr empty
    exact Or.inl (if_pos (by omega))

theorem Ordered.moves {server : EchoServer} {session next : Session} (ordered : session.Ordered)
    (moves : Moves server session next) : next.Ordered := by
  cases moves with
  | fgets sendline rest here line =>
    exact { ordered with
      drained := False.elim
      halfClosed := fun closed => Or.inr (ordered.exited (by rw [here]; nofun) closed) }
  | ended here ended =>
    exact { ordered with
      drained := fun _ => fgets_eq_none_iff.mp ended
      halfClosed := fun closed => Or.inr (ordered.exited (by rw [here]; nofun) closed) }
  | write rest count runs here =>
    -- The client still sends, so its direction is open and the server in its loop.
    have unclosed : ¬ session.toServer.closed = true := by
      intro closed
      have exited := ordered.exited (by rw [here]; nofun) closed
      rw [runs] at exited
      nomatch exited
    exact { ordered with
      drained := False.elim
      halfClosed := fun closed => absurd closed unclosed
      served := fun gone => absurd (ordered.served gone).1 unclosed }
  | written here =>
    exact { ordered with
      drained := False.elim
      halfClosed := fun closed => Or.inr (ordered.exited (by rw [here]; nofun) closed) }
  | shutdown here =>
    exact { ordered with
      drained := fun _ => ordered.drained (here ▸ trivial)
      halfClosed := fun _ => Or.inl rfl
      served := fun gone => ⟨rfl, (ordered.served gone).2⟩ }
  | byte n stored byte rest here queued =>
    have counted := ordered.counted n stored here
    rcases strCliNext_byte counted byte with again | print
    · rw [again]
      refine { ordered with counted := fun m line same => ?_, ended := nofun }
      cases same
      rw [counted, List.length_append, List.length_singleton]
    · rw [print]
      exact { ordered with counted := nofun, ended := nofun }
  | lineEnd n stored here empty closed =>
    rcases strCliNext_eof (ordered.counted n stored here) with print | ⟨-, returned⟩
    · rw [print]
      exact { ordered with counted := nofun, ended := nofun }
    · rw [returned]
      exact { ordered with counted := nofun, ended := fun _ => ⟨closed, empty⟩ }
  | fputs line here =>
    refine { ordered with counted := fun n stored same => ?_, ended := nofun }
    cases same
    rfl
  | exit here =>
    exact { ordered with
      halfClosed := fun _ => Or.inr rfl
      served := fun gone => ⟨rfl, (ordered.served gone).2⟩ }
  | receive count here =>
    exact { ordered with
      served := False.elim
      hungUp := fun closed => Or.inr (ordered.stopped (by rw [here]; nofun) closed) }
  | eof here closed empty =>
    exact { ordered with
      served := fun _ => ⟨closed, empty⟩
      hungUp := fun gone => Or.inr (ordered.stopped (by rw [here]; nofun) gone) }
  | interrupt => exact ordered
  | send rest count runs here =>
    -- The server still sends, so its direction is open and `str_cli` in its loop.
    have unclosed : ¬ session.toClient.closed = true := by
      intro closed
      have stopped := ordered.stopped (by rw [here]; nofun) closed
      rw [runs] at stopped
      nomatch stopped
    exact { ordered with
      served := False.elim
      hungUp := fun closed => absurd closed unclosed
      ended := fun returned => absurd (ordered.ended returned).1 unclosed }
  | sent here =>
    exact { ordered with
      served := False.elim
      hungUp := fun closed => Or.inr (ordered.stopped (by rw [here]; nofun) closed) }
  | close here =>
    exact { ordered with
      served := fun _ => ordered.served (here ▸ trivial)
      hungUp := fun _ => Or.inl rfl
      ended := fun returned => ⟨rfl, (ordered.ended returned).2⟩ }
  | failClient =>
    exact { ordered with
      halfClosed := fun _ => Or.inr rfl
      served := fun gone => ⟨rfl, (ordered.served gone).2⟩
      alive := fun _ => rfl }
  | failServer =>
    exact { ordered with
      hungUp := fun _ => Or.inr rfl
      ended := fun returned => ⟨rfl, (ordered.ended returned).2⟩
      alive := fun _ => rfl }

theorem ordered_of_reachable {server : EchoServer} {input : List UInt8} {session : Session}
    (reached : (machine server input).Reachable session) : session.Ordered := by
  refine reached.invariant Ordered (ordered_start input)
    fun current action next ordered taken => ?_
  exact ordered.moves (moves_of_step taken)

/-! ### The bytes -/

/-- Bytes that move from the front of one place to the back of the place before it. -/
theorem hand_over (front whole back : List UInt8) (count : Nat) :
    (front ++ whole.take count) ++ (whole.drop count ++ back) = front ++ (whole ++ back) := by
  rw [List.append_assoc, ← List.append_assoc (whole.take count), List.take_append_drop]

theorem nulFree_of_bytes {session : Session} {input part : List UInt8}
    (nulFree : NulFree input) (whole : session.bytes = input) (within : part ⊆ session.bytes) :
    NulFree part :=
  fun byte member => nulFree byte (whole ▸ within member)

theorem bytes_of_moves {server : EchoServer} {session next : Session} {input : List UInt8}
    (nulFree : NulFree input) (ordered : session.Ordered) (whole : session.bytes = input)
    (moves : Moves server session next) : next.bytes = input := by
  refine Eq.trans ?_ whole
  cases moves with
  | fgets sendline rest here line =>
    have split := append_of_fgets line
    have string : cString sendline = sendline := by
      refine cString_of_nulFree (nulFree_of_bytes nulFree whole fun byte member => ?_)
      simp only [bytes, List.mem_append, ← split, member, true_or, or_true]
    simp only [bytes, here, Copyto.held, string, ← split, List.nil_append]
  | ended here ended => simp only [bytes, here, Copyto.held]
  | write rest count runs here =>
    simp only [bytes, here, Copyto.held]
    rw [hand_over]
  | written here => simp only [bytes, here, Copyto.held]
  | shutdown here => simp only [bytes, here, Copyto.held]
  | byte n stored byte rest here queued =>
    have held :
        (strCliNext (readline maxLine n stored (.ofByte byte))).held = stored ++ [byte] := by
      rcases strCliNext_byte (ordered.counted n stored here) byte with again | print
      · rw [again]
        rfl
      · rw [print]
        rfl
    have before : session.strCli.held = stored := by rw [here]; rfl
    simp only [bytes, held, before, queued, List.append_assoc, List.cons_append, List.nil_append]
  | lineEnd n stored here empty closed =>
    have held : (strCliNext (readline maxLine n stored .eof)).held = stored := by
      rcases strCliNext_eof (ordered.counted n stored here) with print | ⟨nothing, returned⟩
      · rw [print]
        rfl
      · rw [returned, nothing]
        rfl
    have before : session.strCli.held = stored := by rw [here]; rfl
    simp only [bytes, held, before]
  | fputs line here =>
    have string : cString line = line := by
      refine cString_of_nulFree (nulFree_of_bytes nulFree whole fun byte member => ?_)
      simp only [bytes, here, StrCli.held, List.mem_append, member, true_or, or_true]
    simp only [bytes, here, StrCli.held, string, List.append_assoc, List.nil_append]
  | exit here => rfl
  | receive count here =>
    simp only [bytes, here, Echo.held, List.nil_append]
    have moved := hand_over [] session.toServer.queue (session.copyto.held ++ session.stdin) count
    simp only [List.nil_append] at moved
    rw [moved]
  | eof here closed empty => simp only [bytes, here, Echo.held]
  | interrupt => rfl
  | send rest count runs here =>
    simp only [bytes, here, Echo.held]
    rw [hand_over]
  | sent here => simp only [bytes, here, Echo.held]
  | close here => simp only [bytes, here, Echo.held]
  | failClient => rfl
  | failServer => rfl

theorem bytes_of_reachable {server : EchoServer} {input : List UInt8} {session : Session}
    (nulFree : NulFree input) (reached : (machine server input).Reachable session) :
    session.bytes = input := by
  refine reached.induction (fun session => session.bytes = input) rfl
    fun current action next before whole taken => ?_
  exact bytes_of_moves nulFree (ordered_of_reachable before) whole (moves_of_step taken)

/-- Once `str_cli` has returned and `copyto` has shut down, everything is printed. -/
theorem Ordered.bytes_eq_stdout {session : Session} (ordered : session.Ordered)
    (returned : session.strCli = .returned) (done : session.copyto = .done)
    (unfailed : session.failed = false) : session.bytes = session.stdout := by
  obtain ⟨closed, empty⟩ := ordered.ended returned
  have left : session.echo = .closed := by
    refine (ordered.hungUp closed).resolve_right fun stopped => ?_
    have failed := ordered.alive stopped
    rw [unfailed] at failed
    nomatch failed
  have received := (ordered.served (left ▸ trivial)).2
  have drained := ordered.drained (done ▸ trivial)
  simp only [bytes, returned, StrCli.held, empty, left, Echo.held, received, done, Copyto.held,
    drained, List.append_nil]

/-- An echo session with either server, on a standard input without NUL bytes: what has been
printed is a prefix of the standard input at every moment of every run, and it is the whole
standard input once `str_cli` has returned, `copyto` has shut down and no process has failed. -/
theorem echo_delivers (server : EchoServer) (input : List UInt8) (nulFree : NulFree input)
    (session : Session) (reached : (machine server input).Reachable session) :
    session.stdout <+: input ∧
      (session.strCli = .returned → session.copyto = .done → session.failed = false →
        session.stdout = input) := by
  have whole := bytes_of_reachable nulFree reached
  refine ⟨⟨_, whole⟩, fun returned done unfailed => ?_⟩
  rw [← (ordered_of_reachable reached).bytes_eq_stdout returned done unfailed, whole]

/-- A line and an unfinished line. -/
def twoLines : List UInt8 := [104, 105, 10, 33]

/-- A run in small pieces: the first line goes out in two writes, the server is interrupted, echoes
two bytes and then the rest, and both ends close. -/
def twoLinesRun : List Action :=
  [.copyto 0, .copyto 2, .receive 1, .copyto 1, .server 1, .server 0, .interrupt, .copyto 0,
    .copyto 0, .strCli, .receive 2, .server 1, .copyto 1, .server 1, .server 0, .copyto 0,
    .copyto 0, .copyto 0, .strCli, .strCli, .strCli, .receive 1, .server 1, .server 0, .eof,
    .server 0, .strCli, .strCli, .strCli, .strCli]

/-- Both servers echo it whole. -/
theorem echo_delivers_run :
    (((machine .fork twoLines).after twoLinesRun).strCli = .returned ∧
      ((machine .fork twoLines).after twoLinesRun).stdout = twoLines) ∧
    ((machine .asio twoLines).after twoLinesRun).strCli = .returned ∧
      ((machine .asio twoLines).after twoLinesRun).stdout = twoLines := by
  have returned : ((machine .fork twoLines).after twoLinesRun).strCli = .returned := by decide
  have returnedToo : ((machine .asio twoLines).after twoLinesRun).strCli = .returned := by decide
  exact ⟨⟨returned, (echo_delivers .fork twoLines (by decide) _
      (Machine.reachable_after twoLinesRun (by decide))).2 returned (by decide) (by decide)⟩,
    returnedToo, (echo_delivers .asio twoLines (by decide) _
      (Machine.reachable_after twoLinesRun (by decide))).2 returnedToo (by decide) (by decide)⟩

end Session

end SocketC
