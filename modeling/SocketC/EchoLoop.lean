/-
This file models `str_echo`, the loop that the echo servers run for one client.
`server/fork-server.c` and `server/threads-server.c` have it over `recv` and
`Send`, line for line the same, and `server/coroutine_tasks_server.cpp` over
`read_some` and `write`. A turn of the loop is the receive, the branches on what it
returned, and the send; the two libraries report the kernel's answer differently
and the loops branch on it differently, and the first lemmas say that they do the
same with data, with the end of the stream and with an interruption.
-/

import Mathlib.Tactic

namespace SocketC

/-- The two servers. -/
inductive EchoServer where
  /-- `fork-server.c`. -/
  | fork
  /-- `coroutine_tasks_server.cpp`. -/
  | asio
  deriving DecidableEq

/-- The size of the server's `buf`. -/
def EchoServer.bufferSize : EchoServer → Nat
  | .fork => 1024
  | .asio => 4096

/-- What the kernel answers to a receive. -/
inductive Received where
  | data (bytes : List UInt8)
  | eof
  | interrupted
  | error

/-- What the loop does next. -/
inductive EchoNext where
  | send (bytes : List UInt8)
  | receive
  | leave
  | errSys

/-- The branches of lines 139-152 of `fork-server.c`, by `n` and `errno`. -/
def forkEcho (n : Int) (eintr : Bool) (buf : List UInt8) : EchoNext :=
  if 0 < n then .send (buf.take n.toNat)
  else if n = 0 then .leave
  else if n < 0 ∧ eintr = true then .receive
  else .errSys

/-- The values of `ec` that the second loop tells apart. -/
inductive ErrorCode where
  | success
  | eof
  | interrupted
  | other
  deriving DecidableEq

/-- The branches of lines 118-136 of `coroutine_tasks_server.cpp`, by `n` and `ec`. -/
def asioEcho (n : Nat) (ec : ErrorCode) (buf : List UInt8) : EchoNext :=
  if ec = .success ∧ 0 < n then .send (buf.take n)
  else if ec = .eof then .leave
  else if ec = .interrupted then .receive
  else .leave

/-- One turn of `str_echo`, by the kernel's answer as `recv` or `read_some` reports it. -/
def strEcho : EchoServer → Received → EchoNext
  | .fork, .data bytes => forkEcho bytes.length false bytes
  | .fork, .eof => forkEcho 0 false []
  | .fork, .interrupted => forkEcho (-1) true []
  | .fork, .error => forkEcho (-1) false []
  | .asio, .data bytes => asioEcho bytes.length .success bytes
  | .asio, .eof => asioEcho 0 .eof []
  | .asio, .interrupted => asioEcho 0 .interrupted []
  | .asio, .error => asioEcho 0 .other []

/-- Both loops echo what they receive, -/
theorem strEcho_data (server : EchoServer) {bytes : List UInt8} (nonempty : bytes ≠ []) :
    strEcho server (.data bytes) = .send bytes := by
  have positive : 0 < bytes.length := List.length_pos_iff.mpr nonempty
  cases server with
  | fork =>
    rw [strEcho, forkEcho, if_pos (by omega), Int.toNat_natCast, List.take_length]
  | asio => rw [strEcho, asioEcho, if_pos ⟨rfl, positive⟩, List.take_length]

/-- end at the end of the stream, -/
theorem strEcho_eof (server : EchoServer) : strEcho server .eof = .leave := by
  cases server <;> rfl

/-- and try an interrupted receive again. -/
theorem strEcho_interrupted (server : EchoServer) : strEcho server .interrupted = .receive := by
  cases server <;> rfl

end SocketC
