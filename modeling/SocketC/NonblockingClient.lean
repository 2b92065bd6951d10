/-
This file models `str_cli` of `unpv13e/nonblock/strclinonb.c`, the echo client that never
blocks in a read or a write; the same function stands, commented out, in the project's own
`client/echo_client.c`. One thread copies the standard input to the socket and the socket
to the standard output through two buffers. A turn of its loop asks `Select` about the
descriptors that it can do something with and then tries up to four calls, each of which
may transfer fewer bytes than asked for or none.

What the kernel does is part of the action: which of the descriptors are ready, how many
bytes a call transfers, whether it fails. The server is arbitrary: it sends what and when
it likes, also between two calls of a turn, and ends its direction at some point.

In every state of every run nothing is lost or doubled in either direction, both marks of
both buffers are in bounds, and the FIN goes out once, after all of the input. At the
end one thing is lost: a server's FIN ends the client at once, whatever is still in the
buffer towards the standard output.
-/

import SocketC.Lines
import SocketC.Staging
import SocketC.Transition
import Mathlib.Data.UInt

namespace SocketC

/-! ### The state -/

/-- Where `str_cli` stands. -/
inductive NonbPlace where
  /-- Line 39. -/
  | select
  /-- Line 42. -/
  | readStdin
  /-- Line 64. -/
  | readSocket
  /-- Line 89. -/
  | writeStdout
  /-- Line 105. -/
  | writeSocket
  | returned
  /-- In `err_quit`. -/
  | terminated
  /-- In `err_sys`. -/
  | failed
  deriving DecidableEq

/-- The two descriptor sets, as far as the program looks at them. -/
structure NonbSets where
  stdin : Bool
  socketRead : Bool
  stdout : Bool
  socketWrite : Bool
  deriving DecidableEq

/-- The client and its surroundings. `toBuf` is the buffer `to` and `frBuf` the buffer `fr`, each
with its two pointers. `unread` is the standard input still to come, `sent` what was
written to the socket and `fins` how often it was shut down; `stream` is what the server has sent
and the client has not read, `closed` whether the server has ended its direction, `answer` all
that the server has sent, and `printed` what was written to the standard output. -/
structure NonbClient where
  place : NonbPlace
  sets : NonbSets
  toBuf : Staging UInt8 maxLine
  frBuf : Staging UInt8 maxLine
  stdineof : Bool
  unread : List UInt8
  sent : List UInt8
  fins : Nat
  stream : List UInt8
  closed : Bool
  answer : List UInt8
  printed : List UInt8

/-- What a nonblocking read does. -/
inductive NonbRead where
  | data (bytes : List UInt8)
  | eof
  | wouldBlock
  | error
  deriving DecidableEq

/-- What a nonblocking write does. -/
inductive NonbWrite where
  | wrote (count : Nat)
  | wouldBlock
  | error
  deriving DecidableEq

namespace NonbClient

/-- The state before the loop, with this standard input. -/
def start (input : List UInt8) : NonbClient where
  place := .select
  sets := ⟨false, false, false, false⟩
  toBuf := .fresh fun _ => 0
  frBuf := .fresh fun _ => 0
  stdineof := false
  unread := input
  sent := []
  fins := 0
  stream := []
  closed := false
  answer := []
  printed := []

/-! ### The turns of the loop -/

/-- The sets given to `Select` (lines 28-37). -/
def asked (client : NonbClient) : NonbSets where
  stdin := !client.stdineof && decide (client.toBuf.iptr < maxLine)
  socketRead := decide (client.frBuf.iptr < maxLine)
  socketWrite := decide (client.toBuf.optr ≠ client.toBuf.iptr)
  stdout := decide (client.frBuf.optr ≠ client.frBuf.iptr)

/-- `Select` leaves some of the descriptors asked for, and at least one. -/
def Selects (client : NonbClient) (ready : NonbSets) : Prop :=
  (ready.stdin = true → client.asked.stdin = true) ∧
    (ready.socketRead = true → client.asked.socketRead = true) ∧
    (ready.stdout = true → client.asked.stdout = true) ∧
    (ready.socketWrite = true → client.asked.socketWrite = true) ∧
    (ready.stdin || ready.socketRead || ready.stdout || ready.socketWrite) = true

instance (client : NonbClient) (ready : NonbSets) : Decidable (client.Selects ready) :=
  inferInstanceAs (Decidable (_ ∧ _))

/-- `Shutdown` (lines 53 and 119). -/
def shutdown (client : NonbClient) : NonbClient := { client with fins := client.fins + 1 }

/-- The read from the standard input (lines 43-61). -/
def readStdin (client : NonbClient) : NonbRead → Option NonbClient
  | .data bytes =>
    if fits : bytes.length ≤ client.toBuf.room then
      if bytes ≠ [] ∧ bytes <+: client.unread then
        some { client with
          place := .readSocket
          toBuf := client.toBuf.fill bytes fits
          unread := client.unread.drop bytes.length
          sets := { client.sets with socketWrite := true } }
      else none
    else none
  | .eof =>
    if client.unread = [] then
      let ended := { client with place := .readSocket, stdineof := true }
      some (if client.toBuf.optr = client.toBuf.iptr then ended.shutdown else ended)
    else none
  | .wouldBlock => some { client with place := .readSocket }
  | .error => some { client with place := .failed }

/-- The read from the socket (lines 65-85). -/
def readSocket (client : NonbClient) : NonbRead → Option NonbClient
  | .data bytes =>
    if fits : bytes.length ≤ client.frBuf.room then
      if bytes ≠ [] ∧ bytes <+: client.stream then
        some { client with
          place := .writeStdout
          frBuf := client.frBuf.fill bytes fits
          stream := client.stream.drop bytes.length
          sets := { client.sets with stdout := true } }
      else none
    else none
  | .eof =>
    if client.stream = [] ∧ client.closed = true then
      some { client with place := if client.stdineof then .returned else .terminated }
    else none
  | .wouldBlock => some { client with place := .writeStdout }
  | .error => some { client with place := .failed }

/-- The write to the standard output (lines 90-102). -/
def writeStdout (client : NonbClient) : NonbWrite → Option NonbClient
  | .wrote count =>
    if there : count ≤ client.frBuf.pending then
      some { client with
        place := .writeSocket
        frBuf := client.frBuf.drain count there
        printed := client.printed ++ client.frBuf.contents.take count }
    else none
  | .wouldBlock => some { client with place := .writeSocket }
  | .error => some { client with place := .failed }

/-- The write to the socket (lines 106-121). -/
def writeSocket (client : NonbClient) : NonbWrite → Option NonbClient
  | .wrote count =>
    if there : count ≤ client.toBuf.pending then
      let written := { client with
        place := .select
        toBuf := client.toBuf.drain count there
        sent := client.sent ++ client.toBuf.contents.take count }
      some (if count = client.toBuf.pending ∧ client.stdineof = true then written.shutdown
        else written)
    else none
  | .wouldBlock => some { client with place := .select }
  | .error => some { client with place := .failed }

/-- What happens next: a call of the client with what the kernel makes of it, a call that is
passed over, or something the server does. -/
inductive Action where
  | select (ready : NonbSets)
  | stdin (result : NonbRead)
  | socketRead (result : NonbRead)
  | stdout (result : NonbWrite)
  | socketWrite (result : NonbWrite)
  | pass
  | serverSends (bytes : List UInt8)
  | serverCloses
  deriving DecidableEq

/-- A call whose descriptor is not set, or that has nothing to write, is passed over. -/
def pass (client : NonbClient) : Option NonbClient :=
  match client.place with
  | .readStdin =>
    if client.sets.stdin then none else some { client with place := .readSocket }
  | .readSocket =>
    if client.sets.socketRead then none else some { client with place := .writeStdout }
  | .writeStdout =>
    if client.sets.stdout ∧ 0 < client.frBuf.pending then none
    else some { client with place := .writeSocket }
  | .writeSocket =>
    if client.sets.socketWrite ∧ 0 < client.toBuf.pending then none
    else some { client with place := .select }
  | .select | .returned | .terminated | .failed => none

def step (client : NonbClient) : Action → Option NonbClient
  | .select ready =>
    if client.place = .select ∧ client.Selects ready then
      some { client with place := .readStdin, sets := ready }
    else none
  | .stdin result =>
    if client.place = .readStdin ∧ client.sets.stdin = true then client.readStdin result else none
  | .socketRead result =>
    if client.place = .readSocket ∧ client.sets.socketRead = true then client.readSocket result
    else none
  | .stdout result =>
    if client.place = .writeStdout ∧ client.sets.stdout = true ∧ 0 < client.frBuf.pending then
      client.writeStdout result
    else none
  | .socketWrite result =>
    if client.place = .writeSocket ∧ client.sets.socketWrite = true ∧ 0 < client.toBuf.pending then
      client.writeSocket result
    else none
  | .pass => client.pass
  | .serverSends bytes =>
    if client.closed then none
    else some { client with
      stream := client.stream ++ bytes
      answer := client.answer ++ bytes }
  | .serverCloses => if client.closed then none else some { client with closed := true }

/-- The client with this standard input. -/
def machine (input : List UInt8) : Machine NonbClient Action where
  start := start input
  step := step

/-! ### What holds throughout -/

/-- Nothing is lost or doubled in either direction, and the FIN is sent when the input has ended
and all of it is out. -/
structure Flows (input : List UInt8) (client : NonbClient) : Prop where
  outward : client.sent ++ client.toBuf.contents ++ client.unread = input
  inward : client.printed ++ client.frBuf.contents ++ client.stream = client.answer
  primedTo : client.toBuf.Primed
  primedFr : client.frBuf.Primed
  ended : client.stdineof = true → client.unread = []
  fins : client.fins = if client.stdineof = true ∧ client.toBuf.pending = 0 then 1 else 0

/-- A read is called only with room for a byte and, from the standard input, before its end. What
is known where the client has ended. -/
structure Poised (client : NonbClient) : Prop where
  stdin : client.place = .readStdin → client.sets.stdin = true →
    client.stdineof = false ∧ 0 < client.toBuf.room
  socket : client.place = .readStdin ∨ client.place = .readSocket →
    client.sets.socketRead = true → 0 < client.frBuf.room
  returned : client.place = .returned → client.stdineof = true ∧ client.closed = true ∧
    client.stream = [] ∧ 0 < client.frBuf.room
  terminated : client.place = .terminated → client.stdineof = false ∧ client.closed = true ∧
    client.stream = []

theorem flows_start (input : List UInt8) : (start input).Flows input where
  outward := rfl
  inward := rfl
  primedTo := Staging.primed_fresh _
  primedFr := Staging.primed_fresh _
  ended := fun impossible => by cases impossible
  fins := rfl

/-- At the other places there is nothing to know. -/
theorem poised_of_place {client : NonbClient}
    (elsewhere : client.place ∈ [NonbPlace.select, .writeStdout, .writeSocket, .failed]) :
    client.Poised := by
  have noRead : client.place ≠ .readStdin ∧ client.place ≠ .readSocket ∧
      client.place ≠ .returned ∧ client.place ≠ .terminated := by
    revert elsewhere
    cases client.place <;> decide
  exact ⟨fun place => absurd place noRead.1,
    fun place => absurd place (not_or.mpr ⟨noRead.1, noRead.2.1⟩),
    fun place => absurd place noRead.2.2.1, fun place => absurd place noRead.2.2.2⟩

theorem poised_readSocket {client : NonbClient} (place : client.place = .readSocket)
    (socket : client.sets.socketRead = true → 0 < client.frBuf.room) : client.Poised where
  stdin := by simp [place]
  socket := fun _ => socket
  returned := by simp [place]
  terminated := by simp [place]

theorem append_take_drop {front pending rest bytes : List UInt8} (isPrefix : bytes <+: rest) :
    front ++ (pending ++ bytes) ++ rest.drop bytes.length = front ++ pending ++ rest := by
  obtain ⟨back, rfl⟩ := isPrefix
  simp only [List.drop_left, List.append_assoc]

theorem pending_eq_zero_iff (buffer : Staging UInt8 maxLine) :
    buffer.optr = buffer.iptr ↔ buffer.pending = 0 := by
  have ordered := buffer.ordered
  unfold Staging.pending
  omega

section Calls

variable {input : List UInt8} {client next : NonbClient}

theorem readStdin_keeps (flows : client.Flows input) (poised : client.Poised)
    (place : client.place = .readStdin) (isSet : client.sets.stdin = true) {result : NonbRead}
    (taken : client.readStdin result = some next) : next.Flows input ∧ next.Poised := by
  obtain ⟨notEnded, -⟩ := poised.stdin place isSet
  have noFin : client.fins = 0 := by
    rw [flows.fins, notEnded]
    rfl
  have socket := poised.socket (Or.inl place)
  cases result with
  | data bytes =>
    obtain ⟨fits, taken⟩ := Option.dite_none_right_eq_some.mp taken
    obtain ⟨⟨-, isPrefix⟩, taken⟩ := Option.ite_none_right_eq_some.mp taken
    obtain rfl := Option.some.inj taken
    refine ⟨⟨?_, flows.inward, flows.primedTo.fill bytes fits, flows.primedFr, ?_, ?_⟩,
      poised_readSocket rfl socket⟩
    · dsimp only
      rw [Staging.contents_fill, append_take_drop isPrefix]
      exact flows.outward
    · exact fun ended => absurd ended (by simp [notEnded])
    · simp [notEnded, noFin]
  | eof =>
    obtain ⟨atEnd, taken⟩ := Option.ite_none_right_eq_some.mp taken
    obtain rfl := Option.some.inj taken
    split
    · rename_i drained
      exact ⟨⟨flows.outward, flows.inward, flows.primedTo, flows.primedFr, fun _ => atEnd,
        by simp [shutdown, noFin, (pending_eq_zero_iff _).mp drained]⟩,
        poised_readSocket rfl socket⟩
    · rename_i waiting
      exact ⟨⟨flows.outward, flows.inward, flows.primedTo, flows.primedFr, fun _ => atEnd,
        by simp [noFin, mt (pending_eq_zero_iff _).mpr waiting]⟩, poised_readSocket rfl socket⟩
  | wouldBlock =>
    obtain rfl := Option.some.inj taken
    exact ⟨⟨flows.outward, flows.inward, flows.primedTo, flows.primedFr, flows.ended, flows.fins⟩,
      poised_readSocket rfl socket⟩
  | error =>
    obtain rfl := Option.some.inj taken
    exact ⟨⟨flows.outward, flows.inward, flows.primedTo, flows.primedFr, flows.ended, flows.fins⟩,
      poised_of_place (by simp)⟩

theorem readSocket_keeps (flows : client.Flows input) (poised : client.Poised)
    (place : client.place = .readSocket) (isSet : client.sets.socketRead = true)
    {result : NonbRead} (taken : client.readSocket result = some next) :
    next.Flows input ∧ next.Poised := by
  cases result with
  | data bytes =>
    obtain ⟨fits, taken⟩ := Option.dite_none_right_eq_some.mp taken
    obtain ⟨⟨-, isPrefix⟩, taken⟩ := Option.ite_none_right_eq_some.mp taken
    obtain rfl := Option.some.inj taken
    refine ⟨⟨flows.outward, ?_, flows.primedTo, flows.primedFr.fill bytes fits, flows.ended,
      flows.fins⟩, poised_of_place (by simp)⟩
    dsimp only
    rw [Staging.contents_fill, append_take_drop isPrefix]
    exact flows.inward
  | eof =>
    obtain ⟨⟨drained, closed⟩, taken⟩ := Option.ite_none_right_eq_some.mp taken
    obtain rfl := Option.some.inj taken
    refine ⟨⟨flows.outward, flows.inward, flows.primedTo, flows.primedFr, flows.ended,
      flows.fins⟩, ?_⟩
    have room := poised.socket (Or.inr place) isSet
    cases ended : client.stdineof with
    | true => exact ⟨by simp, by simp, fun _ => ⟨rfl, closed, drained, room⟩, by simp⟩
    | false => exact ⟨by simp, by simp, by simp, fun _ => ⟨rfl, closed, drained⟩⟩
  | wouldBlock | error =>
    obtain rfl := Option.some.inj taken
    exact ⟨⟨flows.outward, flows.inward, flows.primedTo, flows.primedFr, flows.ended, flows.fins⟩,
      poised_of_place (by simp)⟩

theorem writeStdout_keeps (flows : client.Flows input) {result : NonbWrite}
    (taken : client.writeStdout result = some next) : next.Flows input ∧ next.Poised := by
  cases result with
  | wrote count =>
    obtain ⟨there, taken⟩ := Option.dite_none_right_eq_some.mp taken
    obtain rfl := Option.some.inj taken
    refine ⟨⟨flows.outward, ?_, flows.primedTo, Staging.primed_drain _ there, flows.ended,
      flows.fins⟩, poised_of_place (by simp)⟩
    dsimp only
    rw [List.append_assoc client.printed, Staging.contents_drain]
    exact flows.inward
  | wouldBlock | error =>
    obtain rfl := Option.some.inj taken
    exact ⟨⟨flows.outward, flows.inward, flows.primedTo, flows.primedFr, flows.ended, flows.fins⟩,
      poised_of_place (by simp)⟩

/-- The FIN follows the last byte of an input that has ended. -/
theorem writeSocket_keeps (flows : client.Flows input) (some_there : 0 < client.toBuf.pending)
    {result : NonbWrite} (taken : client.writeSocket result = some next) :
    next.Flows input ∧ next.Poised := by
  cases result with
  | wrote count =>
    obtain ⟨there, taken⟩ := Option.dite_none_right_eq_some.mp taken
    obtain rfl := Option.some.inj taken
    have noFin : client.fins = 0 := by
      rw [flows.fins, if_neg]
      omega
    have outward : client.sent ++ client.toBuf.contents.take count ++
        (client.toBuf.drain count there).contents ++ client.unread = input := by
      rw [List.append_assoc client.sent, Staging.contents_drain]
      exact flows.outward
    have left := Staging.pending_drain client.toBuf count there
    split
    · rename_i all
      refine ⟨⟨outward, flows.inward, Staging.primed_drain _ there, flows.primedFr, flows.ended,
        ?_⟩, poised_of_place (by simp [shutdown])⟩
      simp only [shutdown, noFin]
      rw [if_pos ⟨all.2, by omega⟩]
    · rename_i notAll
      refine ⟨⟨outward, flows.inward, Staging.primed_drain _ there, flows.primedFr, flows.ended,
        ?_⟩, poised_of_place (by simp)⟩
      dsimp only
      rw [noFin, if_neg]
      rintro ⟨ended, drained⟩
      exact notAll ⟨by omega, ended⟩
  | wouldBlock | error =>
    obtain rfl := Option.some.inj taken
    exact ⟨⟨flows.outward, flows.inward, flows.primedTo, flows.primedFr, flows.ended, flows.fins⟩,
      poised_of_place (by simp)⟩

theorem select_keeps (flows : client.Flows input) {ready : NonbSets}
    (selects : client.Selects ready) :
    ({ client with place := .readStdin, sets := ready } : NonbClient).Flows input ∧
      ({ client with place := .readStdin, sets := ready } : NonbClient).Poised := by
  obtain ⟨stdin, socketRead, -⟩ := selects
  refine ⟨⟨flows.outward, flows.inward, flows.primedTo, flows.primedFr, flows.ended, flows.fins⟩,
    ⟨fun _ isSet => ?_, fun _ isSet => ?_, by simp, by simp⟩⟩
  · have asked := stdin isSet
    simp only [NonbClient.asked, Bool.and_eq_true, Bool.not_eq_true', decide_eq_true_eq] at asked
    exact ⟨asked.1, Nat.sub_pos_of_lt asked.2⟩
  · have asked := socketRead isSet
    simp only [NonbClient.asked, decide_eq_true_eq] at asked
    exact Nat.sub_pos_of_lt asked

theorem pass_keeps (flows : client.Flows input) (poised : client.Poised)
    (taken : client.pass = some next) : next.Flows input ∧ next.Poised := by
  unfold pass at taken
  split at taken
  case h_1 place =>
    obtain ⟨-, taken⟩ := Option.ite_none_left_eq_some.mp taken
    obtain rfl := Option.some.inj taken
    exact ⟨⟨flows.outward, flows.inward, flows.primedTo, flows.primedFr, flows.ended, flows.fins⟩,
      poised_readSocket rfl (poised.socket (Or.inl place))⟩
  case h_2 place | h_3 place | h_4 place =>
    obtain ⟨-, taken⟩ := Option.ite_none_left_eq_some.mp taken
    obtain rfl := Option.some.inj taken
    exact ⟨⟨flows.outward, flows.inward, flows.primedTo, flows.primedFr, flows.ended, flows.fins⟩,
      poised_of_place (by simp)⟩
  all_goals cases taken

end Calls

theorem step_keeps {input : List UInt8} {client next : NonbClient} {action : Action}
    (flows : client.Flows input) (poised : client.Poised)
    (taken : client.step action = some next) : next.Flows input ∧ next.Poised := by
  cases action with
  | select ready =>
    obtain ⟨⟨-, selects⟩, taken⟩ := Option.ite_none_right_eq_some.mp taken
    exact Option.some.inj taken ▸ select_keeps flows selects
  | stdin result =>
    obtain ⟨⟨place, isSet⟩, taken⟩ := Option.ite_none_right_eq_some.mp taken
    exact readStdin_keeps flows poised place isSet taken
  | socketRead result =>
    obtain ⟨⟨place, isSet⟩, taken⟩ := Option.ite_none_right_eq_some.mp taken
    exact readSocket_keeps flows poised place isSet taken
  | stdout result =>
    obtain ⟨-, taken⟩ := Option.ite_none_right_eq_some.mp taken
    exact writeStdout_keeps flows taken
  | socketWrite result =>
    obtain ⟨⟨-, -, some_there⟩, taken⟩ := Option.ite_none_right_eq_some.mp taken
    exact writeSocket_keeps flows some_there taken
  | pass => exact pass_keeps flows poised taken
  | serverSends bytes =>
    obtain ⟨notClosed, taken⟩ := Option.ite_none_left_eq_some.mp taken
    obtain rfl := Option.some.inj taken
    refine ⟨⟨flows.outward, ?_, flows.primedTo, flows.primedFr, flows.ended, flows.fins⟩,
      ⟨poised.stdin, poised.socket, fun place => absurd (poised.returned place).2.1 notClosed,
        fun place => absurd (poised.terminated place).2.1 notClosed⟩⟩
    dsimp only
    rw [← List.append_assoc, flows.inward]
  | serverCloses =>
    obtain ⟨notClosed, taken⟩ := Option.ite_none_left_eq_some.mp taken
    obtain rfl := Option.some.inj taken
    exact ⟨⟨flows.outward, flows.inward, flows.primedTo, flows.primedFr, flows.ended, flows.fins⟩,
      ⟨poised.stdin, poised.socket, fun place => absurd (poised.returned place).2.1 notClosed,
        fun place => absurd (poised.terminated place).2.1 notClosed⟩⟩

theorem keeps_of_reachable {input : List UInt8} {client : NonbClient}
    (reached : (machine input).Reachable client) : client.Flows input ∧ client.Poised :=
  reached.invariant (fun client => client.Flows input ∧ client.Poised)
    ⟨flows_start input, poised_of_place (by simp [machine, start])⟩
    fun _ _ _ keeps taken => step_keeps keeps.1 keeps.2 taken

/-! ### One piece at a time -/

section Scenes

variable {client : NonbClient}

/-- `Select` returns with one descriptor. -/
def onlyStdin : NonbSets := ⟨true, false, false, false⟩

def onlySocket : NonbSets := ⟨false, true, false, false⟩

theorem pending_of_iptr {buffer : Staging UInt8 maxLine} (empty : buffer.iptr = 0) :
    buffer.pending = 0 := by
  rw [Staging.pending, empty, Nat.zero_sub]

theorem room_of_iptr {buffer : Staging UInt8 maxLine} (empty : buffer.iptr = 0) :
    buffer.room = maxLine := by
  rw [Staging.room, empty, Nat.sub_zero]

/-- All of the bytes that came into an empty buffer go out. -/
theorem iptr_drain {buffer : Staging UInt8 maxLine} {count : Nat}
    (there : count ≤ buffer.pending) (all : count = buffer.pending) :
    (buffer.drain count there).iptr = 0 := by
  rw [Staging.drain, if_pos all]
  rfl

theorem contents_of_empty {buffer : Staging UInt8 maxLine} (empty : buffer.iptr = 0)
    {bytes : List UInt8} (fits : bytes.length ≤ buffer.room) :
    (buffer.fill bytes fits).contents = bytes ∧
      (buffer.fill bytes fits).pending = bytes.length := by
  rw [Staging.contents_fill, Staging.pending_fill, pending_of_iptr empty,
    (Staging.contents_eq_nil_iff buffer).mpr (pending_of_iptr empty)]
  exact ⟨rfl, Nat.zero_add _⟩

variable (input : List UInt8)

/-- The client waits in `Select` with both buffers empty and their pointers at the start; it has
sent and printed this, and there is nothing of the server's to read. -/
structure Rests (left out shown : List UInt8) (atEnd : Bool) (client : NonbClient) : Prop where
  reached : (machine input).Reachable client
  place : client.place = .select
  toEmpty : client.toBuf.iptr = 0
  frEmpty : client.frBuf.iptr = 0
  unread : client.unread = left
  sent : client.sent = out
  printed : client.printed = shown
  answer : client.answer = shown
  stream : client.stream = []
  opened : client.closed = false
  ended : client.stdineof = atEnd

theorem rests_start : Rests input input [] [] false (start input) :=
  ⟨Machine.Reachable.start, rfl, rfl, rfl, rfl, rfl, rfl, rfl, rfl, rfl, rfl⟩

variable {input} {left out shown : List UInt8} {atEnd : Bool}

section Steps

variable (reached : (machine input).Reachable client)

include reached

theorem reach_step {next : NonbClient} (action : Action) (taken : client.step action = some next) :
    (machine input).Reachable next :=
  Machine.Leads.step reached action taken

theorem reach_select (ready : NonbSets) (place : client.place = .select)
    (selects : client.Selects ready) :
    (machine input).Reachable { client with place := .readStdin, sets := ready } :=
  reach_step reached (.select ready) (if_pos ⟨place, selects⟩)

theorem reach_stdin {bytes : List UInt8} (fits : bytes.length ≤ client.toBuf.room)
    (place : client.place = .readStdin) (isSet : client.sets.stdin = true)
    (some_there : bytes ≠ []) (isPrefix : bytes <+: client.unread) :
    (machine input).Reachable { client with
      place := .readSocket
      toBuf := client.toBuf.fill bytes fits
      unread := client.unread.drop bytes.length
      sets := { client.sets with socketWrite := true } } := by
  refine reach_step reached (.stdin (.data bytes)) ?_
  rw [step, if_pos ⟨place, isSet⟩, readStdin, dif_pos fits, if_pos ⟨some_there, isPrefix⟩]

theorem reach_stdinEof (place : client.place = .readStdin) (isSet : client.sets.stdin = true)
    (allRead : client.unread = []) (allSent : client.toBuf.optr = client.toBuf.iptr) :
    (machine input).Reachable
      { client with place := .readSocket, stdineof := true, fins := client.fins + 1 } := by
  refine reach_step reached (.stdin .eof) ?_
  rw [step, if_pos ⟨place, isSet⟩, readStdin, if_pos allRead]
  exact congrArg some (if_pos allSent)

theorem reach_socketRead {bytes : List UInt8} (fits : bytes.length ≤ client.frBuf.room)
    (place : client.place = .readSocket) (isSet : client.sets.socketRead = true)
    (some_there : bytes ≠ []) (isPrefix : bytes <+: client.stream) :
    (machine input).Reachable { client with
      place := .writeStdout
      frBuf := client.frBuf.fill bytes fits
      stream := client.stream.drop bytes.length
      sets := { client.sets with stdout := true } } := by
  refine reach_step reached (.socketRead (.data bytes)) ?_
  rw [step, if_pos ⟨place, isSet⟩, readSocket, dif_pos fits, if_pos ⟨some_there, isPrefix⟩]

theorem reach_stdout {count : Nat} (there : count ≤ client.frBuf.pending)
    (place : client.place = .writeStdout) (isSet : client.sets.stdout = true)
    (some_there : 0 < client.frBuf.pending) :
    (machine input).Reachable { client with
      place := .writeSocket
      frBuf := client.frBuf.drain count there
      printed := client.printed ++ client.frBuf.contents.take count } := by
  refine reach_step reached (.stdout (.wrote count)) ?_
  rw [step, if_pos ⟨place, isSet, some_there⟩, writeStdout, dif_pos there]

theorem reach_socketWrite {count : Nat} (there : count ≤ client.toBuf.pending)
    (place : client.place = .writeSocket) (isSet : client.sets.socketWrite = true)
    (some_there : 0 < client.toBuf.pending) (going : client.stdineof = false) :
    (machine input).Reachable { client with
      place := .select
      toBuf := client.toBuf.drain count there
      sent := client.sent ++ client.toBuf.contents.take count } := by
  refine reach_step reached (.socketWrite (.wrote count)) ?_
  have noFin : ¬ (count = client.toBuf.pending ∧ client.stdineof = true) := by
    rw [going]
    exact fun ends => Bool.false_ne_true ends.2
  rw [step, if_pos ⟨place, isSet, some_there⟩, writeSocket, dif_pos there]
  exact congrArg some (if_neg noFin)

/-- The server sends, and ends its direction. -/
theorem reach_serverSends (bytes : List UInt8) (opened : client.closed = false) :
    (machine input).Reachable { client with
      stream := client.stream ++ bytes, answer := client.answer ++ bytes } := by
  refine reach_step reached (.serverSends bytes) ?_
  rw [step, opened, if_neg Bool.false_ne_true]

theorem reach_serverCloses (opened : client.closed = false) :
    (machine input).Reachable { client with closed := true } := by
  refine reach_step reached .serverCloses ?_
  rw [step, opened, if_neg Bool.false_ne_true]

/-- The client finds the server's end after its own. -/
theorem reach_returned (place : client.place = .readSocket)
    (isSet : client.sets.socketRead = true) (drained : client.stream = [])
    (closed : client.closed = true) (ended : client.stdineof = true) :
    (machine input).Reachable { client with place := .returned } := by
  refine reach_step reached (.socketRead .eof) ?_
  rw [step, if_pos ⟨place, isSet⟩, readSocket, if_pos ⟨drained, closed⟩, if_pos ended]

end Steps

theorem selects_onlySocket (room : client.frBuf.iptr < maxLine) : client.Selects onlySocket := by
  simp [Selects, onlySocket, asked, room]

/-- A byte of the input is read and sent. -/
theorem Rests.sends {byte : UInt8} (rests : Rests input (byte :: left) out shown false client) :
    ∃ next, Rests input left (out ++ [byte]) shown false next := by
  have selects : client.Selects onlyStdin := by
    simp [Selects, onlyStdin, asked, rests.ended, rests.toEmpty, maxLine]
  have fits : [byte].length ≤ client.toBuf.room := by
    rw [room_of_iptr rests.toEmpty, List.length_singleton]
    decide
  obtain ⟨contents, pending⟩ := contents_of_empty rests.toEmpty fits
  have all : 1 = (client.toBuf.fill [byte] fits).pending := pending.symm
  have isPrefix : [byte] <+: client.unread := by
    rw [rests.unread]
    exact ⟨left, rfl⟩
  have reached := reach_select rests.reached onlyStdin rests.place selects
  replace reached := reach_stdin reached fits rfl rfl (List.cons_ne_nil _ _) isPrefix
  replace reached := reach_step reached .pass rfl
  replace reached := reach_step reached .pass rfl
  replace reached := reach_socketWrite reached all.le rfl rfl
    (by show 0 < (client.toBuf.fill [byte] fits).pending; omega) rests.ended
  refine ⟨_, reached, rfl, iptr_drain all.le all, rests.frEmpty, ?_, ?_, rests.printed,
    rests.answer, rests.stream, rests.opened, rests.ended⟩
  · show client.unread.drop 1 = left
    rw [rests.unread]
    rfl
  · show client.sent ++ (client.toBuf.fill [byte] fits).contents.take 1 = out ++ [byte]
    rw [rests.sent, contents]
    rfl

/-- The input ends, and the FIN is sent. -/
theorem Rests.ends (rests : Rests input [] out shown false client) :
    ∃ next, Rests input [] out shown true next := by
  have selects : client.Selects onlyStdin := by
    simp [Selects, onlyStdin, asked, rests.ended, rests.toEmpty, maxLine]
  have drained : client.toBuf.optr = client.toBuf.iptr :=
    (pending_eq_zero_iff _).mpr (pending_of_iptr rests.toEmpty)
  have nothing := pending_of_iptr rests.toEmpty
  have reached := reach_select rests.reached onlyStdin rests.place selects
  replace reached := reach_stdinEof reached rfl rfl rests.unread drained
  replace reached := reach_step reached .pass rfl
  replace reached := reach_step reached .pass rfl
  replace reached := reach_step reached .pass rfl
  exact ⟨_, reached, rfl, rests.toEmpty, rests.frEmpty, rests.unread, rests.sent, rests.printed,
    rests.answer, rests.stream, rests.opened, rfl⟩

/-- A byte of the server's is read and printed. -/
theorem Rests.prints (rests : Rests input left out shown atEnd client) (byte : UInt8) :
    ∃ next, Rests input left out (shown ++ [byte]) atEnd next := by
  have fits : [byte].length ≤ client.frBuf.room := by
    rw [room_of_iptr rests.frEmpty, List.length_singleton]
    decide
  obtain ⟨contents, pending⟩ := contents_of_empty rests.frEmpty fits
  have all : 1 = (client.frBuf.fill [byte] fits).pending := pending.symm
  have selects : client.Selects onlySocket := by
    refine selects_onlySocket ?_
    rw [rests.frEmpty]
    decide
  have isPrefix : [byte] <+: client.stream ++ [byte] := by
    rw [rests.stream]
    exact List.prefix_refl _
  have reached := reach_serverSends rests.reached [byte] rests.opened
  replace reached := reach_select reached onlySocket rests.place selects
  replace reached := reach_step reached .pass rfl
  replace reached := reach_socketRead reached fits rfl rfl (List.cons_ne_nil _ _) isPrefix
  replace reached := reach_stdout reached all.le rfl rfl
    (by show 0 < (client.frBuf.fill [byte] fits).pending; omega)
  replace reached := reach_step reached .pass rfl
  refine ⟨_, reached, rfl, rests.toEmpty, iptr_drain all.le all, rests.unread, rests.sent, ?_, ?_,
    ?_, rests.opened, rests.ended⟩
  · show client.printed ++ (client.frBuf.fill [byte] fits).contents.take 1 = shown ++ [byte]
    rw [rests.printed, contents]
    rfl
  · show client.answer ++ [byte] = shown ++ [byte]
    rw [rests.answer]
  · show (client.stream ++ [byte]).drop 1 = []
    rw [rests.stream]
    rfl

/-- The server sends a last piece and its FIN. The client reads the piece, cannot write it at once,
and returns when it finds the FIN. -/
theorem Rests.cutsOff (rests : Rests input left out shown true client) {back : List UInt8}
    (short : back.length < maxLine) :
    ∃ next, (machine input).Reachable next ∧ next.place = .returned ∧ next.sent = out ∧
      next.answer = shown ++ back ∧ next.printed = shown := by
  have roomy : client.frBuf.iptr < maxLine := by
    rw [rests.frEmpty]
    decide
  have reached := reach_serverSends rests.reached back rests.opened
  replace reached := reach_serverCloses reached rests.opened
  replace reached := reach_select reached onlySocket rests.place (selects_onlySocket roomy)
  replace reached := reach_step reached .pass rfl
  have answer : client.answer ++ back = shown ++ back := by rw [rests.answer]
  by_cases nothing : back = []
  · have drained : client.stream ++ back = [] := by rw [rests.stream, nothing, List.append_nil]
    replace reached := reach_returned reached rfl rfl drained rfl rests.ended
    exact ⟨_, reached, rfl, rests.sent, answer, rests.printed⟩
  · have fits : back.length ≤ client.frBuf.room := by
      rw [room_of_iptr rests.frEmpty]
      exact short.le
    have isPrefix : back <+: client.stream ++ back := by
      rw [rests.stream]
      exact List.prefix_refl _
    have some_there : 0 < (client.frBuf.fill back fits).pending := by
      rw [(contents_of_empty rests.frEmpty fits).2]
      exact List.length_pos_iff.mpr nothing
    have roomLeft : (client.frBuf.fill back fits).iptr < maxLine := by
      show client.frBuf.iptr + back.length < maxLine
      rw [rests.frEmpty, Nat.zero_add]
      exact short
    replace reached := reach_socketRead reached fits rfl rfl nothing isPrefix
    replace reached := reach_step reached (.stdout .wouldBlock)
      (by rw [step, if_pos ⟨rfl, rfl, some_there⟩]; rfl)
    replace reached := reach_step reached .pass rfl
    replace reached := reach_select reached onlySocket rfl (selects_onlySocket roomLeft)
    replace reached := reach_step reached .pass rfl
    have drained : (client.stream ++ back).drop back.length = [] := by
      rw [rests.stream]
      exact List.drop_length
    replace reached := reach_returned reached rfl rfl drained rfl rests.ended
    exact ⟨_, reached, rfl, rests.sent, answer, rests.printed⟩

theorem Rests.sends_all (rests : Rests input left out shown false client) :
    ∃ next, Rests input [] (out ++ left) shown false next := by
  induction left generalizing out client with
  | nil => exact ⟨client, by rwa [List.append_nil]⟩
  | cons byte left inductionHypothesis =>
    obtain ⟨next, restsNext⟩ := rests.sends
    obtain ⟨last, restsLast⟩ := inductionHypothesis restsNext
    exact ⟨last, by rwa [List.append_assoc] at restsLast⟩

theorem Rests.prints_all (rests : Rests input left out shown atEnd client) (bytes : List UInt8) :
    ∃ next, Rests input left out (shown ++ bytes) atEnd next := by
  induction bytes generalizing shown client with
  | nil => exact ⟨client, by rwa [List.append_nil]⟩
  | cons byte bytes inductionHypothesis =>
    obtain ⟨next, restsNext⟩ := rests.prints byte
    obtain ⟨last, restsLast⟩ := inductionHypothesis restsNext
    exact ⟨last, by rwa [List.append_assoc] at restsLast⟩

end Scenes

/-! ### What the client conserves, and what a FIN cuts off -/

/-- In every state of every run, whatever the kernel and the server do: the standard input is what
was sent, what is in the buffer and what is still to come; what the server has sent is what was
printed, what is in the other buffer and what is still to be read; the FIN has been sent, once, if
the input has ended and all of it was sent, and otherwise not at all; `Select` is always asked
about the socket or the standard output; and a client that has returned has read all that the
server sent and printed all but what is in the buffer. -/
theorem strclinonb_conserves {input : List UInt8} {client : NonbClient}
    (reached : (machine input).Reachable client) :
    client.sent ++ client.toBuf.contents ++ client.unread = input ∧
      client.printed ++ client.frBuf.contents ++ client.stream = client.answer ∧
      client.fins ≤ 1 ∧ (client.fins = 1 ↔ client.stdineof = true ∧ client.sent = input) ∧
      (client.asked.socketRead || client.asked.stdout) = true ∧
      (client.place = .returned → client.stdineof = true ∧ client.closed = true ∧
        client.printed ++ client.frBuf.contents = client.answer) := by
  obtain ⟨flows, poised⟩ := keeps_of_reachable reached
  have finLe : client.fins ≤ 1 := by
    rw [flows.fins]
    split <;> omega
  have finIff : client.fins = 1 ↔ client.stdineof = true ∧ client.toBuf.pending = 0 := by
    rw [flows.fins]
    split <;> simp_all
  refine ⟨flows.outward, flows.inward, finLe, finIff.trans ?_, ?_, fun place => ?_⟩
  · refine and_congr_right fun ended => ?_
    have outward := flows.outward
    rw [flows.ended ended, List.append_nil] at outward
    rw [← Staging.contents_eq_nil_iff, ← outward, List.self_eq_append_right]
  · rcases flows.primedFr.room_or_pending (by decide) with room | pending
    · have asked : client.frBuf.iptr < maxLine := Nat.lt_of_sub_pos room
      simp [NonbClient.asked, asked]
    · have different : client.frBuf.optr ≠ client.frBuf.iptr := fun same =>
        pending.ne' ((pending_eq_zero_iff _).mp same)
      simp [NonbClient.asked, different]
  · obtain ⟨ended, closed, drained, -⟩ := poised.returned place
    have inward := flows.inward
    rw [drained, List.append_nil] at inward
    exact ⟨ended, closed, inward⟩

/-- A byte typed and sent, the end of the input, and the byte back from a server that then ends. -/
theorem strclinonb_conserves_oneByte :
    ∃ client, (machine [104]).Reachable client ∧ client.place = .returned ∧
      client.answer = [104] ∧ client.printed ++ client.frBuf.contents = client.answer := by
  obtain ⟨typed, restsTyped⟩ := (rests_start [104]).sends_all
  obtain ⟨ended, restsEnded⟩ := restsTyped.ends
  obtain ⟨client, reached, place, -, answer, -⟩ :=
    restsEnded.cutsOff (show [104].length < maxLine by decide)
  exact ⟨client, reached, place, answer, ((strclinonb_conserves reached).2.2.2.2.2 place).2.2⟩

/-- How much of the server's answer a normal return can leave unprinted: for any input, all of it
sent, and any answer, the client can return with the first part printed and the second part not,
exactly if the second part is shorter than the buffer. -/
theorem strclinonb_return_cuts_off_iff (input front back : List UInt8) :
    (∃ client, (machine input).Reachable client ∧ client.place = .returned ∧
        client.sent = input ∧ client.answer = front ++ back ∧ client.printed = front) ↔
      back.length < maxLine := by
  constructor
  · rintro ⟨client, reached, place, -, answer, printed⟩
    obtain ⟨flows, poised⟩ := keeps_of_reachable reached
    obtain ⟨-, -, drained, room⟩ := poised.returned place
    have inward := flows.inward
    rw [drained, List.append_nil, answer, printed, List.append_cancel_left_eq] at inward
    rw [← inward, Staging.length_contents]
    unfold Staging.room at room
    unfold Staging.pending
    omega
  · intro short
    obtain ⟨typed, restsTyped⟩ := (rests_start input).sends_all
    obtain ⟨ended, restsEnded⟩ := restsTyped.ends
    obtain ⟨shown, restsShown⟩ := restsEnded.prints_all front
    exact restsShown.cutsOff short

end NonbClient

end SocketC
