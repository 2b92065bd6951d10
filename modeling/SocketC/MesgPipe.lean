/-
This file is about many senders and one receiver on one pipe. The senders call
`mesg_send`, each on its own messages; the receiver calls `mesg_recv` while there is
data, and others may write between its two reads. A `write` of at most `PIPE_BUF`
bytes is atomic; a longer one goes out in pieces that others may come between. A
`Read` on a pipe that is not empty returns what was asked for or all there is.

The pipe always holds whole records behind what is left of the record that the
receiver is in the middle of, because no valid message is longer than `PIPE_BUF`.
-/

import SocketC.Merge
import SocketC.Mesg
import SocketC.Transition

namespace SocketC

/-- Where the receiver stands in `mesg_recv`. -/
inductive Receiver where
  /-- About to read a header. -/
  | header
  /-- About to read the data that a header has announced. -/
  | data (len type : BitVec 64)
  deriving DecidableEq

/-- The pipe, the senders' messages that are still to be sent, and the receiver with the records
it has returned. `writing` is what is left of a `write` that is not atomic, `error` the call of
`err_quit` that ended the receiver. -/
structure MesgPipe (Sender : Type) where
  outbox : Sender → List Mymesg
  writing : Sender → List UInt8
  pipe : List UInt8
  receiver : Receiver
  received : List MesgRecord
  error : Option MesgError

namespace MesgPipe

variable {Sender : Type} [DecidableEq Sender]

/-- Nothing sent. -/
def start (messages : Sender → List Mymesg) : MesgPipe Sender where
  outbox := messages
  writing := fun _ => []
  pipe := []
  receiver := .header
  received := []
  error := none

/-! ### The actions -/

/-- A sender calls `mesg_send` on its next message. -/
def sendStep (sender : Sender) (state : MesgPipe Sender) : Option (MesgPipe Sender) :=
  if state.writing sender = [] then
    match state.outbox sender with
    | [] => none
    | mesg :: rest =>
      if mesgSendCount mesg ≤ pipeBuf then
        some { state with
          outbox := Function.update state.outbox sender rest
          pipe := state.pipe ++ mesgSend mesg }
      else
        some { state with
          outbox := Function.update state.outbox sender rest
          writing := Function.update state.writing sender (mesgSend mesg) }
  else none

/-- The next `count` bytes of a `write` that is not atomic go out. -/
def writeStep (sender : Sender) (count : Nat) (state : MesgPipe Sender) :
    Option (MesgPipe Sender) :=
  if 0 < count ∧ count ≤ (state.writing sender).length then
    some { state with
      writing := Function.update state.writing sender ((state.writing sender).drop count)
      pipe := state.pipe ++ (state.writing sender).take count }
  else none

/-- The receiver's first `Read`. A header that announces no data ends the call. -/
def headerStep (state : MesgPipe Sender) : Option (MesgPipe Sender) :=
  match readHeader (state.pipe.take mesgHdrSize) with
  | .eof => none
  | .quit error =>
    some { state with pipe := state.pipe.drop mesgHdrSize, error := some error }
  | .header len type =>
    if 0 < len.toNat then
      some { state with pipe := state.pipe.drop mesgHdrSize, receiver := .data len type }
    else
      some { state with
        pipe := state.pipe.drop mesgHdrSize
        received := state.received ++ [⟨len, type, []⟩] }

/-- The receiver's second `Read`. -/
def dataStep (len type : BitVec 64) (state : MesgPipe Sender) : MesgPipe Sender :=
  match readData len type (state.pipe.take len.toNat) with
  | .error error =>
    { state with pipe := state.pipe.drop len.toNat, error := some error }
  | .ok record =>
    { state with
      pipe := state.pipe.drop len.toNat
      receiver := .header
      received := state.received ++ [record] }

/-- The next `Read` of a receiver that has not quit, when there is something to read. -/
def recvStep (state : MesgPipe Sender) : Option (MesgPipe Sender) :=
  if state.error = none ∧ state.pipe ≠ [] then
    match state.receiver with
    | .header => state.headerStep
    | .data len type => some (state.dataStep len type)
  else none

/-- What may happen next. -/
inductive Action (Sender : Type) where
  | send (sender : Sender)
  | write (sender : Sender) (count : Nat)
  | recv

def step (state : MesgPipe Sender) : Action Sender → Option (MesgPipe Sender)
  | .send sender => state.sendStep sender
  | .write sender count => state.writeStep sender count
  | .recv => state.recvStep

/-- The pipe with the given messages to send. -/
def machine (messages : Sender → List Mymesg) : Machine (MesgPipe Sender) (Action Sender) where
  start := start messages
  step := step

/-! ### What is on the pipe -/

/-- The records between the ones returned and the ones to be sent, as pipe and receiver hold
them: whole records, or the data of the first one and then whole records. -/
def Carries (pipe : List UInt8) (transit : List MesgRecord) : Receiver → Prop
  | .header => pipe = (transit.map MesgRecord.encode).flatten
  | .data len type => ∃ data rest, transit = ⟨len, type, data⟩ :: rest ∧ 0 < len.toNat ∧
      pipe = data ++ (rest.map MesgRecord.encode).flatten

theorem Carries.append {pipe : List UInt8} {transit : List MesgRecord} {receiver : Receiver}
    (carries : Carries pipe transit receiver) (record : MesgRecord) :
    Carries (pipe ++ record.encode) (transit ++ [record]) receiver := by
  have last (records : List MesgRecord) :
      ((records ++ [record]).map MesgRecord.encode).flatten =
        (records.map MesgRecord.encode).flatten ++ record.encode := by
    rw [List.map_append, List.flatten_append, List.map_singleton, List.flatten_singleton]
  cases receiver with
  | header =>
    rw [Carries] at carries
    rw [Carries, carries, last]
  | data len type =>
    obtain ⟨data, rest, first, positive, bytes⟩ := carries
    refine ⟨data, rest ++ [record], ?_, positive, ?_⟩
    · rw [first, List.cons_append]
    · rw [bytes, last, List.append_assoc]

/-- An empty pipe carries nothing, and no call is in the middle of its record. -/
theorem Carries.of_empty {transit : List MesgRecord} {receiver : Receiver}
    (carries : Carries [] transit receiver) (wellFormed : ∀ record ∈ transit, record.WellFormed) :
    receiver = .header ∧ transit = [] := by
  cases receiver with
  | header =>
    refine ⟨rfl, ?_⟩
    cases transit with
    | nil => rfl
    | cons record rest =>
      rw [Carries, List.map_cons, List.flatten_cons] at carries
      exact absurd (List.append_eq_nil_iff.mp carries.symm).1 record.encode_ne_nil
  | data len type =>
    obtain ⟨data, rest, first, positive, bytes⟩ := carries
    have sized := (wellFormed ⟨len, type, data⟩ (by rw [first]; exact List.mem_cons_self)).sized
    rw [(List.append_eq_nil_iff.mp bytes.symm).1] at sized
    exact absurd positive (by rw [← sized]; exact lt_irrefl 0)

/-- The invariant: no error, no write in pieces, and an order of the messages sent such that the
records returned and those in transit are theirs. -/
structure Framed (messages : Sender → List Mymesg) (state : MesgPipe Sender)
    (sent : Sender → List Mymesg) (order : List Mymesg) (transit : List MesgRecord) : Prop where
  unbroken : state.error = none
  whole : ∀ sender, state.writing sender = []
  outbox : ∀ sender, sent sender ++ state.outbox sender = messages sender
  merges : Merges sent order
  records : order.map Mymesg.record = state.received ++ transit
  wellFormed : ∀ record ∈ transit, record.WellFormed
  carries : Carries state.pipe transit state.receiver

theorem framed_start (messages : Sender → List Mymesg) :
    Framed messages (start messages) (fun _ => []) [] [] where
  unbroken := rfl
  whole := fun _ => rfl
  outbox := fun _ => rfl
  merges := merges_nil
  records := rfl
  wellFormed := nofun
  carries := rfl

section Steps

variable {messages : Sender → List Mymesg} {state next : MesgPipe Sender}
  {sent : Sender → List Mymesg} {order : List Mymesg} {transit : List MesgRecord}

/-- The messages of a sender, some sent and one about to be sent. -/
theorem outbox_update {outbox : Sender → List Mymesg} {sender : Sender} {mesg : Mymesg}
    {rest : List Mymesg} (split : ∀ other, sent other ++ outbox other = messages other)
    (next : outbox sender = mesg :: rest) (other : Sender) :
    Function.update sent sender (sent sender ++ [mesg]) other ++
      Function.update outbox sender rest other = messages other := by
  by_cases same : other = sender
  · subst same
    rw [Function.update_self, Function.update_self, ← split other, next, List.append_assoc]
    rfl
  · rw [Function.update_of_ne same, Function.update_of_ne same, split other]

/-- A message that is sent joins the end of the order. -/
theorem Framed.send (framed : Framed messages state sent order transit)
    (valid : ∀ sender, ∀ mesg ∈ messages sender, mesg.Valid) {sender : Sender}
    (taken : state.sendStep sender = some next) :
    ∃ sent order transit, Framed messages next sent order transit := by
  rw [sendStep, if_pos (framed.whole sender)] at taken
  split at taken
  · nomatch taken
  · rename_i mesg rest queued
    have known : mesg.Valid := by
      refine valid sender mesg ?_
      rw [← framed.outbox sender, queued]
      exact List.mem_append_right _ List.mem_cons_self
    rw [if_pos (mesgSendCount_le_pipeBuf known), Option.some.injEq] at taken
    subst taken
    refine ⟨Function.update sent sender (sent sender ++ [mesg]), order ++ [mesg],
      transit ++ [mesg.record], { framed with
        outbox := outbox_update framed.outbox queued
        merges := framed.merges.snoc sender mesg
        records := ?_
        wellFormed := ?_
        carries := ?_ }⟩
    · rw [List.map_append, framed.records, List.append_assoc]
      rfl
    · intro record member
      rcases List.mem_append.mp member with earlier | now
      · exact framed.wellFormed record earlier
      · rw [List.mem_singleton.mp now]
        exact known.wellFormed
    · rw [mesgSend_of_valid known]
      exact framed.carries.append mesg.record

/-- Nothing is ever written in pieces. -/
theorem Framed.not_writes (framed : Framed messages state sent order transit) (sender : Sender)
    (count : Nat) : state.writeStep sender count = none := by
  rw [writeStep, framed.whole sender]
  refine if_neg fun both => ?_
  exact absurd (lt_of_lt_of_le both.1 both.2) (lt_irrefl 0)

/-- The first `Read` returns the header of the first record in transit. -/
theorem Framed.header (framed : Framed messages state sent order transit)
    (here : state.receiver = .header) (nonempty : state.pipe ≠ [])
    (taken : state.headerStep = some next) :
    ∃ transit, Framed messages next sent order transit := by
  have carries := framed.carries
  rw [here, Carries] at carries
  cases transit with
  | nil => exact absurd carries nonempty
  | cons record rest =>
    rw [List.map_cons, List.flatten_cons] at carries
    have wellFormed := framed.wellFormed record List.mem_cons_self
    obtain ⟨header, left⟩ := readHeader_encode record (rest.map MesgRecord.encode).flatten
    rw [headerStep, carries, header, left] at taken
    by_cases announces : 0 < record.len.toNat
    · simp only [if_pos announces, Option.some.injEq] at taken
      subst taken
      exact ⟨record :: rest, { framed with carries := ⟨record.data, rest, rfl, announces, rfl⟩ }⟩
    · simp only [if_neg announces, Option.some.injEq] at taken
      subst taken
      have empty : record.data = [] := by
        rw [← List.length_eq_zero_iff, wellFormed.sized]
        exact Nat.eq_zero_of_not_pos announces
      refine ⟨rest, { framed with
        records := ?_
        wellFormed := fun other member => framed.wellFormed other (List.mem_cons_of_mem _ member)
        carries := ?_ }⟩
      · rw [framed.records, List.append_assoc, ← empty]
        rfl
      · rw [here, empty]
        rfl

/-- The second `Read` returns the data of the first record in transit. -/
theorem Framed.data (framed : Framed messages state sent order transit) {len type : BitVec 64}
    (here : state.receiver = .data len type) :
    ∃ transit, Framed messages (state.dataStep len type) sent order transit := by
  have carries := framed.carries
  rw [here, Carries] at carries
  obtain ⟨data, rest, first, -, bytes⟩ := carries
  have sized : data.length = len.toNat :=
    (framed.wellFormed ⟨len, type, data⟩ (by rw [first]; exact List.mem_cons_self)).sized
  have complete : readData len type data = .ok ⟨len, type, data⟩ :=
    if_neg (not_not.mpr sized)
  rw [dataStep, bytes, List.take_left' sized, List.drop_left' sized, complete]
  refine ⟨rest, { framed with
    records := ?_
    wellFormed := fun other member => framed.wellFormed other ?_
    carries := rfl }⟩
  · rw [framed.records, first, List.append_assoc]
    rfl
  · rw [first]
    exact List.mem_cons_of_mem _ member

theorem Framed.step (framed : Framed messages state sent order transit)
    (valid : ∀ sender, ∀ mesg ∈ messages sender, mesg.Valid) {action : Action Sender}
    (taken : state.step action = some next) :
    ∃ sent order transit, Framed messages next sent order transit := by
  cases action with
  | send sender => exact framed.send valid taken
  | write sender count =>
    rw [MesgPipe.step, framed.not_writes] at taken
    nomatch taken
  | recv =>
    simp only [MesgPipe.step, recvStep, Option.ite_none_right_eq_some] at taken
    obtain ⟨⟨-, nonempty⟩, taken⟩ := taken
    split at taken
    · exact ⟨sent, order, framed.header ‹_› nonempty taken⟩
    · rw [← Option.some.inj taken]
      exact ⟨sent, order, framed.data ‹_›⟩

end Steps

/-- Any number of senders, each with valid messages, and one receiver: in every reachable state
the receiver has not quit, and the records it has returned are the first ones of an interleaving
of what the senders have sent. The others are on the pipe; with the pipe empty there are none,
and no call of `mesg_recv` is waiting for its data. -/
theorem messages_framed (messages : Sender → List Mymesg)
    (valid : ∀ sender, ∀ mesg ∈ messages sender, mesg.Valid) (state : MesgPipe Sender)
    (reached : (machine messages).Reachable state) :
    state.error = none ∧ ∃ sent order transit,
      (∀ sender, sent sender ++ state.outbox sender = messages sender) ∧ Merges sent order ∧
      order.map Mymesg.record = state.received ++ transit ∧
      (state.pipe = [] → state.receiver = .header ∧ transit = []) := by
  have framed : ∃ sent order transit, Framed messages state sent order transit := by
    refine reached.invariant
      (fun state => ∃ sent order transit, Framed messages state sent order transit)
      ⟨_, _, _, framed_start messages⟩ fun current action next kept taken => ?_
    obtain ⟨sent, order, transit, framed⟩ := kept
    exact framed.step valid taken
  obtain ⟨sent, order, transit, framed⟩ := framed
  refine ⟨framed.unbroken, sent, order, transit, framed.outbox, framed.merges, framed.records, ?_⟩
  intro empty
  have carries := framed.carries
  rw [empty] at carries
  exact carries.of_empty framed.wellFormed

/-- A message with the given data in front of zeros. -/
def sample (type : BitVec 64) (data : List UInt8) (short : data.length ≤ maxMesgData) : Mymesg where
  mesgLen := BitVec.ofNat 64 data.length
  mesgType := type
  mesgData := data ++ List.replicate (maxMesgData - data.length) 0
  filled := by
    rw [List.length_append, List.length_replicate]
    exact Nat.add_sub_cancel' short

/-- Two senders: one sends two bytes, the other an empty message and then one byte. -/
def samples : Bool → List Mymesg
  | false => [sample 1 [104, 105] (by decide)]
  | true => [sample 2 [] (by decide), sample 3 [33] (by decide)]

/-- The second sender writes between the two reads of the receiver. -/
def samplesRun : List (Action Bool) :=
  [.send false, .recv, .send true, .recv, .recv, .send true, .recv, .recv]

theorem messages_framed_run :
    ((machine samples).after samplesRun).received =
        [⟨2, 1, [104, 105]⟩, ⟨0, 2, []⟩, ⟨1, 3, [33]⟩] ∧
      ((machine samples).after samplesRun).error = none :=
  ⟨by decide, (messages_framed samples (by decide) _
    (Machine.reachable_after samplesRun (by decide))).1⟩

end MesgPipe

end SocketC
