/-
This file models the message queue of `unpv22e/my_pxmsg_mmap`: a POSIX message queue in a
file that every process maps. The file starts with a header, `mymq_hdr`, and holds
`mq_maxmsg` slots of equal size behind it. A slot is a header `mymsg_hdr` and room for
the bytes of one message. All slots are on one of two linked lists, whose links are byte
offsets into the file with 0 for the end: the messages, sorted by priority, and the free
slots. `mymq_send` takes a free slot and walks the sorted list for the place of the new
message; `mymq_receive` takes the first message and frees its slot.

Both run under `mqh_lock`, and wait on one condition variable, `mqh_wait`: senders for
room and receivers for a message. A call is one action up to its return or its wait. A
process may have asked with `mymq_notify` to be signalled when a message arrives on an
empty queue.

The sizes of the C structures are a parameter. The walk is given fuel; that it comes to
an end is proved, and so is that `err_dump` is not reached.
-/

import SocketC.Transition
import SocketC.Monitor
import SocketC.Priority
import SocketC.Staging
import Mathlib.Data.UInt
import Mathlib.Order.Interval.Finset.Nat

namespace SocketC

open Monitor

/-! ### The mapped file -/

/-- The sizes of the C structures and of the types of `msg_next`, `msg_len` and `msg_prio`, which
a `mymsg_hdr` has room for. -/
structure MqLayout where
  mqHdr : Nat
  msgHdr : Nat
  long : Nat
  ssize : Nat
  uint : Nat
  mqHdr_pos : 0 < mqHdr
  long_pos : 0 < long
  msgHdr_holds : long + ssize + uint ≤ msgHdr

/-- The attributes of a queue that `mymq_open` accepts (lines 51-54). -/
structure MqAttr where
  maxmsg : Nat
  msgsize : Nat
  maxmsg_pos : 0 < maxmsg
  msgsize_pos : 0 < msgsize

/-- The sizes on a machine with 64-bit words. -/
def MqLayout.lp64 : MqLayout := ⟨216, 24, 8, 8, 4, Nat.succ_pos _, Nat.succ_pos _, by decide⟩

/-- `defattr`. -/
def MqAttr.default : MqAttr := ⟨128, 1024, Nat.succ_pos _, Nat.succ_pos _⟩

namespace MqLayout

/-- `MSGSIZE`. -/
def roundUp (layout : MqLayout) (size : Nat) : Nat :=
  (size + layout.long - 1) / layout.long * layout.long

/-- The distance of one slot from the next. -/
def stride (layout : MqLayout) (attr : MqAttr) : Nat :=
  layout.msgHdr + layout.roundUp attr.msgsize

/-- The size of the file, and of its mapping (lines 60-61). -/
def filesize (layout : MqLayout) (attr : MqAttr) : Nat :=
  layout.mqHdr + attr.maxmsg * layout.stride attr

/-- The offsets of all slots. -/
def slots (layout : MqLayout) (attr : MqAttr) : List Nat :=
  (List.range attr.maxmsg).map fun number => layout.mqHdr + number * layout.stride attr

/-- The bytes of the members of the slot header at this offset. -/
def headerBytes (layout : MqLayout) (index : Nat) : Finset Nat :=
  Finset.Ico index (index + (layout.long + layout.ssize + layout.uint))

/-- The bytes that the message in the slot at this offset can take. -/
def dataBytes (layout : MqLayout) (attr : MqAttr) (index : Nat) : Finset Nat :=
  Finset.Ico (index + layout.msgHdr) (index + layout.msgHdr + attr.msgsize)

/-- The bytes of the file that are used for the slot at this offset. -/
def slotBytes (layout : MqLayout) (attr : MqAttr) (index : Nat) : Finset Nat :=
  layout.headerBytes index ∪ layout.dataBytes attr index

end MqLayout

/-- `mymsg_hdr`. -/
structure MsgHdr where
  next : Nat
  len : Nat
  prio : Nat
  deriving DecidableEq

/-- A message as its sender and its receiver see it. -/
structure MqMessage where
  prio : Nat
  data : List UInt8
  deriving DecidableEq

/-- `mqh_event`, as far as it is read. -/
inductive SigEvent where
  | signal
  | none
  deriving DecidableEq

/-- The mapped file: the header, the slot headers by their offsets, and the other bytes. -/
structure Mymq where
  curmsgs : Nat
  head : Nat
  free : Nat
  nwait : Nat
  pid : Nat
  event : SigEvent
  msg : Nat → MsgHdr
  bytes : Nat → UInt8

namespace Mymq

variable (layout : MqLayout) (attr : MqAttr)

/-- The loop of `mymq_open` that links the free slots (lines 93-97): the index it ends with and
the slot headers. -/
def linkFree : Nat → Nat → (Nat → MsgHdr) → Nat × (Nat → MsgHdr)
  | 0, index, msg => (index, msg)
  | count + 1, index, msg =>
    linkFree count (index + layout.stride attr)
      (Function.update msg index { msg index with next := index + layout.stride attr })

/-- `mymq_open` of a queue that does not exist (lines 82-99); a new file reads as zeros. -/
def create : Mymq :=
  let linked := linkFree layout attr (attr.maxmsg - 1) layout.mqHdr fun _ => ⟨0, 0, 0⟩
  { curmsgs := 0
    head := 0
    free := layout.mqHdr
    nwait := 0
    pid := 0
    event := .none
    msg := Function.update linked.2 linked.1 { linked.2 linked.1 with next := 0 }
    bytes := fun _ => 0 }

/-- The message in a slot. -/
def message (queue : Mymq) (index : Nat) : MqMessage :=
  ⟨(queue.msg index).prio, copyOut queue.bytes (index + layout.msgHdr) (queue.msg index).len⟩

/-- Sets `msg_next` of a slot. -/
def setNext (queue : Mymq) (index next : Nat) : Mymq :=
  { queue with msg := Function.update queue.msg index { queue.msg index with next } }

/-- `mymq_send`, lines 58-62: the first free slot is filled and taken off the free list. -/
def fill (queue : Mymq) (message : MqMessage) : Mymq :=
  { queue with
    msg := Function.update queue.msg queue.free
      ⟨(queue.msg queue.free).next, message.data.length, message.prio⟩
    bytes := copyIn queue.bytes (queue.free + layout.msgHdr) message.data
    free := (queue.msg queue.free).next }

/-- The walk of `mymq_send` (lines 65-76), from `index` with `pmsghdr` at `previous`, where
`none` is the list's head in the header: where it stops. -/
def place (queue : Mymq) (prio : Nat) : Nat → Nat → Option Nat → Option (Nat × Option Nat)
  | 0, _, _ => none
  | fuel + 1, index, previous =>
    if index = 0 then some (0, previous)
    else if prio > (queue.msg index).prio then some (index, previous)
    else place queue prio fuel (queue.msg index).next (some index)

/-- `pmsghdr->msg_next = freeindex`. -/
def linkAfter (queue : Mymq) (previous : Option Nat) (freeindex : Nat) : Mymq :=
  match previous with
  | none => { queue with head := freeindex }
  | some index => queue.setNext index freeindex

/-- `nmsghdr->msg_next = index` and `pmsghdr->msg_next = freeindex` (lines 70-71 and 79-80). -/
def linkIn (queue : Mymq) (freeindex index : Nat) (previous : Option Nat) : Mymq :=
  (queue.setNext freeindex index).linkAfter previous freeindex

/-- What became of a queue: changed, in a walk that does not end, or the process in `err_dump`. -/
inductive Outcome where
  | changed (queue : Mymq)
  | endless
  | dumped

/-- `mymq_send`, lines 56-81 and 85. -/
def insert (queue : Mymq) (message : MqMessage) : Outcome :=
  if queue.free = 0 then .dumped
  else
    let filled := queue.fill layout message
    match filled.place message.prio (attr.maxmsg + 1) filled.head none with
    | none => .endless
    | some (index, previous) =>
      .changed { filled.linkIn queue.free index previous with curmsgs := queue.curmsgs + 1 }

/-- `mymq_receive`, lines 48-60 and 65. -/
def take (queue : Mymq) : Outcome :=
  if queue.head = 0 then .dumped
  else
    let index := queue.head
    let unlinked := { queue with head := (queue.msg index).next }.setNext index queue.free
    .changed { unlinked with free := index, curmsgs := unlinked.curmsgs - 1 }

end Mymq

/-! ### The system -/

/-- Where a thread stands: outside, asleep in `mymq_send` or `mymq_receive`, or woken there and
not yet past `mqh_lock` again. -/
inductive MqThread where
  | running
  | sendWait (message : MqMessage)
  | sendWoken (message : MqMessage)
  | receiveWait
  | receiveWoken
  deriving DecidableEq

namespace MqThread

/-- The thread sleeps on `mqh_wait`. -/
def Asleep : MqThread → Prop
  | .sendWait _ | .receiveWait => True
  | .running | .sendWoken _ | .receiveWoken => False

instance : DecidablePred Asleep
  | .sendWait _ | .receiveWait => .isTrue trivial
  | .running | .sendWoken _ | .receiveWoken => .isFalse id

/-- The message that a thread in `mymq_send` waits to put in. -/
def carries : MqThread → Option MqMessage
  | .sendWait message | .sendWoken message => some message
  | .running | .receiveWait | .receiveWoken => none

/-- The thread is counted in `mqh_nwait`. -/
def receives : MqThread → Nat
  | .receiveWait | .receiveWoken => 1
  | .running | .sendWait _ | .sendWoken _ => 0

/-- What a signal makes of a sleeper. -/
def awaken : MqThread → MqThread
  | .sendWait message => .sendWoken message
  | .receiveWait => .receiveWoken
  | .running => .running
  | .sendWoken message => .sendWoken message
  | .receiveWoken => .receiveWoken

end MqThread

/-- The errors of the two calls. -/
inductive MqError where
  | EMSGSIZE
  | EAGAIN
  deriving DecidableEq

/-- The process in `err_dump`, in a walk without end, or neither. -/
inductive MqStatus where
  | running
  | endless
  | dumped
  deriving DecidableEq

/-- The queue and the threads that use it. `nonblock` is `O_NONBLOCK` in each thread's
`mqi_flags` and `error` what its last call failed with. `history` records the messages that
`mymq_send` put in and `mymq_receive` took out, `signalled` the processes that were notified. -/
structure MqSystem (threads : Nat) where
  queue : Mymq
  thread : Fin threads → MqThread
  nonblock : Fin threads → Bool
  error : Fin threads → Option MqError
  status : MqStatus
  history : List (Priority.Event MqMessage)
  signalled : List Nat

namespace MqSystem

variable {threads : Nat} (layout : MqLayout) (attr : MqAttr)

def start (threads : Nat) : MqSystem threads where
  queue := Mymq.create layout attr
  thread := fun _ => .running
  nonblock := fun _ => false
  error := fun _ => none
  status := .running
  history := []
  signalled := []

/-- A call returns -1. -/
def fail (system : MqSystem threads) (index : Fin threads) (error : MqError) : MqSystem threads :=
  { system with
    thread := Function.update system.thread index .running
    error := Function.update system.error index (some error) }

/-- A call returns with the queue changed. -/
def finish (system : MqSystem threads) (index : Fin threads) (queue : Mymq)
    (event : Priority.Event MqMessage) : MqSystem threads :=
  { system with
    queue
    thread := Function.update system.thread index .running
    error := Function.update system.error index none
    history := system.history ++ [event] }

/-- A thread goes to sleep, or back to sleep. -/
def sleep (system : MqSystem threads) (index : Fin threads) (wait : MqThread) : MqSystem threads :=
  { system with thread := Function.update system.thread index wait }

def setNwait (system : MqSystem threads) (nwait : Nat) : MqSystem threads :=
  { system with queue := { system.queue with nwait } }

/-- `pthread_cond_signal` on `mqh_wait`, if it is called: `woken` are the threads it wakes. -/
def signal (system : MqSystem threads) (called : Prop) [Decidable called]
    (woken : Finset (Fin threads)) : Option (MqSystem threads) :=
  if called then
    if Wakes (fun index => (system.thread index).Asleep) woken then
      some { system with thread := fun index =>
        if index ∈ woken then (system.thread index).awaken else system.thread index }
    else none
  else if woken = ∅ then some system else none

/-- `mymq_send` past its waits, to the return. -/
def deliver (system : MqSystem threads) (index : Fin threads) (message : MqMessage)
    (woken : Finset (Fin threads)) : Option (MqSystem threads) :=
  match system.queue.insert layout attr message with
  | .dumped => some { system with status := .dumped }
  | .endless => some { system with status := .endless }
  | .changed queue =>
    (system.finish index queue (.arrives message)).signal (system.queue.curmsgs = 0) woken

/-- `mymq_receive` past its waits, to the return. -/
def fetch (system : MqSystem threads) (index : Fin threads) (woken : Finset (Fin threads)) :
    Option (MqSystem threads) :=
  match system.queue.take with
  | .dumped => some { system with status := .dumped }
  | .endless => some { system with status := .endless }
  | .changed queue =>
    (system.finish index queue
      (.departs (system.queue.message layout system.queue.head))).signal
        (system.queue.curmsgs = attr.maxmsg) woken

/-- `mymq_send`, lines 35-42: the registered process is signalled and unregistered, unless a
receiver waits. -/
def announce (system : MqSystem threads) : MqSystem threads :=
  if system.queue.pid ≠ 0 ∧ system.queue.nwait = 0 then
    { system with
      queue := { system.queue with pid := 0 }
      signalled := system.signalled ++
        if system.queue.event = .signal then [system.queue.pid] else [] }
  else system

/-- `mymq_send` from its start. -/
def send (system : MqSystem threads) (index : Fin threads) (message : MqMessage)
    (woken : Finset (Fin threads)) : Option (MqSystem threads) :=
  if message.data.length > attr.msgsize then some (system.fail index .EMSGSIZE)
  else if system.queue.curmsgs = 0 then system.announce.deliver layout attr index message woken
  else if system.queue.curmsgs ≥ attr.maxmsg then
    if system.nonblock index then some (system.fail index .EAGAIN)
    else some (system.sleep index (.sendWait message))
  else system.deliver layout attr index message woken

/-- `mymq_receive` from its start, with a buffer of `maxlen` bytes. -/
def receive (system : MqSystem threads) (index : Fin threads) (maxlen : Nat)
    (woken : Finset (Fin threads)) : Option (MqSystem threads) :=
  if maxlen < attr.msgsize then some (system.fail index .EMSGSIZE)
  else if system.queue.curmsgs = 0 then
    if system.nonblock index then some (system.fail index .EAGAIN)
    else some ((system.setNwait (system.queue.nwait + 1)).sleep index .receiveWait)
  else system.fetch layout attr index woken

/-- A woken thread has `mqh_lock` again and tests its loop condition. -/
def resume (system : MqSystem threads) (index : Fin threads) (woken : Finset (Fin threads)) :
    Option (MqSystem threads) :=
  match system.thread index with
  | .sendWoken message =>
    if system.queue.curmsgs ≥ attr.maxmsg then some (system.sleep index (.sendWait message))
    else system.deliver layout attr index message woken
  | .receiveWoken =>
    if system.queue.curmsgs = 0 then some (system.sleep index .receiveWait)
    else (system.setNwait (system.queue.nwait - 1)).fetch layout attr index woken
  | .running | .sendWait _ | .receiveWait => none

/-- `mymq_notify` by process `pid`. `alive` is what `kill` says about the process registered. -/
def notify (system : MqSystem threads) (pid : Nat) (alive : Bool) (event : SigEvent) :
    MqSystem threads :=
  if system.queue.pid ≠ 0 ∧ alive = true then system
  else { system with queue := { system.queue with pid, event } }

/-- `mymq_notify` with a null pointer, by process `pid`; also called by `mymq_close`. -/
def unregister (system : MqSystem threads) (pid : Nat) : MqSystem threads :=
  if system.queue.pid = pid then { system with queue := { system.queue with pid := 0 } }
  else system

/-- A call, or the next event in a wait. -/
inductive Action (threads : Nat) where
  | send (index : Fin threads) (message : MqMessage) (woken : Finset (Fin threads))
  | receive (index : Fin threads) (maxlen : Nat) (woken : Finset (Fin threads))
  | resume (index : Fin threads) (woken : Finset (Fin threads))
  /-- A sleeper wakes without a signal. -/
  | wake (index : Fin threads)
  | notify (pid : Nat) (alive : Bool) (event : SigEvent)
  | unregister (pid : Nat)
  /-- `mymq_setattr` sets or clears `O_NONBLOCK`. -/
  | setattr (index : Fin threads) (nonblock : Bool)

def step (system : MqSystem threads) (action : Action threads) : Option (MqSystem threads) :=
  if system.status ≠ .running then none else
  match action with
  | .send index message woken =>
    if system.thread index = .running then system.send layout attr index message woken else none
  | .receive index maxlen woken =>
    if system.thread index = .running then system.receive layout attr index maxlen woken else none
  | .resume index woken => system.resume layout attr index woken
  | .wake index =>
    if (system.thread index).Asleep then
      some (system.sleep index (system.thread index).awaken)
    else none
  | .notify pid alive event => some (system.notify pid alive event)
  | .unregister pid => some (system.unregister pid)
  | .setattr index nonblock =>
    some { system with nonblock := Function.update system.nonblock index nonblock }

/-- Any number of threads on a queue of any size. -/
def machine (threads : Nat) : Machine (MqSystem threads) (Action threads) where
  start := start layout attr threads
  step := step layout attr

end MqSystem

end SocketC
