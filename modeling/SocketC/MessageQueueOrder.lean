/-
This file proves that the linked lists in the mapped file are a priority queue. The slots
are at distinct offsets inside the file, far enough apart for a header and the bytes of a
message each, and in every state that any threads reach by any calls each slot is on
exactly one of the two lists. The list of messages, read from `mqh_head`, is sorted by
priority and by arrival: it is the sorted view of the messages that wait. So the walk of
`mymq_send` ends, the two `err_dump` calls are not reached, and what `mymq_receive` hands
out, with its priority and its bytes, is the oldest of the messages with the highest
priority.
-/

import SocketC.MessageQueue
import SocketC.Linked

namespace SocketC

open Linked Priority Monitor

/-! ### The slots -/

namespace MqLayout

variable (layout : MqLayout) (attr : MqAttr)

theorem le_roundUp (size : Nat) : size ≤ layout.roundUp size := by
  have positive := layout.long_pos
  have split := Nat.div_add_mod (size + layout.long - 1) layout.long
  have small := Nat.mod_lt (size + layout.long - 1) positive
  rw [roundUp, Nat.mul_comm]
  omega

theorem msgsize_le_stride : layout.msgHdr + attr.msgsize ≤ layout.stride attr :=
  Nat.add_le_add_left (layout.le_roundUp attr.msgsize) _

theorem stride_pos : 0 < layout.stride attr := by
  have := layout.msgsize_le_stride attr
  have := attr.msgsize_pos
  omega

variable {layout attr}

/-- From one slot to the next there is the room that both need. -/
theorem slots_apart {first second : Nat} (memberFirst : first ∈ layout.slots attr)
    (memberSecond : second ∈ layout.slots attr) (different : first ≠ second) :
    first + layout.stride attr ≤ second ∨ second + layout.stride attr ≤ first := by
  obtain ⟨number, -, rfl⟩ := List.mem_map.mp memberFirst
  obtain ⟨other, -, rfl⟩ := List.mem_map.mp memberSecond
  rcases Nat.lt_trichotomy number other with less | rfl | greater
  · left
    have := Nat.mul_le_mul_right (layout.stride attr) (Nat.succ_le_of_lt less)
    rw [Nat.succ_mul] at this
    omega
  · exact absurd rfl different
  · right
    have := Nat.mul_le_mul_right (layout.stride attr) (Nat.succ_le_of_lt greater)
    rw [Nat.succ_mul] at this
    omega

theorem nodup_slots : (layout.slots attr).Nodup := by
  refine List.Nodup.map ?_ List.nodup_range
  intro first second same
  have same : first * layout.stride attr = second * layout.stride attr := by
    dsimp only at same
    omega
  exact Nat.eq_of_mul_eq_mul_right (layout.stride_pos attr) same

/-- A slot's bytes are inside of what lies between it and the next slot. -/
theorem slotBytes_subset (index : Nat) :
    layout.slotBytes attr index ⊆ Finset.Ico index (index + layout.stride attr) := by
  have holds := layout.msgHdr_holds
  have room := layout.msgsize_le_stride attr
  intro position member
  rcases Finset.mem_union.mp member with header | data
  · have header := Finset.mem_Ico.mp header
    exact Finset.mem_Ico.mpr (by omega)
  · have data := Finset.mem_Ico.mp data
    exact Finset.mem_Ico.mpr (by omega)

/-- The header of a slot, which the model keeps apart from the bytes, shares none with the
message. -/
theorem headerBytes_disjoint_dataBytes (index : Nat) :
    Disjoint (layout.headerBytes index) (layout.dataBytes attr index) := by
  have holds := layout.msgHdr_holds
  refine Finset.disjoint_left.mpr fun position header data => ?_
  have header := Finset.mem_Ico.mp header
  have data := Finset.mem_Ico.mp data
  omega

/-- Two slots have no byte in common. -/
theorem slotBytes_disjoint {first second : Nat} (memberFirst : first ∈ layout.slots attr)
    (memberSecond : second ∈ layout.slots attr) (different : first ≠ second) :
    Disjoint (layout.slotBytes attr first) (layout.slotBytes attr second) := by
  have apart := slots_apart memberFirst memberSecond different
  refine Finset.disjoint_left.mpr fun position inFirst inSecond => ?_
  have inFirst := Finset.mem_Ico.mp (slotBytes_subset first inFirst)
  have inSecond := Finset.mem_Ico.mp (slotBytes_subset second inSecond)
  omega

/-- All slots are in the file, behind its header. -/
theorem slotBytes_within {index : Nat} (member : index ∈ layout.slots attr) :
    layout.slotBytes attr index ⊆ Finset.Ico layout.mqHdr (layout.filesize attr) := by
  obtain ⟨number, counted, rfl⟩ := List.mem_map.mp member
  have last := Nat.mul_le_mul_right (layout.stride attr)
    (Nat.succ_le_of_lt (List.mem_range.mp counted))
  rw [Nat.succ_mul] at last
  refine (slotBytes_subset _).trans (Finset.Ico_subset_Ico (Nat.le_add_right _ _) ?_)
  rw [filesize]
  omega

end MqLayout

namespace Mymq

/-! ### The two lists -/

/-- The successor of a slot on its list. -/
def next (queue : Mymq) (index : Nat) : Nat := (queue.msg index).next

variable (layout : MqLayout) (attr : MqAttr)

/-- The messages are in the slots `used`, in the order of the list, and the slots `frees` are on
the free list. -/
structure Represents (queue : Mymq) (used frees : List Nat) : Prop where
  messages : Chain 0 queue.next queue.head used
  freeSlots : Chain 0 queue.next queue.free frees
  partition : (used ++ frees).Perm (layout.slots attr)
  count : queue.curmsgs = used.length
  fits : ∀ index ∈ used, (queue.msg index).len ≤ attr.msgsize

variable {layout attr} {queue : Mymq} {used frees : List Nat}

theorem Represents.nodup (represents : queue.Represents layout attr used frees) :
    (used ++ frees).Nodup :=
  represents.partition.nodup_iff.mpr MqLayout.nodup_slots

theorem Represents.mem_slots (represents : queue.Represents layout attr used frees) {index : Nat}
    (member : index ∈ used ++ frees) : index ∈ layout.slots attr :=
  represents.partition.mem_iff.mp member

theorem Represents.apart (represents : queue.Represents layout attr used frees) :
    (used ++ frees).Pairwise fun first second =>
      Disjoint (layout.slotBytes attr first) (layout.slotBytes attr second) :=
  represents.nodup.imp_of_mem fun memberFirst memberSecond different =>
    MqLayout.slotBytes_disjoint (represents.mem_slots memberFirst)
      (represents.mem_slots memberSecond) different

theorem Represents.length (represents : queue.Represents layout attr used frees) :
    used.length + frees.length = attr.maxmsg := by
  have length := represents.partition.length_eq
  rwa [List.length_append, MqLayout.slots, List.length_map, List.length_range] at length

theorem Represents.notMem_frees (represents : queue.Represents layout attr used frees) {index : Nat}
    (member : index ∈ used) : index ∉ frees :=
  fun free => (List.nodup_append.mp represents.nodup).2.2 index member index free rfl

theorem next_setNext (queue : Mymq) (index successor : Nat) :
    (queue.setNext index successor).next = Function.update queue.next index successor := by
  funext other
  rcases eq_or_ne other index with rfl | different
  · simp only [next, setNext, Function.update_self]
  · simp only [next, setNext, Function.update_of_ne different]

theorem message_setNext (queue : Mymq) (index successor other : Nat) :
    (queue.setNext index successor).message layout other = queue.message layout other := by
  rcases eq_or_ne other index with rfl | different
  · simp only [message, setNext, Function.update_self]
  · simp only [message, setNext, Function.update_of_ne different]

theorem len_setNext (queue : Mymq) (index successor other : Nat) :
    ((queue.setNext index successor).msg other).len = (queue.msg other).len := by
  rcases eq_or_ne other index with rfl | different
  · simp only [setNext, Function.update_self]
  · simp only [setNext, Function.update_of_ne different]

/-! ### The walk ends -/

/-- The walk stops behind the messages of the same or a higher priority, with `pmsghdr` at the
last of them. -/
theorem place_eq (prio : Nat) {index fuel : Nat} (previous : Option Nat) {nodes : List Nat}
    (chain : Chain 0 queue.next index nodes) (enough : nodes.length < fuel) :
    ∃ stop, queue.place prio fuel index previous =
        some (stop, (ahead (fun node => (queue.msg node).prio) prio nodes).getLast?.or previous) ∧
      Segment 0 queue.next index (ahead (fun node => (queue.msg node).prio) prio nodes) stop ∧
      Chain 0 queue.next stop (behind (fun node => (queue.msg node).prio) prio nodes) := by
  induction nodes generalizing index fuel previous with
  | nil =>
    obtain ⟨fuel, rfl⟩ := Nat.exists_eq_add_one_of_ne_zero (Nat.ne_of_gt enough)
    obtain rfl : index = 0 := chain
    exact ⟨0, rfl, rfl, rfl⟩
  | cons node rest inductionHypothesis =>
    obtain ⟨fuel, rfl⟩ := Nat.exists_eq_add_one_of_ne_zero (Nat.ne_of_gt (Nat.zero_lt_of_lt enough))
    obtain ⟨rfl, real, chainRest⟩ := chain
    rw [place, if_neg real]
    by_cases lower : prio > (queue.msg index).prio
    · have stops : ¬ prio ≤ (queue.msg index).prio := Nat.not_le.mpr lower
      refine ⟨index, ?_, ?_, ?_⟩
      · rw [if_pos lower, ahead, List.takeWhile_cons_of_neg (by simpa using stops)]
        rfl
      · rw [ahead, List.takeWhile_cons_of_neg (by simpa using stops)]
        rfl
      · rw [behind, List.dropWhile_cons_of_neg (by simpa using stops)]
        exact Chain.cons chainRest real
    · have goesOn : prio ≤ (queue.msg index).prio := Nat.not_lt.mp lower
      obtain ⟨stop, stops, way, chainBehind⟩ := inductionHypothesis (some index)
        chainRest (Nat.lt_of_succ_lt_succ enough)
      refine ⟨stop, ?_, ?_, ?_⟩
      · rw [if_neg lower, ahead, List.takeWhile_cons_of_pos (by simpa using goesOn)]
        refine stops.trans ?_
        rw [List.getLast?_cons]
        unfold ahead
        cases (rest.takeWhile fun node => decide (prio ≤ (queue.msg node).prio)).getLast? <;> rfl
      · rw [ahead, List.takeWhile_cons_of_pos (by simpa using goesOn)]
        exact ⟨rfl, real, way⟩
      · rw [behind, List.dropWhile_cons_of_pos (by simpa using goesOn)]
        exact chainBehind

/-! ### A message is linked in -/

theorem message_linkIn (queue : Mymq) (slot stop : Nat) (previous : Option Nat) (index : Nat) :
    (queue.linkIn slot stop previous).message layout index = queue.message layout index := by
  cases previous with
  | none => exact message_setNext queue slot stop index
  | some before => exact (message_setNext _ before slot index).trans (message_setNext _ _ _ _)

theorem len_linkIn (queue : Mymq) (slot stop : Nat) (previous : Option Nat) (index : Nat) :
    ((queue.linkIn slot stop previous).msg index).len = (queue.msg index).len := by
  cases previous with
  | none => exact len_setNext queue slot stop index
  | some before => exact (len_setNext _ before slot index).trans (len_setNext _ _ _ _)

theorem linkIn_free (queue : Mymq) (slot stop : Nat) (previous : Option Nat) :
    (queue.linkIn slot stop previous).free = queue.free := by
  cases previous <;> rfl

theorem linkIn_nwait (queue : Mymq) (slot stop : Nat) (previous : Option Nat) :
    (queue.linkIn slot stop previous).nwait = queue.nwait := by
  cases previous <;> rfl

/-- The two assignments that link the slot in put it between the messages the walk has passed and
the others, and touch no other slot's link. -/
theorem linkIn_spec {slot stop : Nat} {front back : List Nat}
    (way : Segment 0 queue.next queue.head front stop) (goesOn : Chain 0 queue.next stop back)
    (real : slot ≠ 0) (fresh : slot ∉ front ++ back) (distinct : (front ++ back).Nodup) :
    Chain 0 (queue.linkIn slot stop front.getLast?).next
        (queue.linkIn slot stop front.getLast?).head (front ++ slot :: back) ∧
      ∀ other, other ≠ slot → other ∉ front →
        (queue.linkIn slot stop front.getLast?).next other = queue.next other := by
  rcases List.eq_nil_or_concat front with rfl | ⟨before, last, rfl⟩
  · -- Nothing is passed: the slot becomes the head.
    obtain rfl : queue.head = stop := way
    have linked : (queue.linkIn slot queue.head none).next =
        Function.update queue.next slot queue.head := next_setNext queue slot queue.head
    refine ⟨?_, fun other different _ => ?_⟩
    · rw [List.getLast?_nil, linked]
      exact Chain.push goesOn real fresh
    · rw [List.getLast?_nil, linked, Function.update_of_ne different]
  · rw [List.concat_eq_append] at *
    have linked : (queue.linkIn slot stop (some last)).next =
        Function.update (Function.update queue.next slot stop) last slot := by
      rw [linkIn, linkAfter, next_setNext, next_setNext]
    have chain : Chain 0 queue.next queue.head (before ++ [last] ++ back) :=
      segment_append_iff.mpr ⟨stop, way, goesOn⟩
    refine ⟨?_, fun other different passed => ?_⟩
    · rw [List.getLast?_concat, linked]
      exact chain.insert_after real fresh distinct way goesOn
    · rw [List.getLast?_concat, linked, Function.update_of_ne, Function.update_of_ne different]
      rintro rfl
      exact passed (by simp)

theorem next_fill (queue : Mymq) (message : MqMessage) :
    (queue.fill layout message).next = queue.next := by
  funext index
  rcases eq_or_ne index queue.free with rfl | different
  · simp only [next, fill, Function.update_self]
  · simp only [next, fill, Function.update_of_ne different]

theorem message_fill_self (queue : Mymq) (message : MqMessage) :
    (queue.fill layout message).message layout queue.free = message := by
  simp only [Mymq.message, fill, Function.update_self, copyOut_copyIn]

theorem msg_fill_of_ne (queue : Mymq) (message : MqMessage) {index : Nat}
    (different : index ≠ queue.free) : (queue.fill layout message).msg index = queue.msg index := by
  simp only [fill, Function.update_of_ne different]

/-- Filling a free slot leaves the bytes of the messages alone. -/
theorem Represents.message_fill (represents : queue.Represents layout attr used frees)
    (free : queue.free ∈ frees) {message : MqMessage} (fits : message.data.length ≤ attr.msgsize)
    {index : Nat} (member : index ∈ used) :
    (queue.fill layout message).message layout index = queue.message layout index := by
  have different : index ≠ queue.free := by
    rintro rfl
    exact represents.notMem_frees member free
  have apart := MqLayout.slots_apart (represents.mem_slots (List.mem_append_left frees member))
    (represents.mem_slots (List.mem_append_right used free)) different
  have room := layout.msgsize_le_stride attr
  have length := represents.fits index member
  rw [Mymq.message, msg_fill_of_ne queue message different]
  exact congrArg _ (copyOut_copyIn_of_apart queue.bytes (by omega))

/-- `mymq_send` with room for a message: a free slot is filled and linked in where the message
belongs. -/
theorem insert_spec (represents : queue.Represents layout attr used frees)
    (room : used.length < attr.maxmsg) {message : MqMessage}
    (fits : message.data.length ≤ attr.msgsize) :
    ∃ changed usedAfter freesAfter, queue.insert layout attr message = .changed changed ∧
      changed.Represents layout attr usedAfter freesAfter ∧
      usedAfter.map (changed.message layout) =
        enqueue MqMessage.prio message (used.map (queue.message layout)) ∧
      changed.nwait = queue.nwait := by
  have length := represents.length
  have someFree : queue.free ≠ 0 := by
    intro none_free
    rw [(represents.freeSlots.eq_nil_iff).mpr none_free, List.length_nil] at length
    omega
  obtain ⟨rest, rfl, freeRest⟩ := represents.freeSlots.exists_cons someFree
  have distinct := represents.nodup
  have freshUsed : queue.free ∉ used := fun member =>
    represents.notMem_frees member List.mem_cons_self
  have freshRest : queue.free ∉ rest :=
    (List.nodup_cons.mp (List.nodup_append.mp distinct).2.1).1
  -- The walk, in the queue with the slot filled.
  have chain : Chain 0 (queue.fill layout message).next (queue.fill layout message).head used := by
    rw [next_fill]
    exact represents.messages
  obtain ⟨stop, stops, way, goesOn⟩ := place_eq message.prio none chain
    (Nat.lt_succ_of_lt room)
  have split := ahead_append_behind
    (fun node => ((queue.fill layout message).msg node).prio) message.prio used
  set front := ahead (fun node => ((queue.fill layout message).msg node).prio) message.prio used
  set back := behind (fun node => ((queue.fill layout message).msg node).prio) message.prio used
  rw [Option.or_none] at stops
  have behindFirst : (front ++ queue.free :: back).Perm (queue.free :: used) :=
    List.perm_middle.trans (by rw [split])
  obtain ⟨chainAfter, untouched⟩ := linkIn_spec way goesOn someFree (split ▸ freshUsed)
    (split ▸ (List.nodup_append.mp distinct).1)
  refine ⟨{ (queue.fill layout message).linkIn queue.free stop front.getLast? with
      curmsgs := queue.curmsgs + 1 }, front ++ queue.free :: back, rest, ?_, ?_, ?_, ?_⟩
  · rw [insert, if_neg someFree]
    simp only [stops]
  · refine ⟨chainAfter, ?_, ?_, ?_, ?_⟩
    · have freeAfter : ((queue.fill layout message).linkIn queue.free stop front.getLast?).free =
          queue.next queue.free := linkIn_free _ _ _ _
      show Chain 0 ((queue.fill layout message).linkIn queue.free stop front.getLast?).next
        ((queue.fill layout message).linkIn queue.free stop front.getLast?).free rest
      rw [freeAfter]
      refine freeRest.congr fun other member => ?_
      rw [untouched other (fun same => freshRest (same ▸ member)) fun passed => ?_, next_fill]
      exact represents.notMem_frees (split ▸ List.mem_append_left back passed)
        (List.mem_cons_of_mem queue.free member)
    · exact (behindFirst.append_right rest).trans
        (List.perm_middle.symm.trans represents.partition)
    · rw [behindFirst.length_eq, List.length_cons, represents.count]
    · intro index member
      show (((queue.fill layout message).linkIn queue.free stop front.getLast?).msg index).len ≤
        attr.msgsize
      rw [len_linkIn]
      rcases List.mem_cons.mp (behindFirst.mem_iff.mp member) with rfl | earlier
      · simpa only [fill, Function.update_self] using fits
      · have different : index ≠ queue.free := fun same => freshUsed (same ▸ earlier)
        rw [msg_fill_of_ne queue message different]
        exact represents.fits index earlier
  · -- The messages in their slots are as they were, and the new one is in the slot filled.
    have kept : used.map ((queue.fill layout message).message layout) =
        used.map (queue.message layout) :=
      List.map_congr_left fun index member =>
        represents.message_fill List.mem_cons_self fits member
    have contents : (fun index => ((queue.fill layout message).linkIn queue.free stop
        front.getLast?).message layout index) = (queue.fill layout message).message layout :=
      funext fun index => message_linkIn _ _ _ _ index
    rw [← kept, enqueue, ahead_map, behind_map]
    refine (congrArg (fun content => (front ++ queue.free :: back).map content) contents).trans ?_
    rw [List.map_append, List.map_cons, message_fill_self]
    rfl
  · exact linkIn_nwait _ _ _ _

/-- `mymq_receive` with a message there: the first message leaves, and its slot becomes the first
free one. -/
theorem take_spec {slot : Nat} {rest : List Nat}
    (represents : queue.Represents layout attr (slot :: rest) frees) :
    ∃ changed, queue.take = .changed changed ∧ queue.head = slot ∧
      changed.Represents layout attr rest (slot :: frees) ∧
      rest.map (changed.message layout) = rest.map (queue.message layout) ∧
      changed.nwait = queue.nwait := by
  obtain ⟨rfl, real, chainRest⟩ := represents.messages
  have distinct := represents.nodup
  have freshRest : queue.head ∉ rest :=
    (List.nodup_cons.mp (List.nodup_append.mp distinct).1).1
  have freshFrees : queue.head ∉ frees := represents.notMem_frees List.mem_cons_self
  have linked : ({ queue with head := queue.next queue.head }.setNext queue.head queue.free).next =
      Function.update queue.next queue.head queue.free := next_setNext _ _ _
  refine ⟨{ { queue with head := queue.next queue.head }.setNext queue.head queue.free with
    free := queue.head, curmsgs := queue.curmsgs - 1 }, ?_, rfl, ?_, ?_, rfl⟩
  · rw [take, if_neg real]
    rfl
  · refine ⟨?_, ?_, ?_, ?_, ?_⟩
    · show Chain 0 ({ queue with head := queue.next queue.head }.setNext queue.head queue.free).next
        (queue.next queue.head) rest
      rw [linked]
      exact Segment.update chainRest freshRest queue.free
    · show Chain 0 ({ queue with head := queue.next queue.head }.setNext queue.head queue.free).next
        queue.head (queue.head :: frees)
      rw [linked]
      exact represents.freeSlots.push real freshFrees
    · exact List.perm_middle.trans represents.partition
    · show queue.curmsgs - 1 = rest.length
      rw [represents.count, List.length_cons, Nat.add_sub_cancel]
    · intro index member
      exact (len_setNext _ _ _ index).le.trans
        (represents.fits index (List.mem_cons_of_mem queue.head member))
  · exact List.map_congr_left fun index _ => message_setNext _ _ _ index

/-! ### The empty queue -/

theorem le_linkFree (layout : MqLayout) (attr : MqAttr) (count index : Nat)
    (msg : Nat → MsgHdr) :
    index ≤ (linkFree layout attr count index msg).1 := by
  induction count generalizing index msg with
  | zero => exact le_refl index
  | succ count inductionHypothesis => exact Nat.le_of_add_right_le (inductionHypothesis _ _)

theorem linkFree_of_lt (count : Nat) {index other : Nat} (msg : Nat → MsgHdr)
    (before : other < index) : (linkFree layout attr count index msg).2 other = msg other := by
  induction count generalizing index msg with
  | zero => rfl
  | succ count inductionHypothesis =>
    rw [linkFree, inductionHypothesis _ (by omega), Function.update_of_ne (Nat.ne_of_lt before)]

/-- The loop of `mymq_open` and the end mark after it make one list of all slots. -/
theorem linkFree_chain (layout : MqLayout) (attr : MqAttr) (count : Nat) {index : Nat}
    (msg : Nat → MsgHdr) (real : index ≠ 0) :
    Chain 0 (fun slot => (Function.update (linkFree layout attr count index msg).2
        (linkFree layout attr count index msg).1
        { (linkFree layout attr count index msg).2 (linkFree layout attr count index msg).1 with
          next := 0 } slot).next) index
      ((List.range (count + 1)).map fun number => index + number * layout.stride attr) := by
  have positive := layout.stride_pos attr
  induction count generalizing index msg with
  | zero =>
    rw [List.range_one, List.map_singleton, Nat.zero_mul, Nat.add_zero]
    refine Chain.cons ?_ real
    simp only [linkFree, Function.update_self]
    exact rfl
  | succ count inductionHypothesis =>
    rw [List.range_succ_eq_map, List.map_cons, List.map_map, Nat.zero_mul, Nat.add_zero]
    refine Chain.cons ?_ real
    have later := le_linkFree layout attr count (index + layout.stride attr)
      (Function.update msg index { msg index with next := index + layout.stride attr })
    have successor : (Function.update (linkFree layout attr (count + 1) index msg).2
        (linkFree layout attr (count + 1) index msg).1
        { (linkFree layout attr (count + 1) index msg).2
            (linkFree layout attr (count + 1) index msg).1 with next := 0 } index).next =
        index + layout.stride attr := by
      rw [linkFree, Function.update_of_ne (by omega), linkFree_of_lt count _ (by omega),
        Function.update_self]
    rw [successor]
    have shifted : ((fun number => index + number * layout.stride attr) ∘ Nat.succ) =
        fun number => index + layout.stride attr + number * layout.stride attr := by
      funext number
      simp only [Function.comp_apply, Nat.succ_mul]
      omega
    rw [shifted]
    exact inductionHypothesis _ (by omega)

/-- A new queue has no message and all slots on the free list. -/
theorem represents_create :
    (create layout attr).Represents layout attr [] (layout.slots attr) where
  messages := rfl
  freeSlots := by
    have count : attr.maxmsg - 1 + 1 = attr.maxmsg := Nat.sub_add_cancel attr.maxmsg_pos
    have chain := linkFree_chain layout attr (attr.maxmsg - 1)
      (fun _ => ⟨0, 0, 0⟩) layout.mqHdr_pos.ne'
    rw [count] at chain
    exact chain
  partition := List.Perm.refl _
  count := rfl
  fits := fun _ member => absurd member List.not_mem_nil

end Mymq

namespace MqThread

theorem awaken_carries (thread : MqThread) : thread.awaken.carries = thread.carries := by
  cases thread <;> rfl

theorem awaken_receives (thread : MqThread) : thread.awaken.receives = thread.receives := by
  cases thread <;> rfl

end MqThread

namespace MqSystem

variable {threads : Nat} {layout : MqLayout} {attr : MqAttr}

/-! ### What holds between the critical sections -/

section Invariant

variable (layout : MqLayout) (attr : MqAttr)

/-- The messages that have arrived and not departed are in the queue, in the order in which they
are to leave. -/
def Keeps (queue : Mymq) (history : List (Event MqMessage)) : Prop :=
  ∃ waiting used frees, Replays MqMessage.prio history waiting ∧
    queue.Represents layout attr used frees ∧
    used.map (queue.message layout) = ranked MqMessage.prio waiting

/-- The messages that threads wait to put in are not too long, and `mqh_nwait` counts the
receivers that wait. -/
structure Seated (thread : Fin threads → MqThread) (nwait : Nat) : Prop where
  fits : ∀ index message, (thread index).carries = some message →
    message.data.length ≤ attr.msgsize
  counted : nwait = load MqThread.receives thread

structure Sound (system : MqSystem threads) : Prop where
  keeps : Keeps layout attr system.queue system.history
  seated : Seated attr system.thread system.queue.nwait
  running : system.status = .running

end Invariant

theorem keeps_create : Keeps layout attr (Mymq.create layout attr) [] :=
  ⟨[], [], layout.slots attr, .nil, Mymq.represents_create, rfl⟩

theorem sound_start : Sound layout attr (start layout attr threads) where
  keeps := keeps_create
  seated := ⟨fun _ _ carried => absurd carried (by simp [start, MqThread.carries]),
    (load_const_zero _ _ rfl).symm⟩
  running := rfl

theorem Keeps.of_header {queue other : Mymq} {history : List (Event MqMessage)}
    (keeps : Keeps layout attr queue history)
    (same : other = { queue with nwait := other.nwait, pid := other.pid, event := other.event }) :
    Keeps layout attr other history := by
  obtain ⟨waiting, used, frees, replays, represents, sorted⟩ := keeps
  refine ⟨waiting, used, frees, replays, ?_, ?_⟩
  · rw [same]
    exact ⟨represents.messages, represents.freeSlots, represents.partition, represents.count,
      represents.fits⟩
  · rw [same]
    exact sorted

/-- A message that fits into a queue with room arrives. -/
theorem Keeps.insert {queue : Mymq} {history : List (Event MqMessage)} {message : MqMessage}
    (keeps : Keeps layout attr queue history) (room : queue.curmsgs < attr.maxmsg)
    (fits : message.data.length ≤ attr.msgsize) :
    ∃ changed, queue.insert layout attr message = .changed changed ∧
      Keeps layout attr changed (history ++ [.arrives message]) ∧ changed.nwait = queue.nwait := by
  obtain ⟨waiting, used, frees, replays, represents, sorted⟩ := keeps
  rw [represents.count] at room
  obtain ⟨changed, usedAfter, freesAfter, inserted, representsAfter, contents, nwait⟩ :=
    Mymq.insert_spec represents room fits
  refine ⟨changed, inserted, ⟨waiting ++ [message], usedAfter, freesAfter, replays.arrives message,
    representsAfter, ?_⟩, nwait⟩
  rw [contents, sorted, ranked_append_singleton]

/-- The first message departs. -/
theorem Keeps.take {queue : Mymq} {history : List (Event MqMessage)}
    (keeps : Keeps layout attr queue history) (some_there : queue.curmsgs ≠ 0) :
    ∃ changed, queue.take = .changed changed ∧
      Keeps layout attr changed (history ++ [.departs (queue.message layout queue.head)]) ∧
      changed.nwait = queue.nwait := by
  obtain ⟨waiting, used, frees, replays, represents, sorted⟩ := keeps
  rw [represents.count] at some_there
  cases used with
  | nil => exact absurd rfl some_there
  | cons slot rest =>
    obtain ⟨changed, taken, rfl, representsAfter, contents, nwait⟩ := Mymq.take_spec represents
    obtain ⟨others, leaves, ranking⟩ := leaves_of_ranked_eq_cons sorted.symm
    exact ⟨changed, taken, ⟨others, rest, queue.head :: frees, replays.departs leaves,
      representsAfter, contents.trans ranking.symm⟩, nwait⟩

/-! ### The threads -/

theorem Seated.awaken {thread other : Fin threads → MqThread} {nwait : Nat}
    (seated : Seated attr thread nwait)
    (woken : ∀ index, other index = thread index ∨ other index = (thread index).awaken) :
    Seated attr other nwait := by
  constructor
  · intro index message carried
    rcases woken index with same | awake
    · exact seated.fits index message (same ▸ carried)
    · rw [awake, MqThread.awaken_carries] at carried
      exact seated.fits index message carried
  · rw [seated.counted]
    refine (load_congr fun index => ?_).symm
    rcases woken index with same | awake
    · rw [same]
    · rw [awake, MqThread.awaken_receives]

theorem Seated.move {thread : Fin threads → MqThread} {nwait after : Nat}
    (seated : Seated attr thread nwait) (index : Fin threads) {place : MqThread}
    (fits : ∀ message, place.carries = some message → message.data.length ≤ attr.msgsize)
    (counted : after + (thread index).receives = nwait + place.receives) :
    Seated attr (Function.update thread index place) after := by
  constructor
  · intro other message carried
    rcases eq_or_ne other index with rfl | different
    · rw [Function.update_self] at carried
      exact fits message carried
    · rw [Function.update_of_ne different] at carried
      exact seated.fits other message carried
  · have moved := load_update MqThread.receives thread index place
    rw [← seated.counted] at moved
    omega

theorem signal_spec {system next : MqSystem threads} {called : Prop} [Decidable called]
    {woken : Finset (Fin threads)} (signalled : system.signal called woken = some next) :
    next = { system with thread := next.thread } ∧
      ∀ index, next.thread index = system.thread index ∨
        next.thread index = (system.thread index).awaken := by
  unfold signal at signalled
  split at signalled
  · obtain ⟨-, signalled⟩ := Option.ite_none_right_eq_some.mp signalled
    obtain rfl := Option.some.inj signalled
    refine ⟨rfl, fun index => ?_⟩
    dsimp only
    split
    · exact Or.inr rfl
    · exact Or.inl rfl
  · obtain ⟨-, same⟩ := Option.ite_none_right_eq_some.mp signalled
    obtain rfl := Option.some.inj same
    exact ⟨rfl, fun _ => Or.inl rfl⟩

theorem Sound.signal {system next : MqSystem threads} (sound : Sound layout attr system)
    {called : Prop} [Decidable called] {woken : Finset (Fin threads)}
    (signalled : system.signal called woken = some next) : Sound layout attr next := by
  obtain ⟨rest, threads⟩ := signal_spec signalled
  rw [rest]
  exact ⟨sound.keeps, sound.seated.awaken threads, sound.running⟩

/-! ### Every call keeps it -/

section Calls

variable {system next : MqSystem threads} {index : Fin threads} {woken : Finset (Fin threads)}

theorem finish_sound {changed : Mymq} {event : Event MqMessage}
    (keeps : Keeps layout attr changed (system.history ++ [event]))
    (seated : Seated attr (Function.update system.thread index .running) changed.nwait)
    (running : system.status = .running) :
    Sound layout attr (system.finish index changed event) :=
  ⟨keeps, seated, running⟩

/-- The end of `mymq_send`, by a thread that has a place to put the message. -/
theorem deliver_sound {message : MqMessage} (keeps : Keeps layout attr system.queue system.history)
    (seated : Seated attr (Function.update system.thread index .running) system.queue.nwait)
    (running : system.status = .running) (room : system.queue.curmsgs < attr.maxmsg)
    (fits : message.data.length ≤ attr.msgsize)
    (delivered : system.deliver layout attr index message woken = some next) :
    Sound layout attr next := by
  obtain ⟨changed, inserted, keepsAfter, nwait⟩ := keeps.insert room fits
  rw [deliver, inserted] at delivered
  exact (finish_sound keepsAfter (nwait ▸ seated) running).signal delivered

/-- The end of `mymq_receive`, by a thread that finds a message. -/
theorem fetch_sound (keeps : Keeps layout attr system.queue system.history)
    (seated : Seated attr (Function.update system.thread index .running) system.queue.nwait)
    (running : system.status = .running) (some_there : system.queue.curmsgs ≠ 0)
    (fetched : system.fetch layout attr index woken = some next) : Sound layout attr next := by
  obtain ⟨changed, taken, keepsAfter, nwait⟩ := keeps.take some_there
  rw [fetch, taken] at fetched
  exact (finish_sound keepsAfter (nwait ▸ seated) running).signal fetched

theorem Sound.fail (sound : Sound layout attr system) (outside : system.thread index = .running)
    (error : MqError) : Sound layout attr (system.fail index error) := by
  refine ⟨sound.keeps, sound.seated.move index (fun _ carried => by cases carried) ?_,
    sound.running⟩
  show system.queue.nwait + (system.thread index).receives = system.queue.nwait + 0
  rw [outside]
  rfl

theorem Sound.announce (sound : Sound layout attr system) : Sound layout attr system.announce := by
  unfold MqSystem.announce
  split
  · exact ⟨sound.keeps.of_header rfl, sound.seated, sound.running⟩
  · exact sound

theorem announce_queue (system : MqSystem threads) :
    system.announce.thread = system.thread ∧
      system.announce.queue.curmsgs = system.queue.curmsgs := by
  unfold MqSystem.announce
  split <;> exact ⟨rfl, rfl⟩

/-- A thread that leaves a call it has made from outside counts for nothing. -/
theorem Sound.seated_running (sound : Sound layout attr system)
    (uncounted : (system.thread index).receives = 0) :
    Seated attr (Function.update system.thread index .running) system.queue.nwait :=
  sound.seated.move index (fun _ carried => by cases carried) (by rw [uncounted]; rfl)

theorem Sound.send (sound : Sound layout attr system) (outside : system.thread index = .running)
    {message : MqMessage} (sent : system.send layout attr index message woken = some next) :
    Sound layout attr next := by
  have uncounted : (system.thread index).receives = 0 := by rw [outside]; rfl
  unfold MqSystem.send at sent
  split at sent
  · exact Option.some.inj sent ▸ sound.fail outside .EMSGSIZE
  rename_i notTooLong
  have fits : message.data.length ≤ attr.msgsize := Nat.not_lt.mp notTooLong
  split at sent
  · -- The queue is empty, and so there is room.
    rename_i empty
    obtain ⟨sameThreads, sameCount⟩ := announce_queue system
    have announced := sound.announce
    refine deliver_sound announced.keeps (announced.seated_running ?_) announced.running ?_ fits
      sent
    · rwa [sameThreads]
    · rw [sameCount, empty]
      exact attr.maxmsg_pos
  split at sent
  · split at sent
    · exact Option.some.inj sent ▸ sound.fail outside .EAGAIN
    · obtain rfl := Option.some.inj sent
      refine ⟨sound.keeps, sound.seated.move index ?_ ?_, sound.running⟩
      · intro carried same
        obtain rfl := Option.some.inj same
        exact fits
      · show system.queue.nwait + (system.thread index).receives = system.queue.nwait + 0
        rw [uncounted]
  · rename_i room
    exact deliver_sound sound.keeps (sound.seated_running uncounted) sound.running
      (Nat.not_le.mp room) fits sent

theorem Sound.receive (sound : Sound layout attr system) (outside : system.thread index = .running)
    {maxlen : Nat} (received : system.receive layout attr index maxlen woken = some next) :
    Sound layout attr next := by
  have uncounted : (system.thread index).receives = 0 := by rw [outside]; rfl
  unfold MqSystem.receive at received
  split at received
  · exact Option.some.inj received ▸ sound.fail outside .EMSGSIZE
  split at received
  · split at received
    · exact Option.some.inj received ▸ sound.fail outside .EAGAIN
    · obtain rfl := Option.some.inj received
      refine ⟨sound.keeps.of_header rfl,
        sound.seated.move index (fun _ carried => by cases carried) ?_, sound.running⟩
      show system.queue.nwait + 1 + (system.thread index).receives = system.queue.nwait + 1
      rw [uncounted]
  · rename_i some_there
    exact fetch_sound sound.keeps (sound.seated_running uncounted) sound.running some_there received

theorem Sound.resume (sound : Sound layout attr system)
    (resumed : system.resume layout attr index woken = some next) : Sound layout attr next := by
  unfold MqSystem.resume at resumed
  split at resumed
  · rename_i message place
    have fits : message.data.length ≤ attr.msgsize :=
      sound.seated.fits index message (by rw [place]; rfl)
    have uncounted : (system.thread index).receives = 0 := by rw [place]; rfl
    split at resumed
    · obtain rfl := Option.some.inj resumed
      refine ⟨sound.keeps, sound.seated.move index ?_ ?_, sound.running⟩
      · intro carried same
        obtain rfl := Option.some.inj same
        exact fits
      · show system.queue.nwait + (system.thread index).receives = system.queue.nwait + 0
        rw [uncounted]
    · rename_i room
      exact deliver_sound sound.keeps (sound.seated_running uncounted) sound.running
        (Nat.not_le.mp room) fits resumed
  · rename_i place
    have counted : (system.thread index).receives = 1 := by rw [place]; rfl
    split at resumed
    · obtain rfl := Option.some.inj resumed
      refine ⟨sound.keeps, sound.seated.move index (fun _ carried => by cases carried) ?_,
        sound.running⟩
      show system.queue.nwait + (system.thread index).receives = system.queue.nwait + 1
      rw [counted]
    · rename_i some_there
      have share := weight_le_load MqThread.receives system.thread index
      rw [← sound.seated.counted] at share
      have keeps : Keeps layout attr (system.setNwait (system.queue.nwait - 1)).queue
          system.history := sound.keeps.of_header rfl
      have seated : Seated attr (Function.update system.thread index .running)
          (system.queue.nwait - 1) := by
        refine sound.seated.move index (fun _ carried => by cases carried) ?_
        show system.queue.nwait - 1 + (system.thread index).receives = system.queue.nwait + 0
        omega
      exact fetch_sound keeps seated
        sound.running some_there resumed
  all_goals cases resumed

end Calls

theorem Sound.step {system next : MqSystem threads} {action : Action threads}
    (sound : Sound layout attr system) (taken : system.step layout attr action = some next) :
    Sound layout attr next := by
  unfold MqSystem.step at taken
  rw [if_neg (not_not.mpr sound.running)] at taken
  cases action with
  | send index message woken =>
    obtain ⟨outside, sent⟩ := Option.ite_none_right_eq_some.mp taken
    exact sound.send outside sent
  | receive index maxlen woken =>
    obtain ⟨outside, received⟩ := Option.ite_none_right_eq_some.mp taken
    exact sound.receive outside received
  | resume index woken => exact sound.resume taken
  | wake index =>
    obtain ⟨-, woken⟩ := Option.ite_none_right_eq_some.mp taken
    obtain rfl := Option.some.inj woken
    refine ⟨sound.keeps, sound.seated.awaken fun other => ?_, sound.running⟩
    dsimp only [sleep]
    rcases eq_or_ne other index with rfl | different
    · rw [Function.update_self]
      exact Or.inr rfl
    · rw [Function.update_of_ne different]
      exact Or.inl rfl
  | notify pid alive event =>
    obtain rfl := Option.some.inj taken
    unfold notify
    split
    · exact sound
    · exact ⟨sound.keeps.of_header rfl, sound.seated, sound.running⟩
  | unregister pid =>
    obtain rfl := Option.some.inj taken
    unfold unregister
    split
    · exact ⟨sound.keeps.of_header rfl, sound.seated, sound.running⟩
    · exact sound
  | setattr index nonblock =>
    obtain rfl := Option.some.inj taken
    exact ⟨sound.keeps, sound.seated, sound.running⟩

theorem sound_of_reachable {system : MqSystem threads}
    (reached : (machine layout attr threads).Reachable system) : Sound layout attr system :=
  reached.invariant (Sound layout attr) sound_start fun _ _ _ sound taken => sound.step taken

/-- Whatever threads do in whatever order, the two lists in the file hold every slot exactly once,
the messages on the list are those that arrived and have not departed, in the order in which they
are to leave, with their bytes as they were sent, and every message that departed was the oldest of
those with the highest priority at that time. The slots share no byte with one another, nor a
header with its message, and are inside the mapped file. The walk of `mymq_send` has ended each
time and `err_dump` has not been called. -/
theorem mymq_is_a_priority_queue {system : MqSystem threads}
    (reached : (machine layout attr threads).Reachable system) :
    ∃ waiting used frees, Replays MqMessage.prio system.history waiting ∧
      Chain 0 system.queue.next system.queue.head used ∧
      Chain 0 system.queue.next system.queue.free frees ∧
      (used ++ frees).Perm (layout.slots attr) ∧ system.queue.curmsgs = used.length ∧
      used.map (system.queue.message layout) = ranked MqMessage.prio waiting ∧
      (used ++ frees).Pairwise (fun first second =>
        Disjoint (layout.slotBytes attr first) (layout.slotBytes attr second)) ∧
      (∀ index ∈ used ++ frees,
        Disjoint (layout.headerBytes index) (layout.dataBytes attr index) ∧
        layout.slotBytes attr index ⊆ Finset.Ico layout.mqHdr (layout.filesize attr)) ∧
      system.status = .running := by
  have sound := sound_of_reachable reached
  obtain ⟨waiting, used, frees, replays, represents, sorted⟩ := sound.keeps
  exact ⟨waiting, used, frees, replays, represents.messages, represents.freeSlots,
    represents.partition, represents.count, sorted, represents.apart, fun index member =>
      ⟨MqLayout.headerBytes_disjoint_dataBytes index,
        MqLayout.slotBytes_within (represents.mem_slots member)⟩, sound.running⟩

/-- Three messages arrive, the second with a higher priority than the others, and one is
received. -/
def urgent : List (Action 9) :=
  [Action.send 0 ⟨1, [10, 11]⟩ ∅, .send 1 ⟨5, [20]⟩ ∅, .send 0 ⟨1, [30]⟩ ∅, .receive 2 1024 ∅]

theorem mymq_is_a_priority_queue_urgent :
    ((machine .lp64 .default 9).after urgent).queue.curmsgs = 2 ∧
      ((machine .lp64 .default 9).after urgent).status = .running := by
  have reached : (machine .lp64 .default 9).Reachable ((machine .lp64 .default 9).after urgent) :=
    Machine.reachable_after urgent (by decide)
  obtain ⟨-, -, -, -, -, -, -, -, -, -, -, running⟩ := mymq_is_a_priority_queue reached
  exact ⟨by decide, running⟩

end MqSystem

end SocketC
