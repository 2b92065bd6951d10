/-
This file models a whole call of `Readline` in `wraplib.c`, on top of the wrapper
`Recv` of `wrapsock.c`, with the buffer it stores to. The kernel's side is a list of
receptions: a `recv` of one byte gives the next byte, or fails, and returns zero at the
end of the list. `Recv` does not return when `recv` fails: it calls `err_sys`.

`Readline` counts from one. A line that ends in a newline makes it return the number of
bytes stored, the end of the stream the same, but a line that fills the buffer makes it
return one more. An interruption ends the process, because `Recv` looks at no `errno`,
and the branch that is meant for it is never entered.
-/

import SocketC.Buffer
import SocketC.Lines
import Mathlib.Data.List.ReduceOption

namespace SocketC

/-! ### The call -/

/-- What one `recv` of one byte does: it gets a byte, or fails, with `EINTR` or with another
error. -/
inductive Reception where
  | byte (c : UInt8)
  | error (eintr : Bool)
  deriving DecidableEq

/-- `Recv` of one byte, with what is still to be received; nothing is returned when `recv` fails,
because `err_sys` exits. -/
def recvByte : List Reception → Option ByteRecv
  | [] => some .eof
  | .byte c :: _ => some (.ofByte c)
  | .error _ :: _ => none

/-- How a call of `Readline` ends: with a value, or in the `err_sys` of `Recv`. -/
structure ReadlineEnd where
  value : Option Int
  buffer : Buffer UInt8
  rest : List Reception

/-- The loop of `Readline` (lines 39-54). The first argument is `maxlen - n`, the number of turns
before the test of line 39 fails; the pointer is the index that `ptr` points to. -/
def readlineLoop : Nat → Nat → Nat → Buffer UInt8 → List Reception → ReadlineEnd
  | 0, n, ptr, buffer, receptions => ⟨some n, buffer.store ptr 0, receptions⟩
  | turns + 1, n, ptr, buffer, receptions =>
    match recvByte receptions with
    | none => ⟨none, buffer, receptions.tail⟩
    | some recv =>
      if recv.rc = 1 then
        if recv.c = newline then
          ⟨some n, (buffer.store ptr recv.c).store (ptr + 1 : Nat) 0, receptions.tail⟩
        else readlineLoop turns (n + 1) (ptr + 1) (buffer.store ptr recv.c) receptions.tail
      else if recv.rc = 0 then ⟨some (n - 1 : Int), buffer.store ptr 0, receptions.tail⟩
      else if recv.eintr then readlineLoop turns (n + 1) ptr buffer receptions.tail
      else ⟨some (-1), buffer, receptions.tail⟩

/-- `Readline(fd, vptr, maxlen)`. -/
def readlineCall (maxlen : Nat) (receptions : List Reception) : ReadlineEnd :=
  readlineLoop (maxlen - 1) 1 0 .empty receptions

section Turns

variable (turns n ptr : Nat) (buffer : Buffer UInt8) (receptions : List Reception)

theorem readlineLoop_newline :
    readlineLoop (turns + 1) n ptr buffer (.byte newline :: receptions) =
      ⟨some n, (buffer.store ptr newline).store (ptr + 1 : Nat) 0, receptions⟩ := rfl

theorem readlineLoop_byte {c : UInt8} (other : c ≠ newline) :
    readlineLoop (turns + 1) n ptr buffer (.byte c :: receptions) =
      readlineLoop turns (n + 1) (ptr + 1) (buffer.store ptr c) receptions :=
  if_neg other

theorem readlineLoop_eof :
    readlineLoop (turns + 1) n ptr buffer [] = ⟨some (n - 1 : Int), buffer.store ptr 0, []⟩ := rfl

theorem readlineLoop_error (eintr : Bool) :
    readlineLoop (turns + 1) n ptr buffer (.error eintr :: receptions) =
      ⟨none, buffer, receptions⟩ := rfl

end Turns

/-- A turn of the loop is a turn of `readline`, which has the stored bytes as a list. -/
theorem readlineLoop_turn (turns n : Nat) (stored : List UInt8) (buffer : Buffer UInt8)
    {receptions : List Reception} {recv : ByteRecv} (received : recvByte receptions = some recv) :
    readlineLoop (turns + 1) n stored.length buffer receptions =
      match readline (n + turns + 1) n stored recv with
      | .again next line =>
        readlineLoop turns next line.length
          (buffer.write stored.length (line.drop stored.length)) receptions.tail
      | .returned value line =>
        ⟨some value, buffer.write stored.length (line.drop stored.length ++ [0]),
          receptions.tail⟩ := by
  match receptions, received with
  | [], received =>
    obtain rfl := Option.some.inj received
    simp only [readline_eof, List.drop_length, readlineLoop_eof]
    rfl
  | .byte c :: rest, received =>
    obtain rfl := Option.some.inj received
    have turn : readline (n + turns + 1) n stored (.ofByte c) =
        if c = newline then .returned n (stored ++ [c])
        else lineNext (n + turns + 1) n (stored ++ [c]) := rfl
    rw [turn]
    by_cases last : c = newline
    · subst last
      simp only [if_true, readlineLoop_newline, List.drop_left, List.tail_cons, Buffer.write,
        List.singleton_append, Nat.cast_add, Nat.cast_one]
    · rw [if_neg last, readlineLoop_byte _ _ _ _ _ last, lineNext]
      cases turns with
      | zero =>
        simp only [Nat.add_zero, lt_irrefl, if_false, List.drop_left, List.tail_cons, Buffer.write,
          List.singleton_append, readlineLoop, Nat.cast_add, Nat.cast_one]
      | succ turns =>
        have more : n + 1 < n + (turns + 1) + 1 := by omega
        simp only [if_pos more, List.drop_left, List.tail_cons, Buffer.write, List.length_append,
          List.length_singleton]

/-! ### Lines that are complete and lines that are not -/

/-- These bytes end a call that has this many turns left: there is a newline among them in time,
or they fill the buffer. -/
def Completes (turns : Nat) (bytes : List UInt8) : Prop :=
  turns ≤ bytes.length ∨ newline ∈ bytes.take turns

instance (turns : Nat) (bytes : List UInt8) : Decidable (Completes turns bytes) :=
  inferInstanceAs (Decidable (_ ∨ _))

theorem completes_cons {turns : Nat} {c : UInt8} (other : c ≠ newline) (bytes : List UInt8) :
    Completes (turns + 1) (c :: bytes) ↔ Completes turns bytes := by
  rw [Completes, Completes, List.length_cons, Nat.add_le_add_iff_right, List.take_succ_cons,
    List.mem_cons, or_iff_right (Ne.symm other)]

/-- A byte that does not end the call leaves it one turn less. -/
theorem of_not_completes_cons {turns : Nat} {c : UInt8} {bytes : List UInt8}
    (incomplete : ¬ Completes turns (c :: bytes)) :
    ∃ left, turns = left + 1 ∧ c ≠ newline ∧ ¬ Completes left bytes := by
  cases turns with
  | zero => exact absurd (Or.inl (Nat.zero_le _)) incomplete
  | succ left =>
    have other : c ≠ newline := by
      rintro rfl
      exact incomplete (Or.inr List.mem_cons_self)
    exact ⟨left, rfl, other, fun complete => incomplete ((completes_cons other bytes).mpr complete)⟩

/-- Bytes that do not end the call are stored, and the loop goes on behind them. -/
theorem readlineLoop_incomplete {turns : Nat} (n ptr : Nat) (buffer : Buffer UInt8)
    {bytes : List UInt8} (incomplete : ¬ Completes turns bytes) (tail : List Reception) :
    ∃ left, turns = left + 1 + bytes.length ∧
      readlineLoop turns n ptr buffer (bytes.map .byte ++ tail) =
        readlineLoop (left + 1) (n + bytes.length) (ptr + bytes.length) (buffer.write ptr bytes)
          tail := by
  induction bytes generalizing turns n ptr buffer with
  | nil =>
    cases turns with
    | zero => exact absurd (Or.inl le_rfl) incomplete
    | succ left => exact ⟨left, rfl, rfl⟩
  | cons c bytes inductionHypothesis =>
    obtain ⟨later, rfl, other, incompleteLater⟩ := of_not_completes_cons incomplete
    obtain ⟨left, count, onward⟩ :=
      inductionHypothesis (n + 1) (ptr + 1) (buffer.store ptr c) incompleteLater
    refine ⟨left, by rw [count, List.length_cons]; omega, ?_⟩
    rw [List.map_cons, List.cons_append, readlineLoop_byte _ _ _ _ _ other, onward,
      List.length_cons, Buffer.write, Nat.cast_succ, Nat.add_right_comm n, Nat.add_assoc n,
      Nat.add_right_comm ptr, Nat.add_assoc ptr]

/-- What a call with this many turns left returns, if its counter is `n` and these bytes end it:
one more than it stores if there is no newline among them. -/
def completeValue (turns n : Nat) (bytes : List UInt8) : Nat :=
  if newline ∈ bytes.take turns then n - 1 + (fgetsTake turns bytes).length
  else n + (fgetsTake turns bytes).length

/-- Bytes that end the call are stored up to the newline, or as far as the buffer goes, and a
NUL is stored behind them. -/
theorem readlineLoop_complete {turns : Nat} {n : Nat} (positive : 0 < n) (ptr : Nat)
    (buffer : Buffer UInt8) {bytes : List UInt8} (complete : Completes turns bytes)
    (tail : List Reception) :
    readlineLoop turns n ptr buffer (bytes.map .byte ++ tail) =
      ⟨some (completeValue turns n bytes), buffer.write ptr (fgetsTake turns bytes ++ [0]),
        (bytes.drop (fgetsTake turns bytes).length).map .byte ++ tail⟩ := by
  induction bytes generalizing turns n ptr buffer with
  | nil =>
    cases turns with
    | zero => rfl
    | succ turns =>
      rcases complete with full | found
      · exact absurd full (Nat.not_succ_le_zero _)
      · cases found
  | cons c bytes inductionHypothesis =>
    cases turns with
    | zero => rfl
    | succ turns =>
      rw [List.map_cons, List.cons_append]
      by_cases last : c = newline
      · subst last
        have value : completeValue (turns + 1) n (newline :: bytes) = n := by
          rw [completeValue, List.take_succ_cons, if_pos List.mem_cons_self]
          exact Nat.sub_add_cancel positive
        rw [readlineLoop_newline, value]
        rfl
      · have line : fgetsTake (turns + 1) (c :: bytes) = c :: fgetsTake turns bytes := if_neg last
        have value : completeValue (turns + 1) n (c :: bytes) =
            completeValue turns (n + 1) bytes := by
          simp only [completeValue, List.take_succ_cons, List.mem_cons, or_iff_right (Ne.symm last),
            line, List.length_cons]
          split <;> omega
        rw [readlineLoop_byte _ _ _ _ _ last,
          inductionHypothesis (Nat.succ_pos n) _ _ ((completes_cons last bytes).mp complete), value,
          line, List.cons_append, Buffer.write, List.length_cons, List.drop_succ_cons]
        rfl

/-! ### The longest line -/

/-- A line: it has at most this many bytes, and no newline but as its last byte. -/
def IsLine (limit : Nat) (line : List UInt8) : Prop :=
  line.length ≤ limit ∧ newline ∉ line.dropLast

theorem isLine_fgetsTake (limit : Nat) (stream : List UInt8) :
    IsLine limit (fgetsTake limit stream) := by
  induction limit generalizing stream with
  | zero => exact ⟨le_rfl, List.not_mem_nil⟩
  | succ limit inductionHypothesis =>
    cases stream with
    | nil => exact ⟨Nat.zero_le _, List.not_mem_nil⟩
    | cons byte rest =>
      obtain ⟨length, single⟩ := inductionHypothesis rest
      rw [fgetsTake]
      split
      · exact ⟨Nat.succ_le_succ (Nat.zero_le _), List.not_mem_nil⟩
      · rename_i other
        refine ⟨Nat.succ_le_succ length, ?_⟩
        cases line : fgetsTake limit rest with
        | nil => exact List.not_mem_nil
        | cons second more =>
          rw [line] at single
          rw [List.dropLast_cons_of_ne_nil (List.cons_ne_nil second more), List.mem_cons, not_or]
          exact ⟨Ne.symm other, single⟩

/-- `fgetsTake` takes the longest line off the stream. -/
theorem length_le_fgetsTake {limit : Nat} {stream line : List UInt8} (front : line <+: stream)
    (isLine : IsLine limit line) : line.length ≤ (fgetsTake limit stream).length := by
  induction limit generalizing stream line with
  | zero => exact isLine.1.trans (Nat.zero_le _)
  | succ limit inductionHypothesis =>
    cases line with
    | nil => exact Nat.zero_le _
    | cons byte line =>
      cases stream with
      | nil => exact absurd front (by simp)
      | cons first rest =>
        obtain ⟨rfl, behind⟩ := List.cons_prefix_cons.mp front
        obtain ⟨length, single⟩ := isLine
        rw [fgetsTake]
        split
        · -- Behind a newline the line has ended.
          rename_i last
          cases line with
          | nil => exact le_rfl
          | cons second more =>
            rw [List.dropLast_cons_of_ne_nil (List.cons_ne_nil second more), last] at single
            exact absurd List.mem_cons_self single
        · refine Nat.succ_le_succ (inductionHypothesis behind ⟨Nat.le_of_succ_le_succ length, ?_⟩)
          cases line with
          | nil => exact List.not_mem_nil
          | cons second more =>
            rw [List.dropLast_cons_of_ne_nil (List.cons_ne_nil second more), List.mem_cons,
              not_or] at single
            exact single.2

theorem fgetsTake_of_incomplete {turns : Nat} {bytes : List UInt8}
    (incomplete : ¬ Completes turns bytes) : fgetsTake turns bytes = bytes := by
  induction bytes generalizing turns with
  | nil => cases turns <;> rfl
  | cons byte rest inductionHypothesis =>
    obtain ⟨left, rfl, other, incompleteLater⟩ := of_not_completes_cons incomplete
    rw [fgetsTake, if_neg other, inductionHypothesis incompleteLater]

/-! ### The contract -/

/-- The line does not fill the buffer: it ends in a newline, or the stream ends before. -/
def Unfilled (maxlen : Nat) (stream : List UInt8) : Prop :=
  stream.length + 1 < maxlen ∨ newline ∈ stream.take (maxlen - 1)

instance (maxlen : Nat) (stream : List UInt8) : Decidable (Unfilled maxlen stream) :=
  inferInstanceAs (Decidable (_ ∨ _))

/-- A call on a stream without failures stores the longest line and a NUL, and returns the number
of bytes stored, or one more if they fill the buffer. -/
theorem readlineCall_bytes {maxlen : Nat} (positive : 1 ≤ maxlen) (stream : List UInt8) :
    readlineCall maxlen (stream.map .byte) =
      ⟨some ((if Unfilled maxlen stream then (fgetsTake (maxlen - 1) stream).length
          else (fgetsTake (maxlen - 1) stream).length + 1 : Nat) : Int),
        Buffer.empty.write 0 (fgetsTake (maxlen - 1) stream ++ [0]),
        (stream.drop (fgetsTake (maxlen - 1) stream).length).map .byte⟩ := by
  by_cases complete : Completes (maxlen - 1) stream
  · have ended := readlineLoop_complete Nat.one_pos 0 .empty complete []
    have unfilled : Unfilled maxlen stream ↔ newline ∈ stream.take (maxlen - 1) := by
      refine or_iff_right_of_imp fun short => ?_
      exact complete.resolve_left (by omega)
    have value : completeValue (maxlen - 1) 1 stream =
        if Unfilled maxlen stream then (fgetsTake (maxlen - 1) stream).length
        else (fgetsTake (maxlen - 1) stream).length + 1 := by
      simp only [completeValue, unfilled]
      split <;> omega
    rw [List.append_nil, List.append_nil, value] at ended
    exact ended
  · obtain ⟨left, count, onward⟩ := readlineLoop_incomplete 1 0 .empty complete []
    have unfilled : Unfilled maxlen stream := Or.inl (by omega)
    have value : ((1 + stream.length : Nat) : Int) - 1 = stream.length := by
      rw [Nat.cast_add, Nat.cast_one, add_sub_cancel_left]
    rw [List.append_nil, readlineLoop_eof, Nat.zero_add, value] at onward
    rw [readlineCall, onward, if_pos unfilled, fgetsTake_of_incomplete complete, List.drop_length,
      Buffer.write_append, zero_add]
    rfl

/-- The call took this many bytes off the stream, the longest line, and stored them and a NUL
inside the buffer. -/
structure Delivers (maxlen : Nat) (stream : List UInt8) (call : ReadlineEnd) (k : Nat) : Prop where
  inside : k ≤ stream.length
  consumed : call.rest = (stream.drop k).map .byte
  stored : ∀ index < k, call.buffer.cell index = stream[index]?
  terminated : call.buffer.cell k = some 0
  bounded : k ≤ maxlen - 1
  isLine : IsLine (maxlen - 1) (stream.take k)
  longest : ∀ line, line <+: stream → IsLine (maxlen - 1) line → line.length ≤ k
  within : call.buffer.Within maxlen

/-- The contract: the value returned is the number of bytes delivered. -/
def Contract (maxlen : Nat) (stream : List UInt8) (call : ReadlineEnd) : Prop :=
  ∃ k : Nat, call.value = some (k : Int) ∧ Delivers maxlen stream call k

theorem delivers_readlineCall {maxlen : Nat} (positive : 1 ≤ maxlen) (stream : List UInt8) :
    Delivers maxlen stream (readlineCall maxlen (stream.map .byte))
      (fgetsTake (maxlen - 1) stream).length := by
  have front := fgetsTake_isPrefix (maxlen - 1) stream
  have taken : stream.take (fgetsTake (maxlen - 1) stream).length =
      fgetsTake (maxlen - 1) stream := (List.prefix_iff_eq_take.mp front).symm
  have line := isLine_fgetsTake (maxlen - 1) stream
  have holds := (Buffer.holds_nil (Buffer.empty : Buffer UInt8)).write
    (fgetsTake (maxlen - 1) stream ++ [0])
  rw [readlineCall_bytes positive]
  refine ⟨front.length_le, rfl, fun index below => ?_, ?_, line.1, by rwa [taken],
    fun _ => length_le_fgetsTake, ?_⟩
  · have here := List.getElem?_eq_getElem (below.trans_le front.length_le)
    rw [here]
    refine holds index _ ?_
    rw [List.nil_append, List.getElem?_append_left below, List.getElem?_eq_getElem below,
      front.getElem below]
  · exact holds _ 0 (by rw [List.nil_append, List.getElem?_append_right le_rfl, Nat.sub_self]; rfl)
  · refine Buffer.within_write_iff.mpr ⟨fun _ => ⟨le_rfl, ?_⟩, Buffer.within_empty _⟩
    have bound := line.1
    rw [List.length_append, List.length_singleton]
    omega

theorem Delivers.eq {maxlen : Nat} {stream : List UInt8} {call : ReadlineEnd} {first second : Nat}
    (delivers : Delivers maxlen stream call first) (also : Delivers maxlen stream call second) :
    first = second := by
  have front := also.longest _ (List.take_prefix first stream) delivers.isLine
  have back := delivers.longest _ (List.take_prefix second stream) also.isLine
  rw [List.length_take, min_eq_left delivers.inside] at front
  rw [List.length_take, min_eq_left also.inside] at back
  exact le_antisymm front back

/-- On every stream, `Readline` takes the longest line off it and stores it with a NUL inside the
buffer. It returns the number of bytes of the line if the line does not fill the buffer, and
otherwise one more; so the contract is met exactly in the first case. -/
theorem readline_contract_iff (maxlen : Nat) (positive : 1 ≤ maxlen) (stream : List UInt8) :
    (Contract maxlen stream (readlineCall maxlen (stream.map .byte)) ↔ Unfilled maxlen stream) ∧
    ∃ k : Nat, Delivers maxlen stream (readlineCall maxlen (stream.map .byte)) k ∧
      (readlineCall maxlen (stream.map .byte)).value =
        some ((if Unfilled maxlen stream then k else k + 1 : Nat) : Int) := by
  have delivers := delivers_readlineCall positive stream
  have value : (readlineCall maxlen (stream.map .byte)).value = some
      ((if Unfilled maxlen stream then (fgetsTake (maxlen - 1) stream).length
        else (fgetsTake (maxlen - 1) stream).length + 1 : Nat) : Int) := by
    rw [readlineCall_bytes positive]
  refine ⟨⟨?_, fun unfilled => ⟨_, ?_, delivers⟩⟩, _, delivers, value⟩
  · rintro ⟨k, returned, also⟩
    by_contra filled
    rw [value, if_neg filled, delivers.eq also, Option.some.injEq] at returned
    omega
  · rw [value, if_pos unfilled]

/-- A line of two bytes and a newline, and the beginning of another. -/
theorem readline_contract_two :
    Contract maxLine [97, 98, 10, 99] (readlineCall maxLine ([97, 98, 10, 99].map .byte)) :=
  (readline_contract_iff maxLine (by decide) [97, 98, 10, 99]).1.mpr (by decide)

/-- A line of two bytes that fills a buffer of three: the value returned is three. -/
theorem filled_buffer_miscounted :
    (readlineCall 3 ([97, 98, 99].map .byte)).value = some 3 ∧
      (readlineCall 3 ([97, 98, 99].map .byte)).rest = [.byte 99] ∧
      ¬ Contract 3 [97, 98, 99] (readlineCall 3 ([97, 98, 99].map .byte)) := by
  refine ⟨by decide, by decide, ?_⟩
  rintro ⟨k, returned, delivers⟩
  have bounded := delivers.bounded
  have three : (3 : Int) = k := Option.some.inj returned
  omega

/-! ### Interruptions -/

/-- A stream with interruptions: `none` is a `recv` that fails with `EINTR`. -/
def interrupted (placement : List (Option UInt8)) : List Reception :=
  placement.map fun
    | some c => .byte c
    | none => .error true

/-- The bytes that are still to be received. -/
def unreadBytes (receptions : List Reception) : List UInt8 :=
  receptions.filterMap fun
    | .byte c => some c
    | .error _ => none

/-- The call returns, and the same as without the interruptions. -/
structure Transparent (maxlen : Nat) (placement : List (Option UInt8)) : Prop where
  returns : (readlineCall maxlen (interrupted placement)).value ≠ none
  value : (readlineCall maxlen (interrupted placement)).value =
    (readlineCall maxlen (placement.reduceOption.map .byte)).value
  bytes : ∀ index, (readlineCall maxlen (interrupted placement)).buffer.cell index =
    (readlineCall maxlen (placement.reduceOption.map .byte)).buffer.cell index
  consumed : unreadBytes (readlineCall maxlen (interrupted placement)).rest =
    unreadBytes (readlineCall maxlen (placement.reduceOption.map .byte)).rest

theorem unreadBytes_byte (bytes : List UInt8) (tail : List Reception) :
    unreadBytes (bytes.map .byte ++ tail) = bytes ++ unreadBytes tail := by
  induction bytes with
  | nil => rfl
  | cons byte rest inductionHypothesis => exact congrArg (byte :: ·) inductionHypothesis

theorem unreadBytes_interrupted (placement : List (Option UInt8)) :
    unreadBytes (interrupted placement) = placement.reduceOption := by
  induction placement with
  | nil => rfl
  | cons first rest inductionHypothesis =>
    cases first with
    | none => exact inductionHypothesis
    | some c => exact congrArg (c :: ·) inductionHypothesis

theorem interrupted_append (front : List UInt8) (back : List (Option UInt8)) :
    interrupted (front.map some ++ back) = front.map .byte ++ interrupted back := by
  rw [interrupted, List.map_append, List.map_map]
  rfl

theorem reduceOption_front (front : List UInt8) (back : List (Option UInt8)) :
    (front.map some ++ back).reduceOption = front ++ back.reduceOption := by
  have plain : (front.map some).reduceOption = front := by
    rw [List.reduceOption, List.filterMap_map]
    exact List.filterMap_some
  rw [List.reduceOption_append, plain]

/-- What is in front of the first interruption. -/
theorem placement_cases (placement : List (Option UInt8)) :
    placement = placement.reduceOption.map some ∨
      ∃ (front : List UInt8) (back : List (Option UInt8)),
        placement = front.map some ++ none :: back := by
  induction placement with
  | nil => exact Or.inl rfl
  | cons first rest inductionHypothesis =>
    cases first with
    | none => exact Or.inr ⟨[], rest, rfl⟩
    | some c =>
      rcases inductionHypothesis with without | ⟨front, back, split⟩
      · exact Or.inl (congrArg (some c :: ·) without)
      · exact Or.inr ⟨c :: front, back, congrArg (some c :: ·) split⟩

theorem returns_of_bytes (maxlen : Nat) (stream : List UInt8) :
    (readlineCall maxlen (stream.map .byte)).value ≠ none := by
  rcases Nat.eq_zero_or_pos maxlen with rfl | positive
  · exact nofun
  · rw [readlineCall_bytes positive]
    exact nofun

/-- If the bytes before the first interruption end the call, it does not come to it. -/
theorem transparent_of_completes {maxlen : Nat} {front : List UInt8} (back : List (Option UInt8))
    (complete : Completes (maxlen - 1) front) :
    Transparent maxlen (front.map some ++ none :: back) := by
  have ended := readlineLoop_complete Nat.one_pos 0 .empty complete
  have plain := ended (back.reduceOption.map .byte)
  have plainCall : readlineCall maxlen ((front.map some ++ none :: back).reduceOption.map .byte) =
      ⟨some (completeValue (maxlen - 1) 1 front),
        Buffer.empty.write 0 (fgetsTake (maxlen - 1) front ++ [0]),
        (front.drop (fgetsTake (maxlen - 1) front).length).map .byte ++
          back.reduceOption.map .byte⟩ := by
    rw [reduceOption_front, List.reduceOption_cons_of_none, List.map_append]
    exact plain
  have call : readlineCall maxlen (interrupted (front.map some ++ none :: back)) =
      ⟨some (completeValue (maxlen - 1) 1 front),
        Buffer.empty.write 0 (fgetsTake (maxlen - 1) front ++ [0]),
        (front.drop (fgetsTake (maxlen - 1) front).length).map .byte ++
          interrupted (none :: back)⟩ := by
    rw [interrupted_append]
    exact ended (interrupted (none :: back))
  refine ⟨by rw [call]; exact nofun, by rw [call, plainCall], fun index => by rw [call, plainCall],
    ?_⟩
  rw [call, plainCall, unreadBytes_byte, unreadBytes_byte, unreadBytes_interrupted,
    List.reduceOption_cons_of_none, ← List.append_nil (back.reduceOption.map _), unreadBytes_byte]
  rw [show unreadBytes [] = [] from rfl, List.append_nil]

/-- If they do not, the process exits. -/
theorem exits_of_incomplete {maxlen : Nat} {front : List UInt8} (back : List (Option UInt8))
    (incomplete : ¬ Completes (maxlen - 1) front) :
    (readlineCall maxlen (interrupted (front.map some ++ none :: back))).value = none := by
  obtain ⟨left, -, onward⟩ :=
    readlineLoop_incomplete 1 0 .empty incomplete (interrupted (none :: back))
  have failing : interrupted (none :: back) = .error true :: interrupted back := rfl
  rw [interrupted_append, readlineCall, onward, failing, readlineLoop_error]

/-- Whatever the stream and wherever the interruptions, `Readline` returns what it would return
without them exactly if the bytes before the first one already end the call; otherwise the process
exits. -/
theorem readline_transparent_iff (maxlen : Nat) (placement : List (Option UInt8)) :
    Transparent maxlen placement ↔
      ∀ (front : List UInt8) (back : List (Option UInt8)),
        placement = front.map some ++ none :: back → Completes (maxlen - 1) front := by
  constructor
  · rintro transparent front back rfl
    by_contra incomplete
    exact transparent.returns (exits_of_incomplete back incomplete)
  · intro complete
    rcases placement_cases placement with without | ⟨front, back, split⟩
    · have same : interrupted placement = placement.reduceOption.map .byte := by
        have mapped := interrupted_append placement.reduceOption []
        rw [List.append_nil, ← without] at mapped
        rw [mapped]
        exact List.append_nil _
      refine ⟨?_, by rw [same], fun index => by rw [same], by rw [same]⟩
      rw [same]
      exact returns_of_bytes maxlen _
    · rw [split]
      exact transparent_of_completes back (complete front back split)

/-- One interruption before the first byte ends the process. -/
theorem interruption_exits :
    (readlineCall maxLine (interrupted [none, some 97, some newline])).value = none ∧
      (readlineCall maxLine ([97, newline].map .byte)).value = some 2 ∧
      ¬ Transparent maxLine [none, some 97, some newline] :=
  ⟨rfl, rfl, fun transparent => transparent.returns rfl⟩

end SocketC
