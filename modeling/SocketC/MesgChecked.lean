/-
This file models `Mesg_send` in `IPC/mesg_send.c`, the sender that checks what
`mesg_send` returned. The `write` in `mesg_send` counts the header and the data,
while `Mesg_send` compares the count with `mesg_len`, the length of the data alone.
A complete write is therefore reported as an error, and a write that is short by
exactly the size of a header is accepted.
-/

import SocketC.MesgPipe

namespace SocketC

/-! ### The checked sender -/

/-- How a call of `Mesg_send` ends. -/
inductive CheckedSend where
  | returned
  /-- `err_quit("mesg_send error")`. -/
  | quit
  deriving DecidableEq

/-- `Mesg_send`, when `mesg_send` returns `n`. -/
def checkedMesgSend (mesg : Mymesg) (n : Int) : CheckedSend :=
  if n ≠ mesg.mesgLen.toInt then .quit else .returned

/-- A valid message and what the `write` of `mesg_send` returns for it. -/
structure MesgWrite where
  mesg : Mymesg
  n : Int
  valid : mesg.Valid
  result : n = -1 ∨ 0 ≤ n ∧ n ≤ mesgSendCount mesg

namespace MesgWrite

/-- The bytes that the `write` puts on the pipe. -/
def bytes (write : MesgWrite) : List UInt8 := (mesgSend write.mesg).take write.n.toNat

/-- How `Mesg_send` ends. -/
def ending (write : MesgWrite) : CheckedSend := checkedMesgSend write.mesg write.n

/-- The whole record was written. -/
def Whole (write : MesgWrite) : Prop := write.n = mesgSendCount write.mesg

instance : DecidablePred Whole := fun write =>
  inferInstanceAs (Decidable (write.n = mesgSendCount write.mesg))

end MesgWrite

/-- What a sequence of calls leaves: the pipe and how the calls ended that were made. -/
structure SendRun where
  pipe : List UInt8
  endings : List CheckedSend

/-- `Mesg_send` for one message after the other; `err_quit` ends the process. -/
def sendAll : List MesgWrite → SendRun
  | [] => ⟨[], []⟩
  | write :: rest =>
    match write.ending with
    | .quit => ⟨write.bytes, [.quit]⟩
    | .returned => ⟨write.bytes ++ (sendAll rest).pipe, .returned :: (sendAll rest).endings⟩

theorem sendAll_quit {write : MesgWrite} (quit : write.ending = .quit) (rest : List MesgWrite) :
    sendAll (write :: rest) = ⟨write.bytes, [.quit]⟩ := by
  simp only [sendAll, quit]

theorem sendAll_returned {write : MesgWrite} (returned : write.ending = .returned)
    (rest : List MesgWrite) :
    sendAll (write :: rest) =
      ⟨write.bytes ++ (sendAll rest).pipe, .returned :: (sendAll rest).endings⟩ := by
  simp only [sendAll, returned]

theorem head_endings (write : MesgWrite) (rest : List MesgWrite) :
    (sendAll (write :: rest)).endings.head? = some write.ending := by
  cases ended : write.ending with
  | returned => rw [sendAll_returned ended, List.head?_cons]
  | quit => rw [sendAll_quit ended, List.head?_cons]

/-! ### One call -/

theorem MesgWrite.ending_eq_returned_iff (write : MesgWrite) :
    write.ending = .returned ↔ write.n = write.mesg.mesgLen.toInt := by
  unfold ending checkedMesgSend
  split
  · rename_i different
    exact iff_of_false nofun different
  · rename_i same
    exact iff_of_true rfl (not_not.mp same)

theorem Mymesg.Valid.toInt_eq {mesg : Mymesg} (valid : mesg.Valid) :
    mesg.mesgLen.toInt = mesg.mesgLen.toNat := by
  have bounded := valid.toNat_le
  have most : maxMesgData = 4080 := rfl
  exact BitVec.toInt_eq_toNat_of_lt (by omega)

/-- The count of the whole record is never the one `Mesg_send` asks for. -/
theorem MesgWrite.count_ne (write : MesgWrite) :
    (mesgSendCount write.mesg : Int) ≠ write.mesg.mesgLen.toInt := by
  have header : mesgHdrSize = 16 := rfl
  rw [mesgSendCount_of_valid write.valid, write.valid.toInt_eq]
  omega

/-- A call tells complete from incomplete writes only where it rejects an incomplete one. -/
theorem MesgWrite.exact_iff (write : MesgWrite) :
    (write.ending = .returned ↔ write.Whole) ↔
      write.n ≠ write.mesg.mesgLen.toInt ∧ write.n ≠ mesgSendCount write.mesg := by
  rw [ending_eq_returned_iff, Whole]
  constructor
  · intro same
    refine ⟨fun accepted => ?_, fun whole => ?_⟩
    · exact write.count_ne ((same.mp accepted).symm.trans accepted)
    · exact write.count_ne (whole.symm.trans (same.mpr whole))
  · exact fun rejected => iff_of_false rejected.1 rejected.2

/-! ### Sequences of calls -/

/-- The bytes of the records of some messages. -/
def encodings (writes : List MesgWrite) : List UInt8 :=
  (writes.map fun write => write.mesg.record.encode).flatten

/-- Every call that was made returned, for all of the messages. -/
def AllReturned (writes : List MesgWrite) : Prop :=
  (sendAll writes).endings = List.replicate writes.length .returned

/-- `Mesg_send` reports exactly the incomplete writes. -/
structure Reported (writes : List MesgWrite) : Prop where
  exact : ∀ call ∈ writes.zip (sendAll writes).endings, call.2 = .returned ↔ call.1.Whole
  sent : (∀ write ∈ writes, write.Whole) →
    AllReturned writes ∧ (sendAll writes).pipe = encodings writes
  delivered : AllReturned writes → (sendAll writes).pipe = encodings writes

/-- A sequence of calls of `Mesg_send` is reported rightly if and only if there is no call, or
the first `write` returned neither `mesg_len`, which is short, nor the count of the whole record. -/
theorem mesg_send_reported_iff (writes : List MesgWrite) :
    Reported writes ↔
      ∀ write ∈ writes.head?,
        write.n ≠ write.mesg.mesgLen.toInt ∧ write.n ≠ mesgSendCount write.mesg := by
  cases writes with
  | nil => exact iff_of_true ⟨nofun, fun _ => ⟨rfl, rfl⟩, fun _ => rfl⟩ nofun
  | cons write rest =>
    constructor
    · rintro reported _ ⟨⟩
      obtain ⟨later, first⟩ := List.head?_eq_some_iff.mp (head_endings write rest)
      refine write.exact_iff.mp (reported.exact (write, write.ending) ?_)
      rw [first, List.zip_cons_cons]
      exact List.mem_cons_self
    · intro rejected
      have first := rejected write rfl
      have quit : write.ending = .quit := by
        cases ended : write.ending with
        | returned => exact absurd ((write.ending_eq_returned_iff).mp ended) first.1
        | quit => rfl
      have notAll : ¬ AllReturned (write :: rest) := by
        rw [AllReturned, sendAll_quit quit, List.length_cons, List.replicate_succ]
        exact fun same => nomatch (List.cons.inj same).1
      refine ⟨?_, fun whole => ?_, fun all => absurd all notAll⟩
      · rw [sendAll_quit quit, List.zip_cons_cons, List.zip_nil_right]
        intro call member
        rw [List.mem_singleton.mp member, ← quit]
        exact write.exact_iff.mpr first
      · exact absurd (whole write List.mem_cons_self) first.2

/-- Where every call returned, the pipe lacks as many bytes as the headers of the messages have. -/
theorem pipe_of_allReturned {writes : List MesgWrite} (all : AllReturned writes) :
    (sendAll writes).pipe.length + mesgHdrSize * writes.length = (encodings writes).length := by
  induction writes with
  | nil => rfl
  | cons write rest inductionHypothesis =>
    have returned : write.ending = .returned := by
      have first := head_endings write rest
      rw [all, List.length_cons, List.replicate_succ, List.head?_cons] at first
      exact (Option.some.inj first).symm
    have later : AllReturned rest := by
      rw [AllReturned, sendAll_returned returned, List.length_cons, List.replicate_succ] at all
      exact (List.cons.inj all).2
    have count : write.n.toNat = write.mesg.mesgLen.toNat := by
      rw [write.ending_eq_returned_iff.mp returned, write.valid.toInt_eq, Int.toNat_natCast]
    have record : write.mesg.record.encode.length = mesgHdrSize + write.mesg.mesgLen.toNat := by
      rw [MesgRecord.length_encode, write.valid.wellFormed.sized]
      rfl
    have short : write.bytes.length = write.mesg.mesgLen.toNat := by
      rw [MesgWrite.bytes, mesgSend_of_valid write.valid, List.length_take, record, count]
      exact min_eq_left (Nat.le_add_left _ _)
    have encoded : encodings (write :: rest) = write.mesg.record.encode ++ encodings rest := rfl
    have kept := inductionHypothesis later
    rw [sendAll_returned returned, encoded, List.length_append, List.length_append, short, record,
      List.length_cons, Nat.mul_succ]
    omega

/-- The message `ok` written as a whole. -/
def wholeWrite : MesgWrite where
  mesg := MesgPipe.sample 1 [111, 107] (by decide)
  n := 18
  valid := by decide
  result := by decide

/-- Two of its 18 bytes written. -/
def shortWrite : MesgWrite where
  mesg := MesgPipe.sample 1 [111, 107] (by decide)
  n := 2
  valid := by decide
  result := by decide

/-- The complete write ends the process, and the short one is taken for a success. -/
theorem complete_write_quits :
    wholeWrite.Whole ∧ (sendAll [wholeWrite, wholeWrite]).endings = [.quit] ∧
      ¬ Reported [wholeWrite, wholeWrite] ∧
    ¬ shortWrite.Whole ∧ (sendAll [shortWrite]).endings = [.returned] ∧
      (sendAll [shortWrite]).pipe.length = 2 ∧ ¬ Reported [shortWrite] := by
  have whole : wholeWrite.Whole := by decide
  have short : ¬ shortWrite.Whole := by decide
  have quit : wholeWrite.ending = .quit := by decide
  have returned : shortWrite.ending = .returned := by decide
  refine ⟨whole, by rw [sendAll_quit quit], fun reported => ?_, short,
    by rw [sendAll_returned returned]; rfl, by rw [sendAll_returned returned]; decide,
    fun reported => ?_⟩
  · have all := (reported.sent (by decide)).1
    rw [AllReturned, sendAll_quit quit] at all
    cases all
  · exact short ((reported.exact (shortWrite, .returned) (by
      rw [sendAll_returned returned]; exact List.mem_cons_self)).mp rfl)

end SocketC
