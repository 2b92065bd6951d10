/-
This file models the messages of `IPC/mesg.h` and the functions that send and
receive them over a pipe or FIFO, `mesg_send` and `mesg_recv`. A `long` is 64 bits,
stored with the lowest byte first, and `PIPE_BUF` is 4096. What is written for a
message is the front part of the `struct mymesg` in memory, the two longs and
`mesg_len` bytes of the data; the receiver reads the header first and then as many
bytes as the header says.
-/

import SocketC.LittleEndian

namespace SocketC

open LittleEndian

/-! ### The struct -/

/-- `sizeof(long)`. -/
def sizeofLong : Nat := 8

/-- `PIPE_BUF`. -/
def pipeBuf : Nat := 4096

/-- `MAXMESGDATA`. -/
def maxMesgData : Nat := pipeBuf - 2 * sizeofLong

/-- `sizeof(struct mymesg)`: two longs and the data, with no padding. -/
def sizeofMymesg : Nat := 2 * sizeofLong + maxMesgData

/-- `MESGHDRSIZE`. -/
def mesgHdrSize : Nat := sizeofMymesg - maxMesgData

/-- The bytes of a `long` in memory. -/
def longBytes (long : BitVec 64) : List UInt8 := bytesOf sizeofLong long.toNat

/-- The `long` that eight bytes of memory hold. -/
def longOf (bytes : List UInt8) : BitVec 64 := BitVec.ofNat 64 (valueOf bytes)

@[simp] theorem length_longBytes (long : BitVec 64) : (longBytes long).length = sizeofLong :=
  length_bytesOf _ _

theorem longOf_longBytes (long : BitVec 64) : longOf (longBytes long) = long := by
  have fits : long.toNat < 256 ^ sizeofLong := long.isLt
  rw [longOf, longBytes, valueOf_bytesOf fits, BitVec.ofNat_toNat, BitVec.setWidth_eq]

theorem longBytes_longOf {bytes : List UInt8} (length : bytes.length = sizeofLong) :
    longBytes (longOf bytes) = bytes := by
  have fits : valueOf bytes < 2 ^ 64 := by
    have bound := valueOf_lt bytes
    rw [length] at bound
    exact bound
  rw [longBytes, longOf, BitVec.toNat_ofNat, Nat.mod_eq_of_lt fits, bytesOf_valueOf length]

/-- `struct mymesg`. -/
structure Mymesg where
  mesgLen : BitVec 64
  mesgType : BitVec 64
  mesgData : List UInt8
  filled : mesgData.length = maxMesgData

/-- What a receiver sees of a message: the two longs and the first `mesg_len` bytes of data. -/
structure MesgRecord where
  len : BitVec 64
  type : BitVec 64
  data : List UInt8
  deriving DecidableEq

/-- A record as it stands on the pipe. -/
def MesgRecord.encode (record : MesgRecord) : List UInt8 :=
  longBytes record.len ++ longBytes record.type ++ record.data

/-- The length field announces the data, and no more than fits the struct. -/
structure MesgRecord.WellFormed (record : MesgRecord) : Prop where
  fits : record.len.toNat ≤ maxMesgData
  sized : record.data.length = record.len.toNat

theorem length_longs (len type : BitVec 64) :
    (longBytes len ++ longBytes type).length = mesgHdrSize := by
  rw [List.length_append, length_longBytes, length_longBytes]
  rfl

theorem MesgRecord.length_encode (record : MesgRecord) :
    record.encode.length = mesgHdrSize + record.data.length := by
  rw [encode, List.length_append, length_longs]

theorem MesgRecord.encode_ne_nil (record : MesgRecord) : record.encode ≠ [] := by
  rw [← List.length_pos_iff, length_encode]
  exact Nat.add_pos_left (by decide) _

/-! ### Sending -/

/-- The struct in memory. -/
def Mymesg.image (mesg : Mymesg) : List UInt8 :=
  longBytes mesg.mesgLen ++ longBytes mesg.mesgType ++ mesg.mesgData

/-- What the message says. -/
def Mymesg.record (mesg : Mymesg) : MesgRecord :=
  ⟨mesg.mesgLen, mesg.mesgType, mesg.mesgData.take mesg.mesgLen.toNat⟩

/-- The length lies in `0 .. MAXMESGDATA`. -/
def Mymesg.Valid (mesg : Mymesg) : Prop :=
  0 ≤ mesg.mesgLen.toInt ∧ mesg.mesgLen.toInt ≤ maxMesgData

instance : DecidablePred Mymesg.Valid := fun mesg =>
  inferInstanceAs (Decidable (0 ≤ mesg.mesgLen.toInt ∧ mesg.mesgLen.toInt ≤ maxMesgData))

/-- The third argument of the `write` in `mesg_send`, a `size_t`. -/
def mesgSendCount (mesg : Mymesg) : Nat := (BitVec.ofNat 64 mesgHdrSize + mesg.mesgLen).toNat

/-- The bytes that `mesg_send` hands to `write`. -/
def mesgSend (mesg : Mymesg) : List UInt8 := mesg.image.take (mesgSendCount mesg)

theorem Mymesg.Valid.toNat_le {mesg : Mymesg} (valid : mesg.Valid) :
    mesg.mesgLen.toNat ≤ maxMesgData := by
  obtain ⟨nonnegative, bounded⟩ := valid
  rw [BitVec.toInt_eq_toNat_cond] at nonnegative bounded
  have small := mesg.mesgLen.isLt
  split at bounded <;> omega

theorem Mymesg.Valid.wellFormed {mesg : Mymesg} (valid : mesg.Valid) : mesg.record.WellFormed := by
  refine ⟨valid.toNat_le, ?_⟩
  rw [record, List.length_take, mesg.filled]
  exact min_eq_left valid.toNat_le

theorem mesgSendCount_of_valid {mesg : Mymesg} (valid : mesg.Valid) :
    mesgSendCount mesg = mesgHdrSize + mesg.mesgLen.toNat := by
  have bounded := valid.toNat_le
  have header : mesgHdrSize = 16 := rfl
  have most : maxMesgData = 4080 := rfl
  rw [mesgSendCount, BitVec.toNat_add, BitVec.toNat_ofNat]
  omega

/-- A valid message goes out as its record. -/
theorem mesgSend_of_valid {mesg : Mymesg} (valid : mesg.Valid) :
    mesgSend mesg = mesg.record.encode := by
  have header := length_longs mesg.mesgLen mesg.mesgType
  rw [mesgSend, mesgSendCount_of_valid valid, Mymesg.image, List.take_append, header,
    Nat.add_sub_cancel_left, List.take_of_length_le (by rw [header]; exact Nat.le_add_right _ _)]
  rfl

/-- The `write` of a valid message is at most `PIPE_BUF` bytes long. -/
theorem mesgSendCount_le_pipeBuf {mesg : Mymesg} (valid : mesg.Valid) :
    mesgSendCount mesg ≤ pipeBuf := by
  rw [mesgSendCount_of_valid valid]
  exact Nat.add_le_add_left valid.toNat_le mesgHdrSize

/-! ### Receiving -/

/-- The two texts with which `mesg_recv` calls `err_quit`: `message header: expected %d, got %d`
and `message data: expected %d, got %d`. -/
inductive MesgError where
  | header (expected got : Nat)
  | data (expected got : Nat)
  deriving DecidableEq

/-- How `mesg_recv` goes on after its first `Read`. -/
inductive HeaderRead where
  /-- `Read` returned zero, and so does `mesg_recv`. -/
  | eof
  | quit (error : MesgError)
  /-- The header is there, with this `mesg_len` and `mesg_type`. -/
  | header (len type : BitVec 64)
  deriving DecidableEq

/-- Lines 11-14 of `mesg_recv.c`, with the bytes that `Read` returned. -/
def readHeader (bytes : List UInt8) : HeaderRead :=
  if bytes.length = 0 then .eof
  else if bytes.length ≠ mesgHdrSize then .quit (.header mesgHdrSize bytes.length)
  else .header (longOf (bytes.take sizeofLong)) (longOf (bytes.drop sizeofLong))

/-- Lines 16-18 of `mesg_recv.c`, with the bytes that the second `Read` returned: `len` is the
`size_t` that `mesg_len` converts to. -/
def readData (len type : BitVec 64) (bytes : List UInt8) : Except MesgError MesgRecord :=
  if bytes.length ≠ len.toNat then .error (.data len.toNat bytes.length) else .ok ⟨len, type, bytes⟩

theorem readHeader_longs (len type : BitVec 64) :
    readHeader (longBytes len ++ longBytes type) = .header len type := by
  have length := length_longs len type
  have front : (longBytes len ++ longBytes type).take sizeofLong = longBytes len :=
    List.take_left' (length_longBytes len)
  have back : (longBytes len ++ longBytes type).drop sizeofLong = longBytes type :=
    List.drop_left' (length_longBytes len)
  rw [readHeader, if_neg (by rw [length]; decide), if_neg (not_not.mpr length), front, back,
    longOf_longBytes, longOf_longBytes]

/-- The first `Read` on a pipe that starts with a record returns the record's header. -/
theorem readHeader_encode (record : MesgRecord) (rest : List UInt8) :
    readHeader ((record.encode ++ rest).take mesgHdrSize) = .header record.len record.type ∧
      (record.encode ++ rest).drop mesgHdrSize = record.data ++ rest := by
  have length := length_longs record.len record.type
  have split : record.encode ++ rest =
      (longBytes record.len ++ longBytes record.type) ++ (record.data ++ rest) :=
    List.append_assoc _ _ _
  rw [split, List.take_left' length, List.drop_left' length]
  exact ⟨readHeader_longs record.len record.type, rfl⟩

/-- A header that was read is the two longs. -/
theorem eq_longs_of_readHeader {bytes : List UInt8} {len type : BitVec 64}
    (read : readHeader bytes = .header len type) : bytes = longBytes len ++ longBytes type := by
  unfold readHeader at read
  split at read
  · nomatch read
  · split at read
    · nomatch read
    · rename_i complete
      have length : bytes.length = mesgHdrSize := not_not.mp complete
      have front : (bytes.take sizeofLong).length = sizeofLong := by
        rw [List.length_take, length]
        rfl
      have back : (bytes.drop sizeofLong).length = sizeofLong := by
        rw [List.length_drop, length]
        rfl
      rw [HeaderRead.header.injEq] at read
      rw [← read.1, ← read.2, longBytes_longOf front, longBytes_longOf back,
        List.take_append_drop]

end SocketC
