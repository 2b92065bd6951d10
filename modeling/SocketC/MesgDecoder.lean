/-
This file is about `mesg_recv` as a decoder: which byte strings it takes for which
messages, when it is called until it returns zero. The length that it reads from the
header is checked against nothing but zero. A record of length zero, which `mesg.h`
allows, ends the loop like the end of the file does; a length above `MAXMESGDATA`,
or a negative one, is what the second `Read` is asked to store into `mesg_data`.
Apart from these headers the decoder is exact.
-/

import SocketC.Mesg

namespace SocketC

/-! ### One call -/

/-- What a call of `mesg_recv` does with the bytes on a pipe that has no writer any more. -/
inductive RecvCall where
  | eof
  | quit (error : MesgError)
  | returned (record : MesgRecord) (rest : List UInt8)
  deriving DecidableEq

/-- `mesg_recv`, both reads. -/
def mesgRecv (input : List UInt8) : RecvCall :=
  match readHeader (input.take mesgHdrSize) with
  | .eof => .eof
  | .quit error => .quit error
  | .header len type =>
    if 0 < len.toNat then
      match readData len type ((input.drop mesgHdrSize).take len.toNat) with
      | .error error => .quit error
      | .ok record => .returned record ((input.drop mesgHdrSize).drop len.toNat)
    else .returned ⟨len, type, []⟩ (input.drop mesgHdrSize)

/-- The sizes that the call asks `Read` to store into `mesg_data`. -/
def mesgAsked (input : List UInt8) : List Nat :=
  match readHeader (input.take mesgHdrSize) with
  | .header len _ => if 0 < len.toNat then [len.toNat] else []
  | .eof | .quit _ => []

theorem mesgAsked_of_header {input : List UInt8} {len type : BitVec 64}
    (header : readHeader (input.take mesgHdrSize) = .header len type) (announces : 0 < len.toNat) :
    mesgAsked input = [len.toNat] := by
  simp only [mesgAsked, header, if_pos announces]

/-- The header that a call reads decides how it goes on. -/
theorem mesgRecv_of_header {input : List UInt8} {len type : BitVec 64}
    (header : readHeader (input.take mesgHdrSize) = .header len type) (announces : 0 < len.toNat) :
    (((input.drop mesgHdrSize).take len.toNat).length = len.toNat ∧
      mesgRecv input = .returned ⟨len, type, (input.drop mesgHdrSize).take len.toNat⟩
        (input.drop (mesgHdrSize + len.toNat))) ∨
    (((input.drop mesgHdrSize).take len.toNat).length ≠ len.toNat ∧
      ∃ error, mesgRecv input = .quit error) := by
  by_cases complete : ((input.drop mesgHdrSize).take len.toNat).length = len.toNat
  · refine Or.inl ⟨complete, ?_⟩
    simp only [mesgRecv, header, if_pos announces, readData, if_neg (not_not.mpr complete),
      List.drop_drop]
  · refine Or.inr ⟨complete, .data len.toNat ((input.drop mesgHdrSize).take len.toNat).length, ?_⟩
    simp only [mesgRecv, header, if_pos announces, readData, ne_eq, complete, not_false_eq_true,
      if_true]

/-- A call that returns a record has taken its encoding off the front. -/
theorem eq_encode_of_mesgRecv {input rest : List UInt8} {record : MesgRecord}
    (called : mesgRecv input = .returned record rest) :
    input = record.encode ++ rest ∧ record.data.length = record.len.toNat := by
  cases header : readHeader (input.take mesgHdrSize) with
  | eof =>
    simp only [mesgRecv, header] at called
    cases called
  | quit error =>
    simp only [mesgRecv, header] at called
    cases called
  | header len type =>
    have front := eq_longs_of_readHeader header
    have whole : longBytes len ++ longBytes type ++ input.drop mesgHdrSize = input := by
      rw [← front, List.take_append_drop]
    by_cases announces : 0 < len.toNat
    · rcases mesgRecv_of_header header announces with ⟨complete, returns⟩ | ⟨-, error, quits⟩
      · rw [called, RecvCall.returned.injEq] at returns
        obtain ⟨rfl, rfl⟩ := returns
        refine ⟨?_, complete⟩
        rw [MesgRecord.encode, List.append_assoc, ← List.drop_drop, List.take_append_drop]
        exact whole.symm
      · rw [called] at quits
        cases quits
    · simp only [mesgRecv, header, if_neg announces, RecvCall.returned.injEq] at called
      obtain ⟨rfl, rfl⟩ := called
      refine ⟨?_, (Nat.eq_zero_of_not_pos announces).symm⟩
      rw [MesgRecord.encode, List.append_nil]
      exact whole.symm

/-! ### Until zero is returned -/

/-- How a run ends: `mesg_recv` returned zero, with these bytes still unread before the call, or
`err_quit` was called. -/
inductive RecvEnd where
  | zero (left : List UInt8)
  | quit (error : MesgError)

/-- A run: the messages returned, the sizes asked for, and the end. -/
structure RecvRun where
  messages : List MesgRecord
  asked : List Nat
  ending : RecvEnd

/-- `mesg_recv` again and again until it returns zero. The value of a call that returns a record
is `len`, as a signed number. -/
def recvAll (input : List UInt8) : RecvRun :=
  match _called : mesgRecv input with
  | .eof => ⟨[], mesgAsked input, .zero input⟩
  | .quit error => ⟨[], mesgAsked input, .quit error⟩
  | .returned record rest =>
    if record.len.toInt = 0 then ⟨[], mesgAsked input, .zero input⟩
    else
      let later := recvAll rest
      ⟨record :: later.messages, mesgAsked input ++ later.asked, later.ending⟩
termination_by input.length
decreasing_by
  rw [(eq_encode_of_mesgRecv _called).1, List.length_append, record.length_encode]
  have positive : 0 < mesgHdrSize := by decide
  omega

/-- A length that announces data is not taken for the end. -/
theorem toInt_ne_zero {len : BitVec 64} (announces : 0 < len.toNat) : len.toInt ≠ 0 := by
  intro zero
  rw [BitVec.toInt_eq_toNat_cond] at zero
  have small := len.isLt
  split at zero <;> omega

theorem recvAll_eof {input : List UInt8} (called : mesgRecv input = .eof) :
    recvAll input = ⟨[], mesgAsked input, .zero input⟩ := by
  rw [recvAll]
  split
  · rfl
  · rename_i error quits
    rw [called] at quits
    nomatch quits
  · rename_i record rest returns
    rw [called] at returns
    nomatch returns

theorem recvAll_quit {input : List UInt8} {error : MesgError}
    (called : mesgRecv input = .quit error) :
    recvAll input = ⟨[], mesgAsked input, .quit error⟩ := by
  rw [recvAll]
  split
  · rename_i ends
    rw [called] at ends
    nomatch ends
  · rename_i other quits
    rw [called, RecvCall.quit.injEq] at quits
    rw [quits]
  · rename_i record rest returns
    rw [called] at returns
    nomatch returns

theorem recvAll_returned {input rest : List UInt8} {record : MesgRecord}
    (called : mesgRecv input = .returned record rest) :
    recvAll input =
      if record.len.toInt = 0 then ⟨[], mesgAsked input, .zero input⟩
      else ⟨record :: (recvAll rest).messages, mesgAsked input ++ (recvAll rest).asked,
        (recvAll rest).ending⟩ := by
  rw [recvAll]
  split
  · rename_i ends
    rw [called] at ends
    nomatch ends
  · rename_i other quits
    rw [called] at quits
    nomatch quits
  · rename_i other left returns
    rw [called, RecvCall.returned.injEq] at returns
    rw [returns.1, returns.2]

/-! ### The encoder's image -/

/-- The input is the encodings of these messages one behind the other. -/
structure Decodes (input : List UInt8) (messages : List MesgRecord) : Prop where
  bytes : input = (messages.map MesgRecord.encode).flatten
  wellFormed : ∀ record ∈ messages, record.WellFormed

theorem decodes_nil_iff {messages : List MesgRecord} : Decodes [] messages ↔ messages = [] := by
  constructor
  · intro decodes
    cases messages with
    | nil => rfl
    | cons record rest =>
      have bytes := decodes.bytes
      rw [List.map_cons, List.flatten_cons] at bytes
      exact absurd (List.append_eq_nil_iff.mp bytes.symm).1 record.encode_ne_nil
  · intro empty
    rw [empty]
    exact ⟨rfl, nofun⟩

/-- Behind the first message come the others. -/
theorem decodes_cons_iff {input : List UInt8} {record : MesgRecord} {later : List MesgRecord} :
    Decodes input (record :: later) ↔
      record.WellFormed ∧ ∃ rest, input = record.encode ++ rest ∧ Decodes rest later := by
  constructor
  · intro decodes
    refine ⟨decodes.wellFormed record List.mem_cons_self, _, ?_,
      ⟨rfl, fun other member => decodes.wellFormed other (List.mem_cons_of_mem _ member)⟩⟩
    rw [decodes.bytes, List.map_cons, List.flatten_cons]
  · rintro ⟨wellFormed, rest, bytes, decodes⟩
    refine ⟨?_, ?_⟩
    · rw [bytes, decodes.bytes, List.map_cons, List.flatten_cons]
    · intro other member
      rcases List.mem_cons.mp member with same | behind
      · rw [same]
        exact wellFormed
      · exact decodes.wellFormed other behind

/-- A record that announces data and is followed by anything is returned. -/
theorem mesgRecv_encode (record : MesgRecord) (sized : record.data.length = record.len.toNat)
    (announces : 0 < record.len.toNat) (rest : List UInt8) :
    mesgRecv (record.encode ++ rest) = .returned record rest := by
  obtain ⟨header, left⟩ := readHeader_encode record rest
  rcases mesgRecv_of_header header announces with ⟨-, returns⟩ | ⟨short, -⟩
  · rw [returns, ← List.drop_drop, left, List.take_left' sized, List.drop_left' sized]
  · rw [left, List.take_left' sized] at short
    exact absurd sized short

/-- The first header of an encoding is its first message's. -/
theorem Decodes.header {input : List UInt8} {messages : List MesgRecord} {len type : BitVec 64}
    (decodes : Decodes input messages)
    (header : readHeader (input.take mesgHdrSize) = .header len type) :
    ∃ record rest later, messages = record :: later ∧ record.len = len ∧ record.WellFormed ∧
      input = record.encode ++ rest ∧ Decodes rest later := by
  cases messages with
  | nil =>
    rw [decodes.bytes] at header
    nomatch header
  | cons record later =>
    obtain ⟨wellFormed, rest, bytes, decodes⟩ := decodes_cons_iff.mp decodes
    rw [bytes, (readHeader_encode record rest).1, HeaderRead.header.injEq] at header
    exact ⟨record, rest, later, rfl, header.1, wellFormed, bytes, decodes⟩

/-! ### Exactness -/

/-- The decoder is exact on an input. -/
structure Exact (input : List UInt8) : Prop where
  /-- It returns the messages whose encodings the input is, and only those. -/
  decodes : ∀ messages, ((recvAll input).messages = messages ∧
    ∃ left, (recvAll input).ending = .zero left) ↔ Decodes input messages
  /-- On every other input it quits. -/
  quits : (∀ messages, ¬ Decodes input messages) → ∃ error, (recvAll input).ending = .quit error
  /-- It returns zero at the end of the input only. -/
  atEnd : ∀ left, (recvAll input).ending = .zero left → left = []
  /-- It asks for no more than fits. -/
  fits : ∀ size ∈ (recvAll input).asked, size ≤ maxMesgData

/-- Every complete header that is met, going from record to record, announces between one and
`MAXMESGDATA` bytes. -/
inductive HeadersOk : List UInt8 → Prop where
  | short {input : List UInt8} (incomplete : input.length < mesgHdrSize) : HeadersOk input
  | next {input : List UInt8} (len type : BitVec 64)
      (header : readHeader (input.take mesgHdrSize) = .header len type)
      (announces : 0 < len.toNat) (fits : len.toNat ≤ maxMesgData)
      (later : HeadersOk (input.drop (mesgHdrSize + len.toNat))) : HeadersOk input

theorem exact_nil : Exact [] := by
  have run : recvAll [] = ⟨[], [], .zero []⟩ := recvAll_eof rfl
  refine ⟨fun messages => ?_, fun undecodable => ?_, fun left ends => ?_, ?_⟩
  · rw [run, decodes_nil_iff]
    exact ⟨fun both => both.1.symm, fun empty => ⟨empty.symm, [], rfl⟩⟩
  · exact absurd (decodes_nil_iff.mpr rfl) (undecodable [])
  · rw [run] at ends
    cases ends
    rfl
  · rw [run]
    exact nofun

/-- A run that quits at once is exact when there is nothing to decode. -/
theorem exact_of_quit {input : List UInt8} {error : MesgError}
    (called : mesgRecv input = .quit error) (undecodable : ∀ messages, ¬ Decodes input messages)
    (fits : ∀ size ∈ mesgAsked input, size ≤ maxMesgData) : Exact input := by
  have run := recvAll_quit called
  refine ⟨fun messages => ?_, fun _ => ?_, fun left ends => ?_, ?_⟩
  · rw [run]
    refine ⟨fun both => ?_, fun decodes => absurd decodes (undecodable messages)⟩
    obtain ⟨-, left, ends⟩ := both
    nomatch ends
  · rw [run]
    exact ⟨error, rfl⟩
  · rw [run] at ends
    nomatch ends
  · rw [run]
    exact fits

/-- A part of a header is quit on. -/
theorem exact_of_short {input : List UInt8} (nonempty : input ≠ [])
    (incomplete : input.length < mesgHdrSize) : Exact input := by
  have all : input.take mesgHdrSize = input := List.take_of_length_le (le_of_lt incomplete)
  have header : readHeader (input.take mesgHdrSize) =
      .quit (.header mesgHdrSize input.length) := by
    rw [all, readHeader, if_neg (mt List.length_eq_zero_iff.mp nonempty),
      if_pos (ne_of_lt incomplete)]
  refine exact_of_quit (by rw [mesgRecv, header]) (fun messages decodes => ?_) ?_
  · cases messages with
    | nil => exact nonempty decodes.bytes
    | cons record later =>
      obtain ⟨-, rest, bytes, -⟩ := decodes_cons_iff.mp decodes
      rw [bytes, List.length_append, record.length_encode] at incomplete
      omega
  · rw [mesgAsked, header]
    exact List.forall_mem_nil _

/-- A record that is not all there is quit on. -/
theorem exact_of_truncated {input : List UInt8} {len type : BitVec 64}
    (header : readHeader (input.take mesgHdrSize) = .header len type) (announces : 0 < len.toNat)
    (fits : len.toNat ≤ maxMesgData)
    (truncated : ((input.drop mesgHdrSize).take len.toNat).length ≠ len.toNat) : Exact input := by
  rcases mesgRecv_of_header header announces with ⟨complete, -⟩ | ⟨-, error, called⟩
  · exact absurd complete truncated
  · refine exact_of_quit called (fun messages decodes => ?_) ?_
    · obtain ⟨record, rest, later, -, same, wellFormed, bytes, -⟩ := decodes.header header
      have sized : record.data.length = len.toNat := same ▸ wellFormed.sized
      rw [bytes, (readHeader_encode record rest).2, List.take_left' sized] at truncated
      exact truncated sized
    · rw [mesgAsked_of_header header announces]
      intro size member
      rw [List.mem_singleton.mp member]
      exact fits

/-- A whole record is returned, and the run goes on behind it. -/
theorem exact_of_returned {input rest : List UInt8} {record : MesgRecord}
    (called : mesgRecv input = .returned record rest) (announces : 0 < record.len.toNat)
    (fits : record.len.toNat ≤ maxMesgData) (later : Exact rest) : Exact input := by
  obtain ⟨bytes, sized⟩ := eq_encode_of_mesgRecv called
  have run := recvAll_returned called
  rw [if_neg (toInt_ne_zero announces)] at run
  have header := (readHeader_encode record rest).1
  rw [← bytes] at header
  have asked := mesgAsked_of_header header announces
  have behind (messages : List MesgRecord) :
      Decodes input messages ↔ ∃ others, messages = record :: others ∧ Decodes rest others := by
    constructor
    · intro decodes
      obtain ⟨other, tail, others, first, same, wellFormed, encoded, decodes⟩ :=
        decodes.header header
      have returns := mesgRecv_encode other wellFormed.sized (same ▸ announces) tail
      rw [← encoded, called, RecvCall.returned.injEq] at returns
      rw [returns.1, returns.2]
      exact ⟨others, first, decodes⟩
    · rintro ⟨others, rfl, decodes⟩
      exact decodes_cons_iff.mpr ⟨⟨fits, sized⟩, rest, bytes, decodes⟩
  refine ⟨fun messages => ?_, fun undecodable => ?_, ?_, ?_⟩
  · rw [run, behind]
    constructor
    · rintro ⟨rfl, ends⟩
      exact ⟨_, rfl, (later.decodes _).mp ⟨rfl, ends⟩⟩
    · rintro ⟨others, rfl, decodes⟩
      obtain ⟨same, ends⟩ := (later.decodes others).mpr decodes
      exact ⟨by rw [same], ends⟩
  · rw [run]
    exact later.quits fun others decodes => undecodable _ ((behind _).mpr ⟨others, rfl, decodes⟩)
  · rw [run]
    exact later.atEnd
  · rw [run, asked]
    intro size member
    rcases List.mem_append.mp member with now | then_
    · rw [List.mem_singleton.mp now]
      exact fits
    · exact later.fits size then_

theorem HeadersOk.exact {input : List UInt8} (headers : HeadersOk input) : Exact input := by
  induction headers with
  | @short input incomplete =>
    by_cases empty : input = []
    · rw [empty]
      exact exact_nil
    · exact exact_of_short empty incomplete
  | next len type header announces fits later inductionHypothesis =>
    rcases mesgRecv_of_header header announces with ⟨-, returns⟩ | ⟨truncated, -⟩
    · exact exact_of_returned returns announces fits inductionHypothesis
    · exact exact_of_truncated header announces fits truncated

/-- With no complete header there is less than a header's worth of bytes. -/
theorem short_of_readHeader {input : List UInt8}
    (headerless : ∀ len type, readHeader (input.take mesgHdrSize) ≠ .header len type) :
    input.length < mesgHdrSize := by
  by_contra complete
  have length : (input.take mesgHdrSize).length = mesgHdrSize :=
    List.length_take_of_le (not_lt.mp complete)
  refine headerless (longOf ((input.take mesgHdrSize).take sizeofLong))
    (longOf ((input.take mesgHdrSize).drop sizeofLong)) ?_
  rw [readHeader, if_neg (by rw [length]; decide), if_neg (not_not.mpr length)]

/-- A run that returns zero at the end only, and asks for no more than fits, has met only such
headers. -/
theorem headersOk_of_run (input : List UInt8)
    (atEnd : ∀ left, (recvAll input).ending = .zero left → left = [])
    (fits : ∀ size ∈ (recvAll input).asked, size ≤ maxMesgData) : HeadersOk input := by
  by_cases headed : ∃ len type, readHeader (input.take mesgHdrSize) = .header len type
  · obtain ⟨len, type, header⟩ := headed
    have nonempty : input ≠ [] := by
      intro empty
      rw [empty] at header
      nomatch header
    by_cases announces : 0 < len.toNat
    · have asked := mesgAsked_of_header header announces
      rcases mesgRecv_of_header header announces with
        ⟨complete, returns⟩ | ⟨truncated, error, quits⟩
      · have run := recvAll_returned returns
        rw [if_neg (toInt_ne_zero announces)] at run
        rw [run] at atEnd fits
        have shorter : (input.drop (mesgHdrSize + len.toNat)).length < input.length := by
          rw [List.length_drop]
          have positive := List.length_pos_iff.mpr nonempty
          omega
        exact .next len type header announces
          (fits len.toNat (by rw [asked]; exact List.mem_cons_self))
          (headersOk_of_run _ atEnd fun size member => fits size (List.mem_append_right _ member))
      · rw [recvAll_quit quits] at fits
        refine .next len type header announces
          (fits len.toNat (by rw [asked]; exact List.mem_singleton_self _)) (.short ?_)
        rw [List.length_take, List.length_drop] at truncated
        rw [List.length_drop]
        have positive : 0 < mesgHdrSize := by decide
        omega
    · -- The call returns zero although there is a header to read.
      have called : mesgRecv input = .returned ⟨len, type, []⟩ (input.drop mesgHdrSize) := by
        simp only [mesgRecv, header, if_neg announces]
      have zero : len.toInt = 0 := by
        rw [BitVec.toInt_eq_toNat_cond]
        split <;> omega
      have run := recvAll_returned called
      rw [if_pos zero] at run
      rw [run] at atEnd
      exact absurd (atEnd input rfl) nonempty
  · exact .short (short_of_readHeader fun len type header => headed ⟨len, type, header⟩)
termination_by input.length

/-- Calling `mesg_recv` until it returns zero decodes the encoder's image and nothing else,
returns zero at the end of the input only and stores no more than `MAXMESGDATA` bytes, exactly
when every header it meets announces between one and `MAXMESGDATA` bytes. -/
theorem exact_iff_headersOk (input : List UInt8) : Exact input ↔ HeadersOk input :=
  ⟨fun exact => headersOk_of_run input exact.atEnd exact.fits, HeadersOk.exact⟩

/-- A message of length zero, which `mesg.h` allows, and a header with the length -1. -/
def emptyMessage : MesgRecord := ⟨0, 1, []⟩
def negativeMessage : MesgRecord := ⟨-1, 1, [33]⟩

/-- The empty message is taken for the end of the file. The negative length is taken for a size,
and that many bytes are asked for. -/
theorem empty_and_negative_message :
    (Decodes emptyMessage.encode [emptyMessage] ∧
      recvAll emptyMessage.encode = ⟨[], [], .zero emptyMessage.encode⟩ ∧
      ¬ Exact emptyMessage.encode) ∧
    ((recvAll negativeMessage.encode).asked = [2 ^ 64 - 1] ∧ ¬ Exact negativeMessage.encode) := by
  have decodes : Decodes emptyMessage.encode [emptyMessage] :=
    decodes_cons_iff.mpr ⟨⟨by decide, rfl⟩, [], rfl, decodes_nil_iff.mpr rfl⟩
  have called : mesgRecv emptyMessage.encode = .returned emptyMessage [] := by decide
  have run := recvAll_returned called
  rw [if_pos (by decide)] at run
  have quits : mesgRecv negativeMessage.encode = .quit (.data (2 ^ 64 - 1) 1) := by decide
  have asked : (recvAll negativeMessage.encode).asked = [2 ^ 64 - 1] := by
    rw [recvAll_quit quits]
    decide
  refine ⟨⟨decodes, run, fun exact => ?_⟩, asked, fun exact => ?_⟩
  · exact absurd (exact.atEnd emptyMessage.encode (by rw [run])) emptyMessage.encode_ne_nil
  · have fits := exact.fits (2 ^ 64 - 1) (by rw [asked]; exact List.mem_singleton_self _)
    exact absurd fits (by decide)

end SocketC
