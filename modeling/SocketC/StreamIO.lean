/-
This file models the functions of `unpv13e/lib` that the programs read and write streams with:
`writen`, `readn`, and `readline` with the buffer that its calls share. A system call may transfer
fewer bytes than asked for, be interrupted by a signal, or fail; which of these happens is given by
a list of choices, one for each system call, and a function whose choices run out has not
returned yet.

None of it is seen by the caller: `writen` writes all bytes in their order or reports an
error, `readn` collects the bytes asked for, and what the calls of `readline` return
depends on the bytes of the stream only, not on the pieces in which `read` delivered them.
-/

import SocketC.Lines

namespace SocketC.StreamIO

/-- What becomes of a system call: it transfers at most so many bytes and one more, fails with
`EINTR`, or fails otherwise. -/
inductive Kernel where
  | upTo (count : Nat)
  | interrupted
  | error
  deriving DecidableEq

/-- No system call fails, except with `EINTR`. -/
def NoError (choices : List Kernel) : Prop := Kernel.error ∉ choices

instance : DecidablePred NoError := fun choices => inferInstanceAs (Decidable (¬ _ ∈ choices))

/-- The number of system calls that are not interrupted. -/
def transfers (choices : List Kernel) : Nat := choices.countP (· ≠ .interrupted)

theorem NoError.tail {choice : Kernel} {rest : List Kernel} (noError : NoError (choice :: rest)) :
    NoError rest :=
  fun member => noError (List.mem_cons_of_mem _ member)

theorem not_noError_error (rest : List Kernel) : ¬ NoError (.error :: rest) :=
  fun noError => noError List.mem_cons_self

@[simp] theorem transfers_nil : transfers [] = 0 := rfl

@[simp] theorem transfers_interrupted (rest : List Kernel) :
    transfers (.interrupted :: rest) = transfers rest :=
  List.countP_cons_of_neg (by simp)

@[simp] theorem transfers_upTo (count : Nat) (rest : List Kernel) :
    transfers (.upTo count :: rest) = transfers rest + 1 :=
  List.countP_cons_of_pos (by simp)

/-! ### `writen` -/

/-- What is left by a call of `writen`. -/
structure Written where
  value : Int
  bytes : List UInt8
  choices : List Kernel
  deriving DecidableEq

/-- The loop of `writen`. The bytes still to be written are those at `ptr`, `nleft` of them. -/
def writenLoop (n : Nat) : List Kernel → List UInt8 → List UInt8 → Option Written
  | choices, [], written => some ⟨n, written, choices⟩
  | [], _, _ => none
  | .interrupted :: rest, left, written => writenLoop n rest left written
  | .error :: rest, _, written => some ⟨-1, written, rest⟩
  | .upTo count :: rest, left, written =>
    writenLoop n rest (left.drop (count + 1)) (written ++ left.take (count + 1))

def writen (choices : List Kernel) (bytes : List UInt8) : Option Written :=
  writenLoop bytes.length choices bytes []

/-- All is written, or an error is reported and something is not. -/
theorem writenLoop_spec {n : Nat} {choices : List Kernel} {left written : List UInt8}
    {out : Written} (returned : writenLoop n choices left written = some out) :
    (out.value = n ∧ out.bytes = written ++ left) ∨
      (out.value = -1 ∧ ∃ done rest, left = done ++ rest ∧ rest ≠ [] ∧
        out.bytes = written ++ done) := by
  fun_induction writenLoop n choices left written with
  | case1 choices written =>
    obtain rfl := Option.some.inj returned
    exact Or.inl ⟨rfl, (List.append_nil _).symm⟩
  | case2 => cases returned
  | case3 rest left written more inductionHypothesis => exact inductionHypothesis returned
  | case4 rest left written more =>
    obtain rfl := Option.some.inj returned
    exact Or.inr ⟨rfl, [], left, rfl, more, (List.append_nil _).symm⟩
  | case5 count rest left written more inductionHypothesis =>
    have split := List.take_append_drop (count + 1) left
    rcases inductionHypothesis returned with ⟨value, bytes⟩ | ⟨value, done, behind, drop, some_left,
      bytes⟩
    · refine Or.inl ⟨value, ?_⟩
      rw [bytes, List.append_assoc, split]
    · refine Or.inr ⟨value, left.take (count + 1) ++ done, behind, ?_, some_left, ?_⟩
      · rw [List.append_assoc, ← drop, split]
      · rw [bytes, List.append_assoc]

/-- With enough system calls `writen` returns. -/
theorem writenLoop_returns (n : Nat) {choices : List Kernel} {left : List UInt8}
    (written : List UInt8) (noError : NoError choices) (enough : left.length ≤ transfers choices) :
    ∃ out, writenLoop n choices left written = some out ∧ out.value = n := by
  fun_induction writenLoop n choices left written with
  | case1 choices written => exact ⟨_, rfl, rfl⟩
  | case2 left written more =>
    exact absurd (List.length_eq_zero_iff.mp (Nat.le_zero.mp enough)) more
  | case3 rest left written more inductionHypothesis =>
    exact inductionHypothesis noError.tail (by simpa using enough)
  | case4 rest left written more => exact absurd noError (not_noError_error rest)
  | case5 count rest left written more inductionHypothesis =>
    refine inductionHypothesis noError.tail ?_
    rw [transfers_upTo] at enough
    rw [List.length_drop]
    omega

/-! ### `readn` -/

/-- What is left by a call of `readn`. -/
structure Received where
  value : Int
  stored : List UInt8
  stream : List UInt8
  choices : List Kernel
  deriving DecidableEq

/-- The loop of `readn`. -/
def readnLoop (n : Nat) : List Kernel → Nat → List UInt8 → List UInt8 → Option Received
  | choices, 0, stored, stream => some ⟨n, stored, stream, choices⟩
  | [], _, _, _ => none
  | .interrupted :: rest, nleft, stored, stream => readnLoop n rest nleft stored stream
  | .error :: rest, _, stored, stream => some ⟨-1, stored, stream, rest⟩
  | .upTo count :: rest, nleft, stored, stream =>
    let nread := min (min (count + 1) nleft) stream.length
    if nread = 0 then some ⟨(n : Int) - nleft, stored, stream, rest⟩
    else readnLoop n rest (nleft - nread) (stored ++ stream.take nread) (stream.drop nread)

def readn (choices : List Kernel) (n : Nat) (stream : List UInt8) : Option Received :=
  readnLoop n choices n [] stream

/-- With enough system calls `readn` stores what it was asked for, or all there is. -/
theorem readnLoop_returns {n nleft : Nat} {choices : List Kernel} (stored stream : List UInt8)
    (noError : NoError choices) (enough : nleft ≤ transfers choices) (counts : nleft ≤ n) :
    ∃ rest, readnLoop n choices nleft stored stream =
      some ⟨n - (nleft - stream.length : Nat), stored ++ stream.take nleft, stream.drop nleft,
        rest⟩ := by
  fun_induction readnLoop n choices nleft stored stream with
  | case1 choices stored stream => exact ⟨choices, by simp⟩
  | case2 nleft stored stream more => exact absurd (Nat.le_zero.mp enough) more
  | case3 rest nleft stored stream more inductionHypothesis =>
    exact inductionHypothesis noError.tail (by simpa using enough) counts
  | case4 rest nleft stored stream more => exact absurd noError (not_noError_error rest)
  | case5 count rest nleft stored stream more nread nothing =>
    -- `read` has found the end of the stream.
    have positive : 0 < nleft := Nat.pos_of_ne_zero more
    have atEnd : stream = [] := List.length_eq_zero_iff.mp (by omega)
    subst atEnd
    exact ⟨rest, by simp⟩
  | case6 count rest nleft stored stream more nread some_there inductionHypothesis =>
    rw [transfers_upTo] at enough
    obtain ⟨left, returned⟩ := inductionHypothesis noError.tail (by omega) (by omega)
    refine ⟨left, ?_⟩
    rw [returned]
    have bound : nread ≤ nleft := by omega
    have value : nleft - nread - (stream.drop nread).length = nleft - stream.length := by
      rw [List.length_drop]
      omega
    have bytes : stream.take nread ++ (stream.drop nread).take (nleft - nread) =
        stream.take nleft := by
      rw [← List.take_add, Nat.add_sub_cancel' bound]
    rw [value, List.append_assoc, bytes, List.drop_drop, Nat.add_sub_cancel' bound]

/-- What is written in pieces is read in pieces: a `writen` that has returned has written all its
bytes, or reports an error and has written a part of them that is not all; and when no system call
fails and enough of them are not interrupted, `writen` returns and a `readn` of the same length at
the other end of the stream stores these bytes and leaves what is behind them. -/
theorem readn_of_writen (bytes behind : List UInt8) (writes reads : List Kernel) :
    (∀ out, writen writes bytes = some out →
      (out.value = bytes.length ∧ out.bytes = bytes) ∨
        (out.value = -1 ∧ ∃ rest, rest ≠ [] ∧ out.bytes ++ rest = bytes)) ∧
      (NoError writes → NoError reads → bytes.length ≤ transfers writes →
        bytes.length ≤ transfers reads →
        ∃ out rest, writen writes bytes = some out ∧ out.value = bytes.length ∧
          readn reads bytes.length (out.bytes ++ behind) =
            some ⟨bytes.length, bytes, behind, rest⟩) := by
  refine ⟨fun out returned => ?_, fun noWriteError noReadError enoughWrites enoughReads => ?_⟩
  · rcases writenLoop_spec returned with all | ⟨value, done, rest, split, some_left, written⟩
    · exact Or.inl all
    · refine Or.inr ⟨value, rest, some_left, ?_⟩
      rw [written, List.nil_append, ← split]
  · obtain ⟨out, returned, value⟩ := writenLoop_returns bytes.length [] noWriteError enoughWrites
    have written : out.bytes = bytes := by
      rcases writenLoop_spec returned with ⟨-, all⟩ | ⟨failed, -⟩
      · exact all
      · omega
    obtain ⟨rest, received⟩ := readnLoop_returns [] (bytes ++ behind) noReadError enoughReads le_rfl
    refine ⟨out, rest, returned, value, ?_⟩
    rw [readn, written, received, List.take_left, List.drop_left, List.length_append,
      Nat.sub_eq_zero_of_le (Nat.le_add_right _ _), List.nil_append, Nat.cast_zero, sub_zero]

/-- Three bytes, written as two and one and read as one and two, with an interrupt on each side. -/
theorem readn_of_writen_pieces :
    ∃ out rest, writen [.upTo 1, .interrupted, .upTo 0, .upTo 0] [1, 2, 3] = some out ∧
      out.value = 3 ∧
      readn [.interrupted, .upTo 0, .upTo 5, .upTo 0] 3 (out.bytes ++ [4]) =
        some ⟨3, [1, 2, 3], [4], rest⟩ :=
  (readn_of_writen [1, 2, 3] [4] _ _).2 (by decide) (by decide) (by decide) (by decide)

/-! ### `readline` -/

/-- The static variables of `readline.c` and the descriptor that it is called with: `read_cnt`, the
bytes at `read_ptr`, the rest of the stream, and the choices for the system calls to come. -/
structure Reader where
  readCnt : Int
  readPtr : List UInt8
  stream : List UInt8
  choices : List Kernel
  deriving DecidableEq

/-- What `my_read` returns. -/
inductive ByteRead where
  | byte (c : UInt8)
  | eof
  | error
  deriving DecidableEq

/-- The label `again` of `my_read`. -/
def again (reader : Reader) : List Kernel → Option (ByteRead × Reader)
  | [] => none
  | .interrupted :: rest => again reader rest
  | .error :: rest => some (.error, { reader with readCnt := -1, choices := rest })
  | .upTo count :: rest =>
    let nread := min (count + 1) maxLine
    match reader.stream.take nread with
    | [] => some (.eof, { reader with readCnt := 0, choices := rest })
    | c :: more =>
      some (.byte c, ⟨more.length, more, reader.stream.drop nread, rest⟩)

def myRead (reader : Reader) : Option (ByteRead × Reader) :=
  if reader.readCnt ≤ 0 then again reader reader.choices
  else
    match reader.readPtr with
    | [] => none
    | c :: more => some (.byte c, { reader with readCnt := reader.readCnt - 1, readPtr := more })

/-- What a call of `readline` returns and stores. -/
structure Line where
  value : Int
  stored : List UInt8
  deriving DecidableEq

/-- The loop of `readline` from this `n` on, with so many turns to go. -/
def readlineLoop : Nat → Nat → List UInt8 → Reader → Option (Line × Reader)
  | 0, n, stored, reader => some (⟨n, stored⟩, reader)
  | turns + 1, n, stored, reader =>
    match myRead reader with
    | none => none
    | some (.byte c, next) =>
      if c = newline then some (⟨n, stored ++ [c]⟩, next)
      else readlineLoop turns (n + 1) (stored ++ [c]) next
    | some (.eof, next) => some (⟨(n : Int) - 1, stored⟩, next)
    | some (.error, next) => some (⟨-1, stored⟩, next)

def readline (maxlen : Nat) (reader : Reader) : Option (Line × Reader) :=
  readlineLoop (maxlen - 1) 1 [] reader

/-- Calls with these values of `maxlen`, one after the other. -/
def readlines : List Nat → Reader → Option (List Line × Reader)
  | [], reader => some ([], reader)
  | maxlen :: rest, reader =>
    match readline maxlen reader with
    | none => none
    | some (line, next) => (readlines rest next).map fun (lines, last) => (line :: lines, last)

/-- The bytes that were not returned yet. -/
def Reader.pending (reader : Reader) : List UInt8 := reader.readPtr ++ reader.stream

/-- The count is that of the bytes in the buffer; after an error it is negative. -/
def Reader.Counts (reader : Reader) : Prop :=
  reader.readCnt = reader.readPtr.length ∨ (reader.readCnt = -1 ∧ reader.readPtr = [])

/-- What `my_read` does to the bytes not returned yet: it takes the first of them, finds that there
is none, or fails and leaves them. -/
structure Takes (reader : Reader) (result : ByteRead) (next : Reader) : Prop where
  counts : next.Counts
  choices : next.choices <:+ reader.choices
  byte : ∀ c, result = .byte c → reader.pending = c :: next.pending
  eof : result = .eof → reader.pending = [] ∧ next.pending = []
  error : result = .error → next.pending = reader.pending ∧ ¬ NoError reader.choices

theorem again_takes {reader next : Reader} {result : ByteRead} (empty : reader.readPtr = [])
    {choices : List Kernel} (suffix : choices <:+ reader.choices)
    (returned : again reader choices = some (result, next)) : Takes reader result next := by
  have pending : reader.pending = reader.stream := by rw [Reader.pending, empty, List.nil_append]
  induction choices with
  | nil => cases returned
  | cons choice rest inductionHypothesis =>
    have suffixRest : rest <:+ reader.choices := (List.suffix_cons choice rest).trans suffix
    cases choice with
    | interrupted => exact inductionHypothesis suffixRest returned
    | error =>
      obtain ⟨rfl, rfl⟩ := Prod.mk.inj (Option.some.inj returned)
      refine ⟨Or.inr ⟨rfl, empty⟩, suffixRest, by simp, by simp, fun _ => ⟨rfl, fun noError => ?_⟩⟩
      exact noError (suffix.subset List.mem_cons_self)
    | upTo count =>
      dsimp only [again] at returned
      have split := List.take_append_drop (min (count + 1) maxLine) reader.stream
      have some_asked : 0 < min (count + 1) maxLine := Nat.lt_min.mpr ⟨Nat.succ_pos _, by decide⟩
      cases taken : reader.stream.take (min (count + 1) maxLine) with
      | nil =>
        rw [taken] at returned
        obtain ⟨rfl, rfl⟩ := Prod.mk.inj (Option.some.inj returned)
        have atEnd : reader.stream = [] := by
          rcases List.take_eq_nil_iff.mp taken with none_asked | atEnd
          · exact absurd none_asked some_asked.ne'
          · exact atEnd
        rw [atEnd] at pending
        refine ⟨Or.inl ?_, suffixRest, by simp, fun _ => ⟨pending, pending⟩, by simp⟩
        rw [empty]
        rfl
      | cons c more =>
        rw [taken] at returned split
        obtain ⟨rfl, rfl⟩ := Prod.mk.inj (Option.some.inj returned)
        refine ⟨Or.inl rfl, suffixRest, fun other same => ?_, by simp, by simp⟩
        obtain rfl := ByteRead.byte.inj same
        exact pending.trans split.symm

theorem myRead_takes {reader next : Reader} {result : ByteRead} (counts : reader.Counts)
    (returned : myRead reader = some (result, next)) : Takes reader result next := by
  unfold myRead at returned
  split at returned
  · rename_i drained
    have empty : reader.readPtr = [] := by
      rcases counts with buffered | ⟨-, empty⟩
      · exact List.length_eq_zero_iff.mp (by omega)
      · exact empty
    exact again_takes empty (List.suffix_refl _) returned
  · rename_i some_left
    split at returned
    · cases returned
    · rename_i c more buffered
      obtain ⟨rfl, rfl⟩ := Prod.mk.inj (Option.some.inj returned)
      refine ⟨Or.inl ?_, List.suffix_refl _, fun other same => ?_, by simp, by simp⟩
      · rcases counts with counted | ⟨negative, -⟩
        · rw [buffered, List.length_cons] at counted
          dsimp only
          omega
        · omega
      · obtain rfl := ByteRead.byte.inj same
        rw [Reader.pending, buffered]
        rfl

/-- With a system call that is not interrupted `my_read` returns. -/
theorem again_returns (reader : Reader) {choices : List Kernel} (enough : 0 < transfers choices) :
    ∃ result next, again reader choices = some (result, next) ∧
      transfers choices ≤ transfers next.choices + 1 := by
  induction choices with
  | nil => exact absurd enough (lt_irrefl 0)
  | cons choice rest inductionHypothesis =>
    cases choice with
    | interrupted =>
      rw [transfers_interrupted] at enough ⊢
      exact inductionHypothesis enough
    | error => exact ⟨_, _, rfl, List.countP_cons_of_pos (by simp) |>.le⟩
    | upTo count =>
      rw [transfers_upTo, again]
      split
      · exact ⟨_, _, rfl, le_rfl⟩
      · exact ⟨_, _, rfl, le_rfl⟩

theorem myRead_returns {reader : Reader} (counts : reader.Counts)
    (enough : 0 < transfers reader.choices) :
    ∃ result next, myRead reader = some (result, next) ∧
      transfers reader.choices ≤ transfers next.choices + 1 := by
  unfold myRead
  split
  · exact again_returns reader enough
  · rename_i some_left
    split
    · rename_i empty
      rcases counts with buffered | ⟨negative, -⟩
      · rw [empty, List.length_nil] at buffered
        omega
      · omega
    · exact ⟨_, _, rfl, Nat.le_succ _⟩

/-- The value that a call returns which has stored these bytes: one too many if the loop has run
out of turns. -/
def lineValue (turns : Nat) (stored : List UInt8) : Nat :=
  if newline ∈ stored ∨ stored.length < turns then stored.length else stored.length + 1

/-- A call of `readline` as a function of the bytes of the stream. -/
def lineOf (maxlen : Nat) (stream : List UInt8) : Line :=
  let stored := fgetsTake (maxlen - 1) stream
  ⟨lineValue (maxlen - 1) stored, stored⟩

def linesOf : List Nat → List UInt8 → List Line
  | [], _ => []
  | maxlen :: rest, stream =>
    let line := lineOf maxlen stream
    line :: linesOf rest (stream.drop line.stored.length)

/-- What the loop of `readline` does to the bytes not returned yet. -/
structure Reads (turns n : Nat) (stored : List UInt8) (reader : Reader) (line : Line)
    (next : Reader) : Prop where
  counts : next.Counts
  choices : next.choices <:+ reader.choices
  /-- The bytes it has stored are the first of them. -/
  bytes : line.stored ++ next.pending = stored ++ reader.pending
  exact : NoError reader.choices → ∃ taken, taken = fgetsTake turns reader.pending ∧
    line.stored = stored ++ taken ∧ line.value = (n : Int) - 1 + lineValue turns taken

theorem readlineLoop_reads {turns n : Nat} {stored : List UInt8} {reader next : Reader}
    {line : Line} (counts : reader.Counts)
    (returned : readlineLoop turns n stored reader = some (line, next)) :
    Reads turns n stored reader line next := by
  induction turns generalizing n stored reader with
  | zero =>
    obtain ⟨rfl, rfl⟩ := Prod.mk.inj (Option.some.inj returned)
    exact ⟨counts, List.suffix_refl _, rfl, fun _ =>
      ⟨[], by cases reader.pending <;> rfl, (List.append_nil _).symm, by simp [lineValue]⟩⟩
  | succ turns inductionHypothesis =>
    rw [readlineLoop] at returned
    split at returned
    · cases returned
    · rename_i c read taken
      have takes := myRead_takes counts taken
      have pending := takes.byte c rfl
      split at returned
      · rename_i isNewline
        obtain ⟨rfl, rfl⟩ := Prod.mk.inj (Option.some.inj returned)
        refine ⟨takes.counts, takes.choices, by rw [pending, List.append_assoc]; rfl, fun _ =>
          ⟨[c], by rw [pending, fgetsTake, if_pos isNewline], rfl, ?_⟩⟩
        simp [lineValue, isNewline]
      · rename_i other
        have reads := inductionHypothesis takes.counts returned
        refine ⟨reads.counts, reads.choices.trans takes.choices, ?_, fun noError => ?_⟩
        · rw [reads.bytes, pending, List.append_assoc]
          rfl
        · have noErrorRest : NoError read.choices := fun member =>
            noError (takes.choices.subset member)
          obtain ⟨behind, behindIs, storedIs, value⟩ := reads.exact noErrorRest
          refine ⟨c :: behind, ?_, ?_, ?_⟩
          · rw [pending, fgetsTake, if_neg other, behindIs]
          · rw [storedIs, List.append_assoc]
            rfl
          · rw [value]
            have same : lineValue (turns + 1) (c :: behind) = lineValue turns behind + 1 := by
              have notFirst : newline ≠ c := fun same => other same.symm
              simp only [lineValue, List.mem_cons, notFirst, false_or, List.length_cons,
                Nat.add_lt_add_iff_right]
              split <;> rfl
            rw [same]
            push_cast
            omega
    · rename_i read taken
      have takes := myRead_takes counts taken
      obtain ⟨before, after⟩ := takes.eof rfl
      obtain ⟨rfl, rfl⟩ := Prod.mk.inj (Option.some.inj returned)
      refine ⟨takes.counts, takes.choices, by rw [before, after], fun _ =>
        ⟨[], by rw [before]; rfl, (List.append_nil _).symm, by simp [lineValue]⟩⟩
    · rename_i read taken
      have takes := myRead_takes counts taken
      obtain ⟨same, failed⟩ := takes.error rfl
      obtain ⟨rfl, rfl⟩ := Prod.mk.inj (Option.some.inj returned)
      exact ⟨takes.counts, takes.choices, by rw [same], fun noError => absurd noError failed⟩

/-- With enough system calls the loop returns. -/
theorem readlineLoop_returns {turns n : Nat} {stored : List UInt8} {reader : Reader}
    (counts : reader.Counts) (enough : turns ≤ transfers reader.choices) :
    ∃ line next, readlineLoop turns n stored reader = some (line, next) ∧
      transfers reader.choices ≤ transfers next.choices + turns := by
  induction turns generalizing n stored reader with
  | zero => exact ⟨_, _, rfl, le_rfl⟩
  | succ turns inductionHypothesis =>
    obtain ⟨result, read, returned, left⟩ :=
      myRead_returns counts (Nat.lt_of_lt_of_le (Nat.succ_pos turns) enough)
    rw [readlineLoop, returned]
    cases result with
    | byte c =>
      dsimp only
      split
      · exact ⟨_, _, rfl, by omega⟩
      · have countsRead := (myRead_takes counts returned).counts
        obtain ⟨line, next, loops, leftBehind⟩ := inductionHypothesis countsRead (by omega)
        exact ⟨line, next, loops, by omega⟩
    | eof => exact ⟨_, _, rfl, by omega⟩
    | error => exact ⟨_, _, rfl, by omega⟩

theorem readline_reads {maxlen : Nat} {reader next : Reader} {line : Line}
    (counts : reader.Counts) (returned : readline maxlen reader = some (line, next)) :
    next.Counts ∧ next.choices <:+ reader.choices ∧ line.stored ++ next.pending = reader.pending ∧
      (NoError reader.choices → line = lineOf maxlen reader.pending) := by
  have reads := readlineLoop_reads counts returned
  refine ⟨reads.counts, reads.choices, reads.bytes, fun noError => ?_⟩
  obtain ⟨taken, takenIs, stored, value⟩ := reads.exact noError
  obtain ⟨lineValueIs, lineStored⟩ := line
  simp only [Nat.cast_one, sub_self, zero_add, List.nil_append] at stored value
  rw [lineOf, ← takenIs, ← stored, value, stored]

/-- The calls of `readline` return the bytes of the stream one after the other, none lost and none
doubled, also when some of them fail. Without a failing system call what they return depends on
the bytes of the stream only. -/
theorem readlines_reads {calls : List Nat} {reader last : Reader} {lines : List Line}
    (counts : reader.Counts) (returned : readlines calls reader = some (lines, last)) :
    lines.flatMap Line.stored ++ last.pending = reader.pending ∧
      (NoError reader.choices → lines = linesOf calls reader.pending) := by
  induction calls generalizing reader lines with
  | nil =>
    obtain ⟨rfl, rfl⟩ := Prod.mk.inj (Option.some.inj returned)
    exact ⟨rfl, fun _ => rfl⟩
  | cons maxlen rest inductionHypothesis =>
    rw [readlines] at returned
    split at returned
    · cases returned
    · rename_i line next read
      obtain ⟨⟨others, final⟩, returnedRest, done⟩ := Option.map_eq_some_iff.mp returned
      obtain ⟨rfl, rfl⟩ := Prod.mk.inj done
      obtain ⟨countsNext, suffix, bytes, exact⟩ := readline_reads counts read
      obtain ⟨bytesRest, exactRest⟩ := inductionHypothesis countsNext returnedRest
      refine ⟨?_, fun noError => ?_⟩
      · rw [List.flatMap_cons, List.append_assoc, bytesRest, bytes]
      · have noErrorNext : NoError next.choices := fun member => noError (suffix.subset member)
        have pendingNext : next.pending = reader.pending.drop line.stored.length := by
          rw [← bytes, List.drop_left]
        rw [linesOf, ← exact noError, exactRest noErrorNext, pendingNext]

/-- A reader in front of a stream, before the first call. -/
def Reader.start (stream : List UInt8) (choices : List Kernel) : Reader := ⟨0, [], stream, choices⟩

theorem readlines_returns {calls : List Nat} {reader : Reader} (counts : reader.Counts)
    (enough : (calls.map (· - 1)).sum ≤ transfers reader.choices) :
    ∃ lines last, readlines calls reader = some (lines, last) := by
  induction calls generalizing reader with
  | nil => exact ⟨_, _, rfl⟩
  | cons maxlen rest inductionHypothesis =>
    rw [List.map_cons, List.sum_cons] at enough
    obtain ⟨line, next, read, left⟩ : ∃ line next,
        readlineLoop (maxlen - 1) 1 [] reader = some (line, next) ∧
          transfers reader.choices ≤ transfers next.choices + (maxlen - 1) :=
      readlineLoop_returns counts (Nat.le_of_add_right_le enough)
    have countsNext := (readlineLoop_reads counts read).counts
    obtain ⟨lines, last, returned⟩ := inductionHypothesis countsNext (by omega)
    refine ⟨line :: lines, last, ?_⟩
    have readOne : readline maxlen reader = some (line, next) := read
    rw [readlines, readOne]
    dsimp only
    rw [returned, Option.map_some]

/-- Whatever pieces `read` delivers and however often it is interrupted, the calls of `readline`
return when enough system calls are not, and give the lines of the stream, as one byte after the
other would; the bytes they have not returned are those in the buffer and those still to be
read. -/
theorem readline_ignores_pieces (calls : List Nat) (stream : List UInt8) {choices : List Kernel}
    (noError : NoError choices) (enough : (calls.map (· - 1)).sum ≤ transfers choices) :
    ∃ last, readlines calls (Reader.start stream choices) = some (linesOf calls stream, last) ∧
      (linesOf calls stream).flatMap Line.stored ++ (last.readPtr ++ last.stream) = stream := by
  have counts : (Reader.start stream choices).Counts := Or.inl rfl
  obtain ⟨lines, last, returned⟩ := readlines_returns counts enough
  obtain ⟨bytes, exact⟩ := readlines_reads counts returned
  have linesAre : lines = linesOf calls stream := exact noError
  rw [linesAre] at returned bytes
  exact ⟨last, returned, bytes⟩

/-- Two lines, in three pieces. -/
def threePieces : List Kernel := [.upTo 0, .interrupted, .upTo 2, .upTo 7, .upTo 0, .upTo 0]

theorem readline_ignores_pieces_threePieces :
    (linesOf [4, 3] [97, newline, 98, 99]).map Line.value = [2, 3] ∧
      ∃ last, readlines [4, 3] (Reader.start [97, newline, 98, 99] threePieces) =
        some (linesOf [4, 3] [97, newline, 98, 99], last) := by
  obtain ⟨last, returned, -⟩ :=
    readline_ignores_pieces [4, 3] [97, newline, 98, 99] (by decide : NoError threePieces)
      (by decide)
  exact ⟨by decide, last, returned⟩

end SocketC.StreamIO
