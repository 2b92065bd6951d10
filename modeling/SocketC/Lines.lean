/-
This file models the line functions of the echo client: `fgets`, the reading of a
buffer as a C string, and the loop of `Readline` in `wraplib.c`. A buffer is the
list of the bytes stored in it; the NUL that both functions store behind them is
where the list ends.
-/

import Mathlib.Data.List.TakeWhile
import Mathlib.Tactic

namespace SocketC

/-- `MAXLINE`. -/
def maxLine : Nat := 4096

/-- The byte `'\n'`. -/
def newline : UInt8 := 10

/-! ### C strings -/

/-- What `strlen`, `fputs` and the like see of a buffer: the bytes before the first NUL. -/
def cString (buffer : List UInt8) : List UInt8 := buffer.takeWhile (· != 0)

/-- No byte of the list is NUL. -/
def NulFree (bytes : List UInt8) : Prop := ∀ byte ∈ bytes, byte ≠ 0

instance : DecidablePred NulFree := List.decidableBAll (· ≠ 0)

theorem cString_of_nulFree {bytes : List UInt8} (nulFree : NulFree bytes) :
    cString bytes = bytes := by
  rw [cString, List.takeWhile_eq_self_iff]
  exact fun byte member => bne_iff_ne.mpr (nulFree byte member)

/-! ### The standard input -/

/-- The bytes `fgets` stores when it may store `limit`: up to a newline, which it keeps. -/
def fgetsTake : Nat → List UInt8 → List UInt8
  | 0, _ | _, [] => []
  | limit + 1, byte :: rest => if byte = newline then [byte] else byte :: fgetsTake limit rest

/-- `fgets(ptr, size, stream)`: the bytes stored and the rest of the stream, or `NULL` at the end
of the stream. -/
def fgets (size : Nat) : List UInt8 → Option (List UInt8 × List UInt8)
  | [] => none
  | stream =>
    let stored := fgetsTake (size - 1) stream
    some (stored, stream.drop stored.length)

theorem fgetsTake_isPrefix (limit : Nat) (stream : List UInt8) :
    fgetsTake limit stream <+: stream := by
  induction limit generalizing stream with
  | zero => exact List.nil_prefix
  | succ limit inductionHypothesis =>
    cases stream with
    | nil => exact List.nil_prefix
    | cons byte rest =>
      rw [fgetsTake]
      split
      · exact ⟨rest, rfl⟩
      · exact List.cons_prefix_cons.mpr ⟨rfl, inductionHypothesis rest⟩

/-- `fgets` takes its bytes off the front of the stream. -/
theorem append_of_fgets {size : Nat} {stream stored rest : List UInt8}
    (line : fgets size stream = some (stored, rest)) : stored ++ rest = stream := by
  cases stream with
  | nil => nomatch line
  | cons byte bytes =>
    simp only [fgets, Option.some.injEq, Prod.mk.injEq] at line
    obtain ⟨rfl, rfl⟩ := line
    exact List.prefix_iff_eq_append.mp (fgetsTake_isPrefix (size - 1) (byte :: bytes))

theorem fgets_eq_none_iff {size : Nat} {stream : List UInt8} :
    fgets size stream = none ↔ stream = [] := by
  cases stream with
  | nil => exact iff_of_true rfl rfl
  | cons byte rest => exact iff_of_false nofun nofun

/-! ### `Readline` -/

/-- What `Recv` of one byte leaves to look at: its result, the byte, and whether `errno` is
`EINTR`. -/
structure ByteRecv where
  rc : Int
  c : UInt8
  eintr : Bool

/-- `Recv` returned a byte. -/
def ByteRecv.ofByte (byte : UInt8) : ByteRecv := ⟨1, byte, false⟩

/-- `Recv` returned zero. -/
def ByteRecv.eof : ByteRecv := ⟨0, 0, false⟩

/-- Where a call of `Readline` is after one turn of its loop. -/
inductive LineStep where
  /-- At line 40 once more, with this `n` and these bytes stored. -/
  | again (n : Nat) (stored : List UInt8)
  /-- Returned this value, with these bytes stored. -/
  | returned (value : Int) (stored : List UInt8)
  deriving DecidableEq

/-- `n++` and the test of line 39, or line 54 when it fails. -/
def lineNext (maxlen n : Nat) (stored : List UInt8) : LineStep :=
  if n + 1 < maxlen then .again (n + 1) stored else .returned (n + 1 : Nat) stored

/-- Lines 40-51 of `Readline`, once `Recv` has returned. -/
def readline (maxlen n : Nat) (stored : List UInt8) (recv : ByteRecv) : LineStep :=
  if recv.rc = 1 then
    if recv.c = newline then .returned n (stored ++ [recv.c])
    else lineNext maxlen n (stored ++ [recv.c])
  else if recv.rc = 0 then .returned (n - 1 : Int) stored
  else if recv.eintr then lineNext maxlen n stored
  else .returned (-1) stored

/-- A byte is stored; the line is complete, or the buffer is full, or the loop goes on. -/
theorem readline_ofByte (maxlen n : Nat) (stored : List UInt8) (byte : UInt8) :
    readline maxlen n stored (.ofByte byte) = .again (n + 1) (stored ++ [byte]) ∨
      ∃ value : Nat, n ≤ value ∧
        readline maxlen n stored (.ofByte byte) = .returned value (stored ++ [byte]) := by
  have received : readline maxlen n stored (.ofByte byte) =
      if byte = newline then .returned n (stored ++ [byte])
      else lineNext maxlen n (stored ++ [byte]) := rfl
  rw [received]
  by_cases complete : byte = newline
  · exact Or.inr ⟨n, le_rfl, if_pos complete⟩
  · rw [if_neg complete]
    by_cases room : n + 1 < maxlen
    · exact Or.inl (if_pos room)
    · exact Or.inr ⟨n + 1, Nat.le_succ n, if_neg room⟩

theorem again_of_lineNext {maxlen n next : Nat} {stored line : List UInt8}
    (again : lineNext maxlen n stored = .again next line) :
    next = n + 1 ∧ n + 1 < maxlen ∧ line = stored := by
  unfold lineNext at again
  split at again
  · rename_i more
    cases again
    exact ⟨rfl, more, rfl⟩
  · cases again

/-- A turn that goes on has counted, has a turn left, and keeps the bytes stored. -/
theorem again_of_readline {maxlen n next : Nat} {stored line : List UInt8} {recv : ByteRecv}
    (again : readline maxlen n stored recv = .again next line) :
    next = n + 1 ∧ n + 1 < maxlen ∧ stored <+: line := by
  unfold readline at again
  split_ifs at again
  · obtain ⟨count, more, rfl⟩ := again_of_lineNext again
    exact ⟨count, more, List.prefix_append _ _⟩
  · obtain ⟨count, more, rfl⟩ := again_of_lineNext again
    exact ⟨count, more, List.prefix_rfl⟩

/-- So does a turn that returns. -/
theorem returned_of_readline {maxlen n : Nat} {stored line : List UInt8} {recv : ByteRecv}
    {value : Int} (returned : readline maxlen n stored recv = .returned value line) :
    stored <+: line := by
  have kept {text : List UInt8} (full : lineNext maxlen n text = .returned value line) :
      text = line := by
    unfold lineNext at full
    split at full
    · cases full
    · exact (LineStep.returned.inj full).2
  unfold readline at returned
  split_ifs at returned
  · exact (LineStep.returned.inj returned).2 ▸ List.prefix_append _ _
  · exact kept returned ▸ List.prefix_append _ _
  · exact (LineStep.returned.inj returned).2 ▸ List.prefix_rfl
  · exact kept returned ▸ List.prefix_rfl
  · exact (LineStep.returned.inj returned).2 ▸ List.prefix_rfl

/-- At the end of the stream, `Readline` returns what `n` has counted. -/
theorem readline_eof (maxlen n : Nat) (stored : List UInt8) :
    readline maxlen n stored .eof = .returned (n - 1 : Int) stored := rfl

end SocketC
