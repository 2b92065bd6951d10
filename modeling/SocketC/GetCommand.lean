/-
This file models how the web client emits its requests: `write_get_cmd` and
`home_page` of `client/thread-client.c` format `GET_CMD` into a line of `MAXLINE`
bytes with `snprintf` and hand the line to `Writen` together with what `snprintf`
returned. As in C99, that is the length of the whole text, also where the line holds
only its front, and `Writen` then reads behind what was stored.
-/

import SocketC.Buffer
import SocketC.Lines
import Mathlib.Data.UInt

namespace SocketC

open Buffer

/-! ### The two emitters -/

/-- The bytes of an ASCII text. -/
def ascii (text : List Char) : List UInt8 := text.map fun char => char.toNat.toUInt8

/-- `GET_CMD` before its `%s`. -/
def getCmdFront : Text UInt8 := ⟨ascii ['G', 'E', 'T', ' '], by decide⟩

/-- `GET_CMD` behind its `%s`. -/
def getCmdBack : Text UInt8 :=
  ⟨ascii [' ', 'H', 'T', 'T', 'P', '/', '1', '.', '0', '\r', '\n', '\r', '\n'], by decide⟩

/-- `GET_CMD` with a name in the place of its `%s`. -/
def getCmd (name : Text UInt8) : Text UInt8 := getCmdFront ++ name ++ getCmdBack

/-- A call `Writen(fd, line, n)`. -/
structure WritenCall where
  line : Buffer UInt8
  n : Nat

/-- `n = snprintf(line, sizeof(line), GET_CMD, name)` and the `Writen` behind it. -/
def writenGetCmd (name : Text UInt8) : WritenCall where
  line := Buffer.empty.snprintf 0 maxLine (getCmd name)
  n := (getCmd name).length

/-- Lines 189-190 of `write_get_cmd`, for the file name of its argument. -/
def writeGetCmd (fName : Text UInt8) : WritenCall := writenGetCmd fName

/-- Lines 206-207 of `home_page`. -/
def homePage (fname : Text UInt8) : WritenCall := writenGetCmd fname

/-- The bytes that `Writen` finds. -/
def WritenCall.bytes (call : WritenCall) : List (Option UInt8) := call.line.read call.n

/-! ### What reaches the server -/

theorem length_getCmd (name : Text UInt8) : (getCmd name).length = name.length + 17 := by
  have front : getCmdFront.length = 4 := rfl
  have back : getCmdBack.length = 13 := rfl
  rw [getCmd, Text.length_append, Text.length_append]
  omega

/-- The line is the command as far as it fits. -/
theorem holdsText_writenGetCmd (name : Text UInt8) :
    (writenGetCmd name).line.HoldsText ((getCmd name).take (maxLine - 1)) := by
  rw [writenGetCmd, snprintf_of_pos (by decide)]
  exact holdsText_sprintf _

/-- A call that sends a name's command and nothing else. -/
structure WritenCall.Emits (call : WritenCall) (name : Text UInt8) : Prop where
  /-- No more is sent than the characters in the line, -/
  stored : call.n ≤ call.line.strlen
  below : call.n < maxLine
  /-- so that every byte that is read was stored, -/
  initialised : none ∉ call.bytes
  /-- and what is sent is the command. -/
  text : call.n ≠ 0 → call.bytes = (getCmd name).bytes.map some

theorem emits_writenGetCmd_iff (name : Text UInt8) :
    (writenGetCmd name).Emits name ↔ (getCmd name).length < maxLine := by
  have line := holdsText_writenGetCmd name
  have most : maxLine = 4096 := rfl
  constructor
  · intro emits
    have stored : (getCmd name).length ≤ ((getCmd name).take (maxLine - 1)).length :=
      line.strlen_eq ▸ emits.stored
    rw [Text.length_take] at stored
    omega
  · intro fits
    have whole : (getCmd name).take (maxLine - 1) = getCmd name :=
      Text.take_of_length_le (by omega)
    rw [whole] at line
    have bytes : (writenGetCmd name).bytes = (getCmd name).bytes.map some :=
      (Holds.front line).read_eq
    refine ⟨line.strlen_eq.ge, fits, ?_, fun _ => bytes⟩
    rw [bytes, List.mem_map]
    rintro ⟨byte, -, absent⟩
    cases absent

/-- The two emitters send exactly the command, from the bytes they formatted, if and only if the
name is at most 4078 bytes long. -/
theorem get_cmd_emitted_iff (name : Text UInt8) :
    ((writeGetCmd name).Emits name ↔ name.length ≤ 4078) ∧
      ((homePage name).Emits name ↔ name.length ≤ 4078) := by
  have fits : (getCmd name).length < maxLine ↔ name.length ≤ 4078 := by
    have most : maxLine = 4096 := rfl
    rw [length_getCmd]
    omega
  have emits := (emits_writenGetCmd_iff name).trans fits
  exact ⟨emits, emits⟩

/-- The shortest name whose command does not fit. -/
def longName : Text UInt8 where
  bytes := List.replicate 4079 97
  plain := fun member => nomatch (List.eq_of_mem_replicate member : (0 : UInt8) = 97)

/-- Both emitters send `MAXLINE` bytes for it, the last of them the terminator that `snprintf`
stored in the place of the newline. -/
theorem long_name_emitted :
    ((writeGetCmd longName).n = maxLine ∧ (writeGetCmd longName).line.strlen = maxLine - 1 ∧
      (writeGetCmd longName).line.cell (maxLine - 1 : Nat) = some 0 ∧
      ¬ (writeGetCmd longName).Emits longName) ∧
    (homePage longName).n = maxLine ∧ (homePage longName).line.strlen = maxLine - 1 ∧
      ¬ (homePage longName).Emits longName := by
  have count : (getCmd longName).length = maxLine := by
    have length : longName.length = 4079 := List.length_replicate
    rw [length_getCmd, length]
    rfl
  have line := holdsText_writenGetCmd longName
  have stored : ((getCmd longName).take (maxLine - 1)).length = maxLine - 1 := by
    rw [Text.length_take, count]
    rfl
  have length : (writenGetCmd longName).line.strlen = maxLine - 1 := line.strlen_eq.trans stored
  have terminator : (writenGetCmd longName).line.cell (maxLine - 1 : Nat) = some 0 :=
    stored ▸ line.terminator
  have fails : ¬ (writenGetCmd longName).Emits longName := fun emits =>
    ((emits_writenGetCmd_iff longName).mp emits).ne count
  exact ⟨⟨count, length, terminator, fails⟩, count, length, fails⟩

end SocketC
