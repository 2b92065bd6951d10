/-
This file models how `err_doit` in `error.c` builds its text in `buf`, an array of
`MAXLINE + 1` bytes: the message is formatted first, with `vsnprintf` or with
`vsprintf` as the configuration says, the error text goes behind it within the room
that is left, and a newline goes behind both. `strlen` is stored in an `int`, and
`MAXLINE - n` is an `int` that becomes the `size_t` argument of `snprintf`.

The configuration in `framework/config.h` has no `vsnprintf`. A message shorter than
`MAXLINE` is then treated as it would be with `vsnprintf`. One of `MAXLINE` bytes is
formatted within the array, but there is no room for the newline, and a longer one
already leaves the array when it is formatted.
-/

import SocketC.GetCommand

namespace SocketC

open Buffer

/-! ### The three stores -/

/-- `HAVE_VSNPRINTF` in `framework/config.h`. -/
def haveVsnprintf : Bool := false

/-- A `size_t` stored in an `int`. -/
def intOfSize (size : Nat) : Int := (size : Int).bmod (2 ^ 32)

/-- An `int` passed as a `size_t`. -/
def sizeOfInt (value : Int) : Nat := (value % 2 ^ 64).toNat

/-- The buffer once the message is formatted. -/
def vformat (vsnprintf : Bool) (message : Text UInt8) : Buffer UInt8 :=
  if vsnprintf then Buffer.empty.snprintf 0 maxLine message else Buffer.empty.sprintf 0 message

/-- `": "`. -/
def colon : Text UInt8 := ⟨ascii [':', ' '], by decide⟩

/-- `"\n"`. -/
def newlineText : Text UInt8 := ⟨[newline], by decide⟩

/-- Where `err_doit` writes its text. -/
inductive ErrOutput where
  /-- `syslog` gets the error text behind `socket error: `. -/
  | syslog (error : List UInt8)
  /-- `fputs` writes what it finds before the terminator. -/
  | stderr (text : List (Option UInt8))

/-- What `err_doit` computes: `n`, the size it passes to `snprintf` if it is called, the buffer
and the output. -/
structure ErrRun where
  n : Int
  size : Option Nat
  buf : Buffer UInt8
  output : ErrOutput

/-- The buffer once the error text is behind the message, if `errnoflag` asks for it. -/
def errExtend (errnoflag : Bool) (error : Text UInt8) (formatted : Buffer UInt8) : Buffer UInt8 :=
  let n := intOfSize formatted.strlen
  if errnoflag then formatted.snprintf n (sizeOfInt (maxLine - n)) (colon ++ error) else formatted

theorem errExtend_false (error : Text UInt8) (formatted : Buffer UInt8) :
    errExtend false error formatted = formatted := rfl

/-- `err_doit` from the call of `strlen` on. -/
def errAppend (errnoflag daemonProc : Bool) (error : Text UInt8) (formatted : Buffer UInt8) :
    ErrRun :=
  let n := intOfSize formatted.strlen
  let buf := (errExtend errnoflag error formatted).strcat newlineText
  { n
    size := if errnoflag then some (sizeOfInt (maxLine - n)) else none
    buf
    output := if daemonProc then .syslog error.bytes else .stderr (buf.read buf.strlen) }

/-- `err_doit`, for the text that its format and arguments give and that of `strerror`. -/
def errDoit (vsnprintf errnoflag daemonProc : Bool) (message error : Text UInt8) : ErrRun :=
  errAppend errnoflag daemonProc error (vformat vsnprintf message)

/-! ### Messages that fit -/

theorem intOfSize_of_lt {size : Nat} (small : size < maxLine) : intOfSize size = size := by
  have most : maxLine = 4096 := rfl
  exact Int.bmod_eq_of_le (by omega) (by omega)

theorem sizeOfInt_sub {length : Nat} (small : length < maxLine) :
    sizeOfInt (maxLine - length) = maxLine - length := by
  have most : maxLine = 4096 := rfl
  rw [sizeOfInt]
  omega

/-- The stores stay inside of `buf`, the size is the difference it is computed from, and the
buffer holds a text that ends in a newline, which is what goes to the standard error. -/
structure ErrRun.Safe (run : ErrRun) : Prop where
  within : run.buf.Within (maxLine + 1)
  size : ∀ size ∈ run.size, (size : Int) = maxLine - run.n
  ended : ∃ line, run.buf.HoldsText (line ++ newlineText)
  printed : ∀ text, run.output = .stderr text →
    ∃ line : Text UInt8, text = (line ++ newlineText).bytes.map some

/-- The newline has a place behind a text that is shorter than `MAXLINE`. -/
theorem within_strcat_newline {buffer : Buffer UInt8} {text : Text UInt8}
    (holds : buffer.HoldsText text) (short : text.length < maxLine)
    (inside : buffer.Within (maxLine + 1)) :
    (buffer.strcat newlineText).Within (maxLine + 1) := by
  have single : newlineText.length = 1 := rfl
  rw [strcat, holds.strlen_eq, within_sprintf_iff]
  exact ⟨⟨Int.natCast_nonneg _, by omega⟩, inside⟩

/-- The error text behind a message is cut so that the whole stays below `MAXLINE`. -/
theorem holdsText_errExtend {formatted : Buffer UInt8} {text : Text UInt8}
    (holds : formatted.HoldsText text) (short : text.length < maxLine)
    (inside : formatted.Within (maxLine + 1)) (errnoflag : Bool) (error : Text UInt8) :
    ∃ longer : Text UInt8, longer.length < maxLine ∧
      (errExtend errnoflag error formatted).HoldsText longer ∧
      (errExtend errnoflag error formatted).Within (maxLine + 1) := by
  cases errnoflag with
  | false => exact ⟨text, short, holds, inside⟩
  | true =>
    have extended : errExtend true error formatted =
        formatted.sprintf text.length ((colon ++ error).take (maxLine - text.length - 1)) := by
      simp only [errExtend, if_true]
      rw [holds.strlen_eq, intOfSize_of_lt short, sizeOfInt_sub short,
        snprintf_of_pos (Nat.sub_pos_of_lt short)]
    have cut := Text.length_take (colon ++ error) (maxLine - text.length - 1)
    rw [extended]
    refine ⟨_, ?_, holds.sprintf _, within_sprintf_iff.mpr
      ⟨⟨Int.natCast_nonneg _, ?_⟩, inside⟩⟩
    · rw [Text.length_append]
      omega
    · omega

/-- A message that is in the buffer and shorter than `MAXLINE` is completed safely. -/
theorem safe_errAppend {formatted : Buffer UInt8} {text : Text UInt8}
    (holds : formatted.HoldsText text) (short : text.length < maxLine)
    (inside : formatted.Within (maxLine + 1)) (errnoflag daemonProc : Bool) (error : Text UInt8) :
    (errAppend errnoflag daemonProc error formatted).Safe := by
  obtain ⟨longer, room, stored, kept⟩ := holdsText_errExtend holds short inside errnoflag error
  have ended := stored.strcat newlineText
  have count : intOfSize formatted.strlen = text.length := by
    rw [holds.strlen_eq, intOfSize_of_lt short]
  refine ⟨within_strcat_newline stored room kept, fun size passed => ?_, ⟨longer, ended⟩,
    fun printed output => ?_⟩
  · have equal : size = sizeOfInt (maxLine - intOfSize formatted.strlen) := by
      cases errnoflag with
      | false => cases passed
      | true => exact (Option.some.inj passed).symm
    have same : (errAppend errnoflag daemonProc error formatted).n = text.length := by
      simp only [errAppend]
      exact count
    rw [equal, count, sizeOfInt_sub short, Nat.cast_sub short.le, same]
  · cases daemonProc with
    | false => exact ⟨longer, (ErrOutput.stderr.inj output).symm.trans ended.read_strlen⟩
    | true => cases output

/-! ### Both configurations -/

theorem holdsText_vformat_true (message : Text UInt8) :
    (vformat true message).HoldsText (message.take (maxLine - 1)) := by
  rw [vformat, if_pos rfl, snprintf_of_pos (by decide)]
  exact holdsText_sprintf _

theorem holdsText_vformat_false (message : Text UInt8) :
    (vformat false message).HoldsText message :=
  holdsText_sprintf message

theorem within_vformat_false_iff {message : Text UInt8} {size : Nat} :
    (vformat false message).Within size ↔ message.length < size := by
  have start : vformat false message = Buffer.empty.sprintf 0 message := rfl
  rw [start, within_sprintf_iff]
  exact ⟨fun inside => by omega, fun inside => ⟨⟨le_rfl, by omega⟩, within_empty size⟩⟩

/-- With `vsnprintf`, `err_doit` is safe for every message. -/
theorem safe_errDoit_vsnprintf (errnoflag daemonProc : Bool) (message error : Text UInt8) :
    (errDoit true errnoflag daemonProc message error).Safe := by
  have most : maxLine = 4096 := rfl
  have cut := Text.length_take message (maxLine - 1)
  have inside : (vformat true message).Within (maxLine + 1) := by
    rw [vformat, if_pos rfl, snprintf_of_pos (by decide), within_sprintf_iff]
    exact ⟨⟨le_rfl, by omega⟩, within_empty _⟩
  exact safe_errAppend (holdsText_vformat_true message) (by omega) inside errnoflag daemonProc error

/-- Nothing is stored behind a message of `MAXLINE` bytes: the room that is left is zero. -/
theorem errExtend_of_full {formatted : Buffer UInt8} (full : formatted.strlen = maxLine)
    (errnoflag : Bool) (error : Text UInt8) : errExtend errnoflag error formatted = formatted := by
  have noRoom : sizeOfInt (maxLine - intOfSize maxLine) = 0 := by decide
  cases errnoflag with
  | false => exact errExtend_false error formatted
  | true =>
    simp only [errExtend, if_true]
    rw [full, noRoom]
    rfl

theorem within_of_errExtend {errnoflag : Bool} {error : Text UInt8} {formatted : Buffer UInt8}
    {size : Nat} (inside : (errExtend errnoflag error formatted).Within size) :
    formatted.Within size := by
  cases errnoflag with
  | false => exact inside
  | true =>
    simp only [errExtend, if_true, snprintf] at inside
    split at inside
    · exact inside
    · exact (within_sprintf_iff.mp inside).2

/-- The stores for a message that `vsprintf` formatted stay inside of `buf` only if the newline
has a place in it. -/
theorem length_lt_of_within {errnoflag daemonProc : Bool} {message error : Text UInt8}
    (inside : (errDoit false errnoflag daemonProc message error).buf.Within (maxLine + 1)) :
    message.length < maxLine := by
  have newlineStored : (errExtend errnoflag error (vformat false message)).strlen + 1 <
      maxLine + 1 := by
    have bound := (within_sprintf_iff.mp inside).1.2
    have single : newlineText.length = 1 := rfl
    rw [single] at bound
    exact_mod_cast bound
  have formatted : message.length < maxLine + 1 :=
    within_vformat_false_iff.mp (within_of_errExtend (within_sprintf_iff.mp inside).2)
  refine (Nat.lt_succ_iff.mp formatted).lt_of_ne fun full => ?_
  have length : (vformat false message).strlen = maxLine :=
    (holdsText_vformat_false message).strlen_eq.trans full
  rw [errExtend_of_full length, length] at newlineStored
  exact absurd newlineStored (Nat.lt_irrefl _)

/-- As configured, `err_doit` keeps to its buffer and completes its text, whatever the error text
and the flags are, if and only if the message is shorter than `MAXLINE`. -/
theorem err_doit_safe_iff (errnoflag daemonProc : Bool) (message error : Text UInt8) :
    (errDoit haveVsnprintf errnoflag daemonProc message error).Safe ↔
      message.length < maxLine := by
  constructor
  · exact fun safe => length_lt_of_within safe.within
  · intro short
    exact safe_errAppend (holdsText_vformat_false message) short
      (within_vformat_false_iff.mpr (short.trans (Nat.lt_succ_self _))) errnoflag daemonProc error

/-! ### A message of `Inet_pton` -/

/-- `err_quit` stores the terminator behind the message and the newline. -/
theorem terminator_errDoit (daemonProc : Bool) (message error : Text UInt8) :
    (errDoit haveVsnprintf false daemonProc message error).buf.cell (message.length + 1 : Nat) =
      some 0 := by
  have length : (message ++ newlineText).length = message.length + 1 := Text.length_append _ _
  have buf : (errDoit haveVsnprintf false daemonProc message error).buf =
      (errExtend false error (vformat false message)).strcat newlineText := rfl
  rw [← length, buf, errExtend_false]
  exact ((holdsText_vformat_false message).strcat newlineText).terminator

/-- `"inet_pton error for "`. -/
def inetPtonFormat : Text UInt8 :=
  ⟨ascii ['i', 'n', 'e', 't', '_', 'p', 't', 'o', 'n', ' ', 'e', 'r', 'r', 'o', 'r', ' ', 'f', 'o',
    'r', ' '], by decide⟩

/-- The message with which `Inet_pton` calls `err_quit` for a text that is no address. -/
def inetPtonError (strptr : Text UInt8) : Text UInt8 := inetPtonFormat ++ strptr

/-- A command-line argument of 4076 bytes. -/
def longAddress : Text UInt8 where
  bytes := List.replicate 4076 49
  plain := fun member => nomatch (List.eq_of_mem_replicate member : (0 : UInt8) = 49)

/-- The text of `strerror(0)` is not looked at by `err_quit`. -/
def noError : Text UInt8 := ⟨[], List.not_mem_nil⟩

/-- `err_quit` stores the terminator behind the last byte of `buf`. -/
theorem long_address_overflows :
    (inetPtonError longAddress).length = maxLine ∧
      (errDoit haveVsnprintf false false (inetPtonError longAddress) noError).buf.cell
        (maxLine + 1 : Nat) = some 0 ∧
      ¬ (errDoit haveVsnprintf false false (inetPtonError longAddress) noError).Safe := by
  have length : (inetPtonError longAddress).length = maxLine := by
    have front : inetPtonFormat.length = 20 := rfl
    have back : longAddress.length = 4076 := List.length_replicate
    rw [inetPtonError, Text.length_append, front, back]
    rfl
  have terminator := terminator_errDoit false (inetPtonError longAddress) noError
  rw [length] at terminator
  exact ⟨length, terminator, fun safe => (length_lt_of_within safe.within).ne length⟩

end SocketC
