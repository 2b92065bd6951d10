/-
This file models `inet_pton6` of `libfree/inet_pton.c`, which reads the text of an IPv6
address. An address is 16 bytes, or eight words of two bytes.

The reader remembers in `colonp` where a `::` stood and, when the text is over, moves what
came after it to the end of the address. The move clears every byte that it has read, which
is what it should do as long as there is a gap to fill. In a text that already has eight words
there is none, and the move clears the words behind the `::`.
-/

import Mathlib.Data.List.GetD
import SocketC.InetAddress

namespace SocketC.Inet

open Positional

/-! ### `inet_pton6` -/

/-- `static const char xdigits_l[]`. -/
def xdigitsL : List Char := "0123456789abcdef".toList

/-- `static const char xdigits_u[]`. -/
def xdigitsU : List Char := "0123456789ABCDEF".toList

/-- `pch - xdigits`, where the second table is searched after the first. -/
def xdigit (ch : Char) : Option Nat := (strchr xdigitsL ch).or (strchr xdigitsU ch)

/-- The variables of `inet_pton6`. -/
structure Hexes where
  /-- The bytes of `tmp` in front of `tp`; the others are zero. -/
  tmp : List UInt8
  /-- The offset of `colonp` in `tmp`. -/
  colonp : Option Nat
  curtok : List Char
  sawXdigit : Bool
  val : Nat

/-- The bytes of a word, the high one first. -/
def wordBytes (val : Nat) : List UInt8 := [UInt8.ofNat (val >>> 8), UInt8.ofNat val]

/-- Stores a word at `tp` if there is room. -/
def push (tmp : List UInt8) (val : Nat) : Option (List UInt8) :=
  if tmp.length + 2 > 16 then none else some (tmp ++ wordBytes val)

/-- The loop of `inet_pton6`; `none` is the return value 0. -/
def inetPton6Loop : List Char → Hexes → Option Hexes
  | [], hexes => some hexes
  | ch :: src, hexes =>
    match xdigit ch with
    | some digit =>
      let val := hexes.val <<< 4 ||| digit
      if val > 0xffff then none
      else inetPton6Loop src { hexes with val := val, sawXdigit := true }
    | none =>
      if ch = ':' then
        if hexes.sawXdigit = false then
          if hexes.colonp.isSome then none
          else inetPton6Loop src { hexes with curtok := src, colonp := some hexes.tmp.length }
        else
          match push hexes.tmp hexes.val with
          | none => none
          | some tmp =>
            inetPton6Loop src
              { hexes with curtok := src, tmp := tmp, sawXdigit := false, val := 0 }
      else if ch = '.' ∧ hexes.tmp.length + 4 ≤ 16 then
        -- `inet_pton4` reads up to the terminator, so the loop is left.
        match inetPton4 hexes.curtok with
        | none => none
        | some octets => some { hexes with tmp := hexes.tmp ++ octets, sawXdigit := false }
      else none

/-- One turn of the shift that is done by hand: `endp[- i] = colonp[n - i]` and
`colonp[n - i] = 0`. -/
def shiftStep (colonp n : Nat) (tmp : Nat → UInt8) (i : Nat) : Nat → UInt8 :=
  Function.update (Function.update tmp (16 - i) (tmp (colonp + (n - i)))) (colonp + (n - i)) 0

/-- The shift, for `i` from 1 to `n`. -/
def shift (colonp n : Nat) (tmp : Nat → UInt8) : Nat → UInt8 :=
  (List.range' 1 n).foldl (shiftStep colonp n) tmp

/-- What `inet_pton6` does from the shift on: the bytes that it copies to `dst`. -/
def assemble (tmp : List UInt8) : Option Nat → Option (List UInt8)
  | some colonp =>
    some ((List.range 16).map (shift colonp (tmp.length - colonp) fun byte => tmp.getD byte 0))
  | none => if tmp.length ≠ 16 then none else some tmp

/-- What `inet_pton6` does after its loop. -/
def finish (hexes : Hexes) : Option (List UInt8) :=
  (if hexes.sawXdigit then push hexes.tmp hexes.val else some hexes.tmp).bind fun tmp =>
    assemble tmp hexes.colonp

/-- The special handling of a leading `::`. -/
def skipColon : List Char → Option (List Char)
  | ':' :: src => if src.head? = some ':' then some src else none
  | src => some src

/-- The loop and what follows, from the beginning of a token. -/
def readFrom (tmp : List UInt8) (colonp : Option Nat) (src : List Char) : Option (List UInt8) :=
  (inetPton6Loop src ⟨tmp, colonp, src, false, 0⟩).bind finish

/-- `inet_pton6`. -/
def inetPton6 (src : List Char) : Option (List UInt8) :=
  (skipColon src).bind (readFrom [] none)

/-! ### Words in a text -/

/-- A hexadecimal digit in lower or upper case. -/
structure HexDigit where
  digit : Fin 16
  upper : Bool

def HexDigit.char (digit : HexDigit) : Char :=
  if digit.upper then (Nat.digitChar digit.digit).toUpper else Nat.digitChar digit.digit

/-- The digits without their cases. -/
def places (numeral : List HexDigit) : List Nat := numeral.map fun digit => digit.digit.val

/-- A word as it may be written: digits of either case, leading zeros included, with a value of two
bytes. -/
structure HexWord where
  numeral : List HexDigit
  nonempty : numeral ≠ []
  bound : value 16 (places numeral) ≤ 0xffff

namespace HexWord

def text (word : HexWord) : List Char := word.numeral.map HexDigit.char

def val (word : HexWord) : Nat := value 16 (places word.numeral)

end HexWord

/-- The text of words with colons between them. -/
def opened (words : List HexWord) : List Char := List.intercalate [':'] (words.map HexWord.text)

/-- The text of words with a colon behind each. -/
def closed (words : List HexWord) : List Char := words.flatMap fun word => word.text ++ [':']

/-- The text of an address with `::` between some words and the rest of the text. -/
def gapped (front : List HexWord) (tail : List Char) : List Char :=
  (match front with
    | [] => [':']
    | _ :: _ => closed front) ++ ':' :: tail

/-- The bytes of words. -/
def bytesOf (words : List Nat) : List UInt8 := words.flatMap wordBytes

variable {hexes : Hexes} {tmp front back : List UInt8} {colonp : Option Nat} {src rest : List Char}
  {words : List HexWord} {word : HexWord}

theorem opened_cons : opened (word :: words) =
    word.text ++ words.flatMap fun next => ':' :: next.text := by
  induction words generalizing word with
  | nil => simp [opened, List.intercalate]
  | cons next words inductionHypothesis =>
    have split : opened (word :: next :: words) = word.text ++ ':' :: opened (next :: words) := by
      simp [opened, List.intercalate]
    rw [split, inductionHypothesis, List.flatMap_cons, List.cons_append]

theorem closed_cons : closed (word :: words) = opened (word :: words) ++ [':'] := by
  induction words generalizing word with
  | nil => simp [closed, opened_cons]
  | cons next words inductionHypothesis =>
    rw [opened_cons, List.flatMap_cons, closed, List.flatMap_cons, ← closed, inductionHypothesis,
      opened_cons]
    simp

theorem opened_append_singleton : opened (words ++ [word]) = closed words ++ word.text := by
  cases words with
  | nil => simp [closed, opened_cons]
  | cons first words =>
    rw [closed_cons, List.cons_append, opened_cons, opened_cons]
    simp

theorem length_bytesOf (words : List Nat) : (bytesOf words).length = 2 * words.length := by
  induction words with
  | nil => rfl
  | cons word words inductionHypothesis =>
    rw [bytesOf, List.flatMap_cons, ← bytesOf, List.length_append, inductionHypothesis,
      List.length_cons]
    change 2 + _ = _
    omega

theorem bytesOf_append (first second : List Nat) :
    bytesOf (first ++ second) = bytesOf first ++ bytesOf second :=
  List.flatMap_append

theorem bytesOf_replicate_zero (count : Nat) :
    bytesOf (List.replicate count 0) = List.replicate (2 * count) 0 := by
  induction count with
  | zero => rfl
  | succ count inductionHypothesis =>
    rw [List.replicate_succ, bytesOf, List.flatMap_cons, ← bytesOf, inductionHypothesis,
      Nat.mul_succ, Nat.add_comm, List.replicate_add]
    rfl

/-! ### Numerals as they are printed -/

/-- The digits in lower case. -/
def lower (numeral : List Nat) : List HexDigit :=
  numeral.map fun digit => ⟨Fin.ofNat 16 digit, false⟩

theorem places_lower {numeral : List Nat} (small : ∀ digit ∈ numeral, digit < 16) :
    places (lower numeral) = numeral := by
  rw [places, lower, List.map_map]
  refine (List.map_congr_left fun digit member => ?_).trans (List.map_id numeral)
  exact Nat.mod_eq_of_lt (small digit member)

theorem map_char_lower {numeral : List Nat} (small : ∀ digit ∈ numeral, digit < 16) :
    (lower numeral).map HexDigit.char = numeral.map Nat.digitChar := by
  rw [lower, List.map_map]
  refine List.map_congr_left fun digit member => ?_
  exact congrArg Nat.digitChar (Nat.mod_eq_of_lt (small digit member))

theorem small_render (number : Nat) : ∀ digit ∈ render 16 number, digit < 16 :=
  fun _ => lt_of_mem_render (by omega)

/-- A word as `%x` prints it. -/
def HexWord.ofNat (number : Nat) (bound : number ≤ 0xffff) : HexWord where
  numeral := lower (render 16 number)
  nonempty := mt List.map_eq_nil_iff.mp render_ne_nil
  bound := by
    rw [places_lower (small_render number), value_render]
    exact bound

theorem HexWord.text_ofNat {number : Nat} (bound : number ≤ 0xffff) :
    (HexWord.ofNat number bound).text = printed 16 number :=
  map_char_lower (small_render number)

theorem HexWord.val_ofNat {number : Nat} (bound : number ≤ 0xffff) :
    (HexWord.ofNat number bound).val = number :=
  (congrArg (value 16) (places_lower (small_render number))).trans value_render

/-! ### Reading tokens -/

theorem xdigit_char : ∀ (digit : Fin 16) (upper : Bool),
    xdigit (HexDigit.char ⟨digit, upper⟩) = some digit.val := by
  decide

theorem shiftLeft_four_or {sum digit : Nat} (small : digit < 16) :
    sum <<< 4 ||| digit = sum * 16 + digit := by
  rw [← Nat.shiftLeft_add_eq_or_of_lt (by omega), Nat.shiftLeft_eq]

theorem loop_xdigits {numeral : List HexDigit} (nonempty : numeral ≠ [])
    (bound : valueFrom 16 hexes.val (places numeral) ≤ 0xffff) :
    inetPton6Loop (numeral.map HexDigit.char ++ src) hexes =
      inetPton6Loop src
        { hexes with val := valueFrom 16 hexes.val (places numeral), sawXdigit := true } := by
  induction numeral generalizing hexes with
  | nil => exact absurd rfl nonempty
  | cons digit numeral inductionHypothesis =>
    have larger : hexes.val * 16 + digit.digit ≤ valueFrom 16 _ (places numeral) :=
      le_valueFrom (by omega)
    have within : ¬ hexes.val * 16 + digit.digit > 0xffff := Nat.not_lt.mpr (larger.trans bound)
    rw [List.map_cons, List.cons_append, inetPton6Loop, xdigit_char digit.digit digit.upper]
    simp only [shiftLeft_four_or digit.digit.isLt, if_neg within]
    cases numeral with
    | nil => rfl
    | cons next numeral => exact inductionHypothesis (List.cons_ne_nil _ _) bound

theorem loop_text (word : HexWord) :
    inetPton6Loop (word.text ++ src) ⟨tmp, colonp, rest, false, 0⟩ =
      inetPton6Loop src ⟨tmp, colonp, rest, true, word.val⟩ :=
  loop_xdigits word.nonempty word.bound

theorem push_of_room {val : Nat} (room : tmp.length + 2 ≤ 16) :
    push tmp val = some (tmp ++ wordBytes val) :=
  if_neg (by omega)

theorem loop_colon {val : Nat} (room : tmp.length + 2 ≤ 16) :
    inetPton6Loop (':' :: src) ⟨tmp, colonp, rest, true, val⟩ =
      inetPton6Loop src ⟨tmp ++ wordBytes val, colonp, src, false, 0⟩ := by
  rw [inetPton6Loop, show xdigit ':' = none by decide]
  simp [push_of_room room]

theorem loop_colon_full {val : Nat} (full : 16 < tmp.length + 2) :
    inetPton6Loop (':' :: src) ⟨tmp, colonp, rest, true, val⟩ = none := by
  rw [inetPton6Loop, show xdigit ':' = none by decide]
  simp [push, full]

/-- Every word with a colon behind it is stored. -/
theorem readFrom_closed (room : tmp.length + 2 * words.length ≤ 16) :
    readFrom tmp colonp (closed words ++ rest) =
      readFrom (tmp ++ bytesOf (words.map HexWord.val)) colonp rest := by
  induction words generalizing tmp with
  | nil => simp [closed, bytesOf]
  | cons word words inductionHypothesis =>
    rw [List.length_cons] at room
    have text : closed (word :: words) ++ rest = word.text ++ ':' :: (closed words ++ rest) := by
      simp [closed]
    have stored : (tmp ++ wordBytes word.val).length = tmp.length + 2 := List.length_append
    rw [readFrom, text, loop_text, loop_colon (by omega), ← readFrom,
      inductionHypothesis (by omega), bytesOf, bytesOf, List.map_cons, List.flatMap_cons,
      List.append_assoc]

/-- The words with a colon behind them do not go past the end of the address. -/
theorem readFrom_closed_full (inside : tmp.length ≤ 16)
    (full : 16 < tmp.length + 2 * words.length) :
    readFrom tmp colonp (closed words ++ rest) = none := by
  induction words generalizing tmp with
  | nil => exact absurd full (Nat.not_lt.mpr inside)
  | cons word words inductionHypothesis =>
    rw [List.length_cons] at full
    have text : closed (word :: words) ++ rest = word.text ++ ':' :: (closed words ++ rest) := by
      simp [closed]
    have stored : (tmp ++ wordBytes word.val).length = tmp.length + 2 := List.length_append
    rw [readFrom, text, loop_text]
    by_cases room : tmp.length + 2 ≤ 16
    · rw [loop_colon room, ← readFrom]
      exact inductionHypothesis (by omega) (by omega)
    · rw [loop_colon_full (Nat.lt_of_not_le room), Option.bind_none]

/-- A `::` is remembered. -/
theorem readFrom_gap : readFrom tmp none (':' :: rest) = readFrom tmp (some tmp.length) rest := by
  rw [readFrom, inetPton6Loop, show xdigit ':' = none by decide]
  rfl

theorem readFrom_nil : readFrom tmp colonp [] = assemble tmp colonp := rfl

theorem readFrom_text :
    readFrom tmp colonp word.text = (push tmp word.val).bind (assemble · colonp) := by
  have text : inetPton6Loop word.text ⟨tmp, colonp, word.text, false, 0⟩ =
      some ⟨tmp, colonp, word.text, true, word.val⟩ := by
    rw [← List.append_nil word.text, loop_text, inetPton6Loop]
  rw [readFrom, text]
  rfl

/-- The last words of a text. -/
theorem readFrom_opened (room : tmp.length + 2 * words.length ≤ 16) :
    readFrom tmp colonp (opened words) =
      assemble (tmp ++ bytesOf (words.map HexWord.val)) colonp := by
  rcases List.eq_nil_or_concat' words with rfl | ⟨init, last, rfl⟩
  · simp [opened, bytesOf, readFrom_nil]
  · rw [List.length_append, List.length_singleton] at room
    have stored : (tmp ++ bytesOf (init.map HexWord.val)).length =
        tmp.length + 2 * init.length := by
      rw [List.length_append, length_bytesOf, List.length_map]
    rw [opened_append_singleton, readFrom_closed (by omega), readFrom_text,
      push_of_room (by omega), Option.bind_some, List.append_assoc]
    simp [bytesOf]

theorem readFrom_opened_full (inside : tmp.length ≤ 16)
    (full : 16 < tmp.length + 2 * words.length) :
    readFrom tmp colonp (opened words) = none := by
  rcases List.eq_nil_or_concat' words with rfl | ⟨init, last, rfl⟩
  · exact absurd full (Nat.not_lt.mpr inside)
  · rw [List.length_append, List.length_singleton] at full
    rw [opened_append_singleton]
    by_cases room : tmp.length + 2 * init.length ≤ 16
    · have stored : (tmp ++ bytesOf (init.map HexWord.val)).length =
          tmp.length + 2 * init.length := by
        rw [List.length_append, length_bytesOf, List.length_map]
      rw [readFrom_closed room, readFrom_text, push, if_pos (by omega), Option.bind_none]
    · exact readFrom_closed_full inside (Nat.lt_of_not_le room)

/-- An IPv4 address at the end of a text. Its first octet has been read as a word before the
dot shows what it is. -/
theorem readFrom_dotted (address : Nat → UInt8) (room : tmp.length + 4 ≤ 16) :
    readFrom tmp colonp (dotted address) =
      assemble (tmp ++ (List.range 4).map address) colonp := by
  obtain ⟨more, shape⟩ : ∃ more, dotted address = printed 10 (address 0).toNat ++ '.' :: more :=
    ⟨_, by rw [dotted, List.append_assoc, List.append_assoc, List.cons_append]⟩
  have octet := isOctet_render (address 0)
  have small : ∀ digit ∈ render 10 (address 0).toNat, digit < 16 :=
    fun digit member => (octet.small digit member).trans (by omega)
  have short : (render 10 (address 0).toNat).length ≤ 3 :=
    length_render_le (by omega) (by omega) ((address 0).toNat_lt.trans (by omega))
  have bound : valueFrom 16 0 (places (lower (render 10 (address 0).toNat))) ≤ 0xffff := by
    have below := value_lt (by omega) small
    have power := Nat.pow_le_pow_right (show 0 < 16 by omega) short
    rw [value] at below
    rw [places_lower small]
    omega
  have nonempty : lower (render 10 (address 0).toNat) ≠ [] :=
    mt List.map_eq_nil_iff.mp octet.nonempty
  have read : inetPton6Loop (dotted address) ⟨tmp, colonp, dotted address, false, 0⟩ =
      some ⟨tmp ++ (List.range 4).map address, colonp, dotted address, false,
        valueFrom 16 0 (places (lower (render 10 (address 0).toNat)))⟩ := by
    rw [show inetPton6Loop (dotted address) = inetPton6Loop (_ ++ _) from congrArg _ shape,
      printed, ← map_char_lower small, loop_xdigits nonempty bound, inetPton6Loop,
      show xdigit '.' = none by decide]
    simp [room, inetPton4_dotted]
  rw [readFrom, read]
  rfl

theorem skipColon_text (word : HexWord) :
    skipColon (word.text ++ rest) = some (word.text ++ rest) := by
  obtain ⟨digit, numeral, shape⟩ := List.exists_cons_of_ne_nil word.nonempty
  have char_ne : ∀ (digit : Fin 16) (upper : Bool), HexDigit.char ⟨digit, upper⟩ ≠ ':' := by decide
  rw [HexWord.text, shape, List.map_cons, List.cons_append, skipColon]
  exact fun _ colon => absurd (List.cons.inj colon).1 (char_ne digit.digit digit.upper)

theorem skipColon_gapped (front : List HexWord) :
    skipColon (gapped front rest) = some (closed front ++ ':' :: rest) := by
  cases front with
  | nil => rfl
  | cons word front =>
    rw [gapped, closed, List.flatMap_cons, List.append_assoc, List.append_assoc, skipColon_text]

/-- A text with a `::` is read as the words in front of it and the rest behind them. -/
theorem inetPton6_gapped {front : List HexWord} (room : front.length ≤ 8) :
    inetPton6 (gapped front rest) =
      readFrom (bytesOf (front.map HexWord.val)) (some (2 * front.length)) rest := by
  rw [inetPton6, skipColon_gapped, Option.bind_some, readFrom_closed, readFrom_gap,
    List.nil_append, length_bytesOf, List.length_map]
  rw [List.length_nil]
  omega

/-! ### The shift -/

section Shift

variable {start n : Nat} {cells : Nat → UInt8}

theorem foldl_shiftStep_succ (i : Nat) :
    (List.range' 1 (i + 1)).foldl (shiftStep start n) cells =
      shiftStep start n ((List.range' 1 i).foldl (shiftStep start n) cells) (1 + i) := by
  rw [List.range'_1_concat, List.foldl_append, List.foldl_cons, List.foldl_nil]

/-- After `i` turns the last `i` bytes are in place and everything between them and what is
still to be moved is zero. -/
theorem shift_after (gap : start + n < 16) (zero : ∀ byte, start + n ≤ byte → cells byte = 0)
    {i : Nat} (turns : i ≤ n) {byte : Nat} (inside : byte < 16) :
    (List.range' 1 i).foldl (shiftStep start n) cells byte =
      if byte < start + (n - i) then cells byte
      else if byte < 16 - i then 0 else cells (start + (byte - (16 - n))) := by
  induction i generalizing byte with
  | zero =>
    rw [List.range'_zero, List.foldl_nil]
    split
    · rfl
    · rename_i beyond
      exact zero byte (Nat.le_of_not_lt beyond)
  | succ i inductionHypothesis =>
    rw [foldl_shiftStep_succ, shiftStep]
    by_cases cleared : byte = start + (n - (1 + i))
    · rw [cleared, Function.update_self, if_neg (by omega), if_pos (by omega)]
    · rw [Function.update_of_ne cleared]
      by_cases filled : byte = 16 - (1 + i)
      · rw [filled, Function.update_self, inductionHypothesis (by omega) (by omega),
          if_pos (by omega), if_neg (by omega), if_neg (by omega)]
        congr 1
        omega
      · rw [Function.update_of_ne filled, inductionHypothesis (by omega) inside]
        grind

/-- Without a gap every byte that is moved stays where it is, and is then cleared. -/
theorem shift_full (full : start + n = 16) {i : Nat} (turns : i ≤ n) {byte : Nat}
    (inside : byte < 16) :
    (List.range' 1 i).foldl (shiftStep start n) cells byte =
      if byte < start + (n - i) then cells byte else 0 := by
  induction i generalizing byte with
  | zero =>
    rw [List.range'_zero, List.foldl_nil, if_pos (by omega)]
  | succ i inductionHypothesis =>
    rw [foldl_shiftStep_succ, shiftStep]
    by_cases cleared : byte = start + (n - (1 + i))
    · rw [cleared, Function.update_self, if_neg (by omega)]
    · rw [Function.update_of_ne cleared, Function.update_of_ne (by omega),
        inductionHypothesis (by omega) inside]
      grind

end Shift

/-- The bytes that are copied, from what the shift makes of each. -/
theorem assemble_eq {bytes : List UInt8} (size : bytes.length = 16)
    (moved : ∀ byte < 16,
      (List.range' 1 back.length).foldl (shiftStep front.length back.length)
        (fun byte => (front ++ back).getD byte 0) byte = bytes.getD byte 0) :
    assemble (front ++ back) (some front.length) = some bytes := by
  rw [assemble, List.length_append, Nat.add_sub_cancel_left]
  refine congrArg some (List.ext_getElem (by simp [size]) fun byte inside within => ?_)
  rw [List.getElem_map, List.getElem_range, shift, moved byte (by omega),
    List.getD_eq_getElem _ _ within]

/-- With a gap the shift fills it with zeros. -/
theorem assemble_gap (gap : front.length + back.length < 16) :
    assemble (front ++ back) (some front.length) =
      some (front ++ List.replicate (16 - (front.length + back.length)) 0 ++ back) := by
  have zero : ∀ byte, front.length + back.length ≤ byte → (front ++ back).getD byte 0 = 0 :=
    fun byte beyond => List.getD_eq_default _ _ (by rw [List.length_append]; exact beyond)
  refine assemble_eq (by simp; omega) fun byte inside => ?_
  rw [shift_after gap zero le_rfl inside]
  simp only [List.getD_eq_getElem?_getD, List.getElem?_append, List.getElem?_replicate,
    List.length_append, List.length_replicate]
  grind

/-- Without a gap the shift clears what is behind the `::`. -/
theorem assemble_full (full : front.length + back.length = 16) :
    assemble (front ++ back) (some front.length) =
      some (front ++ List.replicate back.length 0) := by
  refine assemble_eq (by simp; omega) fun byte inside => ?_
  rw [shift_full full le_rfl inside]
  simp only [List.getD_eq_getElem?_getD, List.getElem?_append, List.getElem?_replicate]
  grind

/-! ### What `inet_pton6` makes of words -/

theorem assemble_none (words : List Nat) : assemble (bytesOf words) none =
    if words.length = 8 then some (bytesOf words) else none := by
  rw [assemble, length_bytesOf]
  by_cases eight : words.length = 8
  · rw [if_neg (by omega), if_pos eight]
  · rw [if_pos (by omega), if_neg eight]

theorem skipColon_opened (nonempty : words ≠ []) :
    skipColon (opened words) = some (opened words) := by
  obtain ⟨word, words, rfl⟩ := List.exists_cons_of_ne_nil nonempty
  rw [opened_cons, skipColon_text]

theorem skipColon_closed (nonempty : words ≠ []) :
    skipColon (closed words) = some (closed words) := by
  obtain ⟨word, words, rfl⟩ := List.exists_cons_of_ne_nil nonempty
  rw [closed, List.flatMap_cons, List.append_assoc, skipColon_text]

theorem inetPton6_opened (nonempty : words ≠ []) :
    inetPton6 (opened words) =
      if words.length = 8 then some (bytesOf (words.map HexWord.val)) else none := by
  rw [inetPton6, skipColon_opened nonempty, Option.bind_some]
  by_cases room : words.length ≤ 8
  · rw [readFrom_opened (by rw [List.length_nil]; omega), List.nil_append, assemble_none,
      List.length_map]
  · rw [readFrom_opened_full (by simp) (by rw [List.length_nil]; omega), if_neg (by omega)]

theorem inetPton6_closed (nonempty : words ≠ []) :
    inetPton6 (closed words) =
      if words.length = 8 then some (bytesOf (words.map HexWord.val)) else none := by
  rw [inetPton6, skipColon_closed nonempty, Option.bind_some, ← List.append_nil (closed words)]
  by_cases room : words.length ≤ 8
  · rw [readFrom_closed (by rw [List.length_nil]; omega), List.nil_append, readFrom_nil,
      assemble_none, List.length_map]
  · rw [readFrom_closed_full (by simp) (by rw [List.length_nil]; omega), if_neg (by omega)]

/-- `inet_pton6` accepts words with colons between them, in either case and with any leading zeros,
exactly if they are eight, and then returns their bytes. A colon behind the last word makes no
difference. -/
theorem inet_pton6_reads_words (words : List HexWord) (nonempty : words ≠ []) :
    inetPton6 (opened words) =
        (if words.length = 8 then some (bytesOf (words.map HexWord.val)) else none) ∧
      inetPton6 (closed words) = inetPton6 (opened words) := by
  rw [inetPton6_closed nonempty, inetPton6_opened nonempty]
  exact ⟨rfl, rfl⟩

/-- The word `00aB`. -/
def mixedWord : HexWord where
  numeral := [⟨0, false⟩, ⟨0, false⟩, ⟨10, false⟩, ⟨11, true⟩]
  nonempty := by decide
  bound := by decide

theorem inet_pton6_reads_words_eight :
    mixedWord.text = "00aB".toList ∧
      inetPton6 (closed (List.replicate 8 mixedWord)) = some (bytesOf (List.replicate 8 0xab)) := by
  have read := inet_pton6_reads_words (List.replicate 8 mixedWord) (by simp)
  refine ⟨by decide, ?_⟩
  rw [read.2, read.1, if_pos (List.length_replicate), List.map_replicate]
  rfl

theorem inetPton6_gapped_opened {front back : List HexWord}
    (room : front.length + back.length ≤ 8) :
    inetPton6 (gapped front (opened back)) =
      assemble (bytesOf (front.map HexWord.val) ++ bytesOf (back.map HexWord.val))
        (some (bytesOf (front.map HexWord.val)).length) := by
  rw [inetPton6_gapped (by omega), readFrom_opened (by rw [length_bytesOf, List.length_map]; omega),
    length_bytesOf, List.length_map]

/-- What `inet_pton6` makes of words with one `::` between them, in either case and with any leading
zeros. With less than eight words the `::` stands for the zeros that are missing. With eight words
it is not ignored: the words behind it are replaced by zeros. With more the text is refused. -/
theorem inet_pton6_reads_gap (front back : List HexWord) :
    (front.length + back.length < 8 → inetPton6 (gapped front (opened back)) =
      some (bytesOf (front.map HexWord.val ++
        List.replicate (8 - (front.length + back.length)) 0 ++ back.map HexWord.val))) ∧
    (front.length + back.length = 8 → inetPton6 (gapped front (opened back)) =
      some (bytesOf (front.map HexWord.val ++ List.replicate back.length 0))) ∧
    (8 < front.length + back.length → inetPton6 (gapped front (opened back)) = none) := by
  have sizeFront : (bytesOf (front.map HexWord.val)).length = 2 * front.length := by
    rw [length_bytesOf, List.length_map]
  have sizeBack : (bytesOf (back.map HexWord.val)).length = 2 * back.length := by
    rw [length_bytesOf, List.length_map]
  refine ⟨fun few => ?_, fun eight => ?_, fun many => ?_⟩
  · rw [inetPton6_gapped_opened few.le, assemble_gap (by omega), bytesOf_append, bytesOf_append,
      bytesOf_replicate_zero, sizeFront, sizeBack, Nat.mul_sub, Nat.mul_add]
  · rw [inetPton6_gapped_opened eight.le, assemble_full (by omega), bytesOf_append,
      bytesOf_replicate_zero, sizeBack]
  · by_cases room : front.length ≤ 8
    · rw [inetPton6_gapped room]
      exact readFrom_opened_full (by omega) (by omega)
    · rw [inetPton6, skipColon_gapped, Option.bind_some]
      exact readFrom_closed_full (by simp) (by rw [List.length_nil]; omega)

theorem inet_pton6_reads_gap_inFront :
    inetPton6 (gapped [] (opened (List.replicate 8 mixedWord))) =
      some (bytesOf (List.replicate 8 0)) :=
  (inet_pton6_reads_gap [] (List.replicate 8 mixedWord)).2.1 (by simp)

end SocketC.Inet
