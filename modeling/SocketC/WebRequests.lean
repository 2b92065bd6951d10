/-
This file models `web_child`, which both pre-threaded servers run for a connection:
it reads a line, converts it with `atol`, and writes back that many bytes of its
array `result`; a number outside of `1..MAXN` ends the process in `err_quit`. The
array is never initialised, so its contents are a parameter.

What `web_child` does with a client's stream is summed up in a script: the numbers of
bytes it writes, and the number that makes it quit, if there is one. A line with a
numeral is one request, and a stream of numerals in the range whose lines fit the
buffer makes `web_child` write what they say and never quit. `atol` is modelled as the
`strtol` of a system with 64-bit `long`, and the assignment to the `int` `ntowrite` keeps
the low 32 bits.
-/

import SocketC.Lines

namespace SocketC

/-- `MAXN`. -/
def maxN : Nat := 16384

/-! ### The conversion of a line -/

/-- `isspace` for the bytes of the C locale. -/
def isSpace (byte : UInt8) : Bool := decide (byte = 32 ∨ (9 ≤ byte ∧ byte ≤ 13))

/-- `isdigit`. -/
def isDigit (byte : UInt8) : Bool := decide (48 ≤ byte ∧ byte ≤ 57)

/-- The number that a list of digits denotes. -/
def digitsValue (digits : List UInt8) : Nat :=
  digits.foldl (fun value digit => 10 * value + (digit.toNat - 48)) 0

/-- The number at the beginning of a text, with an optional sign. -/
def signedValue : List UInt8 → Int
  | [] => 0
  | first :: rest =>
    if first = 45 then -(digitsValue (rest.takeWhile isDigit) : Int)
    else if first = 43 then digitsValue (rest.takeWhile isDigit)
    else digitsValue ((first :: rest).takeWhile isDigit)

/-- `atol`: what does not fit in a `long` becomes the nearest number that does. -/
def atol (line : List UInt8) : Int :=
  max (-2 ^ 63) (min (2 ^ 63 - 1) (signedValue ((cString line).dropWhile isSpace)))

/-- The assignment of a `long` to an `int`. -/
def intOfLong (value : Int) : Int := value.bmod (2 ^ 32)

/-! ### `web_child` -/

/-- Where `web_child` stands. -/
inductive WebChild where
  /-- In `Readline`, with this `n` and these bytes stored. -/
  | readline (n : Nat) (stored : List UInt8)
  /-- In `Writen`, with these bytes still to write. -/
  | writen (rest : List UInt8)
  | returned
  deriving DecidableEq

/-- What `web_child` does after a turn of the loop in `Readline`. -/
inductive LineUse where
  | again (n : Nat) (stored : List UInt8)
  | close
  | write (ntowrite : Nat)
  | quit (ntowrite : Int)

/-- The branches after `Readline`: the return at the end of the stream, and the test of
`ntowrite`. -/
def webChildLine : LineStep → LineUse
  | .again n stored => .again n stored
  | .returned nread line =>
    if nread = 0 then .close
    else if intOfLong (atol line) ≤ 0 ∨ (maxN : Int) < intOfLong (atol line) then
      .quit (intOfLong (atol line))
    else .write (intOfLong (atol line)).toNat

/-- The first bytes of `result`. -/
def written (result : Nat → UInt8) (ntowrite : Nat) : List UInt8 := (List.range ntowrite).map result

/-! ### Scripts -/

/-- What a stream makes `web_child` do: the numbers of bytes written, and the number that it
quits with. -/
structure Script where
  counts : List Nat
  quit : Option Int
  deriving DecidableEq

/-- A request before the others. -/
def Script.after (ntowrite : Nat) (script : Script) : Script :=
  ⟨ntowrite :: script.counts, script.quit⟩

/-- The script of a stream, from somewhere in `Readline`. -/
def scriptFrom : Nat → List UInt8 → List UInt8 → Script
  | n, stored, [] =>
    match webChildLine (readline maxLine n stored .eof) with
    | .again _ _ | .close => ⟨[], none⟩
    | .write ntowrite => ⟨[ntowrite], none⟩
    | .quit ntowrite => ⟨[], some ntowrite⟩
  | n, stored, byte :: rest =>
    match webChildLine (readline maxLine n stored (.ofByte byte)) with
    | .again n stored => scriptFrom n stored rest
    | .close => ⟨[], none⟩
    | .write ntowrite => (scriptFrom 1 [] rest).after ntowrite
    | .quit ntowrite => ⟨[], some ntowrite⟩

/-- The script of a whole stream. -/
def script (stream : List UInt8) : Script := scriptFrom 1 [] stream

/-- The bytes that answer the requests. -/
def answer (result : Nat → UInt8) (counts : List Nat) : List UInt8 :=
  counts.flatMap (written result)

/-- How many bytes are sent does not depend on what the array holds. -/
theorem length_answer (result : Nat → UInt8) (counts : List Nat) :
    (answer result counts).length = counts.sum := by
  induction counts with
  | nil => rfl
  | cons ntowrite rest inductionHypothesis =>
    have front : (written result ntowrite).length = ntowrite := by
      rw [written, List.length_map, List.length_range]
    rw [answer, List.flatMap_cons, List.length_append, front, List.sum_cons]
    exact congrArg (ntowrite + ·) inductionHypothesis

/-- The bytes `web_child` still has to send, by its place and what it has not read. -/
def WebChild.due (result : Nat → UInt8) (unread : List UInt8) : WebChild → List UInt8
  | .readline n stored => answer result (scriptFrom n stored unread).counts
  | .writen rest => rest ++ answer result (script unread).counts
  | .returned => []

/-- The number `web_child` will quit with, by its place and what it has not read. -/
def WebChild.quits (unread : List UInt8) : WebChild → Option Int
  | .readline n stored => (scriptFrom n stored unread).quit
  | .writen _ => (script unread).quit
  | .returned => none

/-- Where `web_child` stands after a turn of `Readline` that does not make it quit. -/
def LineUse.place (result : Nat → UInt8) : LineUse → WebChild
  | .again n stored => .readline n stored
  | .close | .quit _ => .returned
  | .write ntowrite => .writen (written result ntowrite)

/-- What `Recv` of one byte returns on a connection with these bytes unread and no more to come. -/
def recvOf : List UInt8 → ByteRecv
  | [] => .eof
  | byte :: _ => .ofByte byte

theorem webChildLine_returned_ne (nread : Int) (line : List UInt8) (n : Nat)
    (stored : List UInt8) : webChildLine (.returned nread line) ≠ .again n stored := by
  simp only [webChildLine]
  split_ifs <;> exact nofun

/-- A turn of `Readline` takes a byte off the stream, and the script goes on from there. -/
theorem scriptFrom_recv (n : Nat) (stored unread : List UInt8) :
    scriptFrom n stored unread =
      match webChildLine (readline maxLine n stored (recvOf unread)) with
      | .again n stored => scriptFrom n stored unread.tail
      | .close => ⟨[], none⟩
      | .write ntowrite => (script unread.tail).after ntowrite
      | .quit ntowrite => ⟨[], some ntowrite⟩ := by
  cases unread with
  | nil =>
    -- At the end of the stream `Readline` returns, and the next call returns zero.
    simp only [scriptFrom, recvOf, readline_eof]
    cases use : webChildLine (.returned (n - 1 : Int) stored) with
    | again n stored => exact absurd use (webChildLine_returned_ne _ _ n stored)
    | close | write | quit => rfl
  | cons byte rest => rfl

/-- It does not change what `web_child` has to send, -/
theorem due_recv (result : Nat → UInt8) (n : Nat) (stored unread : List UInt8) :
    ((webChildLine (readline maxLine n stored (recvOf unread))).place result).due result
      unread.tail = (WebChild.readline n stored).due result unread := by
  simp only [WebChild.due, scriptFrom_recv n stored unread]
  cases webChildLine (readline maxLine n stored (recvOf unread)) <;> rfl

/-- nor whether it quits: now, or with the same number later. -/
theorem quits_recv (result : Nat → UInt8) (n : Nat) (stored unread : List UInt8) :
    (WebChild.readline n stored).quits unread =
      match webChildLine (readline maxLine n stored (recvOf unread)) with
      | .quit ntowrite => some ntowrite
      | use => (use.place result).quits unread.tail := by
  simp only [WebChild.quits, scriptFrom_recv n stored unread]
  cases webChildLine (readline maxLine n stored (recvOf unread)) <;> rfl

/-! ### Numerals -/

/-- The number of bytes is in the range that `web_child` serves. -/
def InRange (ntowrite : Int) : Prop := 0 < ntowrite ∧ ntowrite ≤ maxN

instance : DecidablePred InRange := fun ntowrite =>
  inferInstanceAs (Decidable (0 < ntowrite ∧ ntowrite ≤ (maxN : Int)))

/-- The optional sign of a numeral. -/
inductive NumeralSign where
  | absent
  | plus
  | minus

def NumeralSign.bytes : NumeralSign → List UInt8
  | .absent => []
  | .plus => [43]
  | .minus => [45]

/-- An optionally signed decimal numeral. -/
structure Numeral where
  sign : NumeralSign
  digits : List UInt8
  nonempty : digits ≠ []
  allDigits : ∀ digit ∈ digits, isDigit digit = true

namespace Numeral

/-- The numeral without the newline. -/
def text (numeral : Numeral) : List UInt8 := numeral.sign.bytes ++ numeral.digits

/-- The numeral as a line. -/
def line (numeral : Numeral) : List UInt8 := numeral.text ++ [newline]

/-- The number that the numeral denotes. -/
def value (numeral : Numeral) : Int :=
  match numeral.sign with
  | .absent | .plus => digitsValue numeral.digits
  | .minus => -(digitsValue numeral.digits : Int)

theorem digit_bounds {byte : UInt8} (digit : isDigit byte = true) :
    48 ≤ byte.toNat ∧ byte.toNat ≤ 57 := by
  obtain ⟨lower, upper⟩ := of_decide_eq_true digit
  exact ⟨UInt8.le_iff_toNat_le.mp lower, UInt8.le_iff_toNat_le.mp upper⟩

/-- The bytes of a numeral are neither NUL nor a newline. -/
theorem bounds_of_mem_text {numeral : Numeral} {byte : UInt8} (member : byte ∈ numeral.text) :
    43 ≤ byte.toNat := by
  obtain inSign | inDigits := List.mem_append.mp member
  · cases sign : numeral.sign with
    | absent =>
      rw [sign] at inSign
      cases inSign
    | plus | minus =>
      rw [sign] at inSign
      rw [List.mem_singleton.mp inSign]
      decide
  · have lower := (digit_bounds (numeral.allDigits byte inDigits)).1
    omega

theorem newline_not_mem_text (numeral : Numeral) : newline ∉ numeral.text := fun member =>
  absurd (bounds_of_mem_text member) (by decide)

theorem nulFree_line (numeral : Numeral) : NulFree numeral.line := by
  intro byte member zero
  obtain inText | isNewline := List.mem_append.mp member
  · have bound := bounds_of_mem_text inText
    rw [zero] at bound
    exact absurd bound (by decide)
  · rw [List.mem_singleton.mp isNewline] at zero
    exact absurd zero (by decide)

/-- The digits end at the newline. -/
theorem takeWhile_digits (numeral : Numeral) :
    (numeral.digits ++ [newline]).takeWhile isDigit = numeral.digits := by
  have stops : [newline].takeWhile isDigit = [] := by decide
  rw [List.takeWhile_append_of_pos numeral.allDigits, stops, List.append_nil]

/-- A line that starts with a digit is read as an unsigned number. -/
theorem signedValue_digits (numeral : Numeral) :
    signedValue ((numeral.digits ++ [newline]).dropWhile isSpace) =
      digitsValue numeral.digits := by
  have value := congrArg digitsValue numeral.takeWhile_digits
  cases digits : numeral.digits with
  | nil => exact absurd digits numeral.nonempty
  | cons first rest =>
    rw [digits, List.cons_append] at value
    have digit : isDigit first = true := numeral.allDigits first (digits ▸ List.mem_cons_self)
    have bounds := digit_bounds digit
    -- The first byte is a digit, so it is neither a space nor a sign.
    have notSpace : ¬ isSpace first = true := by
      intro space
      obtain rfl | ⟨-, below⟩ := of_decide_eq_true space
      · exact absurd bounds.1 (by decide)
      · exact absurd (bounds.1.trans (UInt8.le_iff_toNat_le.mp below)) (by decide)
    have notMinus : first ≠ 45 := by
      rintro rfl
      exact absurd bounds.1 (by decide)
    have notPlus : first ≠ 43 := by
      rintro rfl
      exact absurd bounds.1 (by decide)
    rw [List.cons_append, List.dropWhile_cons_of_neg notSpace, signedValue, if_neg notMinus,
      if_neg notPlus, value]

/-- A numeral is read back up to the newline. -/
theorem signedValue_line (numeral : Numeral) :
    signedValue ((cString numeral.line).dropWhile isSpace) = numeral.value := by
  rw [cString_of_nulFree numeral.nulFree_line, line, text, value]
  cases sign : numeral.sign with
  | absent => exact numeral.signedValue_digits
  | plus =>
    show (digitsValue ((numeral.digits ++ [newline]).takeWhile isDigit) : Int) = _
    rw [numeral.takeWhile_digits]
  | minus =>
    show -(digitsValue ((numeral.digits ++ [newline]).takeWhile isDigit) : Int) = _
    rw [numeral.takeWhile_digits]

/-- The value is one of a 64-bit `long`. -/
def Fits (numeral : Numeral) : Prop := -2 ^ 63 ≤ numeral.value ∧ numeral.value < 2 ^ 63

instance : DecidablePred Fits := fun numeral =>
  inferInstanceAs (Decidable (-2 ^ 63 ≤ numeral.value ∧ numeral.value < 2 ^ 63))

theorem atol_line {numeral : Numeral} (fits : numeral.Fits) :
    atol numeral.line = numeral.value := by
  obtain ⟨lower, upper⟩ := fits
  rw [atol, numeral.signedValue_line, min_eq_right (by omega), max_eq_right lower]

end Numeral

theorem intOfLong_of_inRange {value : Int} (inRange : InRange value) : intOfLong value = value := by
  obtain ⟨lower, upper⟩ := inRange
  have small : (maxN : Int) = 16384 := rfl
  exact Int.bmod_eq_of_le (by omega) (by omega)

/-- What `web_child` does with a line that it has read. -/
theorem webChildLine_returned {nread : Int} (nonzero : nread ≠ 0) (line : List UInt8) :
    webChildLine (.returned nread line) =
      if InRange (intOfLong (atol line)) then .write (intOfLong (atol line)).toNat
      else .quit (intOfLong (atol line)) := by
  have test : (intOfLong (atol line) ≤ 0 ∨ (maxN : Int) < intOfLong (atol line)) ↔
      ¬ InRange (intOfLong (atol line)) := by
    rw [InRange, not_and_or, not_lt, not_le]
  simp only [webChildLine, if_neg nonzero, test, ite_not]

/-- The bytes of a line that is not complete are stored. -/
theorem scriptFrom_append (text : List UInt8) (noNewline : newline ∉ text) (n : Nat)
    (stored rest : List UInt8) (fits : n + text.length < maxLine) :
    scriptFrom n stored (text ++ rest) = scriptFrom (n + text.length) (stored ++ text) rest := by
  induction text generalizing n stored with
  | nil => rw [List.append_nil]; rfl
  | cons byte text inductionHypothesis =>
    rw [List.length_cons] at fits
    have other : byte ≠ newline := fun same => noNewline (same ▸ List.mem_cons_self)
    have stores : readline maxLine n stored (.ofByte byte) = .again (n + 1) (stored ++ [byte]) := by
      show (if byte = newline then _ else lineNext maxLine n (stored ++ [byte])) = _
      rw [if_neg other, lineNext, if_pos (by omega)]
    rw [List.cons_append, scriptFrom, stores]
    show scriptFrom (n + 1) (stored ++ [byte]) (text ++ rest) = _
    rw [inductionHypothesis (fun member => noNewline (List.mem_cons_of_mem _ member)) (n + 1)
      (stored ++ [byte]) (by omega), List.length_cons, List.append_assoc, List.singleton_append]
    congr 1
    omega

/-- A numeral whose line fits the buffer is one request: the test is made on the low 32 bits of
the value. -/
theorem script_numeral {numeral : Numeral} (fits : numeral.Fits)
    (short : numeral.line.length ≤ maxLine - 1) (rest : List UInt8) :
    script (numeral.line ++ rest) =
      if InRange (intOfLong numeral.value) then
        (script rest).after (intOfLong numeral.value).toNat
      else ⟨[], some (intOfLong numeral.value)⟩ := by
  have length : numeral.line.length = numeral.text.length + 1 := List.length_append
  have room : 1 + numeral.text.length < maxLine := by omega
  have complete : readline maxLine (1 + numeral.text.length) numeral.text (.ofByte newline) =
      .returned (1 + numeral.text.length : Nat) numeral.line := rfl
  have nonzero : ((1 + numeral.text.length : Nat) : Int) ≠ 0 := by omega
  have used := webChildLine_returned nonzero numeral.line
  rw [numeral.atol_line fits] at used
  rw [script, Numeral.line, List.append_assoc,
    scriptFrom_append _ numeral.newline_not_mem_text 1 [] _ room, List.nil_append,
    List.singleton_append, scriptFrom, complete, used]
  by_cases inRange : InRange (intOfLong numeral.value)
  · rw [if_pos inRange, if_pos inRange]
    rfl
  · rw [if_neg inRange, if_neg inRange]

/-! ### Valid requests -/

/-- Lines with numerals in the range, leading zeros and a plus sign allowed, each of them short
enough for the buffer of `Readline`. -/
def ValidRequests (numerals : List Numeral) : Prop :=
  ∀ numeral ∈ numerals, InRange numeral.value ∧ numeral.line.length ≤ maxLine - 1

instance : DecidablePred ValidRequests := fun numerals =>
  inferInstanceAs (Decidable (∀ numeral ∈ numerals, _ ∧ _))

theorem Numeral.fits_of_inRange {numeral : Numeral} (inRange : InRange numeral.value) :
    numeral.Fits := by
  obtain ⟨lower, upper⟩ := inRange
  have small : (maxN : Int) = 16384 := rfl
  exact ⟨by omega, by omega⟩

/-- They make `web_child` write what they say and never quit. -/
theorem script_of_valid {numerals : List Numeral} (valid : ValidRequests numerals) :
    script (numerals.flatMap Numeral.line) =
      ⟨numerals.map fun numeral => numeral.value.toNat, none⟩ := by
  induction numerals with
  | nil => rfl
  | cons numeral rest inductionHypothesis =>
    obtain ⟨inRange, short⟩ := valid numeral List.mem_cons_self
    have later := inductionHypothesis fun other member =>
      valid other (List.mem_cons_of_mem _ member)
    rw [List.flatMap_cons, script_numeral (Numeral.fits_of_inRange inRange) short, later,
      intOfLong_of_inRange inRange, if_pos inRange]
    rfl

/-- `web_child` quits on numbers out of the range only. -/
theorem not_inRange_of_quit {turn : LineStep} {ntowrite : Int}
    (quits : webChildLine turn = .quit ntowrite) : ¬ InRange ntowrite := by
  cases turn with
  | again n stored => cases quits
  | returned nread line =>
    by_cases zero : nread = 0
    · rw [webChildLine, if_pos zero] at quits
      cases quits
    · rw [webChildLine_returned zero] at quits
      split at quits
      · cases quits
      · cases quits
        assumption

end SocketC
