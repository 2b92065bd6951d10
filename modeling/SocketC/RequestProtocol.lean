/-
This file is about the request protocol of `web_child`. What its script says is first
shown to be what the loop of `web_child` makes of one call of `Readline` after the
other, each storing a line in the buffer.

A request is a line with a numeral. `web_child` compares the low 32 bits of its value
with the range, so it follows the protocol as long as the first value out of the range
is still out of it when it is reduced to an `int`.
-/

import SocketC.Readline
import SocketC.WebRequests

namespace SocketC

/-! ### The script and the calls of `Readline` -/

/-- What a use of a line contributes to the script, before the rest of the stream. -/
def LineUse.script (rest : Script) : LineUse → Script
  | .again _ _ | .close => ⟨[], none⟩
  | .write ntowrite => rest.after ntowrite
  | .quit ntowrite => ⟨[], some ntowrite⟩

theorem recvByte_bytes (stream : List UInt8) :
    recvByte (stream.map .byte) = some (recvOf stream) := by
  cases stream <;> rfl

/-- Bytes stored behind those that the buffer holds make up the longer line. -/
theorem holds_line {buffer : Buffer UInt8} {stored line : List UInt8} (holds : buffer.Holds stored)
    (front : stored <+: line) (more : List UInt8) :
    (buffer.write stored.length (line.drop stored.length ++ more)).Holds (line ++ more) := by
  have whole := holds.write (line.drop stored.length ++ more)
  rwa [← List.append_assoc, List.prefix_iff_eq_append.mp front] at whole

/-- From here on a call of `Readline` ends with a line in the buffer, and the script goes on with
the use of the line. -/
def ReadsLine (turns n : Nat) (stored : List UInt8) (buffer : Buffer UInt8)
    (stream : List UInt8) : Prop :=
  ∃ value line final rest,
    readlineLoop turns n stored.length buffer (stream.map .byte) =
      ⟨some value, final, List.map .byte rest⟩ ∧ final.Holds (line ++ [0]) ∧
    scriptFrom n stored stream = (webChildLine (.returned value line)).script (script rest)

/-- The call returns in this turn. -/
theorem readsLine_of_returned (turns n : Nat) (bound : n + turns + 1 = maxLine)
    {stored : List UInt8} {buffer : Buffer UInt8} (holds : buffer.Holds stored)
    {stream line : List UInt8} {value : Int}
    (returned : readline maxLine n stored (recvOf stream) = .returned value line) :
    ReadsLine (turns + 1) n stored buffer stream := by
  have turn := readlineLoop_turn turns n stored buffer (recvByte_bytes stream)
  rw [bound, returned, ← List.map_tail] at turn
  refine ⟨value, line, _, stream.tail, turn, holds_line holds (returned_of_readline returned) [0],
    ?_⟩
  rw [scriptFrom_recv, returned]
  cases use : webChildLine (.returned value line) with
  | again next more => exact absurd use (webChildLine_returned_ne _ _ next more)
  | close | write | quit => rfl

theorem readsLine {turns n : Nat} (bound : n + turns + 1 = maxLine) {stored : List UInt8}
    {buffer : Buffer UInt8} (holds : buffer.Holds stored) (stream : List UInt8) :
    ReadsLine (turns + 1) n stored buffer stream := by
  -- Induction on the turns left, one byte of the stream for each.
  induction turns generalizing n stored buffer stream with
  | zero =>
    cases step : readline maxLine n stored (recvOf stream) with
    | again next line =>
      have more := (again_of_readline step).2.1
      omega
    | returned value line => exact readsLine_of_returned 0 n bound holds step
  | succ turns inductionHypothesis =>
    cases step : readline maxLine n stored (recvOf stream) with
    | again next line =>
      obtain ⟨rfl, -, front⟩ := again_of_readline step
      have kept := holds_line holds front []
      rw [List.append_nil, List.append_nil] at kept
      have left : n + 1 + turns + 1 = maxLine := by omega
      obtain ⟨value, last, final, rest, ended, written, onward⟩ :=
        inductionHypothesis left kept stream.tail
      have turn := readlineLoop_turn (turns + 1) n stored buffer (recvByte_bytes stream)
      rw [bound, step, ← List.map_tail] at turn
      refine ⟨value, last, final, rest, turn.trans ended, written, ?_⟩
      rw [scriptFrom_recv, step]
      exact onward
    | returned value line => exact readsLine_of_returned (turns + 1) n bound holds step

/-- The script of a stream is what the loop of `web_child` does with the line that `Readline`
stores, and then with the rest of the stream. -/
theorem script_readlineCall (stream : List UInt8) :
    ∃ value line final rest,
      readlineCall maxLine (stream.map .byte) = ⟨some value, final, List.map .byte rest⟩ ∧
      final.Holds (line ++ [0]) ∧
      script stream = (webChildLine (.returned value line)).script (script rest) :=
  have bound : 1 + (maxLine - 2) + 1 = maxLine := rfl
  readsLine bound (Buffer.holds_nil _) stream

/-! ### The protocol -/

/-- The script is what these requests ask for: the values up to the first one out of the range,
and a quit if there is one. -/
structure Obeys (values : List Int) (script : Script) : Prop where
  counts : script.counts = (values.takeWhile fun value => InRange value).map Int.toNat
  quits : script.quit.isSome = true ↔ ∃ value ∈ values, ¬ InRange value

/-- A request in the range before the others. -/
theorem obeys_cons {value : Int} (inRange : InRange value) {values : List Int} {script : Script} :
    Obeys (value :: values) (script.after value.toNat) ↔ Obeys values script := by
  have counts : (value :: values).takeWhile (fun value => InRange value) =
      value :: values.takeWhile fun value => InRange value :=
    List.takeWhile_cons_of_pos (decide_eq_true inRange)
  have quits : (∃ other ∈ value :: values, ¬ InRange other) ↔
      ∃ other ∈ values, ¬ InRange other := by
    simp only [List.mem_cons, exists_eq_or_imp]
    exact or_iff_right (not_not.mpr inRange)
  constructor
  · rintro ⟨sameCounts, sameQuit⟩
    rw [counts, List.map_cons] at sameCounts
    exact ⟨List.tail_eq_of_cons_eq sameCounts, sameQuit.trans quits⟩
  · rintro ⟨sameCounts, sameQuit⟩
    refine ⟨?_, sameQuit.trans quits.symm⟩
    rw [counts, List.map_cons, ← sameCounts]
    rfl

/-- A request out of the range has to be the last, and nothing is written for it. -/
theorem obeys_cons_of_not {value : Int} (outOfRange : ¬ InRange value) (values : List Int)
    {script : Script} :
    Obeys (value :: values) script ↔ script.counts = [] ∧ script.quit.isSome = true := by
  have counts : (value :: values).takeWhile (fun value => InRange value) = [] :=
    List.takeWhile_cons_of_neg (by rw [decide_eq_true_eq]; exact outOfRange)
  have quits : ∃ other ∈ value :: values, ¬ InRange other :=
    ⟨value, List.mem_cons_self, outOfRange⟩
  constructor
  · rintro ⟨sameCounts, sameQuit⟩
    rw [counts] at sameCounts
    exact ⟨sameCounts, sameQuit.mpr quits⟩
  · rintro ⟨nothing, quit⟩
    refine ⟨?_, iff_of_true quit quits⟩
    rw [counts, nothing]
    rfl

/-- The value of the first request out of the range. -/
def firstOut (values : List Int) : Option Int := values.find? fun value => ¬ InRange value

/-- For every stream of numerals whose values fit a `long` and whose lines fit the buffer,
`web_child` writes as many bytes as each value says, up to the first value out of the range, where
it quits, exactly if that value is still out of the range when it is reduced to an `int`. -/
theorem requests_obeyed_iff (numerals : List Numeral)
    (valid : ∀ numeral ∈ numerals, numeral.Fits ∧ numeral.line.length ≤ maxLine - 1) :
    Obeys (numerals.map Numeral.value) (script (numerals.flatMap Numeral.line)) ↔
      ∀ value ∈ firstOut (numerals.map Numeral.value), ¬ InRange (intOfLong value) := by
  induction numerals with
  | nil => exact iff_of_true ⟨rfl, by decide⟩ nofun
  | cons numeral rest inductionHypothesis =>
    obtain ⟨fits, short⟩ := valid numeral List.mem_cons_self
    have later := inductionHypothesis fun other member =>
      valid other (List.mem_cons_of_mem _ member)
    rw [List.flatMap_cons, script_numeral fits short, List.map_cons, firstOut]
    by_cases inRange : InRange numeral.value
    · rw [intOfLong_of_inRange inRange, if_pos inRange, obeys_cons inRange, later,
        List.find?_cons_of_neg (by simpa using inRange)]
      rfl
    · rw [obeys_cons_of_not inRange, List.find?_cons_of_pos (by simpa using inRange)]
      by_cases reduced : InRange (intOfLong numeral.value)
      · rw [if_pos reduced]
        exact iff_of_false (fun both => nomatch both.1) fun out => out _ rfl reduced
      · rw [if_neg reduced]
        exact iff_of_true ⟨rfl, rfl⟩ fun _ same => Option.some.inj same ▸ reduced

/-- Three numerals: one in the range, a negative one, and one that is not looked at. -/
def threeNumerals : List Numeral :=
  [⟨.plus, [48, 53], by decide, List.all_eq_true.mp (by decide)⟩,
    ⟨.minus, [51], by decide, List.all_eq_true.mp (by decide)⟩,
    ⟨.absent, [55], by decide, List.all_eq_true.mp (by decide)⟩]

theorem requests_obeyed_three :
    Obeys [5, -3, 7] (script (threeNumerals.flatMap Numeral.line)) :=
  (requests_obeyed_iff threeNumerals (by decide)).mpr (by decide)

/-- `4294967301`, which is five more than the number of values of an `int`. -/
def largeNumeral : Numeral :=
  ⟨.absent, [52, 50, 57, 52, 57, 54, 55, 51, 48, 49], by decide, List.all_eq_true.mp (by decide)⟩

/-- The request for so many bytes is answered with five. -/
theorem large_request_served :
    largeNumeral.value = 4294967301 ∧ script largeNumeral.line = ⟨[5], none⟩ ∧
      ¬ Obeys [largeNumeral.value] (script largeNumeral.line) := by
  refine ⟨by decide, by decide, fun obeys => ?_⟩
  have quits := obeys.quits.mpr ⟨4294967301, by decide, by decide⟩
  exact absurd quits (by decide)

end SocketC
