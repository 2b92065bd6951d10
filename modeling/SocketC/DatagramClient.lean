/-
This file models the reliable datagram client of `unpv13e/rtt`: `dg_cli` sends every line of its
input with `dg_send_recv`, which puts a sequence number and a timestamp in front of it, sends it
again when `SIGALRM` says that no answer has come, and takes the first datagram that is long
enough and has the right sequence number for the answer. `dg_echo` at the other end sends back
what it has received.

The network may lose, double, delay and reorder datagrams: it remembers all that was ever sent,
and any of it may be delivered at any time, any number of times. When the timer goes off is part
of the action too, also between the arrival of the answer and `alarm(0)`; the round-trip
estimators, which only decide for how many seconds it is set, are left out. So is a `SIGALRM`
between `alarm` and `sigsetjmp`.

The server's buffer holds header and line, so a line comes back without what exceeds
`MAXLINE` less the size of the header. The sequence number has 32 bits: the client prints the
right answers in every run exactly if the lines of its input that are `2 ^ 32` apart agree.
-/

import SocketC.Lines
import SocketC.LittleEndian
import SocketC.Transition

namespace SocketC

open LittleEndian

/-! ### Datagrams -/

/-- `struct hdr`. -/
structure Hdr where
  seq : UInt32
  ts : UInt32
  deriving DecidableEq

namespace Hdr

/-- The header in memory. -/
def bytes (hdr : Hdr) : List UInt8 := bytesOf 4 hdr.seq.toNat ++ bytesOf 4 hdr.ts.toNat

/-- The header that eight bytes of memory hold. -/
def ofBytes (memory : List UInt8) : Hdr where
  seq := UInt32.ofNat (valueOf (memory.take 4))
  ts := UInt32.ofNat (valueOf ((memory.drop 4).take 4))

/-- `sizeof(struct hdr)`. -/
def size : Nat := 8

@[simp] theorem length_bytes (hdr : Hdr) : hdr.bytes.length = size := by
  rw [bytes, List.length_append, length_bytesOf, length_bytesOf]
  rfl

theorem valueOf_word (word : UInt32) : UInt32.ofNat (valueOf (bytesOf 4 word.toNat)) = word := by
  rw [valueOf_bytesOf word.toNat_lt, UInt32.ofNat_toNat]

/-- A header is read back as it was written. -/
theorem ofBytes_bytes (hdr : Hdr) : ofBytes hdr.bytes = hdr := by
  have seqBytes : hdr.bytes.take 4 = bytesOf 4 hdr.seq.toNat :=
    List.take_left' (length_bytesOf _ _)
  have tsBytes : (hdr.bytes.drop 4).take 4 = bytesOf 4 hdr.ts.toNat := by
    rw [bytes, List.drop_left' (length_bytesOf _ _)]
    exact List.take_of_length_le (length_bytesOf _ _).le
  rw [ofBytes, seqBytes, tsBytes, valueOf_word, valueOf_word]

end Hdr

/-- What `Sendmsg` makes of its two pieces. -/
def datagram (hdr : Hdr) (line : List UInt8) : List UInt8 := hdr.bytes ++ line

theorem take_datagram (hdr : Hdr) (line : List UInt8) :
    (datagram hdr line).take Hdr.size = hdr.bytes :=
  List.take_left' hdr.length_bytes

theorem drop_datagram (hdr : Hdr) (line : List UInt8) :
    (datagram hdr line).drop Hdr.size = line :=
  List.drop_left' hdr.length_bytes

/-- What comes back of a line. -/
def echoed (line : List UInt8) : List UInt8 := line.take (maxLine - Hdr.size)

theorem length_echoed_le (line : List UInt8) : (echoed line).length ≤ maxLine - Hdr.size :=
  List.length_take_le _ _

/-- The server's buffer cuts the line and never the header. -/
theorem take_maxLine_datagram (hdr : Hdr) (line : List UInt8) :
    (datagram hdr line).take maxLine = datagram hdr (echoed line) := by
  rw [datagram, List.take_append, hdr.length_bytes,
    List.take_of_length_le (by rw [hdr.length_bytes]; decide)]
  rfl

/-- If all lines together come back whole, each of them does. -/
theorem flatten_map_echoed_iff (lines : List (List UInt8)) :
    (lines.map echoed).flatten = lines.flatten ↔
      ∀ line ∈ lines, line.length ≤ maxLine - Hdr.size := by
  have whole_iff (line : List UInt8) :
      echoed line = line ↔ line.length ≤ maxLine - Hdr.size := List.take_eq_self_iff line
  have shorter (rest : List (List UInt8)) :
      (rest.map echoed).flatten.length ≤ rest.flatten.length := by
    rw [List.length_flatten, List.length_flatten, List.map_map]
    exact List.sum_le_sum fun line _ => (List.take_prefix _ _).length_le
  induction lines with
  | nil => simp
  | cons line rest inductionHypothesis =>
    have each : (∀ text ∈ line :: rest, text.length ≤ maxLine - Hdr.size) ↔
        echoed line = line ∧ (rest.map echoed).flatten = rest.flatten :=
      List.forall_mem_cons.trans (and_congr (whole_iff line).symm inductionHypothesis.symm)
    rw [each, List.map_cons, List.flatten_cons, List.flatten_cons]
    refine ⟨fun same => ?_, fun ⟨first, others⟩ => by rw [first, others]⟩
    have front : echoed line <+: line := List.take_prefix _ _
    have lengths := congrArg List.length same
    rw [List.length_append, List.length_append] at lengths
    have restShorter := shorter rest
    have frontShorter := front.length_le
    have first : echoed line = line := front.eq_of_length (by omega)
    rw [first] at same
    exact ⟨first, List.append_cancel_left same⟩

/-! ### The state -/

/-- Where the client stands. -/
inductive DgPlace where
  /-- Line 12 of `dg_cli`. -/
  | fgets
  /-- The label `sendagain` of `dg_send_recv`. -/
  | sendagain
  /-- Line 82, with the timer running. -/
  | recvmsg
  /-- Line 88, with the timer still running. -/
  | matched
  /-- `dg_cli` has returned. -/
  | ended
  /-- In `err_quit` of `Dg_send_recv`. -/
  | gaveUp
  /-- In `err_sys` of a wrapper. -/
  | failed
  deriving DecidableEq

/-- The client, with all datagrams that were ever sent in either direction. `sendline` is the C
string in the buffer of that name and `recvline` what `Recvmsg` has stored; `printed` has one entry
for each `Fputs`. `asked` are the lines that `dg_send_recv` was called with so far and
`stamps` the times at which it sent the last of them. -/
structure DgClient where
  place : DgPlace
  unread : List UInt8
  sendline : List UInt8
  sendhdr : Hdr
  recvhdr : Hdr
  recvline : List UInt8
  nrexmt : Nat
  printed : List (List UInt8)
  toServer : List (List UInt8)
  toClient : List (List UInt8)
  asked : List (List UInt8)
  stamps : List UInt32

/-- What happens next. -/
inductive DgAction where
  | fgets
  /-- `Sendmsg`, at this time. -/
  | sendmsg (ts : UInt32)
  /-- `Recvmsg` returns this datagram. -/
  | recvmsg (arriving : List UInt8)
  | sigAlrm
  /-- `alarm(0)` and the return to `dg_cli`. -/
  | finish
  /-- A system call of the client fails. -/
  | fail
  /-- `dg_echo` receives this datagram and sends it back. -/
  | echo (arriving : List UInt8)

/-- `RTT_MAXNREXMT`. -/
def rttMaxNrexmt : Nat := 3

namespace DgClient

/-- The state before the loop of `dg_cli`, with this standard input. -/
def start (input : List UInt8) : DgClient where
  place := .fgets
  unread := input
  sendline := []
  sendhdr := ⟨0, 0⟩
  recvhdr := ⟨0, 0⟩
  recvline := []
  nrexmt := 0
  printed := []
  toServer := []
  toClient := []
  asked := []
  stamps := []

/-- `Fgets`, and the beginning of `dg_send_recv`. -/
def readLine (client : DgClient) : DgClient :=
  match fgets maxLine client.unread with
  | none => { client with place := .ended }
  | some (stored, rest) =>
    { client with
      place := .sendagain
      unread := rest
      sendline := cString stored
      sendhdr := { client.sendhdr with seq := client.sendhdr.seq + 1 }
      nrexmt := 0
      asked := client.asked ++ [cString stored]
      stamps := [] }

/-- Lines 60-63 of `dg_send_recv`. -/
def sendmsg (client : DgClient) (ts : UInt32) : DgClient :=
  let sendhdr := { client.sendhdr with ts := ts }
  { client with
    place := .recvmsg
    sendhdr := sendhdr
    toServer := client.toServer ++ [datagram sendhdr client.sendline]
    stamps := client.stamps ++ [ts] }

/-- Lines 82-86. A datagram shorter than the header overwrites only the front of `recvhdr`. -/
def recvmsg (client : DgClient) (arriving : List UInt8) : DgClient :=
  let n := min arriving.length (Hdr.size + maxLine)
  let recvhdr := Hdr.ofBytes (arriving.take Hdr.size ++ client.recvhdr.bytes.drop n)
  { client with
    place := if n < Hdr.size ∨ recvhdr.seq ≠ client.sendhdr.seq then .recvmsg else .matched
    recvhdr := recvhdr
    recvline := (arriving.drop Hdr.size).take maxLine }

/-- `rtt_timeout`, and lines 69-78. -/
def sigAlrm (client : DgClient) : DgClient :=
  { client with
    place := if rttMaxNrexmt < client.nrexmt + 1 then .gaveUp else .sendagain
    nrexmt := client.nrexmt + 1 }

/-- The end of `dg_send_recv` and lines 17-18 of `dg_cli`. -/
def finish (client : DgClient) : DgClient :=
  { client with place := .fgets, printed := client.printed ++ [cString client.recvline] }

/-- `dg_echo`: `Recvfrom` into a buffer of `MAXLINE` bytes, and `Sendto`. -/
def echo (client : DgClient) (arriving : List UInt8) : DgClient :=
  { client with toClient := client.toClient ++ [arriving.take maxLine] }

def step (client : DgClient) : DgAction → Option DgClient
  | .fgets => if client.place = .fgets then some client.readLine else none
  | .sendmsg ts => if client.place = .sendagain then some (client.sendmsg ts) else none
  | .recvmsg arriving =>
    if client.place = .recvmsg ∧ arriving ∈ client.toClient then some (client.recvmsg arriving)
    else none
  | .sigAlrm =>
    if client.place = .recvmsg ∨ client.place = .matched then some client.sigAlrm else none
  | .finish => if client.place = .matched then some client.finish else none
  | .fail =>
    if client.place = .fgets ∨ client.place = .sendagain ∨ client.place = .recvmsg then
      some { client with place := .failed }
    else none
  | .echo arriving => if arriving ∈ client.toServer then some (client.echo arriving) else none

def machine (input : List UInt8) : Machine DgClient DgAction where
  start := start input
  step := step

end DgClient

/-! ### The lines of an input -/

theorem length_lt_of_fgets {stream stored rest : List UInt8}
    (line : fgets maxLine stream = some (stored, rest)) : rest.length < stream.length := by
  cases stream with
  | nil => cases line
  | cons byte bytes =>
    simp only [fgets, Option.some.injEq, Prod.mk.injEq] at line
    obtain ⟨rfl, rfl⟩ := line
    have stored : 0 < (fgetsTake (maxLine - 1) (byte :: bytes)).length := by
      rw [show maxLine - 1 = 4094 + 1 from rfl, fgetsTake]
      split <;> simp
    rw [List.length_drop]
    have some_there : 0 < (byte :: bytes).length := Nat.succ_pos _
    omega

/-- What `dg_cli` sends one after the other: the C strings in the buffer of `Fgets`. -/
def sendlines (stream : List UInt8) : List (List UInt8) :=
  match _ : fgets maxLine stream with
  | none => []
  | some (stored, rest) => cString stored :: sendlines rest
termination_by stream.length
decreasing_by exact length_lt_of_fgets ‹_›

theorem sendlines_of_fgets {stream stored rest : List UInt8}
    (line : fgets maxLine stream = some (stored, rest)) :
    sendlines stream = cString stored :: sendlines rest := by
  rw [sendlines]
  split
  · rename_i ended
    rw [ended] at line
    cases line
  · rename_i other
    rw [other] at line
    obtain ⟨rfl, rfl⟩ := Prod.mk.inj (Option.some.inj line)
    rfl

theorem sendlines_nil : sendlines [] = [] := by
  rw [sendlines]
  rfl

/-- Without a NUL in it the input is its lines. -/
theorem flatten_sendlines {stream : List UInt8} (nulFree : NulFree stream) :
    (sendlines stream).flatten = stream := by
  fun_induction sendlines stream with
  | case1 stream ended => rw [fgets_eq_none_iff.mp ended, List.flatten_nil]
  | case2 stream stored rest line inductionHypothesis =>
    have whole := append_of_fgets line
    rw [← whole] at nulFree
    have nulFreeStored : NulFree stored := fun byte member =>
      nulFree byte (List.mem_append_left _ member)
    have nulFreeRest : NulFree rest := fun byte member =>
      nulFree byte (List.mem_append_right _ member)
    rw [List.flatten_cons, inductionHypothesis nulFreeRest, cString_of_nulFree nulFreeStored, whole]

/-- The lines are C strings, and so are their front parts. -/
theorem cString_take (stored : List UInt8) (count : Nat) :
    cString ((cString stored).take count) = (cString stored).take count := by
  refine cString_of_nulFree fun byte member => ?_
  have ofString : byte ∈ stored.takeWhile (· != 0) := List.mem_of_mem_take member
  have accepted := List.mem_takeWhile_imp ofString
  exact bne_iff_ne.mp accepted

namespace DgClient

variable {input : List UInt8} {client next : DgClient}

/-! ### What the datagrams are -/

/-- In a call of `dg_send_recv`. -/
def InCall (client : DgClient) : Prop :=
  client.place = .sendagain ∨ client.place = .recvmsg ∨ client.place = .matched

/-- The sequence number of the call with this index. -/
def seqOf (index : Nat) : UInt32 := UInt32.ofNat (index + 1)

theorem seqOf_eq_iff (first second : Nat) :
    seqOf first = seqOf second ↔ first % 2 ^ 32 = second % 2 ^ 32 := by
  rw [seqOf, seqOf, ← UInt32.toNat_inj, UInt32.toNat_ofNat', UInt32.toNat_ofNat']
  omega

/-- A line that was asked for, with a header that was sent with it. -/
def Asks (client : DgClient) (hdr : Hdr) (line : List UInt8) : Prop :=
  ∃ index, client.asked[index]? = some line ∧ hdr.seq = seqOf index ∧
    (index + 1 = client.asked.length → hdr.ts ∈ client.stamps)

/-- What holds of the datagrams, whatever the network does with them. -/
structure Sound (input : List UInt8) (client : DgClient) : Prop where
  /-- The lines come in their order. -/
  asked : client.asked ++ sendlines client.unread = sendlines input
  strings : ∀ line ∈ client.asked, ∃ stored, line = cString stored
  /-- The sequence number counts the calls. -/
  seq : client.sendhdr.seq = UInt32.ofNat client.asked.length
  current : client.InCall → ∃ before, client.asked = before ++ [client.sendline]
  toServer : ∀ sent ∈ client.toServer, ∃ hdr line, sent = datagram hdr line ∧ client.Asks hdr line
  toClient : ∀ sent ∈ client.toClient, ∃ original ∈ client.toServer, sent = original.take maxLine
  /-- The answer is that to a call with the same sequence number. -/
  matched : client.place = .matched →
    client.recvhdr.seq = client.sendhdr.seq ∧
      ∃ line, client.Asks client.recvhdr line ∧ client.recvline = echoed line
  ended : client.place = .ended → client.unread = []

theorem sound_start (input : List UInt8) : (start input).Sound input where
  asked := rfl
  strings := by simp [start]
  seq := rfl
  current := by simp [InCall, start]
  toServer := by simp [start]
  toClient := by simp [start]
  matched := by simp [start]
  ended := by simp [start]

/-- A new call leaves the earlier ones what they are. -/
theorem Asks.readLine {hdr : Hdr} {line newLine : List UInt8} (asks : client.Asks hdr line)
    (asked : next.asked = client.asked ++ [newLine]) : next.Asks hdr line := by
  obtain ⟨index, there, seq, -⟩ := asks
  have before : index < client.asked.length := (List.getElem?_eq_some_iff.mp there).1
  refine ⟨index, ?_, seq, fun last => ?_⟩
  · rw [asked, List.getElem?_append_left before, there]
  · rw [asked, List.length_append, List.length_singleton] at last
    omega

theorem Asks.mono {hdr : Hdr} {line : List UInt8} (asks : client.Asks hdr line)
    (asked : next.asked = client.asked) (stamps : client.stamps ⊆ next.stamps) :
    next.Asks hdr line := by
  obtain ⟨index, there, seq, stamped⟩ := asks
  exact ⟨index, asked ▸ there, seq, fun last => stamps (stamped (asked ▸ last))⟩

theorem Sound.readLine (sound : client.Sound input) : client.readLine.Sound input := by
  unfold DgClient.readLine
  split
  · rename_i ended
    exact ⟨sound.asked, sound.strings, sound.seq, by simp [InCall], sound.toServer, sound.toClient,
      by simp, fun _ => fgets_eq_none_iff.mp ended⟩
  · rename_i stored rest line
    refine ⟨?_, ?_, ?_, fun _ => ⟨client.asked, rfl⟩, fun sent member => ?_, sound.toClient,
      by simp, by simp⟩
    · show client.asked ++ [cString stored] ++ sendlines rest = sendlines input
      rw [List.append_assoc, List.singleton_append, ← sendlines_of_fgets line, sound.asked]
    · intro text member
      rcases List.mem_append.mp member with earlier | new
      · exact sound.strings text earlier
      · exact ⟨stored, List.mem_singleton.mp new⟩
    · show client.sendhdr.seq + 1 = UInt32.ofNat (client.asked ++ [cString stored]).length
      rw [sound.seq, List.length_append, List.length_singleton, UInt32.ofNat_add]
      rfl
    · obtain ⟨hdr, text, rfl, asks⟩ := sound.toServer sent member
      exact ⟨hdr, text, rfl, asks.readLine rfl⟩

theorem Sound.sendmsg (sound : client.Sound input) (place : client.place = .sendagain)
    (ts : UInt32) : (client.sendmsg ts).Sound input := by
  obtain ⟨before, asked⟩ := sound.current (Or.inl place)
  refine ⟨sound.asked, sound.strings, sound.seq, fun _ => ⟨before, asked⟩, fun sent member => ?_,
    fun sent member => ?_, by simp [DgClient.sendmsg], by simp [DgClient.sendmsg]⟩
  · rcases List.mem_append.mp member with earlier | new
    · obtain ⟨hdr, line, rfl, asks⟩ := sound.toServer sent earlier
      exact ⟨hdr, line, rfl, asks.mono rfl (List.subset_append_left _ _)⟩
    · rw [List.mem_singleton] at new
      refine ⟨_, _, new, before.length, ?_, ?_, fun _ => ?_⟩
      · show client.asked[before.length]? = some client.sendline
        rw [asked, List.getElem?_concat_length]
      · show client.sendhdr.seq = seqOf before.length
        rw [sound.seq, asked, List.length_append, List.length_singleton, seqOf]
      · exact List.mem_append_right _ (List.mem_singleton_self ts)
  · obtain ⟨original, there, rfl⟩ := sound.toClient sent member
    exact ⟨original, List.mem_append_left _ there, rfl⟩

/-- What arrives at the client is a header with the line behind it, cut. -/
theorem Sound.arriving (sound : client.Sound input) {arriving : List UInt8}
    (member : arriving ∈ client.toClient) :
    ∃ hdr line, arriving = datagram hdr (echoed line) ∧ client.Asks hdr line := by
  obtain ⟨original, there, rfl⟩ := sound.toClient arriving member
  obtain ⟨hdr, line, rfl, asks⟩ := sound.toServer original there
  exact ⟨hdr, line, take_maxLine_datagram hdr line, asks⟩

/-- `Recvmsg` takes such a datagram apart. -/
theorem recvmsg_datagram (hdr : Hdr) (line : List UInt8) :
    client.recvmsg (datagram hdr (echoed line)) =
      { client with
        place := if hdr.seq = client.sendhdr.seq then .matched else .recvmsg
        recvhdr := hdr
        recvline := echoed line } := by
  have long : Hdr.size ≤ (datagram hdr (echoed line)).length := by
    rw [datagram, List.length_append, hdr.length_bytes]
    exact Nat.le_add_right _ _
  have counted : ¬ min (datagram hdr (echoed line)).length (Hdr.size + maxLine) < Hdr.size :=
    Nat.not_lt.mpr (le_min long (Nat.le_add_right _ _))
  have overwritten : client.recvhdr.bytes.drop
      (min (datagram hdr (echoed line)).length (Hdr.size + maxLine)) = [] :=
    List.drop_eq_nil_of_le (by rw [Hdr.length_bytes]; exact Nat.not_lt.mp counted)
  have fits : (echoed line).take maxLine = echoed line :=
    List.take_of_length_le ((length_echoed_le line).trans (Nat.sub_le _ _))
  rw [recvmsg, overwritten, take_datagram, drop_datagram, List.append_nil, Hdr.ofBytes_bytes, fits]
  simp only [counted, false_or, ite_not]

theorem Sound.recvmsg (sound : client.Sound input) (place : client.place = .recvmsg)
    {arriving : List UInt8} (member : arriving ∈ client.toClient) :
    (client.recvmsg arriving).Sound input := by
  obtain ⟨hdr, line, rfl, asks⟩ := sound.arriving member
  rw [recvmsg_datagram]
  refine ⟨sound.asked, sound.strings, sound.seq, fun _ => sound.current (Or.inr (Or.inl place)),
    sound.toServer, sound.toClient, fun matched => ?_, fun ended => ?_⟩
  · refine ⟨?_, line, asks, rfl⟩
    by_contra differ
    rw [if_neg differ] at matched
    cases matched
  · dsimp only at ended
    split at ended <;> cases ended

theorem Sound.step (sound : client.Sound input) {action : DgAction}
    (taken : client.step action = some next) : next.Sound input := by
  cases action with
  | fgets =>
    obtain ⟨-, done⟩ := Option.ite_none_right_eq_some.mp taken
    obtain rfl := Option.some.inj done
    exact sound.readLine
  | sendmsg ts =>
    obtain ⟨place, done⟩ := Option.ite_none_right_eq_some.mp taken
    obtain rfl := Option.some.inj done
    exact sound.sendmsg place ts
  | recvmsg arriving =>
    obtain ⟨⟨place, member⟩, done⟩ := Option.ite_none_right_eq_some.mp taken
    obtain rfl := Option.some.inj done
    exact sound.recvmsg place member
  | sigAlrm =>
    obtain ⟨place, done⟩ := Option.ite_none_right_eq_some.mp taken
    obtain rfl := Option.some.inj done
    refine ⟨sound.asked, sound.strings, sound.seq, fun _ => sound.current (Or.inr place),
      sound.toServer, sound.toClient, fun matched => ?_, fun ended => ?_⟩
    · dsimp only [sigAlrm] at matched
      split at matched <;> cases matched
    · dsimp only [sigAlrm] at ended
      split at ended <;> cases ended
  | finish =>
    obtain ⟨-, done⟩ := Option.ite_none_right_eq_some.mp taken
    obtain rfl := Option.some.inj done
    exact ⟨sound.asked, sound.strings, sound.seq, by simp [InCall, finish], sound.toServer,
      sound.toClient, by simp [finish], by simp [finish]⟩
  | fail =>
    obtain ⟨-, done⟩ := Option.ite_none_right_eq_some.mp taken
    obtain rfl := Option.some.inj done
    exact ⟨sound.asked, sound.strings, sound.seq, by simp [InCall], sound.toServer, sound.toClient,
      by simp, by simp⟩
  | echo arriving =>
    obtain ⟨member, done⟩ := Option.ite_none_right_eq_some.mp taken
    obtain rfl := Option.some.inj done
    refine ⟨sound.asked, sound.strings, sound.seq, sound.current, sound.toServer,
      fun sent there => ?_, sound.matched, sound.ended⟩
    rcases List.mem_append.mp there with earlier | new
    · exact sound.toClient sent earlier
    · exact ⟨arriving, member, List.mem_singleton.mp new⟩

theorem sound_of_reachable (reached : (machine input).Reachable client) : client.Sound input :=
  reached.invariant (Sound input) (sound_start input) fun _ _ _ sound taken => sound.step taken

/-! ### Transmissions -/

/-- How often the present line was sent. -/
structure Timed (client : DgClient) : Prop where
  sendagain : client.place = .sendagain →
    client.stamps.length = client.nrexmt ∧ client.nrexmt ≤ rttMaxNrexmt
  waiting : client.place = .recvmsg ∨ client.place = .matched →
    client.stamps.length = client.nrexmt + 1 ∧ client.nrexmt ≤ rttMaxNrexmt
  gaveUp : client.place = .gaveUp → client.stamps.length = rttMaxNrexmt + 1
  bounded : client.stamps.length ≤ rttMaxNrexmt + 1

theorem Timed.step (timed : client.Timed) {action : DgAction}
    (taken : client.step action = some next) : next.Timed := by
  cases action with
  | fgets =>
    obtain ⟨-, done⟩ := Option.ite_none_right_eq_some.mp taken
    obtain rfl := Option.some.inj done
    unfold readLine
    split
    · exact ⟨by simp, by simp, by simp, timed.bounded⟩
    · exact ⟨by simp, by simp, by simp, by simp⟩
  | sendmsg ts =>
    obtain ⟨place, done⟩ := Option.ite_none_right_eq_some.mp taken
    obtain rfl := Option.some.inj done
    obtain ⟨sent, few⟩ := timed.sendagain place
    have sentAgain : (client.stamps ++ [ts]).length = client.nrexmt + 1 := by
      rw [List.length_append, sent, List.length_singleton]
    exact ⟨by simp [DgClient.sendmsg], fun _ => ⟨sentAgain, few⟩, by simp [DgClient.sendmsg],
      sentAgain.le.trans (Nat.succ_le_succ few)⟩
  | recvmsg arriving =>
    obtain ⟨⟨place, -⟩, done⟩ := Option.ite_none_right_eq_some.mp taken
    obtain rfl := Option.some.inj done
    refine ⟨fun again => ?_, fun _ => timed.waiting (Or.inl place), fun gaveUp => ?_,
      timed.bounded⟩
    · dsimp only [DgClient.recvmsg] at again
      split at again <;> cases again
    · dsimp only [DgClient.recvmsg] at gaveUp
      split at gaveUp <;> cases gaveUp
  | sigAlrm =>
    obtain ⟨place, done⟩ := Option.ite_none_right_eq_some.mp taken
    obtain rfl := Option.some.inj done
    obtain ⟨sent, few⟩ := timed.waiting place
    by_cases last : rttMaxNrexmt < client.nrexmt + 1
    · have all : client.nrexmt = rttMaxNrexmt := le_antisymm few (Nat.lt_succ_iff.mp last)
      exact ⟨by simp [sigAlrm, last], by simp [sigAlrm, last], fun _ => all ▸ sent, timed.bounded⟩
    · exact ⟨fun _ => ⟨sent, Nat.not_lt.mp last⟩, by simp [sigAlrm, last],
        by simp [sigAlrm, last], timed.bounded⟩
  | finish =>
    obtain ⟨-, done⟩ := Option.ite_none_right_eq_some.mp taken
    obtain rfl := Option.some.inj done
    exact ⟨by simp [finish], by simp [finish], by simp [finish], timed.bounded⟩
  | fail =>
    obtain ⟨-, done⟩ := Option.ite_none_right_eq_some.mp taken
    obtain rfl := Option.some.inj done
    exact ⟨by simp, by simp, by simp, timed.bounded⟩
  | echo arriving =>
    obtain ⟨-, done⟩ := Option.ite_none_right_eq_some.mp taken
    obtain rfl := Option.some.inj done
    exact ⟨timed.sendagain, timed.waiting, timed.gaveUp, timed.bounded⟩

theorem timed_of_reachable (reached : (machine input).Reachable client) : client.Timed :=
  reached.invariant Timed ⟨by simp [machine, start], by simp [machine, start],
    by simp [machine, start], by simp [machine, start]⟩ fun _ _ _ timed taken => timed.step taken

/-! ### What is printed -/

/-- The lines of the input that have the same sequence number come back the same. -/
def Unambiguous (input : List UInt8) : Prop :=
  ∀ (first second : Nat) (line other : List UInt8), (sendlines input)[first]? = some line →
    (sendlines input)[second]? = some other → first % 2 ^ 32 = second % 2 ^ 32 →
    echoed line = echoed other

/-- The answers printed are those to the calls that have returned. -/
structure Prints (client : DgClient) : Prop where
  inCall : client.InCall →
    ∃ before, client.asked = before ++ [client.sendline] ∧ client.printed = before.map echoed
  between : client.place = .fgets ∨ client.place = .ended →
    client.printed = client.asked.map echoed
  front : client.printed <+: client.asked.map echoed

theorem Prints.of_inCall (prints : client.Prints) (place : client.InCall)
    (asked : next.asked = client.asked) (line : next.sendline = client.sendline)
    (printed : next.printed = client.printed) (elsewhere : next.place ≠ .fgets)
    (going : next.place ≠ .ended) : next.Prints := by
  refine ⟨fun _ => ?_, fun between => ?_, ?_⟩
  · rw [asked, line, printed]
    exact prints.inCall place
  · rcases between with atFgets | atEnd
    · exact absurd atFgets elsewhere
    · exact absurd atEnd going
  · rw [asked, printed]
    exact prints.front

theorem Prints.readLine (prints : client.Prints) (place : client.place = .fgets) :
    client.readLine.Prints := by
  have printed := prints.between (Or.inl place)
  unfold DgClient.readLine
  split
  · exact ⟨by simp [InCall], fun _ => printed, prints.front⟩
  · refine ⟨fun _ => ⟨client.asked, rfl, printed⟩, by simp, ?_⟩
    exact prints.front.trans (List.map_append ▸ List.prefix_append _ _)

/-- The answer that is taken for that to the present call is the same as it. -/
theorem Prints.finish (unambiguous : Unambiguous input) (sound : client.Sound input)
    (prints : client.Prints) (place : client.place = .matched) : client.finish.Prints := by
  obtain ⟨before, asked, printed⟩ := prints.inCall (Or.inr (Or.inr place))
  obtain ⟨seq, line, ⟨index, there, answers, -⟩, received⟩ := sound.matched place
  have askedAt {position : Nat} {text : List UInt8} (known : client.asked[position]? = some text) :
      (sendlines input)[position]? = some text := by
    rw [← sound.asked, List.getElem?_append_left (List.getElem?_eq_some_iff.mp known).1, known]
  have present : client.asked[before.length]? = some client.sendline := by
    rw [asked, List.getElem?_concat_length]
  have same : index % 2 ^ 32 = before.length % 2 ^ 32 := by
    rw [← seqOf_eq_iff, ← answers, seq, sound.seq, asked, List.length_append,
      List.length_singleton, seqOf]
  have agree : echoed line = echoed client.sendline :=
    unambiguous _ _ _ _ (askedAt there) (askedAt present) same
  obtain ⟨stored, isString⟩ := sound.strings line (List.mem_of_getElem? there)
  have put : cString client.recvline = echoed client.sendline := by
    rw [received, ← agree, isString]
    exact cString_take stored _
  have printedAll : client.finish.printed = client.finish.asked.map echoed := by
    show client.printed ++ [cString client.recvline] = client.asked.map echoed
    rw [put, printed, asked, List.map_append, List.map_singleton]
  exact ⟨by simp [InCall, DgClient.finish], fun _ => printedAll, printedAll ▸ List.prefix_rfl⟩

theorem Prints.step (unambiguous : Unambiguous input) (sound : client.Sound input)
    (prints : client.Prints) {action : DgAction} (taken : client.step action = some next) :
    next.Prints := by
  cases action with
  | fgets =>
    obtain ⟨place, done⟩ := Option.ite_none_right_eq_some.mp taken
    obtain rfl := Option.some.inj done
    exact prints.readLine place
  | sendmsg ts =>
    obtain ⟨place, done⟩ := Option.ite_none_right_eq_some.mp taken
    obtain rfl := Option.some.inj done
    exact prints.of_inCall (Or.inl place) rfl rfl rfl (by simp [sendmsg]) (by simp [sendmsg])
  | recvmsg arriving =>
    obtain ⟨⟨place, -⟩, done⟩ := Option.ite_none_right_eq_some.mp taken
    obtain rfl := Option.some.inj done
    refine prints.of_inCall (Or.inr (Or.inl place)) rfl rfl rfl ?_ ?_ <;>
      · dsimp only [recvmsg]
        split <;> simp
  | sigAlrm =>
    obtain ⟨place, done⟩ := Option.ite_none_right_eq_some.mp taken
    obtain rfl := Option.some.inj done
    refine prints.of_inCall (Or.inr place) rfl rfl rfl ?_ ?_ <;>
      · dsimp only [sigAlrm]
        split <;> simp
  | finish =>
    obtain ⟨place, done⟩ := Option.ite_none_right_eq_some.mp taken
    obtain rfl := Option.some.inj done
    exact prints.finish unambiguous sound place
  | fail =>
    obtain ⟨-, done⟩ := Option.ite_none_right_eq_some.mp taken
    obtain rfl := Option.some.inj done
    exact ⟨by simp [InCall], by simp, prints.front⟩
  | echo arriving =>
    obtain ⟨-, done⟩ := Option.ite_none_right_eq_some.mp taken
    obtain rfl := Option.some.inj done
    exact ⟨prints.inCall, prints.between, prints.front⟩

theorem prints_of_reachable (unambiguous : Unambiguous input)
    (reached : (machine input).Reachable client) : client.Prints := by
  refine reached.induction Prints ?_ fun current action next currentReached prints taken =>
    prints.step unambiguous (sound_of_reachable currentReached) taken
  exact ⟨by simp [InCall, machine, start], fun _ => rfl, List.nil_prefix⟩

section Scenes

variable {asked : List (List UInt8)} {line : List UInt8}

/-- The server has answered every call, and the network keeps the answers. -/
def Answered (client : DgClient) : Prop :=
  ∀ index text, client.asked[index]? = some text →
    datagram ⟨seqOf index, 0⟩ (echoed text) ∈ client.toClient

/-- Some lines were asked for, the answers were printed, and the next line is not yet read. -/
structure Rests (input : List UInt8) (asked : List (List UInt8)) (client : DgClient) : Prop where
  reached : (machine input).Reachable client
  place : client.place = .fgets
  askedAre : client.asked = asked
  printed : client.printed = asked.map echoed
  answered : client.Answered

theorem rests_start (input : List UInt8) : Rests input [] (start input) :=
  ⟨Machine.Reachable.start, rfl, rfl, rfl, fun index text there => by simp [start] at there⟩

/-- One more line was asked for, and all answers are in the network. -/
structure Awaits (input : List UInt8) (asked : List (List UInt8)) (line : List UInt8)
    (client : DgClient) : Prop where
  reached : (machine input).Reachable client
  place : client.place = .recvmsg
  askedAre : client.asked = asked ++ [line]
  printed : client.printed = asked.map echoed
  answered : client.Answered

/-- The next line is read and sent, and the server answers. -/
theorem Rests.awaits (rests : Rests input asked client) {rest : List (List UInt8)}
    (more : sendlines input = asked ++ line :: rest) : ∃ next, Awaits input asked line next := by
  have sound := sound_of_reachable rests.reached
  have lines : sendlines client.unread = line :: rest := by
    have all := sound.asked
    rw [rests.askedAre, more] at all
    exact List.append_cancel_left all
  obtain ⟨⟨stored, remaining⟩, read⟩ : ∃ result, fgets maxLine client.unread = some result := by
    refine Option.ne_none_iff_exists'.mp fun ended => ?_
    rw [fgets_eq_none_iff.mp ended, sendlines_nil] at lines
    cases lines
  obtain rfl : cString stored = line := by
    rw [sendlines_of_fgets read] at lines
    exact (List.cons.inj lines).1
  have called : client.readLine = { client with
      place := .sendagain
      unread := remaining
      sendline := cString stored
      sendhdr := { client.sendhdr with seq := client.sendhdr.seq + 1 }
      nrexmt := 0
      asked := client.asked ++ [cString stored]
      stamps := [] } := by
    rw [readLine, read]
  have reached : (machine input).Reachable client.readLine :=
    Machine.Leads.step rests.reached .fgets (if_pos rests.place)
  have soundCall := sound_of_reachable reached
  have askedAre : client.readLine.asked = asked ++ [cString stored] := by
    rw [called, rests.askedAre]
  have seq : client.readLine.sendhdr.seq = seqOf asked.length := by
    rw [soundCall.seq, askedAre, List.length_append, List.length_singleton, seqOf]
  have place : client.readLine.place = .sendagain := by rw [called]
  have sendline : client.readLine.sendline = cString stored := by rw [called]
  have sent : datagram ⟨seqOf asked.length, 0⟩ (cString stored) ∈
      (client.readLine.sendmsg 0).toServer := by
    refine List.mem_append_right _ (List.mem_singleton.mpr ?_)
    show _ = datagram ⟨client.readLine.sendhdr.seq, 0⟩ client.readLine.sendline
    rw [sendline, seq]
  have reachedSent : (machine input).Reachable (client.readLine.sendmsg 0) :=
    Machine.Leads.step reached (.sendmsg 0) (if_pos place)
  refine ⟨_, Machine.Leads.step reachedSent (.echo _) (if_pos sent), rfl, askedAre, ?_, ?_⟩
  · show client.readLine.printed = asked.map echoed
    rw [called]
    exact rests.printed
  · intro index text there
    have toClient : client.readLine.toClient = client.toClient := by rw [called]
    show _ ∈ client.readLine.toClient ++ [_]
    rw [toClient, take_maxLine_datagram]
    change client.readLine.asked[index]? = some text at there
    rw [askedAre] at there
    by_cases earlier : index < asked.length
    · rw [List.getElem?_append_left earlier, ← rests.askedAre] at there
      exact List.mem_append_left _ (rests.answered index text there)
    · have bound := (List.getElem?_eq_some_iff.mp there).1
      rw [List.length_append, List.length_singleton] at bound
      obtain rfl : index = asked.length := by omega
      rw [List.getElem?_concat_length] at there
      obtain rfl := Option.some.inj there
      exact List.mem_append_right _ (List.mem_singleton_self _)

/-- Any answer with the right sequence number is taken. -/
theorem Awaits.answers (awaits : Awaits input asked line client) {index : Nat} {text : List UInt8}
    (there : (asked ++ [line])[index]? = some text) (same : seqOf index = seqOf asked.length) :
    (machine input).Reachable { client with
      place := .matched, recvhdr := ⟨seqOf index, 0⟩, recvline := echoed text } := by
  rw [← awaits.askedAre] at there
  have seq : seqOf index = client.sendhdr.seq := by
    rw [same, (sound_of_reachable awaits.reached).seq, awaits.askedAre, List.length_append,
      List.length_singleton, seqOf]
  have taken : client.step (.recvmsg (datagram ⟨seqOf index, 0⟩ (echoed text))) =
      some { client with
        place := .matched, recvhdr := ⟨seqOf index, 0⟩, recvline := echoed text } := by
    rw [step, if_pos ⟨awaits.place, awaits.answered index text there⟩, recvmsg_datagram,
      if_pos seq]
  exact Machine.Leads.step awaits.reached (.recvmsg _) taken

/-- And it is printed. -/
theorem Awaits.prints (awaits : Awaits input asked line client) {index : Nat} {text : List UInt8}
    (there : (asked ++ [line])[index]? = some text) (same : seqOf index = seqOf asked.length) :
    ∃ next, (machine input).Reachable next ∧ next.place = .fgets ∧
      next.asked = asked ++ [line] ∧ next.printed = asked.map echoed ++ [echoed text] ∧
      next.Answered := by
  refine ⟨_, Machine.Leads.step (awaits.answers there same) .finish rfl, rfl, awaits.askedAre, ?_,
    awaits.answered⟩
  rw [← awaits.askedAre] at there
  obtain ⟨stored, isString⟩ :=
    (sound_of_reachable awaits.reached).strings text (List.mem_of_getElem? there)
  show client.printed ++ [cString (echoed text)] = _
  rw [awaits.printed, isString, echoed, cString_take]

theorem Rests.advance (rests : Rests input asked client) {rest : List (List UInt8)}
    (more : sendlines input = asked ++ line :: rest) :
    ∃ next, Rests input (asked ++ [line]) next := by
  obtain ⟨waiting, awaits⟩ := rests.awaits more
  obtain ⟨next, reached, place, askedAre, printed, answered⟩ :=
    awaits.prints (List.getElem?_concat_length ..) rfl
  exact ⟨next, reached, place, askedAre, by rw [printed, List.map_append, List.map_singleton],
    answered⟩

/-- Any number of lines can be asked for and answered. -/
theorem rests_of_append {front back : List (List UInt8)} (lines : sendlines input = front ++ back) :
    ∃ client, Rests input front client := by
  induction front using List.reverseRecOn generalizing back with
  | nil => exact ⟨_, rests_start input⟩
  | append_singleton front line inductionHypothesis =>
    rw [List.append_assoc, List.singleton_append] at lines
    obtain ⟨client, rests⟩ := inductionHypothesis lines
    exact rests.advance lines

/-- All lines can be asked for and answered, and the client returns. -/
theorem exists_ended (input : List UInt8) :
    ∃ client, (machine input).Reachable client ∧ client.place = .ended ∧
      client.printed = (sendlines input).map echoed := by
  obtain ⟨client, rests⟩ := rests_of_append (List.append_nil (sendlines input)).symm
  have nothing : sendlines client.unread = [] := by
    have all := (sound_of_reachable rests.reached).asked
    rw [rests.askedAre] at all
    exact List.append_cancel_left (all.trans (List.append_nil _).symm)
  have atEnd : fgets maxLine client.unread = none := by
    by_contra more
    obtain ⟨⟨stored, rest⟩, read⟩ := Option.ne_none_iff_exists'.mp more
    rw [sendlines_of_fgets read] at nothing
    cases nothing
  have reached : (machine input).Reachable client.readLine :=
    Machine.Leads.step rests.reached .fgets (if_pos rests.place)
  rw [readLine, atEnd] at reached
  exact ⟨_, reached, rfl, rests.printed⟩

end Scenes

/-! ### The client over any network -/

/-- Every line is sent at most four times, and the client gives up after the fourth. As long as the
sequence numbers have not come round, the timestamp from which `rtt_stop` gets the round-trip time
is one that was sent in the present call, however late and in whatever order the datagrams come. -/
theorem dg_send_recv_times_its_own (reached : (machine input).Reachable client) :
    client.stamps.length ≤ rttMaxNrexmt + 1 ∧
      (client.place = .gaveUp → client.stamps.length = rttMaxNrexmt + 1) ∧
      (client.place = .matched → client.asked.length ≤ 2 ^ 32 →
        client.recvhdr.ts ∈ client.stamps) := by
  have timed := timed_of_reachable reached
  refine ⟨timed.bounded, timed.gaveUp, fun place few => ?_⟩
  have sound := sound_of_reachable reached
  obtain ⟨seq, line, ⟨index, there, answers, stamped⟩, -⟩ := sound.matched place
  obtain ⟨before, asked⟩ := sound.current (Or.inr (Or.inr place))
  have count : client.asked.length = before.length + 1 := by
    rw [asked, List.length_append, List.length_singleton]
  have same : index % 2 ^ 32 = before.length % 2 ^ 32 := by
    rw [← seqOf_eq_iff, ← answers, seq, sound.seq, count, seqOf]
  have bound : index < client.asked.length := (List.getElem?_eq_some_iff.mp there).1
  rw [Nat.mod_eq_of_lt (by omega), Nat.mod_eq_of_lt (by omega)] at same
  exact stamped (by omega)

/-- The two bytes of a line. -/
def oneLine : List UInt8 := [104, newline]

theorem sendlines_oneLine : sendlines oneLine = [oneLine] := by
  have read : fgets maxLine oneLine = some (oneLine, []) := rfl
  rw [sendlines_of_fgets read, sendlines_nil]
  rfl

theorem dg_send_recv_times_its_own_oneLine :
    ∃ client, (machine oneLine).Reachable client ∧ client.place = .matched ∧
      client.recvhdr.ts ∈ client.stamps := by
  obtain ⟨client, awaits⟩ := (rests_start oneLine).awaits sendlines_oneLine
  have few : client.asked.length ≤ 2 ^ 32 := by
    rw [awaits.askedAre]
    decide
  have reached := awaits.answers (List.getElem?_concat_length ..) rfl
  exact ⟨_, reached, rfl, (dg_send_recv_times_its_own reached).2.2 rfl few⟩

/-- In every run, however the network loses, doubles, delays and reorders, the client prints the
answers to its lines in their order and at its end has printed all of them, exactly if no two lines
with the same sequence number have different answers. -/
theorem dg_cli_prints_answers_iff (input : List UInt8) :
    (∀ client, (machine input).Reachable client →
        client.printed <+: (sendlines input).map echoed ∧
        (client.place = .ended → client.printed = (sendlines input).map echoed)) ↔
      Unambiguous input := by
  constructor
  · intro exact first second line other firstLine secondLine same
    -- The later of the two calls gets the answer to the earlier one.
    wlog order : first ≤ second generalizing first second line other
    · exact (this second first other line secondLine firstLine same.symm
        (Nat.le_of_not_le order)).symm
    obtain ⟨front, back, lines, rfl⟩ : ∃ front back, sendlines input = front ++ other :: back ∧
        front.length = second := by
      obtain ⟨bound, atSecond⟩ := List.getElem?_eq_some_iff.mp secondLine
      refine ⟨(sendlines input).take second, (sendlines input).drop (second + 1), ?_,
        List.length_take_of_le bound.le⟩
      rw [← atSecond, List.cons_getElem_drop_succ, List.take_append_drop]
    have there : (front ++ [other])[first]? = some line := by
      have bound : first < (front ++ [other]).length := by
        rw [List.length_append, List.length_singleton]
        exact Nat.lt_succ_of_le order
      rw [← firstLine, lines, List.append_cons front other back, List.getElem?_append_left bound]
    obtain ⟨client, rests⟩ := rests_of_append lines
    obtain ⟨waiting, awaits⟩ := rests.awaits lines
    obtain ⟨next, reached, -, -, printed, -⟩ := awaits.prints there ((seqOf_eq_iff _ _).mpr same)
    obtain ⟨behind, whole⟩ := (exact next reached).1
    rw [printed, lines, List.map_append, List.map_cons, List.append_assoc,
      List.append_cancel_left_eq, List.singleton_append] at whole
    exact (List.cons.inj whole).1
  · intro unambiguous client reached
    have sound := sound_of_reachable reached
    have prints := prints_of_reachable unambiguous reached
    have lines := sound.asked
    refine ⟨?_, fun place => ?_⟩
    · rw [← lines, List.map_append]
      exact prints.front.trans (List.prefix_append _ _)
    · rw [← lines, sound.ended place, sendlines_nil, List.append_nil]
      exact prints.between (Or.inr place)

theorem unambiguous_of_few (few : (sendlines input).length ≤ 2 ^ 32) : Unambiguous input := by
  intro first second line other firstLine secondLine same
  have firstBound := (List.getElem?_eq_some_iff.mp firstLine).1
  have secondBound := (List.getElem?_eq_some_iff.mp secondLine).1
  rw [Nat.mod_eq_of_lt (by omega), Nat.mod_eq_of_lt (by omega)] at same
  rw [same, secondLine] at firstLine
  rw [Option.some.inj firstLine]

/-- A client that returns has printed its input, exactly if no line of it is longer than the
server's buffer without the header. -/
theorem dg_cli_prints_its_input_iff (nulFree : NulFree input)
    (few : (sendlines input).length ≤ 2 ^ 32) :
    (∀ client, (machine input).Reachable client → client.place = .ended →
        client.printed.flatten = input) ↔
      ∀ line ∈ sendlines input, line.length ≤ maxLine - Hdr.size := by
  rw [← flatten_map_echoed_iff, flatten_sendlines nulFree]
  constructor
  · intro printsInput
    obtain ⟨client, reached, place, printed⟩ := exists_ended input
    rw [← printed]
    exact printsInput client reached place
  · intro whole client reached place
    have sound := sound_of_reachable reached
    have prints := prints_of_reachable (unambiguous_of_few few) reached
    have lines := sound.asked
    rw [sound.ended place, sendlines_nil, List.append_nil] at lines
    rw [prints.between (Or.inr place), lines, whole]

theorem dg_cli_prints_its_input_iff_oneLine :
    ∃ client, (machine oneLine).Reachable client ∧ client.place = .ended ∧
      client.printed.flatten = oneLine := by
  obtain ⟨client, reached, place, -⟩ := exists_ended oneLine
  have few : (sendlines oneLine).length ≤ 2 ^ 32 := by
    rw [sendlines_oneLine]
    decide
  have short : ∀ line ∈ sendlines oneLine, line.length ≤ maxLine - Hdr.size := by
    rw [sendlines_oneLine]
    intro line member
    rw [List.mem_singleton.mp member]
    decide
  have nulFree : NulFree oneLine := by decide
  exact ⟨client, reached, place,
    (dg_cli_prints_its_input_iff nulFree few).mpr short client reached place⟩

end DgClient

end SocketC
