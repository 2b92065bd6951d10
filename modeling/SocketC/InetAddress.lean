/-
This file models the conversions between IPv4 addresses and their texts in `libfree`:
`inet_pton4` of `inet_pton.c`, which `inet_pton` calls for `AF_INET` and `inet_pton6` for the
end of an IPv6 address; `inet_ntop4` of `inet_ntop.c`; and `inet_aton`, which the `inet_pton`
of `inet_pton_ipv4.c` is made of. A text is a list of characters without the terminator.

Both readers are loops over the characters. `inet_pton4` accepts exactly four nonempty decimal
numerals of at most 255 with a dot between them. `inet_aton` accepts between one and four
numerals, which may be empty, and compares a numeral with 255 only when it is over, after the
multiplications have wrapped around.
-/

import SocketC.Positional

namespace SocketC.Inet

open Positional

/-! ### The source -/

/-- `static const char digits[]`. -/
def digits : List Char := "0123456789".toList

/-- `pch - table` where `pch = strchr(table, ch)` is not `NULL`. -/
def strchr (table : List Char) (ch : Char) : Option Nat := table.idxOf? ch

/-- The variables of `inet_pton4`. -/
structure Quad where
  /-- The octets of `tmp` in front of `tp`. -/
  tmp : List UInt8
  /-- The octet at `tp`. -/
  here : UInt8
  octets : Nat
  sawDigit : Bool

/-- The loop of `inet_pton4` and what follows it; `none` is the return value 0. -/
def inetPton4Loop : List Char → Quad → Option (List UInt8)
  | [], quad => if quad.octets < 4 then none else some (quad.tmp ++ [quad.here])
  | ch :: src, quad =>
    match strchr digits ch with
    | some digit =>
      let new := quad.here.toNat * 10 + digit
      if new > 255 then none
      else if quad.sawDigit then inetPton4Loop src { quad with here := UInt8.ofNat new }
      else if quad.octets + 1 > 4 then none
      else inetPton4Loop src
        { quad with here := UInt8.ofNat new, octets := quad.octets + 1, sawDigit := true }
    | none =>
      if ch = '.' ∧ quad.sawDigit then
        if quad.octets = 4 then none
        else inetPton4Loop src
          { quad with tmp := quad.tmp ++ [quad.here], here := 0, sawDigit := false }
      else none

/-- `inet_pton4`: the octets that it copies to `dst`. -/
def inetPton4 (src : List Char) : Option (List UInt8) :=
  inetPton4Loop src ⟨[], 0, 0, false⟩

/-- What `%u` (in base ten) and `%x` (in base sixteen) print for a number. -/
def printed (base number : Nat) : List Char := (render base number).map Nat.digitChar

/-- The `sprintf` of `inet_ntop4`, with the format `"%u.%u.%u.%u"`. -/
def dotted (src : Nat → UInt8) : List Char :=
  printed 10 (src 0).toNat ++ '.' :: printed 10 (src 1).toNat ++
    '.' :: printed 10 (src 2).toNat ++ '.' :: printed 10 (src 3).toNat

/-- `inet_ntop4`; `none` is the return value `NULL`. -/
def inetNtop4 (src : Nat → UInt8) (size : Nat) : Option (List Char) :=
  if (dotted src).length > size then none else some (dotted src)

/-- The loop of `inet_aton`: the final `dots` and `addr`. The accumulator is a `u_long`. The
terminator is the last character that the loop looks at. -/
def inetAtonLoop : List Char → (dots acc addr : Nat) → Option (Nat × Nat)
  | [], dots, acc, addr => if acc > 255 then none else some (dots, addr <<< 8 ||| acc)
  | cc :: cp, dots, acc, addr =>
    match strchr digits cc with
    | some digit => inetAtonLoop cp dots ((acc * 10 + digit) % 2 ^ 64) addr
    | none =>
      if cc = '.' then
        if dots + 1 > 3 then none
        else if acc > 255 then none
        else inetAtonLoop cp (dots + 1) 0 (addr <<< 8 ||| acc)
      else none

/-- The four bytes of `htonl(addr)` in memory. -/
def networkBytes (addr : Nat) : List UInt8 :=
  [UInt8.ofNat (addr >>> 24), UInt8.ofNat (addr >>> 16), UInt8.ofNat (addr >>> 8),
    UInt8.ofNat addr]

/-- `inet_aton`: the bytes of the address that it stores. -/
def inetAton (cp : List Char) : Option (List UInt8) :=
  (inetAtonLoop cp 0 0 0).map fun (dots, addr) =>
    networkBytes (if dots < 3 then addr <<< (8 * (3 - dots)) else addr)

/-! ### Numerals with dots between them -/

/-- The text of numerals with a dot between them. -/
def joined (numerals : List (List Nat)) : List Char :=
  List.intercalate ['.'] (numerals.map (List.map Nat.digitChar))

/-- The first numeral of a text and those behind its dots, if it has no other characters. -/
def split : List Char → Option (List Nat × List (List Nat))
  | [] => some ([], [])
  | ch :: src =>
    match strchr digits ch with
    | some digit => (split src).map fun (numeral, more) => (digit :: numeral, more)
    | none =>
      if ch = '.' then (split src).map fun (numeral, more) => ([], numeral :: more) else none

theorem strchr_digitChar : ∀ digit < 10, strchr digits (Nat.digitChar digit) = some digit := by
  decide

theorem eq_digitChar_of_strchr {ch : Char} {digit : Nat} (found : strchr digits ch = some digit) :
    digit < 10 ∧ ch = Nat.digitChar digit := by
  obtain ⟨bound, entry, -⟩ := List.idxOf?_eq_some_iff.mp found
  have table : ∀ place : Fin digits.length, digits.get place = Nat.digitChar place := by decide
  exact ⟨bound, entry.symm.trans (table ⟨digit, bound⟩)⟩

theorem joined_cons (numeral : List Nat) (more : List (List Nat)) :
    joined (numeral :: more) =
      numeral.map Nat.digitChar ++ more.flatMap fun next => '.' :: next.map Nat.digitChar := by
  induction more generalizing numeral with
  | nil => simp [joined, List.intercalate]
  | cons next more inductionHypothesis =>
    have rest : joined (numeral :: next :: more) =
        numeral.map Nat.digitChar ++ '.' :: joined (next :: more) := by
      simp [joined, List.intercalate]
    rw [rest, inductionHypothesis, List.flatMap_cons, List.cons_append]

theorem split_digit {ch : Char} {digit : Nat} (found : strchr digits ch = some digit)
    (src : List Char) :
    split (ch :: src) = (split src).map fun (numeral, more) => (digit :: numeral, more) := by
  rw [split, found]

theorem split_dot (src : List Char) :
    split ('.' :: src) = (split src).map fun (numeral, more) => ([], numeral :: more) := by
  rw [split, show strchr digits '.' = none by decide]
  rfl

theorem split_digits {numeral : List Nat} (small : ∀ digit ∈ numeral, digit < 10)
    (text : List Char) :
    split (numeral.map Nat.digitChar ++ text) =
      (split text).map fun (next, more) => (numeral ++ next, more) := by
  induction numeral with
  | nil => exact Option.map_id'.symm
  | cons digit numeral inductionHypothesis =>
    rw [List.map_cons, List.cons_append,
      split_digit (strchr_digitChar digit (small digit List.mem_cons_self)),
      inductionHypothesis fun next member => small next (List.mem_cons_of_mem _ member),
      Option.map_map]
    rfl

theorem split_joined {numeral : List Nat} {more : List (List Nat)}
    (small : ∀ next ∈ numeral :: more, ∀ digit ∈ next, digit < 10) :
    split (joined (numeral :: more)) = some (numeral, more) := by
  rw [joined_cons, split_digits (small numeral List.mem_cons_self)]
  induction more generalizing numeral with
  | nil => simp [split]
  | cons next more inductionHypothesis =>
    have smaller : ∀ later ∈ next :: more, ∀ digit ∈ later, digit < 10 :=
      fun later member => small later (List.mem_cons_of_mem _ member)
    have tail := inductionHypothesis smaller
    rw [← split_digits (smaller next List.mem_cons_self)] at tail
    rw [List.flatMap_cons, List.cons_append, split_dot, tail]
    simp

theorem eq_joined_of_split {text : List Char} {numeral : List Nat} {more : List (List Nat)}
    (parts : split text = some (numeral, more)) :
    text = joined (numeral :: more) ∧ ∀ next ∈ numeral :: more, ∀ digit ∈ next, digit < 10 := by
  rw [joined_cons]
  induction text generalizing numeral more with
  | nil =>
    cases parts
    simp
  | cons ch src inductionHypothesis =>
    rw [split] at parts
    split at parts
    · rename_i digit found
      obtain ⟨⟨first, rest⟩, tail, made⟩ := Option.map_eq_some_iff.mp parts
      cases made
      obtain ⟨small, char⟩ := eq_digitChar_of_strchr found
      obtain ⟨text, smalls⟩ := inductionHypothesis tail
      refine ⟨by rw [char, text, List.map_cons, List.cons_append], ?_⟩
      intro next member
      rcases List.mem_cons.mp member with rfl | later
      · exact List.forall_mem_cons.mpr ⟨small, smalls _ List.mem_cons_self⟩
      · exact smalls next (List.mem_cons_of_mem _ later)
    · obtain ⟨dot, mapped⟩ := Option.ite_none_right_eq_some.mp parts
      obtain ⟨⟨first, rest⟩, tail, made⟩ := Option.map_eq_some_iff.mp mapped
      cases made
      obtain ⟨text, smalls⟩ := inductionHypothesis tail
      refine ⟨by rw [dot, text]; rfl, ?_⟩
      exact List.forall_mem_cons.mpr ⟨fun _ absent => absurd absent List.not_mem_nil, smalls⟩

/-! ### What `inet_pton4` accepts -/

/-- The numerals that stand for an octet. -/
structure IsOctet (numeral : List Nat) : Prop where
  nonempty : numeral ≠ []
  small : ∀ digit ∈ numeral, digit < 10
  bound : value 10 numeral ≤ 255

/-- The octet of a numeral. -/
def octetOf (numeral : List Nat) : UInt8 := UInt8.ofNat (value 10 numeral)

/-- What holds of the variables at every turn: there is room for a further octet whenever the
loop waits for its first digit. -/
structure Quad.Sound (quad : Quad) : Prop where
  octets_le : quad.octets ≤ 4
  octets_lt : quad.sawDigit = false → quad.octets < 4

/-- The octets that have been started, the one at `tp` included. -/
def Quad.started (quad : Quad) : Nat := if quad.sawDigit then quad.octets else quad.octets + 1

/-- What the loop of `inet_pton4` makes of the rest of the text. -/
structure Reads4 (quad : Quad) (numeral : List Nat) (more : List (List Nat))
    (out : List UInt8) : Prop where
  begun : quad.sawDigit = true ∨ numeral ≠ []
  bound : valueFrom 10 quad.here.toNat numeral ≤ 255
  octets : ∀ next ∈ more, next ≠ [] ∧ value 10 next ≤ 255
  four : quad.started + more.length = 4
  out_eq : out = quad.tmp ++
    UInt8.ofNat (valueFrom 10 quad.here.toNat numeral) :: more.map octetOf

/-- The variables after a digit that keeps the octet small. -/
def Quad.afterDigit (quad : Quad) (digit : Nat) : Quad where
  tmp := quad.tmp
  here := UInt8.ofNat (quad.here.toNat * 10 + digit)
  octets := quad.started
  sawDigit := true

/-- The variables after a dot. -/
def Quad.afterDot (quad : Quad) : Quad where
  tmp := quad.tmp ++ [quad.here]
  here := 0
  octets := quad.octets
  sawDigit := false

variable {quad : Quad} {src : List Char} {ch : Char} {digit : Nat} {numeral next : List Nat}
  {more : List (List Nat)} {out : List UInt8}

theorem Quad.Sound.started_le (sound : quad.Sound) : quad.started ≤ 4 := by
  rw [Quad.started]
  split
  · exact sound.octets_le
  · rename_i unseen
    exact sound.octets_lt (Bool.eq_false_of_not_eq_true unseen)

theorem Quad.Sound.afterDigit (sound : quad.Sound) : (quad.afterDigit digit).Sound :=
  ⟨sound.started_le, fun unseen => absurd unseen (Bool.noConfusion ·)⟩

theorem Quad.Sound.afterDot (sound : quad.Sound) (room : quad.octets ≠ 4) : quad.afterDot.Sound :=
  ⟨sound.octets_le, fun _ => lt_of_le_of_ne sound.octets_le room⟩

theorem inetPton4Loop_digit (sound : quad.Sound) (found : strchr digits ch = some digit) :
    inetPton4Loop (ch :: src) quad =
      if quad.here.toNat * 10 + digit > 255 then none
      else inetPton4Loop src (quad.afterDigit digit) := by
  rw [inetPton4Loop, found]
  simp only
  by_cases seen : quad.sawDigit = true
  · simp [seen, Quad.afterDigit, Quad.started]
  · have room := sound.octets_lt (Bool.eq_false_of_not_eq_true seen)
    have fits : ¬ quad.octets + 1 > 4 := by omega
    simp only [seen, Quad.afterDigit, Quad.started, if_neg fits]
    rfl

theorem inetPton4Loop_dot :
    inetPton4Loop ('.' :: src) quad =
      if quad.sawDigit = true ∧ quad.octets ≠ 4 then inetPton4Loop src quad.afterDot else none := by
  rw [inetPton4Loop, show strchr digits '.' = none by decide]
  by_cases seen : quad.sawDigit = true
  · by_cases full : quad.octets = 4
    · simp [seen, full]
    · simp [seen, full, Quad.afterDot]
  · simp [seen]

theorem toNat_afterDigit (small : ¬ quad.here.toNat * 10 + digit > 255) :
    (quad.afterDigit digit).here.toNat = quad.here.toNat * 10 + digit :=
  UInt8.toNat_ofNat_of_lt' (by rw [UInt8.size]; omega)

theorem reads4_digit_iff :
    Reads4 quad (digit :: numeral) more out ↔
      ¬ quad.here.toNat * 10 + digit > 255 ∧
        Reads4 (quad.afterDigit digit) numeral more out := by
  constructor
  · intro reads
    have small : ¬ quad.here.toNat * 10 + digit > 255 := by
      have larger : quad.here.toNat * 10 + digit ≤ valueFrom 10 _ numeral :=
        le_valueFrom (by omega)
      exact Nat.not_lt.mpr (larger.trans reads.bound)
    refine ⟨small, .inl rfl, ?_, reads.octets, reads.four, ?_⟩
    · rw [toNat_afterDigit small]
      exact reads.bound
    · rw [toNat_afterDigit small]
      exact reads.out_eq
  · rintro ⟨small, reads⟩
    have bound := reads.bound
    have made := reads.out_eq
    rw [toNat_afterDigit small] at bound made
    exact ⟨.inr (List.cons_ne_nil _ _), bound, reads.octets, reads.four, made⟩

theorem reads4_dot_iff :
    Reads4 quad [] (next :: more) out ↔
      (quad.sawDigit = true ∧ quad.octets ≠ 4) ∧ Reads4 quad.afterDot next more out := by
  constructor
  · intro reads
    have seen : quad.sawDigit = true := reads.begun.resolve_right (· rfl)
    have four := reads.four
    rw [Quad.started, if_pos seen, List.length_cons] at four
    have octets := List.forall_mem_cons.mp reads.octets
    refine ⟨⟨seen, by omega⟩, .inr octets.1.1, octets.1.2, octets.2, ?_, ?_⟩
    · change quad.octets + 1 + more.length = 4
      omega
    · rw [reads.out_eq]
      simp [Quad.afterDot, octetOf, value]
  · rintro ⟨⟨seen, -⟩, reads⟩
    have four : quad.octets + 1 + more.length = 4 := reads.four
    have begun : next ≠ [] := reads.begun.resolve_left (Bool.noConfusion ·)
    refine ⟨.inl seen, Nat.le_of_lt_succ quad.here.toNat_lt,
      List.forall_mem_cons.mpr ⟨⟨begun, reads.bound⟩, reads.octets⟩, ?_, ?_⟩
    · rw [Quad.started, if_pos seen, List.length_cons]
      omega
    · rw [reads.out_eq]
      simp [Quad.afterDot, octetOf, value]

theorem inetPton4Loop_iff (sound : quad.Sound) :
    inetPton4Loop src quad = some out ↔
      ∃ numeral more, split src = some (numeral, more) ∧ Reads4 quad numeral more out := by
  induction src generalizing quad with
  | nil =>
    rw [inetPton4Loop]
    constructor
    · intro returned
      obtain ⟨enough, made⟩ := Option.ite_none_left_eq_some.mp returned
      have seen : quad.sawDigit = true := by
        by_contra unseen
        exact enough (sound.octets_lt (Bool.eq_false_of_not_eq_true unseen))
      refine ⟨[], [], rfl, .inl seen, Nat.le_of_lt_succ quad.here.toNat_lt, by simp, ?_, ?_⟩
      · have bound := sound.octets_le
        rw [Quad.started, if_pos seen, List.length_nil]
        omega
      · simpa using made.symm
    · rintro ⟨numeral, more, parts, reads⟩
      cases parts
      have four := reads.four
      rw [Quad.started, if_pos (reads.begun.resolve_right (· rfl)), List.length_nil] at four
      rw [if_neg (by omega), reads.out_eq]
      simp
  | cons ch src inductionHypothesis =>
    cases found : strchr digits ch with
    | some digit =>
      rw [inetPton4Loop_digit sound found, split_digit found]
      constructor
      · intro returned
        obtain ⟨small, rest⟩ := Option.ite_none_left_eq_some.mp returned
        obtain ⟨numeral, more, parts, reads⟩ := (inductionHypothesis sound.afterDigit).mp rest
        exact ⟨digit :: numeral, more, by rw [parts]; rfl, reads4_digit_iff.mpr ⟨small, reads⟩⟩
      · rintro ⟨_, _, parts, reads⟩
        obtain ⟨⟨numeral, more⟩, tail, made⟩ := Option.map_eq_some_iff.mp parts
        cases made
        obtain ⟨small, rest⟩ := reads4_digit_iff.mp reads
        rw [if_neg small]
        exact (inductionHypothesis sound.afterDigit).mpr ⟨_, _, tail, rest⟩
    | none =>
      by_cases dot : ch = '.'
      · rw [dot, inetPton4Loop_dot, split_dot]
        constructor
        · intro returned
          obtain ⟨going, rest⟩ := Option.ite_none_right_eq_some.mp returned
          obtain ⟨next, more, parts, reads⟩ :=
            (inductionHypothesis (sound.afterDot going.2)).mp rest
          exact ⟨[], next :: more, by rw [parts]; rfl, reads4_dot_iff.mpr ⟨going, reads⟩⟩
        · rintro ⟨_, _, parts, reads⟩
          obtain ⟨⟨next, more⟩, tail, made⟩ := Option.map_eq_some_iff.mp parts
          cases made
          obtain ⟨going, rest⟩ := reads4_dot_iff.mp reads
          rw [if_pos going]
          exact (inductionHypothesis (sound.afterDot going.2)).mpr ⟨_, _, tail, rest⟩
      · simp [inetPton4Loop, split, found, dot]

/-- The texts of IPv4 addresses: four numerals of octets with dots between them. -/
def DottedQuad (text : List Char) (octets : List UInt8) : Prop :=
  ∃ numerals : List (List Nat), numerals.length = 4 ∧ (∀ numeral ∈ numerals, IsOctet numeral) ∧
    text = joined numerals ∧ octets = numerals.map octetOf

theorem sound_start : Quad.Sound ⟨[], 0, 0, false⟩ := ⟨Nat.zero_le 4, fun _ => Nat.zero_lt_succ 3⟩

theorem dottedQuad_of_inetPton4 (returned : inetPton4 src = some out) : DottedQuad src out := by
  obtain ⟨numeral, more, parts, reads⟩ := (inetPton4Loop_iff sound_start).mp returned
  obtain ⟨text, small⟩ := eq_joined_of_split parts
  refine ⟨numeral :: more, ?_, ?_, text, reads.out_eq⟩
  · have four : 1 + more.length = 4 := reads.four
    rw [List.length_cons]
    omega
  · intro next member
    rcases List.mem_cons.mp member with rfl | later
    · exact ⟨reads.begun.resolve_left (Bool.noConfusion ·), small next member, reads.bound⟩
    · have octet := reads.octets next later
      exact ⟨octet.1, small next member, octet.2⟩

theorem inetPton4_of_dottedQuad (quad : DottedQuad src out) : inetPton4 src = some out := by
  obtain ⟨numerals, four, octets, rfl, rfl⟩ := quad
  obtain ⟨numeral, more, rfl⟩ := List.exists_cons_of_length_eq_add_one four
  have first := octets numeral List.mem_cons_self
  refine (inetPton4Loop_iff sound_start).mpr
    ⟨numeral, more, split_joined fun next member => (octets next member).small,
      .inr first.nonempty, first.bound, ?_, ?_, rfl⟩
  · intro next later
    have octet := octets next (List.mem_cons_of_mem _ later)
    exact ⟨octet.nonempty, octet.bound⟩
  · rw [List.length_cons] at four
    change 1 + more.length = 4
    omega

/-- `inet_pton4` accepts exactly four nonempty decimal numerals of at most 255 with a dot
between them, leading zeros included, and copies their values to the destination. -/
theorem inet_pton4_accepts_iff (src : List Char) (out : List UInt8) :
    inetPton4 src = some out ↔ DottedQuad src out :=
  ⟨dottedQuad_of_inetPton4, inetPton4_of_dottedQuad⟩

/-! ### Reading what `inet_ntop4` prints -/

theorem isOctet_render (octet : UInt8) : IsOctet (render 10 octet.toNat) where
  nonempty := render_ne_nil
  small := fun _ => lt_of_mem_render (by omega)
  bound := by
    rw [value_render]
    exact Nat.le_of_lt_succ octet.toNat_lt

theorem inetPton4_dotted (address : Nat → UInt8) :
    inetPton4 (dotted address) = some ((List.range 4).map address) := by
  refine inetPton4_of_dottedQuad
    ⟨(List.range 4).map fun place => render 10 (address place).toNat, by simp, ?_, ?_, ?_⟩
  · intro numeral member
    obtain ⟨place, -, rfl⟩ := List.mem_map.mp member
    exact isOctet_render _
  · simp [List.range, List.range.loop, joined_cons, dotted, printed]
  · simp [octetOf, value_render]

/-! ### What `inet_aton` accepts -/

/-- The accumulator at the end of a numeral. -/
def wrappedFrom (acc : Nat) (numeral : List Nat) : Nat := valueFrom 10 acc numeral % 2 ^ 64

/-- The accumulator at the end of a whole numeral. -/
def wrapped (numeral : List Nat) : Nat := wrappedFrom 0 numeral

/-- What the loop of `inet_aton` makes of the rest of the text. -/
structure ReadsAton (dots acc addr : Nat) (numeral : List Nat) (more : List (List Nat))
    (result : Nat × Nat) : Prop where
  few : dots + more.length ≤ 3
  bound : wrappedFrom acc numeral ≤ 255
  bounds : ∀ next ∈ more, wrapped next ≤ 255
  result_eq : result = (dots + more.length,
    valueFrom 256 addr (wrappedFrom acc numeral :: more.map wrapped))

variable {dots acc addr : Nat} {result : Nat × Nat}

theorem wrappedFrom_nil (fits : acc < 2 ^ 64) : wrappedFrom acc [] = acc :=
  Nat.mod_eq_of_lt fits

theorem wrappedFrom_cons :
    wrappedFrom acc (digit :: numeral) = wrappedFrom ((acc * 10 + digit) % 2 ^ 64) numeral := by
  rw [wrappedFrom, wrappedFrom, valueFrom_mod, valueFrom_cons]

theorem shiftLeft_or (small : ¬ acc > 255) : addr <<< 8 ||| acc = addr * 256 + acc := by
  rw [← Nat.shiftLeft_add_eq_or_of_lt (by omega), Nat.shiftLeft_eq]

theorem readsAton_digit_iff :
    ReadsAton dots acc addr (digit :: numeral) more result ↔
      ReadsAton dots ((acc * 10 + digit) % 2 ^ 64) addr numeral more result := by
  constructor
  · intro reads
    have bound := reads.bound
    have made := reads.result_eq
    rw [wrappedFrom_cons] at bound made
    exact ⟨reads.few, bound, reads.bounds, made⟩
  · intro reads
    have bound := reads.bound
    have made := reads.result_eq
    rw [← wrappedFrom_cons] at bound made
    exact ⟨reads.few, bound, reads.bounds, made⟩

theorem readsAton_dot_iff (fits : acc < 2 ^ 64) :
    ReadsAton dots acc addr [] (next :: more) result ↔
      ¬ dots + 1 > 3 ∧ ¬ acc > 255 ∧
        ReadsAton (dots + 1) 0 (addr <<< 8 ||| acc) next more result := by
  constructor
  · intro reads
    have few := reads.few
    have bound := reads.bound
    have bounds := List.forall_mem_cons.mp reads.bounds
    rw [List.length_cons] at few
    rw [wrappedFrom_nil fits] at bound
    have small : ¬ acc > 255 := Nat.not_lt.mpr bound
    refine ⟨by omega, small, by omega, bounds.1, bounds.2, ?_⟩
    rw [reads.result_eq, shiftLeft_or small, List.length_cons, wrappedFrom_nil fits]
    exact Prod.ext (by omega) (by simp only [List.map_cons, valueFrom_cons, wrapped])
  · rintro ⟨-, small, reads⟩
    have few := reads.few
    have made := reads.result_eq
    rw [shiftLeft_or small] at made
    refine ⟨by rw [List.length_cons]; omega, ?_,
      List.forall_mem_cons.mpr ⟨reads.bound, reads.bounds⟩, ?_⟩
    · rw [wrappedFrom_nil fits]
      exact Nat.le_of_not_gt small
    · rw [made, List.length_cons, wrappedFrom_nil fits]
      exact Prod.ext (by omega) (by simp only [List.map_cons, valueFrom_cons, wrapped])

theorem inetAtonLoop_iff (few : dots ≤ 3) (fits : acc < 2 ^ 64) :
    inetAtonLoop src dots acc addr = some result ↔
      ∃ numeral more, split src = some (numeral, more) ∧
        ReadsAton dots acc addr numeral more result := by
  induction src generalizing dots acc addr with
  | nil =>
    rw [inetAtonLoop]
    constructor
    · intro returned
      obtain ⟨small, made⟩ := Option.ite_none_left_eq_some.mp returned
      rw [shiftLeft_or small] at made
      refine ⟨[], [], rfl, few, ?_, by simp, ?_⟩
      · rw [wrappedFrom_nil fits]
        exact Nat.le_of_not_gt small
      · rw [← Option.some.inj made, wrappedFrom_nil fits]
        rfl
    · rintro ⟨numeral, more, parts, reads⟩
      cases parts
      have bound := reads.bound
      rw [wrappedFrom_nil fits] at bound
      have small : ¬ acc > 255 := Nat.not_lt.mpr bound
      rw [if_neg small, shiftLeft_or small, reads.result_eq, wrappedFrom_nil fits]
      rfl
  | cons ch src inductionHypothesis =>
    cases found : strchr digits ch with
    | some digit =>
      rw [inetAtonLoop, found, split_digit found]
      simp only
      rw [inductionHypothesis few (Nat.mod_lt _ (by omega))]
      constructor
      · rintro ⟨numeral, more, parts, reads⟩
        exact ⟨digit :: numeral, more, by rw [parts]; rfl, readsAton_digit_iff.mpr reads⟩
      · rintro ⟨_, _, parts, reads⟩
        obtain ⟨⟨numeral, more⟩, tail, made⟩ := Option.map_eq_some_iff.mp parts
        cases made
        exact ⟨_, _, tail, readsAton_digit_iff.mp reads⟩
    | none =>
      by_cases dot : ch = '.'
      · subst dot
        rw [inetAtonLoop, found, split_dot]
        simp only [if_true]
        constructor
        · intro returned
          obtain ⟨room, returned⟩ := Option.ite_none_left_eq_some.mp returned
          obtain ⟨small, rest⟩ := Option.ite_none_left_eq_some.mp returned
          obtain ⟨next, more, parts, reads⟩ := (inductionHypothesis (by omega) (by omega)).mp rest
          exact ⟨[], next :: more, by rw [parts]; rfl,
            (readsAton_dot_iff fits).mpr ⟨room, small, reads⟩⟩
        · rintro ⟨_, _, parts, reads⟩
          obtain ⟨⟨next, more⟩, tail, made⟩ := Option.map_eq_some_iff.mp parts
          cases made
          obtain ⟨room, small, rest⟩ := (readsAton_dot_iff fits).mp reads
          rw [if_neg room, if_neg small]
          exact (inductionHypothesis (by omega) (by omega)).mpr ⟨_, _, tail, rest⟩
      · simp [inetAtonLoop, split, found, dot]

/-- The texts of `inet_aton`: at most four numerals, empty ones included, each of which has
wrapped around to at most 255. The octets that are not given are zero. -/
def LooseQuad (text : List Char) (octets : List UInt8) : Prop :=
  ∃ numerals : List (List Nat), numerals ≠ [] ∧ numerals.length ≤ 4 ∧
    (∀ numeral ∈ numerals, (∀ digit ∈ numeral, digit < 10) ∧ wrapped numeral ≤ 255) ∧
    text = joined numerals ∧
    octets = numerals.map (fun numeral => UInt8.ofNat (wrapped numeral)) ++
      List.replicate (4 - numerals.length) 0

theorem ofNat_of_mod {number : Nat} (octet : Nat) (same : number % 256 = octet) :
    UInt8.ofNat number = UInt8.ofNat octet := by
  rw [← same, UInt8.ofNat_mod_size]

theorem networkBytes_value {octets : List Nat} (four : octets.length = 4)
    (small : ∀ octet ∈ octets, octet ≤ 255) :
    networkBytes (value 256 octets) = octets.map UInt8.ofNat := by
  obtain ⟨first, second, third, fourth, rfl⟩ := List.length_eq_four.mp four
  simp only [List.forall_mem_cons] at small
  simp only [networkBytes, value, valueFrom_cons, valueFrom_nil, Nat.shiftRight_eq_div_pow,
    List.map_cons, List.map_nil, List.cons.injEq, and_true]
  exact ⟨ofNat_of_mod first (by omega), ofNat_of_mod second (by omega),
    ofNat_of_mod third (by omega), ofNat_of_mod fourth (by omega)⟩

/-- The shift at the end of `inet_aton` puts zeros behind the given octets. -/
theorem networkBytes_normalized {octets : List Nat} (count : octets.length = dots + 1)
    (few : dots ≤ 3) (small : ∀ octet ∈ octets, octet ≤ 255) :
    networkBytes (if dots < 3 then value 256 octets <<< (8 * (3 - dots)) else value 256 octets) =
      octets.map UInt8.ofNat ++ List.replicate (3 - dots) 0 := by
  have padded : (if dots < 3 then value 256 octets <<< (8 * (3 - dots)) else value 256 octets) =
      value 256 (octets ++ List.replicate (3 - dots) 0) := by
    rw [value, value, valueFrom_append, valueFrom_replicate_zero, Nat.shiftLeft_eq, Nat.pow_mul]
    split
    · rfl
    · rename_i full
      rw [Nat.sub_eq_zero_of_le (Nat.le_of_not_lt full), Nat.pow_zero, Nat.mul_one]
  rw [padded, networkBytes_value, List.map_append, List.map_replicate]
  · rfl
  · rw [List.length_append, List.length_replicate]
    omega
  · intro octet member
    rcases List.mem_append.mp member with given | zero
    · exact small octet given
    · rw [List.eq_of_mem_replicate zero]
      exact Nat.zero_le 255

theorem stored_eq (few : more.length ≤ 3) (bounds : ∀ next ∈ numeral :: more, wrapped next ≤ 255)
    (octets : addr = valueFrom 256 0 (wrapped numeral :: more.map wrapped)) :
    networkBytes (if more.length < 3 then addr <<< (8 * (3 - more.length)) else addr) =
      (numeral :: more).map (fun numeral => UInt8.ofNat (wrapped numeral)) ++
        List.replicate (4 - (numeral :: more).length) 0 := by
  have small : ∀ octet ∈ (numeral :: more).map wrapped, octet ≤ 255 := by
    intro octet member
    obtain ⟨given, present, rfl⟩ := List.mem_map.mp member
    exact bounds given present
  have stored := networkBytes_normalized (by rw [List.length_map, List.length_cons]) few small
  rw [List.map_map] at stored
  rw [octets, List.length_cons, show 4 - (more.length + 1) = 3 - more.length by omega]
  exact stored

theorem looseQuad_of_inetAton (returned : inetAton src = some out) : LooseQuad src out := by
  obtain ⟨⟨dots, addr⟩, loop, rfl⟩ := Option.map_eq_some_iff.mp returned
  obtain ⟨numeral, more, parts, reads⟩ := (inetAtonLoop_iff (by omega) (by omega)).mp loop
  obtain ⟨text, small⟩ := eq_joined_of_split parts
  obtain ⟨count, octets⟩ := Prod.mk.inj reads.result_eq
  have few := reads.few
  rw [Nat.zero_add] at few count
  have bounds : ∀ next ∈ numeral :: more, wrapped next ≤ 255 :=
    List.forall_mem_cons.mpr ⟨reads.bound, reads.bounds⟩
  refine ⟨numeral :: more, List.cons_ne_nil _ _, Nat.succ_le_succ few,
    fun next member => ⟨small next member, bounds next member⟩, text, ?_⟩
  rw [count]
  exact stored_eq few bounds octets

theorem inetAton_of_looseQuad (quad : LooseQuad src out) : inetAton src = some out := by
  obtain ⟨numerals, nonempty, few, octets, rfl, rfl⟩ := quad
  obtain ⟨numeral, more, rfl⟩ := List.exists_cons_of_ne_nil nonempty
  have few : more.length ≤ 3 := Nat.le_of_succ_le_succ few
  have bounds : ∀ next ∈ numeral :: more, wrapped next ≤ 255 :=
    fun next member => (octets next member).2
  obtain ⟨first, others⟩ := List.forall_mem_cons.mp bounds
  refine Option.map_eq_some_iff.mpr ⟨(more.length, _),
    (inetAtonLoop_iff (by omega) (by omega)).mpr
      ⟨numeral, more, split_joined fun next member => (octets next member).1,
        (Nat.zero_add _).trans_le few, first, others, ?_⟩, stored_eq few bounds rfl⟩
  rw [Nat.zero_add]
  rfl

theorem wrapped_of_le (bound : value 10 numeral ≤ 255) : wrapped numeral = value 10 numeral :=
  Nat.mod_eq_of_lt (by change value 10 numeral < _; omega)

/-- `inet_aton` accepts exactly the loose quads. It agrees with `inet_pton4` on every text that
`inet_pton4` accepts, but also accepts missing numerals, empty numerals and numerals that are
too large by a multiple of `2 ^ 64`. -/
theorem inet_aton_accepts_iff (cp : List Char) (out : List UInt8) :
    (inetAton cp = some out ↔ LooseQuad cp out) ∧
      (inetPton4 cp = some out → inetAton cp = some out) := by
  refine ⟨⟨looseQuad_of_inetAton, inetAton_of_looseQuad⟩, fun returned => ?_⟩
  obtain ⟨numerals, four, octets, text, made⟩ := dottedQuad_of_inetPton4 returned
  refine inetAton_of_looseQuad ⟨numerals, List.ne_nil_of_length_eq_add_one four, four.le, ?_,
    text, ?_⟩
  · intro numeral member
    have octet := octets numeral member
    exact ⟨octet.small, (wrapped_of_le octet.bound).trans_le octet.bound⟩
  · rw [made, four, Nat.sub_self, List.replicate_zero, List.append_nil]
    refine List.map_congr_left fun numeral member => ?_
    rw [octetOf, wrapped_of_le (octets numeral member).bound]

-- The first numeral is larger than `2 ^ 64` by one, and two numerals are missing.
example : inetAton "18446744073709551617.2".toList = some [1, 2, 0, 0] := by decide

end SocketC.Inet
