/-
This file models `inet_ntop6` of `libfree/inet_ntop.c`, which prints the text of an IPv6
address. The source file is kept under `#ifdef notdef`, because systems have the function by
now, and documents the texts that `inet_pton6` is to read.

A first loop looks for the longest run of zero words, and finds the leftmost one of the
greatest length. A second loop prints the words and puts `::` in the place of that run. What
it prints is read by `inet_pton6` as the address that it was printed from.
-/

import SocketC.InetAddress6

namespace SocketC.Inet

open Positional

/-! ### The source -/

/-- A run of zero words. -/
structure Run where
  base : Nat
  len : Nat

/-- `if (best.base == -1 || cur.len > best.len) best = cur`. -/
def longer (best : Option Run) (cur : Run) : Option Run :=
  match best with
  | none => some cur
  | some run => if cur.len > run.len then some cur else some run

/-- One turn of the loop that looks for the longest run; the state is `best` and `cur`. -/
def scanStep (words : Nat → Nat) : Option Run × Option Run → Nat → Option Run × Option Run
  | (best, none), i => if words i = 0 then (best, some ⟨i, 1⟩) else (best, none)
  | (best, some cur), i =>
    if words i = 0 then (best, some { cur with len := cur.len + 1 })
    else (longer best cur, none)

/-- `best` and `cur` after the loop. -/
def scan (words : Nat → Nat) (count : Nat) : Option Run × Option Run :=
  (List.range count).foldl (scanStep words) (none, none)

/-- The run that is written as `::`. -/
def bestRun (words : Nat → Nat) : Option Run :=
  let best := match scan words 8 with
    | (best, none) => best
    | (best, some cur) => longer best cur
  best.filter fun run => 2 ≤ run.len

/-- The array `words`. -/
def wordsOf (src : Nat → UInt8) (i : Nat) : Nat :=
  (src (2 * i)).toNat <<< 8 ||| (src (2 * i + 1)).toNat

/-- Are we inside the best run? -/
def Inside (best : Option Run) (i : Nat) : Prop :=
  ∃ run ∈ best, run.base ≤ i ∧ i < run.base + run.len

instance (best : Option Run) (i : Nat) : Decidable (Inside best i) :=
  inferInstanceAs (Decidable (∃ run ∈ best, _))

/-- Is this address an encapsulated IPv4? -/
def Encapsulated (words : Nat → Nat) (best : Option Run) : Prop :=
  ∃ run ∈ best, run.base = 0 ∧ (run.len = 6 ∨ run.len = 5 ∧ words 5 = 0xffff)

instance (words : Nat → Nat) (best : Option Run) : Decidable (Encapsulated words best) :=
  inferInstanceAs (Decidable (∃ run ∈ best, _))

/-- The loop that formats the result, over the places that are left. -/
def formatLoop (src : Nat → UInt8) (best : Option Run) :
    List Nat → List Char → Option (List Char)
  | [], tmp => some tmp
  | i :: rest, tmp =>
    if Inside best i then
      formatLoop src best rest (if (best.map Run.base) = some i then tmp ++ [':'] else tmp)
    else
      let tmp := if i ≠ 0 then tmp ++ [':'] else tmp
      if i = 6 ∧ Encapsulated (wordsOf src) best then
        (inetNtop4 (fun octet => src (12 + octet)) (46 - tmp.length)).map (tmp ++ ·)
      else formatLoop src best rest (tmp ++ printed 16 (wordsOf src i))

/-- The text in `tmp` before the check of the size. -/
def format (src : Nat → UInt8) : Option (List Char) :=
  let best := bestRun (wordsOf src)
  (formatLoop src best (List.range 8) []).map fun tmp =>
    if (best.map fun run => run.base + run.len) = some 8 then tmp ++ [':'] else tmp

/-- `inet_ntop6`. -/
def inetNtop6 (src : Nat → UInt8) (size : Nat) : Option (List Char) :=
  (format src).bind fun tmp => if tmp.length + 1 > size then none else some tmp

/-! ### The longest run -/

/-- The words of a run are zero. -/
def ZeroRun (words : Nat → Nat) (run : Run) : Prop :=
  ∀ i, run.base ≤ i → i < run.base + run.len → words i = 0

/-- A run is longer than another one, or of the same length and not to its right. -/
def Beats (run other : Run) : Prop :=
  other.len < run.len ∨ other.len = run.len ∧ run.base ≤ other.base

/-- What the first loop knows when it has seen the words in front of `place`. -/
structure Scanned (words : Nat → Nat) (place : Nat) (best cur : Option Run) : Prop where
  best_zero : ∀ run, best = some run → run.base + run.len ≤ place ∧ ZeroRun words run
  cur_zero : ∀ run, cur = some run →
    run.base + run.len = place ∧ 0 < run.len ∧ ZeroRun words run
  apart : ∀ old new, best = some old → cur = some new → old.base ≤ new.base
  /-- The current run cannot be extended to the left. -/
  maximal : ∀ base, base < place → ZeroRun words ⟨base, place - base⟩ →
    ∃ new, cur = some new ∧ new.base ≤ base
  covered : ∀ run, 0 < run.len → run.base + run.len ≤ place → ZeroRun words run →
    (∃ old, best = some old ∧ Beats old run) ∨ ∃ new, cur = some new ∧ new.base ≤ run.base

/-- What is known when the current run is over. -/
structure Settled (words : Nat → Nat) (place : Nat) (best : Option Run) : Prop where
  best_zero : ∀ run, best = some run → run.base + run.len ≤ place ∧ ZeroRun words run
  covered : ∀ run, 0 < run.len → run.base + run.len ≤ place → ZeroRun words run →
    ∃ old, best = some old ∧ Beats old run

variable {words : Nat → Nat} {place : Nat} {best : Option Run} {cur run : Run}

theorem scanned_start : Scanned words 0 none none where
  best_zero := fun _ impossible => absurd impossible (Option.some_ne_none _).symm
  cur_zero := fun _ impossible => absurd impossible (Option.some_ne_none _).symm
  apart := fun _ _ impossible => absurd impossible (Option.some_ne_none _).symm
  maximal := fun _ impossible => absurd impossible (Nat.not_lt_zero _)
  covered := fun _ positive bound => by omega

theorem Scanned.settled_none (scanned : Scanned words place best none) :
    Settled words place best where
  best_zero := scanned.best_zero
  covered := fun run positive bound zero =>
    (scanned.covered run positive bound zero).resolve_right fun ⟨_, impossible, _⟩ =>
      absurd impossible (Option.some_ne_none _).symm

theorem Scanned.settled_longer (scanned : Scanned words place best (some cur)) :
    Settled words place (longer best cur) := by
  obtain ⟨ends, -, curZero⟩ := scanned.cur_zero cur rfl
  cases best with
  | none =>
    refine ⟨fun run same => ?_, fun run positive bound zero => ?_⟩
    · cases same
      exact ⟨ends.le, curZero⟩
    · obtain ⟨old, impossible, -⟩ | ⟨new, same, left⟩ := scanned.covered run positive bound zero
      · cases impossible
      · cases same
        refine ⟨cur, rfl, ?_⟩
        unfold Beats
        omega
  | some old =>
    have apart := scanned.apart old cur rfl rfl
    rw [longer]
    split
    · rename_i greater
      refine ⟨fun run same => ?_, fun run positive bound zero => ?_⟩
      · cases same
        exact ⟨ends.le, curZero⟩
      · refine ⟨cur, rfl, ?_⟩
        obtain ⟨_, same, beats⟩ | ⟨_, same, left⟩ := scanned.covered run positive bound zero
        · cases same
          unfold Beats at beats ⊢
          omega
        · cases same
          unfold Beats
          omega
    · rename_i notGreater
      refine ⟨scanned.best_zero, fun run positive bound zero => ⟨old, rfl, ?_⟩⟩
      obtain ⟨_, same, beats⟩ | ⟨_, same, left⟩ := scanned.covered run positive bound zero
      · cases same
        exact beats
      · cases same
        unfold Beats
        omega

/-- A word that is not zero ends the current run. -/
theorem Settled.scanned (settled : Settled words place best) (nonzero : words place ≠ 0) :
    Scanned words (place + 1) best none where
  best_zero := fun run same =>
    ⟨(settled.best_zero run same).1.trans (Nat.le_succ _), (settled.best_zero run same).2⟩
  cur_zero := fun _ impossible => absurd impossible (Option.some_ne_none _).symm
  apart := fun _ _ _ impossible => absurd impossible (Option.some_ne_none _).symm
  maximal := fun base left zero =>
    absurd (zero place (by simp only; omega) (by simp only; omega)) nonzero
  covered := fun run positive bound zero => by
    refine .inl (settled.covered run positive ?_ zero)
    by_contra beyond
    exact nonzero (zero place (by omega) (by omega))

/-- A zero word starts a run or makes the current one longer. -/
theorem Scanned.extend {old : Option Run} (scanned : Scanned words place best old)
    (ends : cur.base + cur.len = place + 1) (positive : 0 < cur.len) (zero : ZeroRun words cur)
    (fresh : old = none → cur.base = place)
    (base_eq : ∀ run, old = some run → cur.base = run.base) :
    Scanned words (place + 1) best (some cur) := by
  have left : ∀ base, base ≤ place → ZeroRun words ⟨base, place + 1 - base⟩ → cur.base ≤ base := by
    intro base bound run
    by_cases last : base = place
    · omega
    · obtain ⟨new, same, before⟩ := scanned.maximal base (by omega) fun i from_base to_place =>
        run i from_base (by simp only at to_place ⊢; omega)
      rw [base_eq new same]
      exact before
  refine ⟨fun run same => ?_, fun run same => ?_, fun run new same given => ?_,
    fun base bound run => ⟨cur, rfl, left base (Nat.le_of_lt_succ bound) run⟩,
    fun run long bound runZero => ?_⟩
  · have known := scanned.best_zero run same
    exact ⟨by omega, known.2⟩
  · cases same
    exact ⟨ends, positive, zero⟩
  · cases given
    cases old with
    | none =>
      have known := (scanned.best_zero run same).1
      rw [fresh rfl]
      omega
    | some before =>
      rw [base_eq before rfl]
      exact scanned.apart run before same rfl
  · by_cases inside : run.base + run.len ≤ place
    · refine (scanned.covered run long inside runZero).imp_right ?_
      rintro ⟨new, same, before⟩
      exact ⟨cur, rfl, (base_eq new same).trans_le before⟩
    · refine .inr ⟨cur, rfl, left run.base (by omega) fun i from_base to_end => ?_⟩
      exact runZero i from_base (by simp only at to_end; omega)

theorem Scanned.step {cur : Option Run} (scanned : Scanned words place best cur) :
    Scanned words (place + 1) (scanStep words (best, cur) place).1
      (scanStep words (best, cur) place).2 := by
  cases cur with
  | none =>
    rw [scanStep]
    split
    · rename_i zero
      refine scanned.extend rfl Nat.one_pos (fun i from_base to_end => ?_) (fun _ => rfl)
        fun _ impossible => absurd impossible (Option.some_ne_none _).symm
      rw [Nat.le_antisymm (Nat.le_of_lt_succ to_end) from_base]
      exact zero
    · rename_i nonzero
      exact scanned.settled_none.scanned nonzero
  | some cur =>
    rw [scanStep]
    split
    · rename_i zero
      obtain ⟨ends, positive, curZero⟩ := scanned.cur_zero cur rfl
      refine scanned.extend (congrArg Nat.succ ends) (Nat.succ_pos _)
        (fun i from_base to_end => ?_)
        (fun impossible => absurd impossible (Option.some_ne_none _)) ?_
      · by_cases last : i = place
        · rw [last]
          exact zero
        · exact curZero i from_base (by simp only at to_end; omega)
      · intro run same
        cases same
        rfl
    · rename_i nonzero
      exact scanned.settled_longer.scanned nonzero

theorem scanned_scan (count : Nat) :
    Scanned words count (scan words count).1 (scan words count).2 := by
  induction count with
  | zero => exact scanned_start
  | succ count inductionHypothesis =>
    rw [scan, List.range_succ, List.foldl_append, ← scan, List.foldl_cons, List.foldl_nil]
    exact inductionHypothesis.step

theorem settled_bestRun : ∃ best, Settled words 8 best ∧
    bestRun words = best.filter fun run => 2 ≤ run.len := by
  have scanned := @scanned_scan words 8
  rcases found : scan words 8 with ⟨best, _ | cur⟩
  · rw [found] at scanned
    exact ⟨best, scanned.settled_none, by rw [bestRun, found]⟩
  · rw [found] at scanned
    exact ⟨longer best cur, scanned.settled_longer, by rw [bestRun, found]⟩

/-- The runs of zero words that an address can have. -/
structure RunOf (words : Nat → Nat) (run : Run) : Prop where
  positive : 0 < run.len
  inside : run.base + run.len ≤ 8
  zero : ZeroRun words run

theorem runOf_bestRun (found : bestRun words = some run) : 2 ≤ run.len ∧ RunOf words run := by
  obtain ⟨best, settled, filtered⟩ := @settled_bestRun words
  obtain ⟨same, long⟩ := Option.filter_eq_some_iff.mp (filtered.symm.trans found)
  have two : 2 ≤ run.len := of_decide_eq_true long
  obtain ⟨inside, zero⟩ := settled.best_zero run same
  exact ⟨two, Nat.zero_lt_of_lt two, inside, zero⟩

/-- The run that is written as `::` is the leftmost longest one, if it is of two words at
least. -/
theorem inet_ntop6_finds_longest (words : Nat → Nat) :
    (∀ run, bestRun words = some run →
      2 ≤ run.len ∧ RunOf words run ∧ ∀ other, RunOf words other → Beats run other) ∧
    (bestRun words = none → ∀ other, RunOf words other → other.len < 2) := by
  obtain ⟨best, settled, filtered⟩ := @settled_bestRun words
  constructor
  · intro run found
    obtain ⟨two, isRun⟩ := runOf_bestRun found
    refine ⟨two, isRun, fun other otherRun => ?_⟩
    obtain ⟨old, same, beats⟩ :=
      settled.covered other otherRun.positive otherRun.inside otherRun.zero
    have kept := (Option.filter_eq_some_iff.mp (filtered.symm.trans found)).1
    rwa [Option.some.inj (kept.symm.trans same)]
  · intro absent other otherRun
    obtain ⟨old, same, beats⟩ :=
      settled.covered other otherRun.positive otherRun.inside otherRun.zero
    rw [filtered, same, Option.filter_eq_none_iff] at absent
    have short : ¬ 2 ≤ old.len := fun two => absent old rfl (decide_eq_true two)
    unfold Beats at beats
    omega

/-! ### The text -/

/-- What the second loop prints for a word outside the run. -/
def piece (src : Nat → UInt8) (i : Nat) : List Char :=
  (if i ≠ 0 then [':'] else []) ++ printed 16 (wordsOf src i)

variable {src : Nat → UInt8} {places rest : List Nat} {tmp : List Char}

theorem wordsOf_le (place : Nat) : wordsOf src place ≤ 0xffff := by
  have high := (src (2 * place)).toNat_lt
  have low := (src (2 * place + 1)).toNat_lt
  rw [wordsOf, ← Nat.shiftLeft_add_eq_or_of_lt low, Nat.shiftLeft_eq]
  omega

/-- A word of the address as it is printed. -/
def shown (src : Nat → UInt8) (i : Nat) : HexWord := .ofNat (wordsOf src i) (wordsOf_le i)

theorem text_shown (i : Nat) : (shown src i).text = printed 16 (wordsOf src i) :=
  HexWord.text_ofNat (wordsOf_le i)

theorem map_val_shown (places : List Nat) :
    (places.map (shown src)).map HexWord.val = places.map (wordsOf src) := by
  rw [List.map_map]
  exact List.map_congr_left fun i _ => HexWord.val_ofNat (wordsOf_le i)

theorem formatLoop_outside (outside : ∀ i ∈ places, ¬ Inside best i)
    (plain : ∀ i ∈ places, ¬ (i = 6 ∧ Encapsulated (wordsOf src) best)) :
    formatLoop src best (places ++ rest) tmp =
      formatLoop src best rest (tmp ++ places.flatMap (piece src)) := by
  induction places generalizing tmp with
  | nil => simp
  | cons i places inductionHypothesis =>
    obtain ⟨firstOutside, othersOutside⟩ := List.forall_mem_cons.mp outside
    obtain ⟨firstPlain, othersPlain⟩ := List.forall_mem_cons.mp plain
    rw [List.cons_append, formatLoop, if_neg firstOutside]
    simp only [if_neg firstPlain]
    rw [inductionHypothesis othersOutside othersPlain, List.flatMap_cons, piece]
    by_cases zero : i = 0
    · simp [zero]
    · simp [zero]

theorem formatLoop_inside (inside : ∀ i ∈ places, Inside best i)
    (later : ∀ i ∈ places, best.map Run.base ≠ some i) :
    formatLoop src best (places ++ rest) tmp = formatLoop src best rest tmp := by
  induction places with
  | nil => rfl
  | cons i places inductionHypothesis =>
    obtain ⟨firstInside, othersInside⟩ := List.forall_mem_cons.mp inside
    obtain ⟨firstLater, othersLater⟩ := List.forall_mem_cons.mp later
    rw [List.cons_append, formatLoop, if_pos firstInside, if_neg firstLater,
      inductionHypothesis othersInside othersLater]

/-- The run itself is printed as one colon. -/
theorem formatLoop_run (positive : 0 < run.len) :
    formatLoop src (some run) (List.range' run.base run.len ++ rest) tmp =
      formatLoop src (some run) rest (tmp ++ [':']) := by
  obtain ⟨more, len⟩ := Nat.exists_eq_add_of_lt positive
  rw [Nat.zero_add] at len
  rw [len, List.range'_succ, List.cons_append, formatLoop,
    if_pos ⟨run, rfl, le_rfl, by omega⟩, if_pos (Option.map_some _ _)]
  refine formatLoop_inside (fun i member => ?_) (fun i member => ?_)
  · have bounds := List.mem_range'_1.mp member
    exact ⟨run, rfl, by omega, by omega⟩
  · have bounds := List.mem_range'_1.mp member
    exact fun same => absurd (Option.some.inj same) (by omega)

theorem flatMap_piece {start : Nat} (positive : 0 < start) (count : Nat) :
    (List.range' start count).flatMap (piece src) =
      ((List.range' start count).map (shown src)).flatMap fun word => ':' :: word.text := by
  rw [List.flatMap_map]
  refine List.flatMap_congr fun i member => ?_
  have bounds := List.mem_range'_1.mp member
  rw [piece, if_pos (by omega), text_shown]
  rfl

theorem flatMap_piece_zero (count : Nat) :
    (List.range' 0 (count + 1)).flatMap (piece src) =
      opened ((List.range' 0 (count + 1)).map (shown src)) := by
  rw [List.range'_succ, List.flatMap_cons, flatMap_piece Nat.one_pos, List.map_cons, opened_cons,
    text_shown]
  rfl

theorem pieces_front (count : Nat) (tail : List Char) :
    (List.range' 0 count).flatMap (piece src) ++ [':'] ++ ':' :: tail =
      gapped ((List.range' 0 count).map (shown src)) tail := by
  cases count with
  | zero => rfl
  | succ count =>
    rw [flatMap_piece_zero, List.range'_succ, List.map_cons, gapped, closed_cons]

theorem pieces_back {start : Nat} (positive : 0 < start) (count : Nat) :
    (List.range' start count).flatMap (piece src) ++ (if count = 0 then [':'] else []) =
      ':' :: opened ((List.range' start count).map (shown src)) := by
  cases count with
  | zero => rfl
  | succ count =>
    rw [flatMap_piece positive, List.range'_succ, List.map_cons, opened_cons, List.flatMap_cons,
      if_neg (Nat.succ_ne_zero count), List.append_nil, List.cons_append]

theorem format_of_none (absent : bestRun (wordsOf src) = none) :
    format src = some (opened ((List.range' 0 8).map (shown src))) := by
  have printed : formatLoop src none (List.range' 0 8) [] =
      some ((List.range' 0 8).flatMap (piece src)) := by
    rw [← List.append_nil (List.range' 0 8), formatLoop_outside, formatLoop, List.append_nil,
      List.nil_append]
    · exact fun i _ ⟨_, impossible, _⟩ => absurd impossible (Option.not_mem_none _)
    · exact fun i _ ⟨_, _, impossible, _⟩ => absurd impossible (Option.not_mem_none _)
  rw [format, absent, List.range_eq_range']
  simp only [printed, flatMap_piece_zero]
  rfl

theorem range_eq_run (inside : run.base + run.len ≤ 8) :
    List.range' 0 8 = List.range' 0 run.base ++ (List.range' run.base run.len ++
      List.range' (run.base + run.len) (8 - (run.base + run.len))) := by
  have front := @List.range'_append_1 0 run.base (run.len + (8 - (run.base + run.len)))
  rw [Nat.zero_add] at front
  rw [List.range'_append_1, front]
  congr 1
  omega

theorem formatLoop_outside_run {start count : Nat}
    (apart : start + count ≤ run.base ∨ run.base + run.len ≤ start)
    (plain : ¬ Encapsulated (wordsOf src) (some run)) :
    formatLoop src (some run) (List.range' start count ++ rest) tmp =
      formatLoop src (some run) rest (tmp ++ (List.range' start count).flatMap (piece src)) := by
  refine formatLoop_outside (fun i member => ?_) (fun i _ six => plain six.2)
  have bounds := List.mem_range'_1.mp member
  rintro ⟨_, same, inside⟩
  cases same
  omega

theorem format_of_run (found : bestRun (wordsOf src) = some run)
    (plain : ¬ Encapsulated (wordsOf src) (some run)) :
    format src = some (gapped ((List.range' 0 run.base).map (shown src))
      (opened ((List.range' (run.base + run.len) (8 - (run.base + run.len))).map
        (shown src)))) := by
  obtain ⟨two, isRun⟩ := runOf_bestRun found
  have inside := isRun.inside
  have printed : formatLoop src (some run) (List.range' 0 8) [] =
      some ((List.range' 0 run.base).flatMap (piece src) ++ [':'] ++
        (List.range' (run.base + run.len) (8 - (run.base + run.len))).flatMap (piece src)) := by
    rw [range_eq_run inside, formatLoop_outside_run (.inl (Nat.zero_add _).le) plain,
      formatLoop_run isRun.positive,
      ← List.append_nil (List.range' _ (8 - (run.base + run.len))),
      formatLoop_outside_run (.inr le_rfl) plain, formatLoop, List.append_nil, List.nil_append]
  have trailing : some (run.base + run.len) = some 8 ↔ 8 - (run.base + run.len) = 0 := by
    rw [Option.some.injEq]
    omega
  rw [← pieces_front, ← pieces_back (by omega), format, found, List.range_eq_range']
  simp only [printed, Option.map_some, trailing]
  by_cases none : 8 - (run.base + run.len) = 0
  · simp [none]
  · simp [none]

/-! ### Addresses that end in an IPv4 address -/

theorem length_dotted_le (address : Nat → UInt8) : (dotted address).length ≤ 15 := by
  have octet : ∀ place, (printed 10 (address place).toNat).length ≤ 3 := by
    intro place
    rw [printed, List.length_map]
    exact length_render_le (by omega) (by omega) ((address place).toNat_lt.trans (by omega))
  have first := octet 0
  have second := octet 1
  have third := octet 2
  have fourth := octet 3
  simp only [dotted, List.length_append, List.length_cons]
  omega

theorem inetNtop4_of_room {address : Nat → UInt8} {size : Nat} (room : 15 ≤ size) :
    inetNtop4 address size = some (dotted address) :=
  if_neg (Nat.not_lt.mpr ((length_dotted_le address).trans room))

theorem formatLoop_six (encapsulated : Encapsulated (wordsOf src) best) (outside : ¬ Inside best 6)
    (room : tmp.length ≤ 30) :
    formatLoop src best [6, 7] tmp =
      some (tmp ++ ':' :: dotted fun octet => src (12 + octet)) := by
  rw [formatLoop, if_neg outside]
  simp only [ne_eq, OfNat.ofNat_ne_zero, not_false_eq_true, if_true, encapsulated, and_self]
  rw [inetNtop4_of_room (by rw [List.length_append, List.length_singleton]; omega)]
  simp

theorem length_printed_le (place : Nat) : (printed 16 (wordsOf src place)).length ≤ 4 := by
  rw [printed, List.length_map]
  exact length_render_le (by omega) (by omega) (Nat.lt_succ_of_le (wordsOf_le place))

theorem format_of_loop {text : List Char} (found : bestRun (wordsOf src) = some run)
    (inner : run.base + run.len ≠ 8)
    (printed : formatLoop src (some run) (List.range 8) [] = some text) :
    format src = some text := by
  have noTrailing : ¬ some (run.base + run.len) = some 8 := fun same => inner (Option.some.inj same)
  rw [format, found]
  simp only [printed, Option.map_some, if_neg noTrailing]

theorem format_of_encapsulated (found : bestRun (wordsOf src) = some run)
    (encapsulated : Encapsulated (wordsOf src) (some run)) :
    run.base = 0 ∧
    (run.len = 6 ∧ format src = some (gapped [] (dotted fun octet => src (12 + octet))) ∨
      run.len = 5 ∧ format src =
        some (gapped [] (closed [shown src 5] ++ dotted fun octet => src (12 + octet)))) := by
  have positive : 0 < run.len := (runOf_bestRun found).2.positive
  obtain ⟨_, same, zero, len⟩ := encapsulated
  cases same
  have encapsulated : Encapsulated (wordsOf src) (some run) := ⟨run, rfl, zero, len⟩
  have outside : ∀ place, run.len ≤ place → ¬ Inside (some run) place := by
    rintro place beyond ⟨_, same, -, before⟩
    cases same
    omega
  refine ⟨zero, len.imp (fun six => ⟨six, ?_⟩) fun five => ⟨five.1, ?_⟩⟩
  · have whole : List.range 8 = List.range' run.base run.len ++ [6, 7] := by
      rw [zero, six]
      rfl
    refine format_of_loop found (by omega) ?_
    rw [whole, formatLoop_run positive, formatLoop_six encapsulated (outside 6 six.le) (by simp)]
    rfl
  · have whole : List.range 8 = List.range' run.base run.len ++ ([5] ++ [6, 7]) := by
      rw [zero, five.1]
      rfl
    have short := @length_printed_le src 5
    have room : ([] ++ [':'] ++ [5].flatMap (piece src)).length ≤ 30 := by
      simp only [List.flatMap_singleton, piece, List.length_append]
      simp
      omega
    refine format_of_loop found (by omega) ?_
    rw [whole, formatLoop_run positive, formatLoop_outside (by simp [outside, five.1]) (by simp),
      formatLoop_six encapsulated (outside 6 (by omega)) room]
    simp [piece, gapped, closed, text_shown]

/-! ### Reading what is printed -/

theorem wordBytes_wordsOf (place : Nat) :
    wordBytes (wordsOf src place) = [src (2 * place), src (2 * place + 1)] := by
  have high := (src (2 * place)).toNat_lt
  have low := (src (2 * place + 1)).toNat_lt
  have word : wordsOf src place =
      (src (2 * place)).toNat * 2 ^ 8 + (src (2 * place + 1)).toNat := by
    rw [wordsOf, ← Nat.shiftLeft_add_eq_or_of_lt low, Nat.shiftLeft_eq]
  have first : UInt8.ofNat (wordsOf src place >>> 8) = src (2 * place) := by
    rw [ofNat_of_mod (src (2 * place)).toNat, UInt8.ofNat_toNat]
    rw [word, Nat.shiftRight_eq_div_pow]
    omega
  have second : UInt8.ofNat (wordsOf src place) = src (2 * place + 1) := by
    rw [ofNat_of_mod (src (2 * place + 1)).toNat, UInt8.ofNat_toNat]
    omega
  rw [wordBytes, first, second]

theorem bytesOf_wordsOf (start count : Nat) :
    bytesOf ((List.range' start count).map (wordsOf src)) =
      (List.range' (2 * start) (2 * count)).map src := by
  induction count generalizing start with
  | zero => rfl
  | succ count inductionHypothesis =>
    rw [List.range'_succ, List.map_cons, bytesOf, List.flatMap_cons, ← bytesOf, inductionHypothesis,
      wordBytes_wordsOf]
    rfl

theorem bytesOf_zeroRun (zero : ZeroRun (wordsOf src) run) :
    bytesOf ((List.range' run.base run.len).map (wordsOf src)) =
      List.replicate (2 * run.len) 0 := by
  have words : (List.range' run.base run.len).map (wordsOf src) = List.replicate run.len 0 := by
    rw [List.eq_replicate_iff]
    refine ⟨by simp, fun word member => ?_⟩
    obtain ⟨place, inside, rfl⟩ := List.mem_map.mp member
    have bounds := List.mem_range'_1.mp inside
    exact zero place bounds.1 bounds.2
  rw [words, bytesOf_replicate_zero]

/-- The bytes of an address, along a run of zero words. -/
theorem bytes_of_run (isRun : RunOf (wordsOf src) run) :
    (List.range 16).map src =
      bytesOf ((List.range' 0 run.base).map (wordsOf src)) ++ List.replicate (2 * run.len) 0 ++
        bytesOf ((List.range' (run.base + run.len) (8 - (run.base + run.len))).map
          (wordsOf src)) := by
  rw [← bytesOf_zeroRun isRun.zero, ← bytesOf_append, ← bytesOf_append, ← List.map_append,
    ← List.map_append, List.append_assoc, ← range_eq_run isRun.inside, bytesOf_wordsOf,
    List.range_eq_range']

/-- An address whose text begins with `::` is zeros and the bytes that are read. -/
theorem assemble_tail {tail : List UInt8} (zero : run.base = 0) (isRun : RunOf (wordsOf src) run)
    (read : tail = (List.range' (2 * run.len) (16 - 2 * run.len)).map src) :
    assemble tail (some 0) = some ((List.range 16).map src) := by
  have positive := isRun.positive
  have inside := isRun.inside
  have length : tail.length = 16 - 2 * run.len := by
    rw [read, List.length_map, List.length_range']
  have placed := @assemble_gap [] tail (by rw [List.length_nil]; omega)
  rw [bytes_of_run isRun, bytesOf_wordsOf, bytesOf_wordsOf, zero, Nat.zero_add,
    Nat.mul_sub 2 8, ← read]
  rw [List.length_nil, Nat.zero_add, length, Nat.sub_sub_self (by omega)] at placed
  exact placed

/-- The text that is formatted is read as the address. -/
theorem inetPton6_format {text : List Char} (printed : format src = some text) :
    inetPton6 text = some ((List.range 16).map src) := by
  cases found : bestRun (wordsOf src) with
  | none =>
    rw [format_of_none found] at printed
    rw [← Option.some.inj printed, inetPton6_opened (by simp), if_pos (by simp),
      map_val_shown, bytesOf_wordsOf, List.range_eq_range']
  | some run =>
    obtain ⟨two, isRun⟩ := runOf_bestRun found
    have inside := isRun.inside
    by_cases encapsulated : Encapsulated (wordsOf src) (some run)
    · obtain ⟨zero, ⟨len, formatted⟩ | ⟨len, formatted⟩⟩ :=
        format_of_encapsulated found encapsulated
      · rw [formatted] at printed
        rw [← Option.some.inj printed, inetPton6_gapped (by simp),
          readFrom_dotted _ (by simp [bytesOf])]
        refine assemble_tail zero isRun ?_
        rw [len]
        rfl
      · rw [formatted] at printed
        rw [← Option.some.inj printed, inetPton6_gapped (by simp),
          readFrom_closed (by simp [bytesOf]), readFrom_dotted _ (by simp [bytesOf, wordBytes])]
        refine assemble_tail zero isRun ?_
        rw [show [shown src 5] = [5].map (shown src) from rfl, map_val_shown, len, bytesOf, bytesOf,
          List.map_singleton, List.flatMap_singleton, wordBytes_wordsOf]
        rfl
    · rw [format_of_run found encapsulated] at printed
      rw [← Option.some.inj printed, inetPton6_gapped_opened (by simp; omega),
        assemble_gap (by simp [length_bytesOf]; omega), map_val_shown, map_val_shown,
        bytes_of_run isRun, length_bytesOf, length_bytesOf]
      simp only [List.length_map, List.length_range']
      congr 4
      omega

/-! ### The size of the text -/

theorem length_closed_le (start count : Nat) :
    (closed ((List.range' start count).map (shown src))).length ≤ 5 * count := by
  induction count generalizing start with
  | zero => exact le_rfl
  | succ count inductionHypothesis =>
    have first := @length_printed_le src start
    have others := inductionHypothesis (start + 1)
    rw [List.range'_succ, List.map_cons, closed, List.flatMap_cons, ← closed, List.length_append,
      List.length_append, List.length_singleton, text_shown]
    omega

theorem length_opened_le (start count : Nat) :
    (opened ((List.range' start count).map (shown src))).length ≤ 5 * count := by
  cases count with
  | zero => exact le_rfl
  | succ count =>
    have bound := @length_closed_le src start (count + 1)
    rw [List.range'_succ, List.map_cons, closed_cons, List.length_append] at bound
    rw [List.range'_succ, List.map_cons]
    omega

theorem length_gapped_le (front : List HexWord) (tail : List Char) :
    (gapped front tail).length ≤ (closed front).length + tail.length + 2 := by
  cases front with
  | nil =>
    change tail.length + 1 + 1 ≤ 0 + tail.length + 2
    omega
  | cons word front =>
    rw [gapped, List.length_append, List.length_cons]
    omega

theorem exists_format (src : Nat → UInt8) : ∃ text, format src = some text ∧ text.length ≤ 42 := by
  cases found : bestRun (wordsOf src) with
  | none =>
    exact ⟨_, format_of_none found, (length_opened_le 0 8).trans (by omega)⟩
  | some run =>
    obtain ⟨two, isRun⟩ := runOf_bestRun found
    have inside := isRun.inside
    by_cases encapsulated : Encapsulated (wordsOf src) (some run)
    · have quad := length_dotted_le fun octet => src (12 + octet)
      obtain ⟨zero, ⟨-, formatted⟩ | ⟨-, formatted⟩⟩ := format_of_encapsulated found encapsulated
      · refine ⟨_, formatted, (length_gapped_le _ _).trans ?_⟩
        change 0 + _ + 2 ≤ _
        omega
      · refine ⟨_, formatted, (length_gapped_le _ _).trans ?_⟩
        have word : (closed [shown src 5]).length ≤ 5 := length_closed_le 5 1
        rw [List.length_append]
        change 0 + _ + 2 ≤ _
        omega
    · have front := @length_closed_le src 0 run.base
      have back := @length_opened_le src (run.base + run.len) (8 - (run.base + run.len))
      refine ⟨_, format_of_run found encapsulated, (length_gapped_le _ _).trans ?_⟩
      omega

/-- Into a buffer of 46 bytes `inet_ntop6` prints every address, and whatever it prints
`inet_pton6` reads as the address. -/
theorem inet_round_trip (src : Nat → UInt8) (size : Nat) :
    (46 ≤ size → ∃ text, inetNtop6 src size = some text) ∧
      ∀ text, inetNtop6 src size = some text →
        text.length < size ∧ inetPton6 text = some ((List.range 16).map src) := by
  constructor
  · intro enough
    obtain ⟨text, printed, short⟩ := exists_format src
    refine ⟨text, ?_⟩
    rw [inetNtop6, printed, Option.bind_some, if_neg (by omega)]
  · intro text printed
    obtain ⟨tmp, formatted, checked⟩ := Option.bind_eq_some_iff.mp printed
    obtain ⟨fits, same⟩ := Option.ite_none_left_eq_some.mp checked
    rw [← Option.some.inj same]
    exact ⟨by omega, inetPton6_format formatted⟩

end SocketC.Inet
