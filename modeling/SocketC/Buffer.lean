/-
This file is the library of C buffers. A buffer is known by the stores that were made
through pointers into it, the latest first; nothing bounds their indices, so that a
store outside of the buffer is a store like any other, and a cell that was never
stored to has no value. A text in a buffer ends at its terminator, the byte zero; the
formatting functions store a text and its terminator, with or without a limit.
-/

import Mathlib.Tactic

namespace SocketC

/-- The stores made so far, the latest first. -/
structure Buffer (Byte : Type) where
  stores : List (Int × Byte)

namespace Buffer

variable {Byte : Type}

/-! ### Stores -/

/-- A buffer that nothing was stored in. -/
def empty : Buffer Byte := ⟨[]⟩

def store (buffer : Buffer Byte) (index : Int) (byte : Byte) : Buffer Byte :=
  ⟨(index, byte) :: buffer.stores⟩

/-- The byte last stored at an index. -/
def cell (buffer : Buffer Byte) (index : Int) : Option Byte := buffer.stores.lookup index

/-- All stores were made at the indices of an array of this size. -/
def Within (buffer : Buffer Byte) (size : Nat) : Prop :=
  ∀ entry ∈ buffer.stores, 0 ≤ entry.1 ∧ entry.1 < size

instance (buffer : Buffer Byte) (size : Nat) : Decidable (buffer.Within size) :=
  inferInstanceAs (Decidable (∀ entry ∈ buffer.stores, 0 ≤ entry.1 ∧ entry.1 < size))

/-- Bytes stored one after the other. -/
def write (buffer : Buffer Byte) (start : Int) : List Byte → Buffer Byte
  | [] => buffer
  | byte :: rest => (buffer.store start byte).write (start + 1) rest

theorem cell_store_self (buffer : Buffer Byte) (index : Int) (byte : Byte) :
    (buffer.store index byte).cell index = some byte :=
  List.lookup_cons_self

theorem cell_store_of_ne (buffer : Buffer Byte) {index other : Int} (byte : Byte)
    (different : other ≠ index) : (buffer.store index byte).cell other = buffer.cell other := by
  rw [cell, store, List.lookup_cons, beq_eq_false_iff_ne.mpr different]
  rfl

theorem within_empty (size : Nat) : (empty : Buffer Byte).Within size :=
  fun _ member => absurd member List.not_mem_nil

theorem within_store_iff {buffer : Buffer Byte} {index : Int} {byte : Byte} {size : Nat} :
    (buffer.store index byte).Within size ↔ (0 ≤ index ∧ index < size) ∧ buffer.Within size :=
  List.forall_mem_cons

theorem write_append (buffer : Buffer Byte) (start : Int) (front back : List Byte) :
    buffer.write start (front ++ back) =
      (buffer.write start front).write (start + front.length) back := by
  induction front generalizing buffer start with
  | nil => rw [List.nil_append, write, List.length_nil, Nat.cast_zero, add_zero]
  | cons byte front inductionHypothesis =>
    rw [List.cons_append, write, inductionHypothesis, write, List.length_cons, Nat.cast_succ,
      add_assoc, add_comm (1 : Int)]

/-- The cells before the first one stored keep their bytes. -/
theorem cell_write_of_lt (buffer : Buffer Byte) {start index : Int} (bytes : List Byte)
    (before : index < start) : (buffer.write start bytes).cell index = buffer.cell index := by
  induction bytes generalizing buffer start with
  | nil => rfl
  | cons byte rest inductionHypothesis =>
    rw [write, inductionHypothesis _ (by omega), cell_store_of_ne _ _ (by omega)]

/-- The bytes are found where they were stored. -/
theorem cell_write (buffer : Buffer Byte) (start : Int) {bytes : List Byte} {offset : Nat}
    {byte : Byte} (found : bytes[offset]? = some byte) :
    (buffer.write start bytes).cell (start + offset) = some byte := by
  induction bytes generalizing buffer start offset with
  | nil => cases found
  | cons first rest inductionHypothesis =>
    rw [write]
    cases offset with
    | zero =>
      obtain rfl := Option.some.inj found
      rw [Nat.cast_zero, add_zero, cell_write_of_lt _ _ (by omega), cell_store_self]
    | succ offset =>
      rw [show start + ((offset + 1 : Nat) : Int) = start + 1 + offset by push_cast; ring]
      exact inductionHypothesis _ _ found

theorem within_write_iff {buffer : Buffer Byte} {start : Int} {bytes : List Byte} {size : Nat} :
    (buffer.write start bytes).Within size ↔
      (bytes ≠ [] → 0 ≤ start ∧ start + bytes.length ≤ size) ∧ buffer.Within size := by
  induction bytes generalizing buffer start with
  | nil => exact (and_iff_right fun absurdity => absurd rfl absurdity).symm
  | cons byte rest inductionHypothesis =>
    rw [write, inductionHypothesis, within_store_iff, ← and_assoc]
    refine and_congr_left fun _ => ?_
    have length : ((byte :: rest).length : Int) = rest.length + 1 := by
      rw [List.length_cons, Nat.cast_succ]
    rw [length]
    cases rest with
    | nil => simp
    | cons second rest =>
      simp only [ne_eq, reduceCtorEq, not_false_eq_true, forall_const]
      have positive : (0 : Int) ≤ (second :: rest).length := Int.natCast_nonneg _
      omega

/-! ### What a buffer holds -/

/-- The buffer holds these bytes from its first cell on. -/
def Holds (buffer : Buffer Byte) (bytes : List Byte) : Prop :=
  ∀ (offset : Nat) (byte : Byte), bytes[offset]? = some byte → buffer.cell offset = some byte

theorem holds_nil (buffer : Buffer Byte) : buffer.Holds [] := fun _ _ found => nomatch found

/-- Bytes stored behind those that the buffer holds. -/
theorem Holds.write {buffer : Buffer Byte} {front : List Byte} (holds : buffer.Holds front)
    (back : List Byte) : (buffer.write front.length back).Holds (front ++ back) := by
  intro offset byte found
  rcases Nat.lt_or_ge offset front.length with earlier | later
  · rw [List.getElem?_append_left earlier] at found
    rw [cell_write_of_lt _ _ (by exact_mod_cast earlier)]
    exact holds offset byte found
  · rw [List.getElem?_append_right later] at found
    have stored := cell_write buffer front.length found
    rwa [← Nat.cast_add, Nat.add_sub_cancel' later] at stored

theorem Holds.front {buffer : Buffer Byte} {front back : List Byte}
    (holds : buffer.Holds (front ++ back)) : buffer.Holds front := by
  intro offset byte found
  refine holds offset byte ?_
  rwa [List.getElem?_append_left (List.getElem?_eq_some_iff.mp found).1]

/-- Every byte that a buffer holds was stored. -/
theorem Holds.length_le {buffer : Buffer Byte} {bytes : List Byte} (holds : buffer.Holds bytes) :
    bytes.length ≤ buffer.stores.length := by
  have distinct : ((List.range bytes.length).map (Nat.cast : Nat → Int)).Nodup :=
    List.nodup_range.map Nat.cast_injective
  have stored : (List.range bytes.length).map (Nat.cast : Nat → Int) ⊆
      buffer.stores.map Prod.fst := by
    intro index member
    obtain ⟨offset, inside, rfl⟩ := List.mem_map.mp member
    have found := holds offset _ (List.getElem?_eq_getElem (List.mem_range.mp inside))
    obtain ⟨front, back, split, -⟩ := List.lookup_eq_some_iff.mp found
    rw [split]
    exact List.mem_map_of_mem (List.mem_append_right _ List.mem_cons_self)
  have count := (List.subperm_of_subset distinct stored).length_le
  rwa [List.length_map, List.length_range, List.length_map] at count

/-- What is read from the first cells. -/
def read (buffer : Buffer Byte) (count : Nat) : List (Option Byte) :=
  (List.range count).map fun index : Nat => buffer.cell index

theorem Holds.read_eq {buffer : Buffer Byte} {bytes : List Byte} (holds : buffer.Holds bytes) :
    buffer.read bytes.length = bytes.map some := by
  refine List.ext_getElem (by rw [read, List.length_map, List.length_map, List.length_range]) ?_
  intro index inside _
  rw [read, List.length_map, List.length_range] at inside
  simp only [read, List.getElem_map, List.getElem_range]
  exact holds index _ (List.getElem?_eq_getElem inside)

/-! ### Texts -/

/-- A text: it has no terminator in it. -/
structure Text (Byte : Type) [Zero Byte] where
  bytes : List Byte
  plain : 0 ∉ bytes

section Texts

variable [Zero Byte]

def Text.length (text : Text Byte) : Nat := text.bytes.length

/-- A text behind a text. -/
def Text.append (front back : Text Byte) : Text Byte where
  bytes := front.bytes ++ back.bytes
  plain := fun member => (List.mem_append.mp member).elim front.plain back.plain

instance : Append (Text Byte) := ⟨Text.append⟩

/-- The front of a text. -/
def Text.take (text : Text Byte) (count : Nat) : Text Byte where
  bytes := text.bytes.take count
  plain := fun member => text.plain (List.mem_of_mem_take member)

theorem Text.length_append (front back : Text Byte) :
    (front ++ back).length = front.length + back.length := List.length_append

theorem Text.length_take (text : Text Byte) (count : Nat) :
    (text.take count).length = min count text.length := List.length_take

theorem Text.take_of_length_le {text : Text Byte} {count : Nat} (whole : text.length ≤ count) :
    text.take count = text := by
  cases text with
  | mk bytes plain =>
    rw [Text.take, Text.mk.injEq]
    exact List.take_of_length_le whole

/-- The buffer holds a text and its terminator. -/
def HoldsText (buffer : Buffer Byte) (text : Text Byte) : Prop := buffer.Holds (text.bytes ++ [0])

theorem HoldsText.terminator {buffer : Buffer Byte} {text : Text Byte}
    (holds : buffer.HoldsText text) : buffer.cell text.length = some 0 := by
  refine holds text.length 0 ?_
  rw [Text.length, List.getElem?_append_right le_rfl, Nat.sub_self]
  rfl

/-- `sprintf` behind a pointer: the text and a terminator, as long as it may be. -/
def sprintf (buffer : Buffer Byte) (start : Int) (text : Text Byte) : Buffer Byte :=
  buffer.write start (text.bytes ++ [0])

/-- `snprintf` behind a pointer: at most `size - 1` bytes of the text and a terminator, and
nothing if the size is zero. -/
def snprintf (buffer : Buffer Byte) (start : Int) (size : Nat) (text : Text Byte) : Buffer Byte :=
  if size = 0 then buffer else buffer.sprintf start (text.take (size - 1))

theorem holdsText_sprintf (text : Text Byte) :
    (Buffer.empty.sprintf 0 text).HoldsText text :=
  (holds_nil empty).write (text.bytes ++ [0])

/-- A text stored where the text in the buffer ends. -/
theorem HoldsText.sprintf {buffer : Buffer Byte} {front : Text Byte}
    (holds : buffer.HoldsText front) (back : Text Byte) :
    (buffer.sprintf front.length back).HoldsText (front ++ back) := by
  have kept : buffer.Holds front.bytes := Holds.front holds
  have stored := kept.write (back.bytes ++ [0])
  rw [← List.append_assoc] at stored
  exact stored

theorem snprintf_of_pos {size : Nat} (positive : 0 < size) (buffer : Buffer Byte) (start : Int)
    (text : Text Byte) :
    buffer.snprintf start size text = buffer.sprintf start (text.take (size - 1)) :=
  if_neg positive.ne'

theorem within_sprintf_iff {buffer : Buffer Byte} {start : Int} {text : Text Byte} {size : Nat} :
    (buffer.sprintf start text).Within size ↔
      (0 ≤ start ∧ start + text.length < size) ∧ buffer.Within size := by
  have nonempty : text.bytes ++ [0] ≠ [] :=
    List.append_ne_nil_of_right_ne_nil _ (List.cons_ne_nil _ _)
  rw [Buffer.sprintf, within_write_iff, List.length_append, List.length_singleton, Text.length]
  refine and_congr_left fun _ => ⟨fun bound => ?_, fun bound _ => ?_⟩
  · have inside := bound nonempty
    push_cast at inside
    omega
  · push_cast
    omega

variable [DecidableEq Byte]

/-- `strlen`: the index of the first terminator. -/
def strlen (buffer : Buffer Byte) : Nat :=
  (List.range buffer.stores.length).findIdx fun index : Nat => buffer.cell index = some 0

/-- `strcat`. -/
def strcat (buffer : Buffer Byte) (text : Text Byte) : Buffer Byte :=
  buffer.sprintf buffer.strlen text

theorem HoldsText.strlen_eq {buffer : Buffer Byte} {text : Text Byte}
    (holds : buffer.HoldsText text) : buffer.strlen = text.length := by
  have enough := Holds.length_le holds
  rw [List.length_append, List.length_singleton] at enough
  have here : text.bytes.length < (List.range buffer.stores.length).length := by
    rw [List.length_range]
    exact enough
  rw [strlen, Text.length, List.findIdx_eq here]
  refine ⟨?_, fun index before => ?_⟩
  · rw [List.getElem_range, decide_eq_true_eq]
    exact holds.terminator
  · rw [List.getElem_range, decide_eq_false_iff_not]
    intro zero
    have found := holds index _ (by
      rw [List.getElem?_append_left before, List.getElem?_eq_getElem before])
    rw [zero] at found
    exact text.plain (Option.some.inj found ▸ List.getElem_mem before)

/-- What a reader of the text finds. -/
theorem HoldsText.read_strlen {buffer : Buffer Byte} {text : Text Byte}
    (holds : buffer.HoldsText text) : buffer.read buffer.strlen = text.bytes.map some := by
  rw [holds.strlen_eq]
  exact (Holds.front holds).read_eq

theorem HoldsText.strcat {buffer : Buffer Byte} {front : Text Byte}
    (holds : buffer.HoldsText front) (back : Text Byte) :
    (buffer.strcat back).HoldsText (front ++ back) := by
  rw [Buffer.strcat, holds.strlen_eq]
  exact holds.sprintf back

end Texts

end Buffer

end SocketC
