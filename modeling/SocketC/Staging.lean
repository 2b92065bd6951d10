/-
This file is the library of memory copies and staging buffers. A copy into a memory puts
a list of bytes at consecutive positions and leaves the others alone; a copy out reads
them back.

A staging buffer holds bytes between a reader and a writer that both do as much as they
can: bytes come in behind the input mark and go out behind the output mark, and when the
output mark has caught up both return to the start. The marks are in order and inside the
buffer by construction, so every operation has to be given a number of bytes that fits.
-/

import Mathlib.Tactic

namespace SocketC

variable {Byte : Type}

/-! ### Copies -/

/-- Bytes at consecutive positions from `start` on. -/
def copyIn (memory : Nat → Byte) (start : Nat) (data : List Byte) : Nat → Byte :=
  fun position => if start ≤ position then data.getD (position - start) (memory position)
    else memory position

/-- The bytes at `length` consecutive positions from `start` on. -/
def copyOut (memory : Nat → Byte) (start length : Nat) : List Byte :=
  (List.range length).map fun offset => memory (start + offset)

theorem length_copyOut (memory : Nat → Byte) (start length : Nat) :
    (copyOut memory start length).length = length := by
  rw [copyOut, List.length_map, List.length_range]

theorem copyOut_copyIn (memory : Nat → Byte) (start : Nat) (data : List Byte) :
    copyOut (copyIn memory start data) start data.length = data := by
  refine List.ext_getElem (by simp [copyOut]) fun offset _ inside => ?_
  simp [copyOut, copyIn, inside]

/-- Bytes outside the copied range stay as they are. -/
theorem copyOut_copyIn_of_apart (memory : Nat → Byte) {start other length : Nat}
    {data : List Byte} (apart : other + length ≤ start ∨ start + data.length ≤ other) :
    copyOut (copyIn memory start data) other length = copyOut memory other length := by
  refine List.map_congr_left fun offset member => ?_
  have inside := List.mem_range.mp member
  unfold copyIn
  split
  · rw [List.getD_eq_getElem?_getD, List.getElem?_eq_none (by omega), Option.getD_none]
  · rfl

theorem copyOut_append (memory : Nat → Byte) (start first second : Nat) :
    copyOut memory start (first + second) =
      copyOut memory start first ++ copyOut memory (start + first) second := by
  simp only [copyOut, List.range_add, List.map_append, List.map_map]
  refine congrArg _ (List.map_congr_left fun offset _ => ?_)
  simp only [Function.comp_apply, Nat.add_assoc]

/-! ### Staging buffers -/

/-- A buffer of `size` bytes with its two marks. -/
structure Staging (Byte : Type) (size : Nat) where
  cells : Nat → Byte
  iptr : Nat
  optr : Nat
  ordered : optr ≤ iptr
  inside : iptr ≤ size

namespace Staging

variable {size : Nat}

/-- Both marks at the start. -/
def fresh (cells : Nat → Byte) : Staging Byte size := ⟨cells, 0, 0, le_refl _, Nat.zero_le _⟩

/-- The space behind the input mark. -/
def room (buffer : Staging Byte size) : Nat := size - buffer.iptr

/-- The number of bytes between the marks. -/
def pending (buffer : Staging Byte size) : Nat := buffer.iptr - buffer.optr

/-- The bytes between the marks. -/
def contents (buffer : Staging Byte size) : List Byte :=
  copyOut buffer.cells buffer.optr buffer.pending

/-- Bytes come in. -/
def fill (buffer : Staging Byte size) (bytes : List Byte) (fits : bytes.length ≤ buffer.room) :
    Staging Byte size where
  cells := copyIn buffer.cells buffer.iptr bytes
  iptr := buffer.iptr + bytes.length
  optr := buffer.optr
  ordered := Nat.le_add_right_of_le buffer.ordered
  inside := by
    have := buffer.inside
    unfold room at fits
    omega

/-- Bytes go out; a buffer that has become empty starts again. -/
def drain (buffer : Staging Byte size) (count : Nat) (there : count ≤ buffer.pending) :
    Staging Byte size :=
  if count = buffer.pending then fresh buffer.cells
  else ⟨buffer.cells, buffer.iptr, buffer.optr + count, by
    have := buffer.ordered
    unfold pending at there
    omega, buffer.inside⟩

theorem length_contents (buffer : Staging Byte size) : buffer.contents.length = buffer.pending :=
  length_copyOut _ _ _

theorem contents_eq_nil_iff (buffer : Staging Byte size) :
    buffer.contents = [] ↔ buffer.pending = 0 := by
  rw [← length_contents, List.length_eq_zero_iff]

theorem pending_fill (buffer : Staging Byte size) (bytes : List Byte)
    (fits : bytes.length ≤ buffer.room) :
    (buffer.fill bytes fits).pending = buffer.pending + bytes.length := by
  have ordered := buffer.ordered
  show buffer.iptr + bytes.length - buffer.optr = buffer.iptr - buffer.optr + bytes.length
  omega

theorem pending_drain (buffer : Staging Byte size) (count : Nat) (there : count ≤ buffer.pending) :
    (buffer.drain count there).pending = buffer.pending - count := by
  unfold drain
  split
  · rename_i all
    rw [all, Nat.sub_self]
    rfl
  · show buffer.iptr - (buffer.optr + count) = buffer.iptr - buffer.optr - count
    omega

theorem contents_fill (buffer : Staging Byte size) (bytes : List Byte)
    (fits : bytes.length ≤ buffer.room) :
    (buffer.fill bytes fits).contents = buffer.contents ++ bytes := by
  have mark : buffer.optr + buffer.pending = buffer.iptr := Nat.add_sub_cancel' buffer.ordered
  rw [contents, pending_fill, copyOut_append]
  show copyOut (copyIn buffer.cells buffer.iptr bytes) buffer.optr buffer.pending ++
    copyOut (copyIn buffer.cells buffer.iptr bytes) (buffer.optr + buffer.pending) bytes.length = _
  rw [mark, copyOut_copyIn, copyOut_copyIn_of_apart _ (Or.inl mark.le)]
  rfl

/-- What goes out is the front of what was there. -/
theorem contents_drain (buffer : Staging Byte size) (count : Nat) (there : count ≤ buffer.pending) :
    buffer.contents.take count ++ (buffer.drain count there).contents = buffer.contents := by
  have split : buffer.contents = copyOut buffer.cells buffer.optr count ++
      copyOut buffer.cells (buffer.optr + count) (buffer.pending - count) := by
    rw [← copyOut_append, Nat.add_sub_cancel' there]
    rfl
  have front : buffer.contents.take count = copyOut buffer.cells buffer.optr count := by
    rw [split, List.take_left' (length_copyOut _ _ _)]
  rw [front, split]
  refine congrArg _ ?_
  unfold drain
  split
  · rename_i all
    rw [all, Nat.sub_self]
    rfl
  · show copyOut buffer.cells (buffer.optr + count) (buffer.iptr - (buffer.optr + count)) = _
    rw [pending, Nat.sub_sub]

/-- A buffer whose marks meet only at the start has room or something to give. -/
def Primed (buffer : Staging Byte size) : Prop := buffer.pending = 0 → buffer.iptr = 0

theorem primed_fresh (cells : Nat → Byte) : (fresh cells : Staging Byte size).Primed := fun _ => rfl

theorem Primed.fill {buffer : Staging Byte size} (primed : buffer.Primed) (bytes : List Byte)
    (fits : bytes.length ≤ buffer.room) : (buffer.fill bytes fits).Primed := by
  intro empty
  have ordered := buffer.ordered
  have empty : buffer.iptr + bytes.length - buffer.optr = 0 := empty
  have before : buffer.iptr = 0 := primed (by unfold pending; omega)
  show buffer.iptr + bytes.length = 0
  omega

theorem primed_drain (buffer : Staging Byte size) {count : Nat} (there : count ≤ buffer.pending) :
    (buffer.drain count there).Primed := by
  unfold drain
  split
  · exact primed_fresh buffer.cells
  · rename_i some_left
    intro empty
    have empty : buffer.iptr - (buffer.optr + count) = 0 := empty
    unfold pending at there some_left
    omega

theorem Primed.room_or_pending {buffer : Staging Byte size} (primed : buffer.Primed)
    (positive : 0 < size) : 0 < buffer.room ∨ 0 < buffer.pending := by
  rcases Nat.eq_zero_or_pos buffer.pending with empty | some_there
  · left
    rw [room, primed empty]
    exact positive
  · exact Or.inr some_there

end Staging

end SocketC
