/-
This file is the circular-buffer library. The buffer is an array of `capacity`
slots with two wrapping indices and no element count: the pending values are
those read cyclically from the `get` index up to the `put` index. The count is
`(put - get) mod capacity`, so equal indices mean "empty" and one slot always
stays unused. Storing at the `put` index appends a value unless the advanced
index meets `get`; advancing the `get` index drops the first value.
-/

import Mathlib.Tactic

namespace SocketC.Ring

variable {Value : Type}

/-! ### Wrapping indices -/

/-- The next index, wrapping at the capacity. -/
def advance (capacity index : Nat) : Nat := if index + 1 = capacity then 0 else index + 1

/-- The number of pending values: `(put - get) mod capacity`. -/
def pending (capacity get put : Nat) : Nat := (put + capacity - get) % capacity

theorem advance_lt {capacity index : Nat} (bound : index < capacity) :
    advance capacity index < capacity := by
  unfold advance
  split <;> omega

theorem pending_of_le {capacity get put : Nat} (putBound : put < capacity) (ordered : get ≤ put) :
    pending capacity get put = put - get := by
  unfold pending
  rw [show put + capacity - get = put - get + capacity by omega, Nat.add_mod_right]
  exact Nat.mod_eq_of_lt (by omega)

theorem pending_of_lt {capacity get put : Nat} (getBound : get < capacity) (ordered : put < get) :
    pending capacity get put = put + capacity - get :=
  Nat.mod_eq_of_lt (by omega)

theorem pending_lt {capacity put : Nat} (get : Nat) (bound : put < capacity) :
    pending capacity get put < capacity :=
  Nat.mod_lt _ (by omega)

/-- Equal indices are the empty buffer. -/
theorem pending_eq_zero_iff {capacity get put : Nat} (getBound : get < capacity)
    (putBound : put < capacity) : pending capacity get put = 0 ↔ get = put := by
  rcases Nat.lt_or_ge put get with ordered | ordered
  · rw [pending_of_lt getBound ordered]
    omega
  · rw [pending_of_le putBound ordered]
    omega

/-- The count as C writes it, with a difference that may be negative. -/
theorem coe_pending {capacity get : Nat} (put : Nat) (getBound : get < capacity) :
    (pending capacity get put : Int) = ((put : Int) - get) % capacity := by
  have inside : get ≤ put + capacity := by omega
  rw [pending, Int.natCast_mod, Nat.cast_sub inside, Nat.cast_add,
    show (put : Int) + capacity - get = put - get + capacity by ring, Int.add_emod_right]

/-- Advancing the `put` index makes the indices meet exactly when one slot is left. -/
theorem advance_put_eq_get_iff {capacity get put : Nat} (getBound : get < capacity)
    (putBound : put < capacity) :
    advance capacity put = get ↔ pending capacity get put = capacity - 1 := by
  unfold advance
  rcases Nat.lt_or_ge put get with ordered | ordered
  · rw [pending_of_lt getBound ordered, if_neg (by omega)]
    omega
  · rw [pending_of_le putBound ordered]
    split <;> omega

/-- Unless the indices meet, advancing the `put` index adds one pending value. -/
theorem pending_advance_put {capacity get put : Nat} (getBound : get < capacity)
    (putBound : put < capacity) (room : advance capacity put ≠ get) :
    pending capacity get (advance capacity put) = pending capacity get put + 1 := by
  have advanced := advance_lt putBound
  have meaning : advance capacity put = if put + 1 = capacity then 0 else put + 1 := rfl
  rcases Nat.lt_or_ge put get with ordered | ordered
  · -- The pending values already wrap, so the advanced index is still below `get`.
    have below : advance capacity put < get := by
      rw [meaning] at room ⊢
      split at room <;> split <;> omega
    rw [pending_of_lt getBound below, pending_of_lt getBound ordered, meaning]
    split <;> omega
  · rw [pending_of_le putBound ordered]
    by_cases wraps : put + 1 = capacity
    · rw [meaning, if_pos wraps] at room ⊢
      rw [pending_of_lt getBound (by omega)]
      omega
    · rw [meaning, if_neg wraps]
      rw [pending_of_le (by omega) (by omega)]
      omega

/-- Advancing the `get` index of a non-empty buffer removes one pending value. -/
theorem pending_advance_get {capacity get put : Nat} (getBound : get < capacity)
    (putBound : put < capacity) (nonempty : get ≠ put) :
    pending capacity get put = pending capacity (advance capacity get) put + 1 := by
  have advanced := advance_lt getBound
  have meaning : advance capacity get = if get + 1 = capacity then 0 else get + 1 := rfl
  rcases Nat.lt_or_ge put get with ordered | ordered
  · rw [pending_of_lt getBound ordered]
    by_cases wraps : get + 1 = capacity
    · rw [meaning, if_pos wraps, pending_of_le putBound (Nat.zero_le _)]
      omega
    · rw [meaning, if_neg wraps, pending_of_lt (by omega) (by omega)]
      omega
  · rw [pending_of_le putBound ordered, meaning, if_neg (by omega),
      pending_of_le putBound (by omega)]
    omega

/-! ### The pending values -/

/-- The pending values, read cyclically from `get` up to `put`. -/
def contents (slots : Nat → Value) (capacity get put : Nat) : List Value :=
  (List.range (pending capacity get put)).map fun offset => slots ((get + offset) % capacity)

@[simp] theorem length_contents (slots : Nat → Value) (capacity get put : Nat) :
    (contents slots capacity get put).length = pending capacity get put := by
  simp [contents]

theorem contents_eq_nil_iff (slots : Nat → Value) {capacity get put : Nat}
    (getBound : get < capacity) (putBound : put < capacity) :
    contents slots capacity get put = [] ↔ get = put := by
  rw [← List.length_eq_zero_iff, length_contents, pending_eq_zero_iff getBound putBound]

/-- The slot `pending` places after `get` is the `put` slot. -/
theorem get_add_pending_mod {capacity get put : Nat} (getBound : get < capacity)
    (putBound : put < capacity) : (get + pending capacity get put) % capacity = put := by
  rcases Nat.lt_or_ge put get with ordered | ordered
  · rw [pending_of_lt getBound ordered, show get + (put + capacity - get) = put + capacity by omega,
      Nat.add_mod_right, Nat.mod_eq_of_lt putBound]
  · rw [pending_of_le putBound ordered, show get + (put - get) = put by omega,
      Nat.mod_eq_of_lt putBound]

/-- No pending slot is the `put` slot, so storing there overwrites nothing pending. -/
theorem get_add_mod_ne_put {capacity get put offset : Nat} (getBound : get < capacity)
    (putBound : put < capacity) (inside : offset < pending capacity get put) :
    (get + offset) % capacity ≠ put := by
  have small := pending_lt get putBound
  have place : (get + offset) % capacity =
      if get + offset < capacity then get + offset else get + offset - capacity := by
    split
    · exact Nat.mod_eq_of_lt ‹_›
    · rw [Nat.mod_eq_sub_mod (by omega)]
      exact Nat.mod_eq_of_lt (by omega)
  rw [place]
  rcases Nat.lt_or_ge put get with ordered | ordered
  · rw [pending_of_lt getBound ordered] at inside
    split <;> omega
  · rw [pending_of_le putBound ordered] at inside
    split <;> omega

theorem contents_update_put (slots : Nat → Value) {capacity get put : Nat} (value : Value)
    (getBound : get < capacity) (putBound : put < capacity) :
    contents (Function.update slots put value) capacity get put =
      contents slots capacity get put := by
  refine List.map_congr_left fun offset member => ?_
  exact Function.update_of_ne
    (get_add_mod_ne_put getBound putBound (List.mem_range.mp member)) _ _

/-- Storing at the `put` index and advancing it appends the value, unless the indices meet. -/
theorem contents_put (slots : Nat → Value) {capacity get put : Nat} (value : Value)
    (getBound : get < capacity) (putBound : put < capacity)
    (room : advance capacity put ≠ get) :
    contents (Function.update slots put value) capacity get (advance capacity put) =
      contents slots capacity get put ++ [value] := by
  rw [contents, pending_advance_put getBound putBound room, List.range_succ, List.map_append,
    List.map_singleton, get_add_pending_mod getBound putBound, Function.update_self]
  exact congrArg (· ++ [value]) (contents_update_put slots value getBound putBound)

/-- Slots read from the advanced `get` index are the slots read one place later. -/
theorem advance_add_mod {capacity get offset : Nat} :
    (advance capacity get + offset) % capacity = (get + (offset + 1)) % capacity := by
  by_cases wraps : get + 1 = capacity
  · rw [advance, if_pos wraps, ← wraps, show get + (offset + 1) = 0 + offset + (get + 1) by omega,
      Nat.add_mod_right]
  · rw [advance, if_neg wraps, show get + 1 + offset = get + (offset + 1) by omega]

/-- The first pending value of a non-empty buffer is in the `get` slot, and advancing the
`get` index drops it. -/
theorem contents_take (slots : Nat → Value) {capacity get put : Nat} (getBound : get < capacity)
    (putBound : put < capacity) (nonempty : get ≠ put) :
    contents slots capacity get put =
      slots get :: contents slots capacity (advance capacity get) put := by
  rw [contents, pending_advance_get getBound putBound nonempty, List.range_succ_eq_map,
    List.map_cons, Nat.add_zero, Nat.mod_eq_of_lt getBound, List.map_map]
  refine congrArg (slots get :: ·) (List.map_congr_left fun offset _ => ?_)
  exact congrArg slots advance_add_mod.symm

end SocketC.Ring
