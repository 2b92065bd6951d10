/-
This file is the byte-order library: the bytes of a number with the lowest first,
as a little-endian machine stores it, and the number a list of bytes stands for.
The value of a list of bytes is the number with these digits in base 256, so that
the bounds and the injectivity are those of `Nat.ofDigits`.
-/

import Mathlib.Data.Nat.Digits.Lemmas
import Mathlib.Tactic

namespace SocketC.LittleEndian

/-- The low `count` bytes of a number. -/
def bytesOf : Nat → Nat → List UInt8
  | 0, _ => []
  | count + 1, value => UInt8.ofNat value :: bytesOf count (value / 256)

/-- The number that a list of bytes stands for. -/
def valueOf (bytes : List UInt8) : Nat := Nat.ofDigits 256 (bytes.map UInt8.toNat)

@[simp] theorem length_bytesOf (count value : Nat) : (bytesOf count value).length = count := by
  induction count generalizing value with
  | zero => rfl
  | succ count inductionHypothesis => rw [bytesOf, List.length_cons, inductionHypothesis]

/-- Bytes are digits. -/
theorem digit_lt (bytes : List UInt8) : ∀ digit ∈ bytes.map UInt8.toNat, digit < 256 := by
  intro digit member
  obtain ⟨byte, -, rfl⟩ := List.mem_map.mp member
  exact byte.toNat_lt

theorem valueOf_lt (bytes : List UInt8) : valueOf bytes < 256 ^ bytes.length := by
  have bound := Nat.ofDigits_lt_base_pow_length (by decide : 1 < 256) (digit_lt bytes)
  rw [List.length_map] at bound
  exact bound

/-- The low bytes of a number stand for it, when it fits. -/
theorem valueOf_bytesOf {count value : Nat} (fits : value < 256 ^ count) :
    valueOf (bytesOf count value) = value := by
  induction count generalizing value with
  | zero =>
    rw [pow_zero, Nat.lt_one_iff] at fits
    rw [fits]
    rfl
  | succ count inductionHypothesis =>
    have low : (UInt8.ofNat value).toNat = value % 256 := UInt8.toNat_ofNat'
    have high : value / 256 < 256 ^ count := by
      rw [Nat.div_lt_iff_lt_mul (by decide), ← pow_succ]
      exact fits
    have digits : valueOf (bytesOf (count + 1) value) =
        (UInt8.ofNat value).toNat + 256 * valueOf (bytesOf count (value / 256)) := by
      simp only [valueOf, bytesOf, List.map_cons, Nat.ofDigits_cons]
    rw [digits, low, inductionHypothesis high, Nat.mod_add_div]

/-- Two lists of bytes of one length that stand for the same number are the same. -/
theorem valueOf_injective {first second : List UInt8} (lengths : first.length = second.length)
    (same : valueOf first = valueOf second) : first = second := by
  have digits := Nat.ofDigits_inj_of_len_eq (by decide : 1 < 256)
    (by rw [List.length_map, List.length_map, lengths]) (digit_lt first) (digit_lt second) same
  exact List.map_injective_iff.mpr (fun _ _ => UInt8.toNat_inj.mp) digits

/-- A list of bytes is recovered from its value. -/
theorem bytesOf_valueOf {count : Nat} {bytes : List UInt8} (length : bytes.length = count) :
    bytesOf count (valueOf bytes) = bytes := by
  refine valueOf_injective (by rw [length_bytesOf, length]) (valueOf_bytesOf ?_)
  rw [← length]
  exact valueOf_lt bytes

end SocketC.LittleEndian
