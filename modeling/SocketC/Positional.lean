/-
This file develops positional numerals: lists of digits with the most significant one first.
A reader of such a numeral folds its digits into a sum. Every further digit only makes the sum
larger, so a limit can be checked at each digit as well as at the end, and a sum that wraps
around at each digit ends where the value wraps around once. The file also has the numeral that
a number is written as, which reads back as the number.
-/

import Mathlib.Data.Nat.Digits.Lemmas

namespace SocketC.Positional

variable {base sum number : Nat} {digits front back : List Nat}

/-! ### The value of a numeral -/

/-- The sum after further digits have been read. -/
def valueFrom (base : Nat) : Nat → List Nat → Nat :=
  List.foldl fun sum digit => sum * base + digit

/-- The value of a numeral. -/
def value (base : Nat) (digits : List Nat) : Nat := valueFrom base 0 digits

@[simp]
theorem valueFrom_nil : valueFrom base sum [] = sum := rfl

@[simp]
theorem valueFrom_cons (digit : Nat) :
    valueFrom base sum (digit :: digits) = valueFrom base (sum * base + digit) digits := rfl

/-- The sum only grows. -/
theorem le_valueFrom (positive : 0 < base) : sum ≤ valueFrom base sum digits := by
  induction digits generalizing sum with
  | nil => exact le_rfl
  | cons digit digits inductionHypothesis =>
    calc
      sum ≤ sum * base := Nat.le_mul_of_pos_right sum positive
      _ ≤ sum * base + digit := Nat.le_add_right _ _
      _ ≤ valueFrom base sum (digit :: digits) := inductionHypothesis

theorem valueFrom_append :
    valueFrom base sum (front ++ back) = valueFrom base (valueFrom base sum front) back :=
  List.foldl_append

theorem value_eq_ofDigits : value base digits = Nat.ofDigits base digits.reverse := by
  induction digits using List.reverseRecOn with
  | nil => rfl
  | append_singleton front digit inductionHypothesis =>
    rw [value, valueFrom_append, ← value, inductionHypothesis, List.reverse_append]
    simp only [valueFrom_cons, valueFrom_nil, List.reverse_singleton, List.singleton_append,
      Nat.ofDigits_cons]
    rw [Nat.mul_comm, Nat.add_comm]

/-- Zeros at the end multiply by the base. -/
theorem valueFrom_replicate_zero (count : Nat) :
    valueFrom base sum (List.replicate count 0) = sum * base ^ count := by
  induction count generalizing sum with
  | zero => rw [List.replicate_zero, valueFrom_nil, Nat.pow_zero, Nat.mul_one]
  | succ count inductionHypothesis =>
    rw [List.replicate_succ, valueFrom_cons, inductionHypothesis, Nat.add_zero, Nat.mul_assoc,
      Nat.pow_succ']

/-- A sum that wraps around at every digit has the value that wraps around once. -/
theorem valueFrom_mod (modulus : Nat) :
    valueFrom base (sum % modulus) digits % modulus = valueFrom base sum digits % modulus := by
  induction digits generalizing sum with
  | nil => exact Nat.mod_mod sum modulus
  | cons digit digits inductionHypothesis =>
    rw [valueFrom_cons, valueFrom_cons, ← inductionHypothesis,
      ← @inductionHypothesis (sum * base + digit)]
    congr 2
    rw [Nat.add_mod, Nat.mod_mul_mod, ← Nat.add_mod]

/-- A numeral of few digits is a small number. -/
theorem value_lt (big : 1 < base) (small : ∀ digit ∈ digits, digit < base) :
    value base digits < base ^ digits.length := by
  rw [value_eq_ofDigits, ← List.length_reverse]
  exact Nat.ofDigits_lt_base_pow_length big fun digit member =>
    small digit (List.mem_reverse.mp member)

/-! ### Writing a number -/

/-- The numeral of a number, without leading zeros. -/
def render (base number : Nat) : List Nat :=
  if number = 0 then [0] else (Nat.digits base number).reverse

theorem render_ne_nil : render base number ≠ [] := by
  rw [render]
  split
  · exact List.cons_ne_nil _ _
  · rename_i nonzero
    exact mt List.reverse_eq_nil_iff.mp (Nat.digits_ne_nil_iff_ne_zero.mpr nonzero)

theorem lt_of_mem_render (big : 1 < base) {digit : Nat} (member : digit ∈ render base number) :
    digit < base := by
  rw [render] at member
  split at member
  · rw [List.mem_singleton.mp member]
    exact Nat.zero_lt_of_lt big
  · exact Nat.digits_lt_base big (List.mem_reverse.mp member)

theorem value_render : value base (render base number) = number := by
  rw [render]
  split
  · rename_i zero
    rw [zero, value, valueFrom_cons, valueFrom_nil, Nat.zero_mul]
  · rw [value_eq_ofDigits, List.reverse_reverse, Nat.ofDigits_digits]

theorem length_render_le (big : 1 < base) {places : Nat} (positive : 0 < places)
    (bound : number < base ^ places) : (render base number).length ≤ places := by
  rw [render]
  split
  · exact positive
  · rw [List.length_reverse, Nat.digits_length_le_iff big]
    exact bound

end SocketC.Positional
