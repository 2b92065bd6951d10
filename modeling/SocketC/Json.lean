/-
This file models the JSON values of `framework/json.hpp` as far as the vehicle
command client uses them: `contains` and `operator[]`, the comparison of two
values, `is_string`, and the conversions `get<int>` and `get<std::string>`, which
throw on values of another type.

A number is an unsigned or a signed 64-bit integer or a finite `double`, which is
the rational number it stands for. Numbers of different types are compared after a
conversion of one of them: an unsigned integer is read as a signed one, an integer
is rounded to a `double`. So the comparison is no equivalence: two integers can
equal one `double` and not each other. It is one on values whose integers have at
most 53 bits, where it compares what the values stand for.

What `get<int>` makes of a `double` outside the range of `int` is not laid down by
the language. It is a parameter here, and what is proved holds for every choice.
-/

import Mathlib.Tactic

namespace SocketC

/-- A JSON value. The fields of an object stand in the order of their keys. -/
inductive Json where
  | null
  | boolean (value : Bool)
  | numberUnsigned (value : BitVec 64)
  | numberInteger (value : BitVec 64)
  | numberFloat (value : ℚ)
  | string (value : String)
  | array (elements : List Json)
  | object (fields : List (String × Json))

namespace Json

/-! ### Comparison -/

/-- The `double` nearest to a natural number; of two nearest ones, the one with the even
significand. -/
def doubleOfNat (value : Nat) : Nat :=
  let unit := 2 ^ (value.log2 - 52)
  let low := value % unit
  let significand := value / unit
  if unit < 2 * low ∨ (2 * low = unit ∧ significand % 2 = 1) then (significand + 1) * unit
  else significand * unit

/-- The `double` nearest to an integer. -/
def doubleOfInt : Int → ℚ
  | .ofNat value => doubleOfNat value
  | .negSucc value => -(doubleOfNat (value + 1) : ℚ)

mutual

/-- `operator==`. -/
def equals : Json → Json → Bool
  | .null, .null => true
  | .boolean left, .boolean right => left == right
  | .numberUnsigned left, .numberUnsigned right => left == right
  | .numberInteger left, .numberInteger right => left == right
  | .numberFloat left, .numberFloat right => left == right
  | .numberInteger left, .numberFloat right => doubleOfInt left.toInt == right
  | .numberFloat left, .numberInteger right => left == doubleOfInt right.toInt
  | .numberUnsigned left, .numberFloat right => (doubleOfNat left.toNat : ℚ) == right
  | .numberFloat left, .numberUnsigned right => left == (doubleOfNat right.toNat : ℚ)
  | .numberUnsigned left, .numberInteger right => left == right
  | .numberInteger left, .numberUnsigned right => left == right
  | .string left, .string right => left == right
  | .array left, .array right => equalsElements left right
  | .object left, .object right => equalsFields left right
  | _, _ => false

/-- The comparison of two arrays. -/
def equalsElements : List Json → List Json → Bool
  | [], [] => true
  | left :: lefts, right :: rights => left.equals right && equalsElements lefts rights
  | _, _ => false

/-- The comparison of two objects. -/
def equalsFields : List (String × Json) → List (String × Json) → Bool
  | [], [] => true
  | (leftKey, left) :: lefts, (rightKey, right) :: rights =>
    leftKey == rightKey && left.equals right && equalsFields lefts rights
  | _, _ => false

end

mutual

/-- A value equals itself. -/
theorem equals_self : ∀ value : Json, value.equals value = true
  | .null => rfl
  | .boolean value => by rw [equals, beq_self_eq_true]
  | .numberUnsigned value => by rw [equals, beq_self_eq_true]
  | .numberInteger value => by rw [equals, beq_self_eq_true]
  | .numberFloat value => by rw [equals, beq_self_eq_true]
  | .string value => by rw [equals, beq_self_eq_true]
  | .array elements => by rw [equals, equalsElements_self elements]
  | .object fields => by rw [equals, equalsFields_self fields]

theorem equalsElements_self : ∀ elements : List Json, equalsElements elements elements = true
  | [] => rfl
  | value :: rest => by rw [equalsElements, equals_self value, equalsElements_self rest]; rfl

theorem equalsFields_self : ∀ fields : List (String × Json), equalsFields fields fields = true
  | [] => rfl
  | (key, value) :: rest => by
    rw [equalsFields, beq_self_eq_true, equals_self value, equalsFields_self rest]
    rfl

end

/-! ### Where the comparison is an equivalence -/

theorem doubleOfNat_of_lt {value : Nat} (small : value < 2 ^ 53) : doubleOfNat value = value := by
  have unit : value.log2 - 52 = 0 := by
    rcases Nat.eq_zero_or_pos value with rfl | positive
    · rfl
    · have bits := (Nat.log2_lt positive.ne').mpr small
      omega
  simp only [doubleOfNat, unit, pow_zero, Nat.mod_one, Nat.div_one, mul_one, mul_zero]
  rw [if_neg (by omega)]

theorem doubleOfInt_of_lt {value : Int} (small : value.natAbs < 2 ^ 53) :
    doubleOfInt value = value := by
  cases value with
  | ofNat value =>
    have same : doubleOfNat value = value := doubleOfNat_of_lt small
    rw [doubleOfInt, same]
    rfl
  | negSucc value =>
    have same : doubleOfNat (value + 1) = value + 1 := doubleOfNat_of_lt small
    rw [doubleOfInt, same, Int.cast_negSucc]

mutual

/-- The integers in the value have at most 53 bits, so that a `double` holds them. -/
def Exact : Json → Prop
  | .numberUnsigned value => value.toNat < 2 ^ 53
  | .numberInteger value => value.toInt.natAbs < 2 ^ 53
  | .array elements => ExactElements elements
  | .object fields => ExactFields fields
  | .null | .boolean _ | .numberFloat _ | .string _ => True

def ExactElements : List Json → Prop
  | [] => True
  | value :: rest => value.Exact ∧ ExactElements rest

def ExactFields : List (String × Json) → Prop
  | [] => True
  | (_, value) :: rest => value.Exact ∧ ExactFields rest

end

mutual

/-- The value with every number as the rational number it stands for. -/
def canonical : Json → Json
  | .null => .null
  | .boolean value => .boolean value
  | .numberUnsigned value => .numberFloat value.toNat
  | .numberInteger value => .numberFloat value.toInt
  | .numberFloat value => .numberFloat value
  | .string value => .string value
  | .array elements => .array (canonicalElements elements)
  | .object fields => .object (canonicalFields fields)

def canonicalElements : List Json → List Json
  | [] => []
  | value :: rest => value.canonical :: canonicalElements rest

def canonicalFields : List (String × Json) → List (String × Json)
  | [] => []
  | (key, value) :: rest => (key, value.canonical) :: canonicalFields rest

end

theorem unsigned_eq_integer_iff {left right : BitVec 64} (small : left.toNat < 2 ^ 53) :
    left = right ↔ (left.toNat : ℚ) = right.toInt := by
  have unsigned : left.toInt = left.toNat := by
    rw [BitVec.toInt_eq_toNat_of_lt]
    omega
  rw [← BitVec.toInt_inj, unsigned]
  exact ⟨fun same => by rw [← same]; rfl, fun same => by exact_mod_cast same⟩

mutual

/-- Values whose integers have at most 53 bits are equal when they stand for the same. -/
theorem equals_iff_canonical : ∀ {left right : Json}, left.Exact → right.Exact →
    (left.equals right = true ↔ left.canonical = right.canonical)
  | .null, right, _, _ => by cases right <;> simp [equals, canonical]
  | .boolean left, right, _, _ => by cases right <;> simp [equals, canonical]
  | .string left, right, _, _ => by cases right <;> simp [equals, canonical]
  | .numberUnsigned left, right, exactLeft, _ => by
    cases right with
    | numberUnsigned right => simp [equals, canonical, BitVec.toNat_inj]
    | numberInteger right =>
      simp only [equals, canonical, beq_iff_eq, numberFloat.injEq]
      exact unsigned_eq_integer_iff exactLeft
    | numberFloat right => simp [equals, canonical, doubleOfNat_of_lt exactLeft]
    | null | boolean | string | array | object => simp [equals, canonical]
  | .numberInteger left, right, exactLeft, exactRight => by
    cases right with
    | numberUnsigned right =>
      simp only [equals, canonical, beq_iff_eq, numberFloat.injEq]
      rw [eq_comm, unsigned_eq_integer_iff exactRight, eq_comm]
    | numberInteger right => simp [equals, canonical, BitVec.toInt_inj]
    | numberFloat right => simp [equals, canonical, doubleOfInt_of_lt exactLeft]
    | null | boolean | string | array | object => simp [equals, canonical]
  | .numberFloat left, right, _, exactRight => by
    cases right with
    | numberUnsigned right => simp [equals, canonical, doubleOfNat_of_lt exactRight]
    | numberInteger right => simp [equals, canonical, doubleOfInt_of_lt exactRight]
    | numberFloat right => simp [equals, canonical]
    | null | boolean | string | array | object => simp [equals, canonical]
  | .array left, right, exactLeft, exactRight => by
    cases right with
    | array right =>
      simp only [equals, canonical, array.injEq]
      exact equalsElements_iff_canonical exactLeft exactRight
    | null | boolean | numberUnsigned | numberInteger | numberFloat | string | object =>
      simp [equals, canonical]
  | .object left, right, exactLeft, exactRight => by
    cases right with
    | object right =>
      simp only [equals, canonical, object.injEq]
      exact equalsFields_iff_canonical exactLeft exactRight
    | null | boolean | numberUnsigned | numberInteger | numberFloat | string | array =>
      simp [equals, canonical]

theorem equalsElements_iff_canonical : ∀ {left right : List Json}, ExactElements left →
    ExactElements right →
    (equalsElements left right = true ↔ canonicalElements left = canonicalElements right)
  | [], [], _, _ => by simp only [equalsElements]
  | [], _ :: _, _, _ | _ :: _, [], _, _ => by simp [equalsElements, canonicalElements]
  | left :: lefts, right :: rights, exactLeft, exactRight => by
    simp only [equalsElements, canonicalElements, Bool.and_eq_true, List.cons.injEq]
    exact and_congr (equals_iff_canonical exactLeft.1 exactRight.1)
      (equalsElements_iff_canonical exactLeft.2 exactRight.2)

theorem equalsFields_iff_canonical : ∀ {left right : List (String × Json)}, ExactFields left →
    ExactFields right →
    (equalsFields left right = true ↔ canonicalFields left = canonicalFields right)
  | [], [], _, _ => by simp only [equalsFields]
  | [], _ :: _, _, _ | _ :: _, [], _, _ => by simp [equalsFields, canonicalFields]
  | (leftKey, left) :: lefts, (rightKey, right) :: rights, exactLeft, exactRight => by
    simp only [equalsFields, canonicalFields, Bool.and_eq_true, List.cons.injEq, Prod.mk.injEq,
      beq_iff_eq, and_assoc]
    exact and_congr_right fun _ => and_congr (equals_iff_canonical exactLeft.1 exactRight.1)
      (equalsFields_iff_canonical exactLeft.2 exactRight.2)

end

/-! ### Access -/

/-- `operator[]` of an object; nothing where `contains` is false, as for every value that is not
an object. -/
def lookup (value : Json) (key : String) : Option Json :=
  match value with
  | .object fields => (fields.find? fun field => field.1 == key).map Prod.snd
  | _ => none

/-! ### Conversion -/

/-- `type_name`. -/
def typeName : Json → String
  | .null => "null"
  | .object _ => "object"
  | .array _ => "array"
  | .string _ => "string"
  | .boolean _ => "boolean"
  | .numberUnsigned _ | .numberInteger _ | .numberFloat _ => "number"

/-- A `type_error`, by its number and its message. -/
structure TypeError where
  id : Nat
  message : String
  deriving DecidableEq

/-- What the compiled program makes of a `double` whose whole part is outside the range of `int`,
when it converts it. The language does not say. -/
class IntConversion where
  outside : ℚ → BitVec 32

namespace X86

/-- The processors of x86-64 answer with the least `int`. -/
scoped instance intConversion : IntConversion := ⟨fun _ => BitVec.intMin 32⟩

end X86

/-- The conversion of an integer to `int`. -/
def toInt32 (value : Int) : Int := value.bmod (2 ^ 32)

/-- The conversion of a `double` to `int`: a fraction is cut off. -/
def truncate [IntConversion] (value : ℚ) : Int :=
  let whole := value.num.tdiv value.den
  if -2 ^ 31 ≤ whole ∧ whole < 2 ^ 31 then whole else (IntConversion.outside value).toInt

/-- `get<int>`: any number, or a boolean. -/
def getInt [IntConversion] : Json → Except TypeError Int
  | .boolean value => .ok (if value then 1 else 0)
  | .numberUnsigned value => .ok (toInt32 value.toNat)
  | .numberInteger value => .ok (toInt32 value.toInt)
  | .numberFloat value => .ok (truncate value)
  | value => .error ⟨302, "type must be number, but is " ++ value.typeName⟩

/-- `get<std::string>`. -/
def getString : Json → Except TypeError String
  | .string value => .ok value
  | value => .error ⟨302, "type must be string, but is " ++ value.typeName⟩

/-- A number or a boolean. -/
def isNumeric : Json → Bool
  | .boolean _ | .numberUnsigned _ | .numberInteger _ | .numberFloat _ => true
  | .null | .string _ | .array _ | .object _ => false

/-- `is_string`. -/
def isString : Json → Bool
  | .string _ => true
  | _ => false

/-- An integer other than zero. -/
def isNonzeroInteger : Json → Bool
  | .numberUnsigned value | .numberInteger value => value ≠ 0
  | .null | .boolean _ | .numberFloat _ | .string _ | .array _ | .object _ => false

/-- `get<int>` returns on numbers and booleans, and throws on everything else. -/
theorem getInt_cases [IntConversion] (value : Json) :
    (value.isNumeric = true ∧ ∃ v, value.getInt = .ok v) ∨
      (value.isNumeric = false ∧ ∃ error, value.getInt = .error error) := by
  cases value <;> first | exact Or.inl ⟨rfl, _, rfl⟩ | exact Or.inr ⟨rfl, _, rfl⟩

/-- `get<std::string>` returns on strings, and throws on everything else. -/
theorem getString_cases (value : Json) :
    (value.isString = true ∧ ∃ text, value.getString = .ok text) ∨
      (value.isString = false ∧ ∃ error, value.getString = .error error) := by
  cases value <;> first | exact Or.inl ⟨rfl, _, rfl⟩ | exact Or.inr ⟨rfl, _, rfl⟩

/-! ### Flags -/

/-- A value that `get<int>` reads as zero exactly when it is not a non-zero integer. Not so the
multiples of 2^32, which are read as zero, and what is no integer and read as another number. -/
def Plain [IntConversion] : Json → Prop
  | .numberUnsigned value | .numberInteger value => value = 0 ∨ value.setWidth 32 ≠ 0
  | .boolean value => value = false
  | .numberFloat value => truncate value = 0
  | .null | .string _ | .array _ | .object _ => True

theorem toInt32_eq_zero_iff (value : Int) : toInt32 value = 0 ↔ value % 2 ^ 32 = 0 := by
  rw [toInt32, Int.bmod_def]
  omega

theorem setWidth_eq_zero_iff (value : BitVec 64) :
    value.setWidth 32 = 0 ↔ value.toNat % 2 ^ 32 = 0 := by
  rw [← BitVec.toNat_inj, BitVec.toNat_setWidth]
  rfl

theorem toInt32_toNat_eq_zero_iff (value : BitVec 64) :
    toInt32 value.toNat = 0 ↔ value.setWidth 32 = 0 := by
  rw [toInt32_eq_zero_iff, setWidth_eq_zero_iff]
  omega

theorem toInt32_toInt_eq_zero_iff (value : BitVec 64) :
    toInt32 value.toInt = 0 ↔ value.setWidth 32 = 0 := by
  rw [toInt32_eq_zero_iff, setWidth_eq_zero_iff, BitVec.toInt_eq_toNat_cond]
  split <;> omega

/-- The flag of an integer and of its low word are the same unless the low word alone is zero. -/
theorem nonzero_eq_iff {value : BitVec 64} {v : Int} (zero : v = 0 ↔ value.setWidth 32 = 0) :
    decide (value ≠ 0) = decide (v ≠ 0) ↔ value = 0 ∨ value.setWidth 32 ≠ 0 := by
  have low : value = 0 → value.setWidth 32 = 0 := by
    rintro rfl
    rfl
  rw [decide_eq_decide, ne_eq, ne_eq, not_iff_not, zero]
  tauto

theorem plain_iff [IntConversion] {value : Json} {v : Int} (converted : value.getInt = .ok v) :
    value.isNonzeroInteger = decide (v ≠ 0) ↔ value.Plain := by
  cases value with
  | boolean value =>
    rw [← Except.ok.inj converted]
    cases value <;> simp [isNonzeroInteger, Plain]
  | numberUnsigned value =>
    simp only [getInt, Except.ok.injEq] at converted
    rw [isNonzeroInteger, Plain, ← converted]
    exact nonzero_eq_iff (toInt32_toNat_eq_zero_iff value)
  | numberInteger value =>
    simp only [getInt, Except.ok.injEq] at converted
    rw [isNonzeroInteger, Plain, ← converted]
    exact nonzero_eq_iff (toInt32_toInt_eq_zero_iff value)
  | numberFloat value =>
    simp only [getInt, Except.ok.injEq] at converted
    simp [isNonzeroInteger, Plain, converted]
  | null | string | array | object => cases converted

end Json

end SocketC
