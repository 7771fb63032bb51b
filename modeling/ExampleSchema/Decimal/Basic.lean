import ExampleSchema.Text.Utf8

/-!
# Exact decimals

A decimal is a sign, a natural number and a count of the digits of that number that stand after the
point: `-12.5` is negative, `125`, one.  It is kept reduced, with no zero at the end of the digits
after the point and with zero never negative, so that a value has one decimal only, and equal values
are equal decimals.  Every rule about numbers is decided on decimals; nothing is rounded.

* `Decimal.ofScaled`: the decimal of any sign, number and digit count.
* `Decimal.ofNat`, `Decimal.toNat?`: counts and lengths as decimals, and back.
* `Decimal.compare`: the order of the values.
* `Decimal.text`: the decimal as digits, without an exponent.
-/

namespace ExampleSchema

/-- The number `coeff / 10 ^ scale` with its sign, in reduced form. -/
structure Decimal where
  /-- Whether the number is below zero. -/
  negative : Bool
  /-- All its digits, read as one natural number. -/
  coeff : Nat
  /-- How many of the digits stand after the point. -/
  scale : Nat
  /-- The last digit after the point is not zero. -/
  reduced : scale = 0 ∨ coeff % 10 ≠ 0
  /-- Zero has no sign. -/
  sign_zero : coeff = 0 → negative = false
  deriving DecidableEq

namespace Decimal

/-! ## Reduction -/

/-- Drops the zeros at the end of the `scale` digits after the point. -/
def strip (coeff : Nat) : Nat → Nat × Nat
  | 0 => (coeff, 0)
  | scale + 1 => if coeff % 10 = 0 then strip (coeff / 10) scale else (coeff, scale + 1)

theorem strip_reduced (coeff scale : Nat) :
    (strip coeff scale).2 = 0 ∨ (strip coeff scale).1 % 10 ≠ 0 := by
  induction scale generalizing coeff with
  | zero => simp [strip]
  | succ scale ih =>
    unfold strip
    split
    · exact ih _
    · exact Or.inr ‹_›

/-- Stripping keeps the value. -/
theorem strip_value (coeff scale : Nat) :
    (strip coeff scale).1 * Nat.pow 10 scale = coeff * Nat.pow 10 (strip coeff scale).2 := by
  induction scale generalizing coeff with
  | zero => simp [strip]
  | succ scale ih =>
    unfold strip
    split
    · have h := ih (coeff / 10)
      have hc : coeff / 10 * 10 = coeff := by omega
      simp only [Nat.pow_eq] at h ⊢
      rw [Nat.pow_succ, ← Nat.mul_assoc, h, Nat.mul_right_comm, hc]
    · rfl

/-- The decimal `coeff / 10 ^ scale` with the given sign. -/
def ofScaled (negative : Bool) (coeff scale : Nat) : Decimal where
  negative := negative && (strip coeff scale).1 != 0
  coeff := (strip coeff scale).1
  scale := (strip coeff scale).2
  reduced := strip_reduced coeff scale
  sign_zero := by intro h; simp [h]

/-- A natural number. -/
def ofNat (n : Nat) : Decimal := ⟨false, n, 0, .inl rfl, fun _ => rfl⟩

instance : Inhabited Decimal := ⟨ofNat 0⟩

/-! ## Observation -/

/-- Whether the number is zero. -/
def isZero (d : Decimal) : Bool := d.coeff == 0

/-- Whether the number has no digits after the point. -/
def isInteger (d : Decimal) : Bool := d.scale == 0

/-- The number as a natural number below `2 ^ 64`, the range of counts and lengths. -/
def toNat? (d : Decimal) : Option Nat :=
  if !d.negative && d.isInteger && d.coeff < UInt64.size then some d.coeff else none

/-- The numerator over the common denominator `10 ^ (d.scale + other)`. -/
def numerator (d : Decimal) (other : Nat) : Int :=
  let magnitude : Int := (d.coeff * Nat.pow 10 other : Nat)
  if d.negative then -magnitude else magnitude

/-- The order of the values. -/
def compare (a b : Decimal) : Ordering :=
  Ord.compare (a.numerator b.scale) (b.numerator a.scale)

instance : Ord Decimal := ⟨compare⟩

/-- Whether the value of `a` is below that of `b`. -/
def lt (a b : Decimal) : Bool := compare a b == .lt

/-- Whether the value of `a` is at most that of `b`. -/
def le (a b : Decimal) : Bool := compare a b != .gt

/-! ## Digits -/

/-- The last `count` digits of a number, zeros in front where it is shorter. -/
def lastDigits : Nat → Nat → List Char
  | 0, _ => []
  | count + 1, n => lastDigits count (n / 10) ++ [Nat.digitChar (n % 10)]

/-- The last `2 ^ k` digits of a number.  Both halves are found apart, so that a long number is
divided by a large power a few times in place of by ten many times. -/
def blockDigits : Nat → Nat → List Char
  | 0, n => [Nat.digitChar (n % 10)]
  | k + 1, n => blockDigits k (n / Nat.pow 10 (1 <<< k)) ++ blockDigits k (n % Nat.pow 10 (1 <<< k))

/-- The last `a + b` digits are `a` digits of what stands before the last `b`, and those. -/
theorem lastDigits_add (a b n : Nat) :
    lastDigits (a + b) n = lastDigits a (n / Nat.pow 10 b) ++ lastDigits b n := by
  induction b generalizing n with
  | zero => simp [lastDigits]
  | succ b ih =>
    simp only [Nat.pow_eq] at ih ⊢
    rw [← Nat.add_assoc, lastDigits, ih, lastDigits, Nat.div_div_eq_div_mul, Nat.pow_succ',
      List.append_assoc]

/-- The last digits do not depend on the digits before them. -/
theorem lastDigits_mod (count n : Nat) : lastDigits count (n % Nat.pow 10 count) = lastDigits count n := by
  induction count generalizing n with
  | zero => rfl
  | succ count ih =>
    simp only [Nat.pow_eq] at ih ⊢
    rw [lastDigits, lastDigits, Nat.pow_succ', Nat.mod_mul_right_div_self, ih,
      Nat.mod_mul_right_mod]

theorem blockDigits_eq_lastDigits (k n : Nat) : blockDigits k n = lastDigits (1 <<< k) n := by
  induction k generalizing n with
  | zero => rfl
  | succ k ih =>
    rw [blockDigits, ih, ih, Nat.shiftLeft_succ, Nat.two_mul, lastDigits_add, lastDigits_mod]

/-- The exponent of a power of two that is at least the number of digits of a number. -/
def blockSize (n : Nat) : Nat := n.log2.log2

/-- A number fits into the digits that `blockSize` allows it. -/
theorem lt_pow_blockSize (n : Nat) : n < Nat.pow 10 (1 <<< blockSize n) := by
  simp only [Nat.pow_eq, Nat.one_shiftLeft]
  have h₁ : n < 2 ^ (n.log2 + 1) := Nat.lt_log2_self
  have h₂ : n.log2 < 2 ^ (blockSize n + 1) := Nat.lt_log2_self
  calc n < 2 ^ (n.log2 + 1) := h₁
    _ ≤ 2 ^ 2 ^ (blockSize n + 1) := Nat.pow_le_pow_right (by decide) h₂
    _ = 4 ^ 2 ^ blockSize n := by rw [Nat.pow_succ', Nat.pow_mul]
    _ ≤ 10 ^ 2 ^ blockSize n := Nat.pow_le_pow_left (by decide) _

/-- The digits of a natural number, the first one not zero; zero has none. -/
def digits (n : Nat) : List Char := (blockDigits (blockSize n) n).dropWhile (· == '0')

/-- The last `count` digits of a number, zeros in front where it is shorter. -/
def padded (count n : Nat) : List Char :=
  List.replicate (count - (digits n).length) '0' ++ digits n

/-- The digits before the point, none where the number is below one. -/
def wholeDigits (d : Decimal) : List Char := digits (d.coeff / Nat.pow 10 d.scale)

/-- The digits after the point. -/
def fractionDigits (d : Decimal) : List Char := padded d.scale (d.coeff % Nat.pow 10 d.scale)

/-- The decimal as text: a sign where it is negative, the digits before the point or a zero, and
the digits after the point where there are any. -/
def text (d : Decimal) : String :=
  let whole := if d.wholeDigits.isEmpty then ['0'] else d.wholeDigits
  let fraction := if d.scale = 0 then [] else '.' :: d.fractionDigits
  String.ofList ((if d.negative then ['-'] else []) ++ whole ++ fraction)

instance : ToString Decimal := ⟨text⟩

end Decimal
end ExampleSchema
