import ExampleSchema.Decimal.Basic
import Mathlib

/-!
# The value of a decimal

A decimal stands for a rational number, and there is one decimal at most for each.  Its digits are those
of the number, as short as they can be.

* `Decimal.value`: the rational number, with `value_ofScaled` for the decimals that are put together.
* `Decimal.value_injective`: different decimals have different values.
* `Decimal.digitsNumber`: the number that digits write, from the left.
* `Decimal.IsCanonical`, `Decimal.isCanonical`: the digits of a decimal before and after the point.
-/

namespace ExampleSchema
namespace Decimal

/-! ## Values -/

/-- A number with its sign. -/
def signed (negative : Bool) (magnitude : ℚ) : ℚ := if negative then -magnitude else magnitude

/-- The rational number that a decimal stands for. -/
def value (d : Decimal) : ℚ := signed d.negative (d.coeff / 10 ^ d.scale)

@[simp] theorem signed_zero (negative : Bool) : signed negative 0 = 0 := by cases negative <;> simp [signed]

theorem signed_mul (negative : Bool) (x y : ℚ) : signed negative (x * y) = signed negative x * y := by
  cases negative <;> simp [signed]

/-- Over a common denominator, the numerator tells the value. -/
theorem numerator_eq (d : Decimal) (other : Nat) : (d.numerator other : ℚ) = d.value * 10 ^ (d.scale + other) := by
  have hmagnitude : (d.coeff : ℚ) / 10 ^ d.scale * 10 ^ (d.scale + other) = d.coeff * 10 ^ other := by
    rw [pow_add]
    field_simp
  rw [value, ← signed_mul, hmagnitude, numerator, signed]
  cases d.negative <;> simp [Nat.pow_eq]

/-- Dropping zeros at the end of the digits after the point keeps the value, and so does dropping the sign
of zero. -/
theorem value_ofScaled (negative : Bool) (coeff scale : Nat) :
    (ofScaled negative coeff scale).value = signed negative (coeff / 10 ^ scale) := by
  have hstrip : ((strip coeff scale).1 : ℚ) / 10 ^ (strip coeff scale).2 = coeff / 10 ^ scale := by
    have h := strip_value coeff scale
    simp only [Nat.pow_eq] at h
    rw [div_eq_div_iff (by positivity) (by positivity)]
    exact_mod_cast h
  rw [value, ← hstrip]
  change signed (negative && (strip coeff scale).1 != 0) (((strip coeff scale).1 : ℚ) / _) = _
  by_cases hzero : (strip coeff scale).1 = 0
  · rw [hzero]
    simp
  · rw [bne_iff_ne.2 hzero, Bool.and_true]
    rfl

/-- What is reduced over two powers of ten is reduced over one. -/
theorem eq_of_mul_pow_eq {m n s t : Nat} (h : m * 10 ^ t = n * 10 ^ s) (hle : s ≤ t) (hn : t = 0 ∨ n % 10 ≠ 0) :
    m = n ∧ s = t := by
  obtain ⟨k, rfl⟩ := Nat.exists_eq_add_of_le hle
  have hmn : m * 10 ^ k = n := by
    rw [Nat.add_comm, pow_add, ← Nat.mul_assoc] at h
    exact Nat.eq_of_mul_eq_mul_right (by positivity) h
  cases k with
  | zero => exact ⟨by simpa using hmn, rfl⟩
  | succ k =>
    -- A power of ten in the number would be a zero at its end.
    have hend : n % 10 = 0 := by
      rw [← hmn, pow_succ, ← Nat.mul_assoc]
      exact Nat.mul_mod_left _ _
    omega

/-- **Different decimals have different values.** -/
theorem value_injective : Function.Injective value := by
  intro a b h
  have hnumerators : a.numerator b.scale = b.numerator a.scale := by
    have hrat : (a.numerator b.scale : ℚ) = b.numerator a.scale := by
      rw [numerator_eq, numerator_eq, h, Nat.add_comm]
    exact_mod_cast hrat
  obtain ⟨negative, m, s, hm, hmsign⟩ := a
  obtain ⟨negative', n, t, hn, hnsign⟩ := b
  simp only [numerator, Nat.pow_eq] at hnumerators
  have hsame : m * 10 ^ t = n * 10 ^ s ∧ negative = negative' := by
    have hpos : 0 < 10 ^ t ∧ 0 < 10 ^ s := ⟨by positivity, by positivity⟩
    cases negative <;> cases negative'
    · simp only [Bool.false_eq_true, if_false] at hnumerators
      exact ⟨by exact_mod_cast hnumerators, rfl⟩
    · -- Only zero is its own opposite, and it has no sign.
      have hzero : n * 10 ^ s = 0 := by simp only [Bool.false_eq_true, if_false, if_true] at hnumerators; omega
      have hn0 : n = 0 := (Nat.mul_eq_zero.1 hzero).resolve_right (by omega)
      exact absurd (hnsign hn0) (by simp)
    · have hzero : m * 10 ^ t = 0 := by simp only [Bool.false_eq_true, if_false, if_true] at hnumerators; omega
      have hm0 : m = 0 := (Nat.mul_eq_zero.1 hzero).resolve_right (by omega)
      exact absurd (hmsign hm0) (by simp)
    · simp only [if_true, neg_inj] at hnumerators
      exact ⟨by exact_mod_cast hnumerators, rfl⟩
  obtain ⟨hvalue, rfl⟩ := hsame
  have hmn : m = n ∧ s = t := by
    rcases Nat.le_total s t with hle | hle
    · exact eq_of_mul_pow_eq hvalue hle hn
    · exact (eq_of_mul_pow_eq hvalue.symm hle hm).imp Eq.symm Eq.symm
  obtain ⟨rfl, rfl⟩ := hmn
  rfl

/-- Decimals are equal exactly if their values are. -/
theorem eq_iff_value_eq {a b : Decimal} : a = b ↔ a.value = b.value := value_injective.eq_iff.symm

/-! ## Digits -/

/-- The number that digits write, from the left. -/
def digitsNumber (ds : List Char) : Nat := Nat.ofDigits 10 (ds.reverse.map fun c => c.toNat - '0'.toNat)

@[simp] theorem digitsNumber_nil : digitsNumber [] = 0 := rfl

theorem digitsNumber_append (ds es : List Char) :
    digitsNumber (ds ++ es) = digitsNumber ds * 10 ^ es.length + digitsNumber es := by
  rw [digitsNumber, List.reverse_append, List.map_append, Nat.ofDigits_append, List.length_map,
    List.length_reverse, ← digitsNumber, ← digitsNumber]
  ring

/-- Zeros in front of digits count for nothing. -/
theorem digitsNumber_replicate_append (k : Nat) (ds : List Char) :
    digitsNumber (List.replicate k '0' ++ ds) = digitsNumber ds := by
  have hzeros : digitsNumber (List.replicate k '0') = 0 := by
    induction k with
    | zero => rfl
    | succ k ih => rw [List.replicate_succ', digitsNumber_append, ih]; rfl
  rw [digitsNumber_append, hzeros, Nat.zero_mul, Nat.zero_add]

/-- What is known of the digit of a number below ten. -/
theorem digitChar_spec : ∀ n < 10, (Nat.digitChar n).isDigit = true ∧ (Nat.digitChar n).toNat - '0'.toNat = n ∧
    (Nat.digitChar n = '0' → n = 0) := by decide

theorem length_lastDigits (count n : Nat) : (lastDigits count n).length = count := by
  induction count generalizing n with
  | zero => rfl
  | succ count ih => rw [lastDigits, List.length_append, ih, List.length_singleton]

theorem isDigit_of_mem_lastDigits {count n : Nat} {c : Char} (h : c ∈ lastDigits count n) : c.isDigit = true := by
  induction count generalizing n with
  | zero => cases h
  | succ count ih =>
    rw [lastDigits, List.mem_append, List.mem_singleton] at h
    rcases h with h | rfl
    · exact ih h
    · exact (digitChar_spec _ (Nat.mod_lt n (by decide))).1

/-- The last digits write the number that is left of it modulo a power of ten. -/
theorem digitsNumber_lastDigits (count n : Nat) : digitsNumber (lastDigits count n) = n % 10 ^ count := by
  induction count generalizing n with
  | zero => rw [pow_zero, Nat.mod_one]; rfl
  | succ count ih =>
    have hdigit : digitsNumber [Nat.digitChar (n % 10)] = n % 10 := by
      have h := (digitChar_spec _ (Nat.mod_lt n (by decide))).2.1
      rw [digitsNumber, List.reverse_singleton, List.map_singleton, Nat.ofDigits_singleton, h]
    rw [lastDigits, digitsNumber_append, ih, hdigit, pow_succ', Nat.mod_mul]
    simp only [List.length_singleton, pow_one]
    omega

/-- Digits that a number has no use for are zeros. -/
theorem lastDigits_of_lt {count n : Nat} (h : n < 10 ^ count) (more : Nat) :
    lastDigits (more + count) n = List.replicate more '0' ++ lastDigits count n := by
  have hzeros : lastDigits more 0 = List.replicate more '0' := by
    induction more with
    | zero => rfl
    | succ more ih => rw [lastDigits, Nat.zero_div, ih, List.replicate_succ']; rfl
  rw [lastDigits_add, Nat.pow_eq, Nat.div_eq_of_lt h, hzeros]

/-- The digits of a number are any number of its last digits that it fits into, without the zeros in front. -/
theorem digits_eq {count n : Nat} (h : n < 10 ^ count) : digits n = (lastDigits count n).dropWhile (· == '0') := by
  have hdrop : ∀ {less}, n < 10 ^ less → ∀ more, (lastDigits (more + less) n).dropWhile (· == '0') =
      (lastDigits less n).dropWhile (· == '0') := by
    intro less hless more
    rw [lastDigits_of_lt hless, List.dropWhile_append_of_pos (by simp)]
  have hblock : n < 10 ^ (1 <<< blockSize n) := lt_pow_blockSize n
  rw [digits, blockDigits_eq_lastDigits]
  rcases Nat.le_total count (1 <<< blockSize n) with hle | hle
  · obtain ⟨more, hmore⟩ := Nat.exists_eq_add_of_le' hle
    rw [hmore, hdrop h]
  · obtain ⟨more, hmore⟩ := Nat.exists_eq_add_of_le' hle
    rw [hmore, hdrop hblock]

/-- A number that is padded with zeros has its last digits. -/
theorem padded_eq {count n : Nat} (h : n < 10 ^ count) : padded count n = lastDigits count n := by
  have hzeros : (lastDigits count n).takeWhile (· == '0') =
      List.replicate ((lastDigits count n).takeWhile (· == '0')).length '0' :=
    List.eq_replicate_of_mem fun c hc => by simpa using List.mem_takeWhile_imp hc
  have hsplit : (lastDigits count n).takeWhile (· == '0') ++ digits n = lastDigits count n := by
    rw [digits_eq h, List.takeWhile_append_dropWhile]
  have hlength : ((lastDigits count n).takeWhile (· == '0')).length + (digits n).length = count := by
    rw [← List.length_append, hsplit, length_lastDigits]
  rw [padded, ← hsplit, hzeros]
  congr 2
  omega

/-- The digits of a number write it. -/
theorem digitsNumber_digits (n : Nat) : digitsNumber (digits n) = n := by
  have h : n < 10 ^ (1 <<< blockSize n) := lt_pow_blockSize n
  have hpad := digitsNumber_replicate_append ((1 <<< blockSize n) - (digits n).length) (digits n)
  rw [← padded, padded_eq h, digitsNumber_lastDigits, Nat.mod_eq_of_lt h] at hpad
  exact hpad.symm

theorem isDigit_of_mem_digits {n : Nat} {c : Char} (h : c ∈ digits n) : c.isDigit = true := by
  rw [digits_eq (lt_pow_blockSize n)] at h
  exact isDigit_of_mem_lastDigits ((List.dropWhile_suffix _).mem h)

/-- The first digit of a number is not zero. -/
theorem head?_digits (n : Nat) : (digits n).head? ≠ some '0' := by
  intro h
  have hhead := List.head?_dropWhile_not (· == '0') (blockDigits (blockSize n) n)
  rw [← digits, h] at hhead
  cases hhead

/-- What the digits of a decimal are like. -/
structure IsCanonical (d : Decimal) : Prop where
  /-- There is nothing but digits before the point. -/
  whole : ∀ c ∈ d.wholeDigits, c.isDigit = true
  /-- There is nothing but digits after the point. -/
  fraction : ∀ c ∈ d.fractionDigits, c.isDigit = true
  /-- No zero comes first. -/
  head : d.wholeDigits.head? ≠ some '0'
  /-- No zero comes last after the point. -/
  last : d.fractionDigits.getLast? ≠ some '0'
  /-- The digits after the point are as many as the decimal says, and so no more than there are digits. -/
  length : d.scale = d.fractionDigits.length
  /-- Zero has no sign. -/
  zero : d.value = 0 → d.negative = false
  /-- The digits write the value. -/
  digits : d.value = signed d.negative
    (digitsNumber (d.wholeDigits ++ d.fractionDigits) / 10 ^ d.fractionDigits.length)

theorem fractionDigits_eq (d : Decimal) : d.fractionDigits = lastDigits d.scale d.coeff := by
  have hlt : d.coeff % 10 ^ d.scale < 10 ^ d.scale := Nat.mod_lt _ (by positivity)
  rw [fractionDigits, Nat.pow_eq, padded_eq hlt]
  exact lastDigits_mod d.scale d.coeff

/-- All digits together write the number without its point. -/
theorem digitsNumber_all (d : Decimal) : digitsNumber (d.wholeDigits ++ d.fractionDigits) = d.coeff := by
  rw [digitsNumber_append, wholeDigits, digitsNumber_digits, fractionDigits_eq, length_lastDigits,
    digitsNumber_lastDigits, Nat.pow_eq]
  exact Nat.div_add_mod' _ _

/-- **The digits of every decimal** are in order. -/
theorem isCanonical (d : Decimal) : d.IsCanonical where
  whole _ := isDigit_of_mem_digits
  fraction c hc := by
    rw [fractionDigits_eq] at hc
    exact isDigit_of_mem_lastDigits hc
  head := head?_digits _
  last := by
    rw [fractionDigits_eq]
    cases hscale : d.scale with
    | zero => simp [lastDigits]
    | succ scale =>
      -- The last digit is that of the number, which is reduced.
      have hend : d.coeff % 10 ≠ 0 := d.reduced.resolve_left (by omega)
      rw [lastDigits, List.getLast?_concat, Ne, Option.some.injEq]
      exact fun h => hend ((digitChar_spec _ (Nat.mod_lt _ (by decide))).2.2 h)
  length := by rw [fractionDigits_eq, length_lastDigits]
  zero h := by
    refine d.sign_zero ?_
    rw [value, signed] at h
    have hquotient : (d.coeff : ℚ) / 10 ^ d.scale = 0 := by
      cases hsign : d.negative <;> simpa [hsign] using h
    have hpow : (10 : ℚ) ^ d.scale ≠ 0 := by positivity
    exact_mod_cast (div_eq_zero_iff.1 hquotient).resolve_right hpow
  digits := by
    rw [digitsNumber_all, fractionDigits_eq, length_lastDigits, value]

end Decimal
end ExampleSchema
