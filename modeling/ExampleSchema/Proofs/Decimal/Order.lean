import ExampleSchema.Proofs.Decimal.Value
import Mathlib

/-!
# The order of decimals

Decimals are compared over a common denominator, which gives the order of their values.  The same order can
be read off their digits: written with as many digits before the point and after it, two numbers without a sign
differ at some place first, and the digits there decide.

* `Decimal.compare_eq_cmp`: the order is that of the values; `le_iff`, `lt_iff`, `compare_eq_iff_eq` follow.
* `Decimal.compareDigits_eq`: digits are compared like the numbers that they write.
* `Decimal.compareWritten_eq`: decimals are compared by their signs and digits like by their values.
* `Decimal.compare_isOrderOfValues`: all of this, and that sorting decimals is sorting their values.
-/

namespace ExampleSchema
namespace Decimal

/-! ## Over a common denominator -/

/-- **Decimals are in the order of their values.** -/
theorem compare_eq_cmp (a b : Decimal) : compare a b = cmp a.value b.value := by
  have hpos : (0 : ℚ) < 10 ^ (a.scale + b.scale) := by positivity
  calc compare a b = cmp (a.numerator b.scale) (b.numerator a.scale) := (cmp_eq_compare _ _).symm
    _ = cmp (a.numerator b.scale : ℚ) (b.numerator a.scale) := (Int.cast_strictMono.cmp_map_eq _ _).symm
    _ = cmp (a.value * 10 ^ (a.scale + b.scale)) (b.value * 10 ^ (a.scale + b.scale)) := by
      rw [numerator_eq, numerator_eq, Nat.add_comm b.scale]
    _ = cmp a.value b.value := cmp_mul_pos_right hpos _ _

variable {a b : Decimal}

theorem compare_eq_iff_eq : compare a b = .eq ↔ a = b := by
  rw [compare_eq_cmp, cmp_eq_eq_iff, eq_iff_value_eq]

theorem lt_iff : lt a b = true ↔ a.value < b.value := by
  rw [lt, compare_eq_cmp, beq_iff_eq, cmp_eq_lt_iff]

theorem le_iff : le a b = true ↔ a.value ≤ b.value := by
  rw [le, compare_eq_cmp, bne_iff_ne, Ne, cmp_eq_gt_iff, not_lt]

/-! ## Digit by digit -/

/-- Compares digits from the left.  The first that differ decide. -/
def compareDigits : List Char → List Char → Ordering
  | c :: cs, d :: ds => (cmp c.toNat d.toNat).then (compareDigits cs ds)
  | _, _ => .eq

/-- The digits of a decimal with zeros at both ends, so that there are some numbers of them before and after the
point. -/
def aligned (d : Decimal) (whole fraction : Nat) : List Char :=
  List.replicate (whole - d.wholeDigits.length) '0' ++
    ((d.wholeDigits ++ d.fractionDigits) ++ List.replicate (fraction - d.scale) '0')

/-- Compares decimals without their signs, written with as many digits. -/
def compareMagnitude (a b : Decimal) : Ordering :=
  let whole := max a.wholeDigits.length b.wholeDigits.length
  let fraction := max a.scale b.scale
  compareDigits (a.aligned whole fraction) (b.aligned whole fraction)

/-- Compares decimals by their signs and digits. -/
def compareWritten (a b : Decimal) : Ordering :=
  match a.negative, b.negative with
  | false, true => .gt
  | true, false => .lt
  | false, false => compareMagnitude a b
  | true, true => compareMagnitude b a

theorem digitsNumber_cons (c : Char) (cs : List Char) :
    digitsNumber (c :: cs) = (c.toNat - '0'.toNat) * 10 ^ cs.length + digitsNumber cs := by
  rw [← List.singleton_append, digitsNumber_append]
  simp [digitsNumber]

/-- What is known of a digit. -/
theorem toNat_of_isDigit {c : Char} (h : c.isDigit = true) : '0'.toNat ≤ c.toNat ∧ c.toNat < '0'.toNat + 10 := by
  simp only [Char.isDigit, Bool.and_eq_true, decide_eq_true_eq, ge_iff_le, UInt32.le_iff_toNat_le] at h
  change 48 ≤ c.toNat ∧ c.toNat ≤ 57 at h
  change 48 ≤ c.toNat ∧ c.toNat < 58
  omega

theorem digitsNumber_lt {ds : List Char} (h : ∀ c ∈ ds, c.isDigit = true) : digitsNumber ds < 10 ^ ds.length := by
  induction ds with
  | nil => exact Nat.one_pos
  | cons c cs ih =>
    obtain ⟨hc, hcs⟩ := List.forall_mem_cons.1 h
    have hdigit : c.toNat - '0'.toNat + 1 ≤ 10 := by
      have hspec := toNat_of_isDigit hc
      omega
    rw [digitsNumber_cons, List.length_cons, pow_succ']
    calc (c.toNat - '0'.toNat) * 10 ^ cs.length + digitsNumber cs
        < (c.toNat - '0'.toNat + 1) * 10 ^ cs.length := by rw [Nat.succ_mul]; exact Nat.add_lt_add_left (ih hcs) _
      _ ≤ 10 * 10 ^ cs.length := Nat.mul_le_mul_right _ hdigit

/-- A lower digit makes a lower number, whatever digits follow. -/
theorem digitsNumber_cons_lt {c d : Char} {cs ds : List Char} (hlength : cs.length = ds.length)
    (hc : c.isDigit = true) (hlt : c.toNat < d.toNat) (hcs : ∀ e ∈ cs, e.isDigit = true) :
    digitsNumber (c :: cs) < digitsNumber (d :: ds) := by
  have hdigits : c.toNat - '0'.toNat + 1 ≤ d.toNat - '0'.toNat := by
    have hspec := toNat_of_isDigit hc
    omega
  calc digitsNumber (c :: cs) < (c.toNat - '0'.toNat + 1) * 10 ^ cs.length := by
        rw [digitsNumber_cons, Nat.succ_mul]
        exact Nat.add_lt_add_left (digitsNumber_lt hcs) _
    _ ≤ (d.toNat - '0'.toNat) * 10 ^ ds.length := by
        rw [hlength]
        exact Nat.mul_le_mul_right _ hdigits
    _ ≤ digitsNumber (d :: ds) := by
        rw [digitsNumber_cons]
        exact Nat.le_add_right _ _

/-- **As many digits are compared like the numbers that they write.** -/
theorem compareDigits_eq {cs ds : List Char} (hlength : cs.length = ds.length) (hcs : ∀ c ∈ cs, c.isDigit = true)
    (hds : ∀ d ∈ ds, d.isDigit = true) : compareDigits cs ds = cmp (digitsNumber cs) (digitsNumber ds) := by
  induction cs generalizing ds with
  | nil =>
    obtain rfl := List.length_eq_zero_iff.1 hlength.symm
    exact (cmp_self_eq_eq 0).symm
  | cons c cs ih =>
    cases ds with
    | nil => cases hlength
    | cons d ds =>
      have hrest : cs.length = ds.length := Nat.succ.inj hlength
      obtain ⟨hc, hcs⟩ := List.forall_mem_cons.1 hcs
      obtain ⟨hd, hds⟩ := List.forall_mem_cons.1 hds
      rw [compareDigits]
      rcases lt_trichotomy c.toNat d.toNat with hlt | heq | hgt
      · rw [(cmp_eq_lt_iff _ _).2 hlt, (cmp_eq_lt_iff _ _).2 (digitsNumber_cons_lt hrest hc hlt hcs)]
        rfl
      · -- Equal digits leave it to those that follow.
        rw [(cmp_eq_eq_iff _ _).2 heq, ih hrest hcs hds, digitsNumber_cons, digitsNumber_cons, heq, hrest]
        exact (cmp_add_left (α := Nat) _ _ _).symm
      · rw [(cmp_eq_gt_iff _ _).2 hgt, (cmp_eq_gt_iff _ _).2 (digitsNumber_cons_lt hrest.symm hd hgt hds)]
        rfl

/-- The digits of a decimal with zeros at both ends. -/
theorem aligned_spec (d : Decimal) {whole fraction : Nat} (hwhole : d.wholeDigits.length ≤ whole)
    (hfraction : d.scale ≤ fraction) : (d.aligned whole fraction).length = whole + fraction ∧
      (∀ c ∈ d.aligned whole fraction, c.isDigit = true) ∧
      (digitsNumber (d.aligned whole fraction) : ℚ) = d.coeff / 10 ^ d.scale * 10 ^ fraction := by
  have hlength := d.isCanonical.length
  refine ⟨?_, fun c hc => ?_, ?_⟩
  · simp only [aligned, List.length_append, List.length_replicate]
    omega
  · simp only [aligned, List.mem_append, List.mem_replicate] at hc
    rcases hc with ⟨-, rfl⟩ | (hc | hc) | ⟨-, rfl⟩
    · rfl
    · exact d.isCanonical.whole c hc
    · exact d.isCanonical.fraction c hc
    · rfl
  · have hzeros := digitsNumber_replicate_append (fraction - d.scale) []
    rw [List.append_nil, digitsNumber_nil] at hzeros
    obtain ⟨k, hk⟩ := Nat.exists_eq_add_of_le hfraction
    have hmore : fraction - d.scale = k := by omega
    rw [aligned, digitsNumber_replicate_append, digitsNumber_append, hzeros, digitsNumber_all, List.length_replicate,
      hmore, hk, pow_add]
    push_cast
    field_simp
    simp

theorem compareMagnitude_eq (a b : Decimal) :
    compareMagnitude a b = cmp ((a.coeff : ℚ) / 10 ^ a.scale) (b.coeff / 10 ^ b.scale) := by
  obtain ⟨halength, hadigits, havalue⟩ := a.aligned_spec (le_max_left a.wholeDigits.length b.wholeDigits.length)
    (le_max_left a.scale b.scale)
  obtain ⟨hblength, hbdigits, hbvalue⟩ := b.aligned_spec (le_max_right a.wholeDigits.length b.wholeDigits.length)
    (le_max_right a.scale b.scale)
  have hpos : (0 : ℚ) < 10 ^ max a.scale b.scale := by positivity
  rw [compareMagnitude, compareDigits_eq (halength.trans hblength.symm) hadigits hbdigits,
    ← (Nat.strictMono_cast (α := ℚ)).cmp_map_eq, havalue, hbvalue, cmp_mul_pos_right hpos]

/-- A decimal with a sign is below zero. -/
theorem value_neg_of_negative {d : Decimal} (h : d.negative = true) : d.value < 0 := by
  have hcoeff : d.coeff ≠ 0 := fun hzero => by
    rw [d.sign_zero hzero] at h
    cases h
  have hpos : (0 : ℚ) < d.coeff := by exact_mod_cast Nat.pos_of_ne_zero hcoeff
  rw [value, signed, if_pos h, neg_lt_zero]
  positivity

/-- A decimal without a sign is not. -/
theorem value_nonneg_of_not_negative {d : Decimal} (h : d.negative = false) : 0 ≤ d.value := by
  rw [value, signed, h]
  change (0 : ℚ) ≤ d.coeff / 10 ^ d.scale
  positivity

/-- **Decimals are compared by their signs and digits like by their values.** -/
theorem compareWritten_eq (a b : Decimal) : compareWritten a b = compare a b := by
  rw [compare_eq_cmp, compareWritten]
  cases ha : a.negative <;> cases hb : b.negative
  · rw [compareMagnitude_eq, value, value, signed, signed, ha, hb]
    rfl
  · exact ((cmp_eq_gt_iff _ _).2 (lt_of_lt_of_le (value_neg_of_negative hb) (value_nonneg_of_not_negative ha))).symm
  · exact ((cmp_eq_lt_iff _ _).2 (lt_of_lt_of_le (value_neg_of_negative ha) (value_nonneg_of_not_negative hb))).symm
  · have hneg : StrictAnti fun x : ℚ => -x := fun _ _ => neg_lt_neg
    change compareMagnitude b a = _
    rw [compareMagnitude_eq, value, value, signed, signed, if_pos ha, if_pos hb]
    exact (hneg.cmp_map_eq _ _).symm

/-! ## All of it -/

/-- **The order of decimals** is that of their values, whether they are compared over a common denominator or by
their digits.  So it is total, transitive and antisymmetric, only equal decimals are alike in it, and sorting
decimals is sorting their values. -/
theorem compare_isOrderOfValues (a b : Decimal) :
    compare a b = cmp a.value b.value ∧
    compareWritten a b = compare a b ∧
    (compare a b = .eq ↔ a = b) ∧
    compare b a = (compare a b).swap ∧
    (le a b = true ∨ le b a = true) ∧
    (∀ c, le a b = true → le b c = true → le a c = true) ∧
    (le a b = true → le b a = true → a = b) ∧
    ∀ ds : List Decimal, (ds.mergeSort le).Perm ds ∧
      ((ds.mergeSort le).map value).Pairwise (· ≤ ·) ∧
      (ds.mergeSort le).map value = (ds.map value).mergeSort (· ≤ ·) := by
  refine ⟨compare_eq_cmp a b, compareWritten_eq a b, compare_eq_iff_eq, ?_, ?_, fun c hab hbc => ?_,
    fun hab hba => ?_, fun ds => ?_⟩
  · rw [compare_eq_cmp, compare_eq_cmp, cmp_swap]
  · rw [le_iff, le_iff]
    exact le_total _ _
  · rw [le_iff] at *
    exact le_trans hab hbc
  · rw [le_iff] at hab hba
    exact value_injective (le_antisymm hab hba)
  · have hmap : (ds.mergeSort le).map value = (ds.map value).mergeSort (· ≤ ·) :=
      List.map_mergeSort fun a _ b _ => by rw [Bool.eq_iff_iff, le_iff, decide_eq_true_iff]
    refine ⟨List.mergeSort_perm ds le, ?_, hmap⟩
    rw [hmap]
    exact List.pairwise_mergeSort' (· ≤ ·) (ds.map value)

end Decimal
end ExampleSchema
