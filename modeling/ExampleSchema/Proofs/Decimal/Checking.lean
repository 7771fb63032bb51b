import ExampleSchema.Constraint.Check
import ExampleSchema.Constraint.Read
import ExampleSchema.Proofs.Decimal.Writing
import ExampleSchema.Proofs.Json.Literals
import ExampleSchema.Proofs.Json.Writing
import ExampleSchema.Proofs.Scan.Content
import Mathlib

/-!
# Rules about numbers

Three parts of the library have a notion of a number.  A scan reports a literal that begins with a minus or a digit,
a rule tells by the first byte whether a literal is a number at all, and reading a decimal takes the literal apart.
They agree: what a scan reports in this way is a number of the grammar, with one way to take it apart, and a rule
decides by the value of that number, however it is spelled.

* `Numeral.bytes_injective`: a number is taken apart in one way only.
* `Scan.ReportsLiteral`, `Scan.ReportsNumber`: the literals of all scans, with `reportsNumber_iff`.
* `Literal.isNumber_cons`: the first byte tells whether a literal is a number.
* `Decimal.scale_le_iff`: how many digits stand after the point.
* `Constraint.IsNumeric`: the rules that look at the number of a value.
* `Constraint.check_decidesByValue`: what these rules decide about each literal of a scan.
-/

namespace ExampleSchema

/-! ## One way to take a number apart -/

namespace Numeral

variable {n m : Numeral} {token : Bytes}

theorem fraction?_eq_of_getD_eq {fraction? other? : Option Digits}
    (h : (fraction?.map Subtype.val).getD [] = (other?.map Subtype.val).getD []) : fraction? = other? := by
  cases fraction? with
  | none =>
    cases other? with
    | none => rfl
    | some other => exact (other.2.1 h.symm).elim
  | some digits =>
    cases other? with
    | none => exact (digits.2.1 h).elim
    | some other => exact congrArg some (Subtype.ext h)

theorem Sign.eq_of_bytes_eq {sign other : Sign} (h : sign.bytes = other.bytes) : sign = other := by
  cases sign <;> cases other <;> first | rfl | exact absurd h (by decide)

theorem exponentBytes_injective : Function.Injective exponentBytes := by
  intro exponent? other? h
  cases exponent? with
  | none =>
    cases other? with
    | none => rfl
    | some other => cases h
  | some e =>
    cases other? with
    | none => cases h
    | some other =>
      obtain ⟨mark, sign, digits⟩ := e
      obtain ⟨mark', sign', digits'⟩ := other
      obtain ⟨hmark, hrest⟩ := List.cons.inj h
      have hspan := @Decimal.spanSign_append digits.1 [] sign digits.2.1 digits.2.2
      have hspan' := @Decimal.spanSign_append digits'.1 [] sign' digits'.2.1 digits'.2.2
      rw [List.append_nil] at hspan hspan'
      dsimp only at hrest
      rw [hrest, hspan'] at hspan
      have hdigits : digits'.1 = digits.1 := (Prod.mk.inj hspan).2
      rw [hdigits] at hrest
      obtain rfl := Subtype.ext hmark
      obtain rfl := Subtype.ext hdigits
      obtain rfl := Sign.eq_of_bytes_eq (List.append_cancel_right hrest)
      rfl

/-- **A number is taken apart in one way only.** -/
theorem bytes_injective : Function.Injective bytes := by
  intro n m h
  obtain ⟨hends, hpoint⟩ := Decimal.endsDigits_exponentBytes n.exponent?
  obtain ⟨hends', hpoint'⟩ := Decimal.endsDigits_exponentBytes m.exponent?
  have hminus := congrArg Decimal.spanMinus h
  rw [bytes, bytes, Decimal.spanMinus_append _ n.whole.2.1 n.whole.2.2,
    Decimal.spanMinus_append _ m.whole.2.1 m.whole.2.2] at hminus
  obtain ⟨hnegative, hrest⟩ := Prod.mk.inj hminus
  have hdigits := congrArg Decimal.spanDigits hrest
  rw [Decimal.spanDigits_append n.whole.2.2 (Decimal.endsDigits_fractionBytes_append n.fraction? hends),
    Decimal.spanDigits_append m.whole.2.2 (Decimal.endsDigits_fractionBytes_append m.fraction? hends')] at hdigits
  obtain ⟨hwhole, hrest⟩ := Prod.mk.inj hdigits
  have hfraction := congrArg Decimal.spanFraction hrest
  rw [Decimal.spanFraction_append n.fraction? hends hpoint,
    Decimal.spanFraction_append m.fraction? hends' hpoint'] at hfraction
  obtain ⟨hfraction, hexponent⟩ := Prod.mk.inj (Except.ok.inj hfraction)
  obtain ⟨negative, whole, fraction?, exponent?⟩ := n
  obtain ⟨negative', whole', fraction?', exponent?'⟩ := m
  obtain rfl : negative = negative' := hnegative
  obtain rfl : whole = whole' := Subtype.ext hwhole
  obtain rfl : fraction? = fraction?' := fraction?_eq_of_getD_eq hfraction
  obtain rfl : exponent? = exponent?' := exponentBytes_injective hexponent
  rfl

/-- The whole part of a number is digits. -/
theorem exists_digits_of_isWhole {whole : Bytes} (h : IsWhole whole) : ∃ digits : Digits, digits.1 = whole := by
  cases h with
  | zero => exact ⟨⟨_, List.cons_ne_nil _ _, isDigits_cons_iff.2 ⟨rfl, isDigits_nil⟩⟩, rfl⟩
  | digits hfirst hzero hrest => exact ⟨⟨_, List.cons_ne_nil _ _, isDigits_cons_iff.2 ⟨hfirst, hrest⟩⟩, rfl⟩

theorem exists_fractionBytes_eq {fraction : Bytes} (h : IsFraction fraction) :
    ∃ fraction?, fractionBytes fraction? = fraction := by
  cases h with
  | missing => exact ⟨none, rfl⟩
  | digits hne hdigits => exact ⟨some ⟨_, hne, hdigits⟩, rfl⟩

theorem exists_exponentBytes_eq {exponent : Bytes} (h : IsExponent exponent) :
    ∃ exponent?, exponentBytes exponent? = exponent := by
  cases h with
  | missing => exact ⟨none, rfl⟩
  | @digits mark sign digits hmark hsign hne hdigits =>
    obtain ⟨sign, rfl⟩ : ∃ s : Sign, s.bytes = sign := by
      cases hsign with
      | missing => exact ⟨.missing, rfl⟩
      | plus => exact ⟨.plus, rfl⟩
      | minus => exact ⟨.minus, rfl⟩
    exact ⟨some ⟨⟨mark, hmark⟩, sign, ⟨digits, hne, hdigits⟩⟩, rfl⟩

/-- **A number of the grammar is taken apart.** -/
theorem exists_bytes_eq (h : IsNumber token) : ∃ n : Numeral, n.bytes = token := by
  have hunsigned : ∀ {text : Bytes}, IsUnsigned text → ∀ negative, ∃ n : Numeral,
      n.bytes = minusBytes negative ++ text := by
    rintro text ⟨whole, fraction, exponent, rfl, hwhole, hfraction, hexponent⟩ negative
    obtain ⟨whole, rfl⟩ := exists_digits_of_isWhole hwhole
    obtain ⟨fraction?, rfl⟩ := exists_fractionBytes_eq hfraction
    obtain ⟨exponent?, rfl⟩ := exists_exponentBytes_eq hexponent
    exact ⟨⟨negative, whole, fraction?, exponent?⟩, rfl⟩
  cases h with
  | positive h => exact hunsigned h false
  | negative h => exact hunsigned h true

end Numeral

/-! ## The literals of scans -/

namespace Scan

variable {token : Bytes}

/-- Some scan reports the token as a literal of its text. -/
def ReportsLiteral (token : Bytes) : Prop :=
  ∃ (o : Options) (text : Bytes), ∃ e ∈ (read o text).events,
    e.kind = .closing .literal ∧ text.slice e.start e.stop = token

/-- A byte that a number begins with. -/
def BeginsNumber (b : UInt8) : Prop := Bytes.char b = '-' ∨ Bytes.isDigit b = true

instance (b : UInt8) : Decidable (BeginsNumber b) := inferInstanceAs (Decidable (_ ∨ _))

/-- Some scan reports the token as a number: a literal that begins as one. -/
def ReportsNumber (token : Bytes) : Prop := ReportsLiteral token ∧ ∃ b ∈ token.head?, BeginsNumber b

/-- **What scans report** are the literals of the grammar. -/
theorem reportsLiteral_iff : ReportsLiteral token ↔ IsLiteral token := by
  constructor
  · rintro ⟨o, text, e, he, hkind, rfl⟩
    exact isLiteral_of_mem_read he hkind
  · intro h
    refine ⟨{}, token, ⟨.closing .literal, 0, token.length⟩, ?_, rfl, List.take_length⟩
    have hread := read_document {} ⟨Json.noBlank, .literal ⟨token, h⟩, Json.noBlank⟩ (Nat.zero_le _)
    have hbytes : (Json.Document.mk Json.noBlank (.literal ⟨token, h⟩) Json.noBlank).bytes = token := by
      rw [Json.Document.bytes, Json.bytes, Json.noBlank, List.nil_append, List.append_nil]
    rw [hbytes] at hread
    rw [hread]
    simp [Json.Document.events, Json.events, Json.noBlank, enclosed, blankEvents]

theorem beginsNumber_of_isUnsigned {b : UInt8} {rest : Bytes} (h : IsUnsigned (b :: rest)) :
    Bytes.isDigit b = true := by
  obtain ⟨whole, fraction, exponent, htext, hwhole, -, -⟩ := h
  cases hwhole with
  | zero =>
    rw [(List.cons.inj htext).1]
    rfl
  | digits hfirst => rw [(List.cons.inj htext).1, hfirst]

/-- A literal is a number exactly if it begins as one. -/
theorem isNumber_cons_iff {b : UInt8} {rest : Bytes} (h : IsLiteral (b :: rest)) :
    IsNumber (b :: rest) ↔ BeginsNumber b := by
  constructor
  · intro hnumber
    generalize htext : b :: rest = text at hnumber
    cases hnumber with
    | positive hunsigned =>
      rw [← htext] at hunsigned
      exact Or.inr (beginsNumber_of_isUnsigned hunsigned)
    | negative =>
      rw [(List.cons.inj htext).1]
      exact Or.inl rfl
  · intro hbegins
    generalize htext : b :: rest = text at h ⊢
    cases h with
    | number hnumber => exact hnumber
    | string hstring =>
      obtain ⟨-⟩ := hstring
      rw [(List.cons.inj htext).1] at hbegins
      exact absurd hbegins (by decide)
    | keyword word =>
      cases word <;> rw [(List.cons.inj htext).1] at hbegins <;> exact absurd hbegins (by decide)

/-- **What scans report as numbers** are the numbers of the grammar. -/
theorem reportsNumber_iff : ReportsNumber token ↔ IsNumber token := by
  rw [ReportsNumber, reportsLiteral_iff]
  cases token with
  | nil =>
    constructor
    · rintro ⟨-, b, hb, -⟩
      cases hb
    · exact fun h => (not_isLiteral_nil (.number h)).elim
  | cons b rest =>
    constructor
    · rintro ⟨hliteral, _, ⟨⟩, hbegins⟩
      exact (isNumber_cons_iff hliteral).2 hbegins
    · exact fun h => ⟨.number h, b, rfl, (isNumber_cons_iff (.number h)).1 h⟩

end Scan

/-! ## What a literal says -/

namespace Literal

theorem isNumber_eq_true_iff {literal : Bytes} : isNumber literal = true ↔
    JsonType.ofBytes? literal = some .integer ∨ JsonType.ofBytes? literal = some .float := by
  unfold isNumber
  split <;> simp_all

/-- **The first byte tells whether a literal is a number.** -/
theorem isNumber_cons {b : UInt8} (hb : Bytes.isSpace b = false) (rest : Bytes) :
    isNumber (b :: rest) = true ↔ Scan.BeginsNumber b := by
  obtain ⟨rest', htrim⟩ := Bytes.exists_trim_cons hb rest
  rw [isNumber_eq_true_iff, JsonType.ofBytes?, htrim, Scan.BeginsNumber, Bytes.isDigit]
  dsimp only
  split
  iterate 7
    next hchar =>
      rw [hchar]
      decide
  · have hbegins : Bytes.char b = '-' ∨ (Bytes.char b).isDigit = true ↔
        (Bytes.char b == '-' || (Bytes.char b).isDigit) = true := by rw [Bool.or_eq_true, beq_iff_eq]
    rw [hbegins]
    split
    · next hnumber =>
      rw [hnumber]
      split <;> simp
    · next hnumber => simp [hnumber]

/-- A literal of a scan is a number for the rules exactly if it is one for the scan. -/
theorem isNumber_iff {token : Bytes} (h : IsLiteral token) : isNumber token = true ↔ IsNumber token := by
  cases token with
  | nil => exact (Scan.not_isLiteral_nil h).elim
  | cons b rest =>
    obtain ⟨mode, hmode, -⟩ := Scan.exists_literalMode? h
    rw [isNumber_cons (Scan.isSpace_of_literalMode? hmode), Scan.isNumber_cons_iff h]

variable {v : Numeral}

/-- The decimal of a number whose exponent is not too large. -/
theorem decimalValue_eq_ok (h : IsNumber v.bytes) (hmagnitude : v.magnitude ≤ Decimal.maxExponent) :
    decimalValue v.bytes = .ok v.shape.value := by
  rw [decimalValue, if_pos ((isNumber_iff (.number h)).2 h), decimal,
    Decimal.parse_of_writes (Numeral.writes_bytes hmagnitude)]

/-- A number whose exponent is too large is none to calculate with. -/
theorem decimalValue_eq_error (h : IsNumber v.bytes) (hmagnitude : Decimal.maxExponent < v.magnitude) :
    ∃ cause, decimalValue v.bytes = .error cause ∧ cause.code = .invalidNumber := by
  rw [decimalValue, if_pos ((isNumber_iff (.number h)).2 h), decimal]
  cases hparse : Decimal.parse v.bytes with
  | error refusal => exact ⟨_, rfl, rfl⟩
  | ok d =>
    obtain ⟨n, ⟨hbytes, hle⟩, -⟩ := Decimal.parse_eq_ok_iff_writes.1 hparse
    obtain rfl := Numeral.bytes_injective (hbytes.trans v.trim_bytes)
    exact absurd hmagnitude (Nat.not_lt.2 hle)

/-- A literal of another kind is no number. -/
theorem decimalValue_eq_error_of_not_isNumber {token : Bytes} (h : IsLiteral token) (hnumber : ¬ IsNumber token) :
    ∃ cause, decimalValue token = .error cause ∧ cause.code = .typeMismatch := by
  rw [decimalValue, if_neg (mt (isNumber_iff h).1 hnumber)]
  exact ⟨_, rfl, rfl⟩

end Literal

/-! ## What the rules decide -/

/-- As many digits stand after the point as it takes powers of ten to make the value whole. -/
theorem Decimal.scale_le_iff (d : Decimal) (limit : Nat) :
    d.scale ≤ limit ↔ ∃ k : ℤ, d.value * 10 ^ limit = k := by
  constructor
  · intro h
    obtain ⟨other, rfl⟩ := Nat.exists_eq_add_of_le h
    exact ⟨d.numerator other, (d.numerator_eq other).symm⟩
  · rintro ⟨k, hk⟩
    by_contra hlt
    obtain ⟨more, hmore⟩ := Nat.exists_eq_add_of_lt (Nat.not_le.1 hlt)
    have hnumerator : (d.numerator 0 : ℚ) = (k * 10 ^ (more + 1) : ℤ) := by
      rw [d.numerator_eq, Nat.add_zero, hmore, Nat.add_assoc, pow_add, ← mul_assoc, hk]
      push_cast
      rfl
    -- The digits end in a zero then, and the decimal is not reduced.
    have hcoeff : (d.coeff : ℤ) % 10 = 0 := by
      have hint : d.numerator 0 = k * 10 ^ more * 10 := by
        rw [mul_assoc, ← pow_succ]
        exact_mod_cast hnumerator
      simp only [numerator, Nat.pow_eq, pow_zero, Nat.mul_one] at hint
      split at hint <;> omega
    have hreduced := d.reduced.resolve_left (by omega)
    omega

/-- The rules that look at the number of a value. -/
def Constraint.IsNumeric : Constraint → Prop
  | min _ | max _ | precision _ => True
  | _ => False

namespace Constraint

variable {c : Constraint} {v : Numeral} {token : Bytes}

/-- These rules read the number first. -/
theorem IsNumeric.check_eq_error (hc : c.IsNumeric) {cause : Cause} (h : Literal.decimalValue token = .error cause) :
    c.check token = .error cause := by
  cases c with
  | min | max | precision =>
    rw [check, h]
    rfl
  | _ => cases hc

variable {bound : Bound}

theorem check_min_eq_ok_iff {d : Decimal} (h : Literal.decimalValue token = .ok d) :
    (min bound).check token = .ok () ↔
      if bound.exclusive then bound.value.value < d.value else bound.value.value ≤ d.value := by
  have hcheck : (min bound).check token = bound.checkMin d := by
    rw [check, h]
    rfl
  rw [hcheck, Bound.checkMin]
  cases bound.exclusive <;> simp [← Decimal.le_iff, ← Decimal.lt_iff]

theorem check_max_eq_ok_iff {d : Decimal} (h : Literal.decimalValue token = .ok d) :
    (max bound).check token = .ok () ↔
      if bound.exclusive then d.value < bound.value.value else d.value ≤ bound.value.value := by
  have hcheck : (max bound).check token = bound.checkMax d := by
    rw [check, h]
    rfl
  rw [hcheck, Bound.checkMax]
  cases bound.exclusive <;> simp [← Decimal.le_iff, ← Decimal.lt_iff]

theorem check_precision_eq_ok_iff {d : Decimal} {limit : Nat} (h : Literal.decimalValue token = .ok d) :
    (precision limit).check token = .ok () ↔ ∃ k : ℤ, d.value * 10 ^ limit = k := by
  have hcheck : (precision limit).check token = checkPrecision limit d := by
    rw [check, h]
    rfl
  rw [hcheck, checkPrecision, ← d.scale_le_iff]
  simp

/-- The bound that a number sets. -/
theorem read_bound (rule : String) (h : IsNumber v.bytes) (hmagnitude : v.magnitude ≤ Decimal.maxExponent) :
    Bound.read rule v.bytes = .ok ⟨v.shape.value, false⟩ := by
  rw [Bound.read, if_pos ((Literal.isNumber_iff (.number h)).2 h),
    Decimal.parse_of_writes (Numeral.writes_bytes hmagnitude)]

/-- **The rules about numbers decide by the value.**  A number that a scan reports is taken apart in one way, and if
its exponent is not too large, a bound can be read from it.  Such a number keeps a bound, included or excluded,
exactly if its value does, and a precision exactly if so many powers of ten make its value whole.  A number with a
larger exponent is refused as a number by these rules, and every other literal as one of the wrong type. -/
theorem check_decidesByValue :
    (∀ token, Scan.ReportsNumber token → ∃! n : Numeral, n.bytes = token) ∧
    (∀ r v : Numeral, Scan.ReportsNumber r.bytes → Scan.ReportsNumber v.bytes →
      r.magnitude ≤ 100000 → v.magnitude ≤ 100000 → ∀ rule, ∃ bound,
        Bound.read rule r.bytes = .ok bound ∧ bound.exclusive = false ∧
        ((min bound).check v.bytes = .ok () ↔ r.value ≤ v.value) ∧
        ((max bound).check v.bytes = .ok () ↔ v.value ≤ r.value) ∧
        ((min { bound with exclusive := true }).check v.bytes = .ok () ↔ r.value < v.value) ∧
        ((max { bound with exclusive := true }).check v.bytes = .ok () ↔ v.value < r.value)) ∧
    (∀ v : Numeral, Scan.ReportsNumber v.bytes → v.magnitude ≤ 100000 → ∀ limit,
      (precision limit).check v.bytes = .ok () ↔ ∃ k : ℤ, v.value * 10 ^ limit = k) ∧
    (∀ v : Numeral, Scan.ReportsNumber v.bytes → 100000 < v.magnitude → ∀ c : Constraint, c.IsNumeric →
      ∃ cause, c.check v.bytes = .error cause ∧ cause.code = .invalidNumber) ∧
    ∀ token, Scan.ReportsLiteral token → ¬ Scan.ReportsNumber token → ∀ c : Constraint, c.IsNumeric →
      ∃ cause, c.check token = .error cause ∧ cause.code = .typeMismatch := by
  simp only [Scan.reportsNumber_iff, Scan.reportsLiteral_iff]
  refine ⟨fun token h => ?_, fun r v hr hv hrle hvle rule => ?_, fun v hv hvle limit => ?_,
    fun v hv hvlt c hc => ?_, fun token h hnumber c hc => ?_⟩
  · obtain ⟨n, rfl⟩ := Numeral.exists_bytes_eq h
    exact ⟨n, rfl, fun m hm => Numeral.bytes_injective hm⟩
  · have hvalue := Literal.decimalValue_eq_ok hv hvle
    refine ⟨⟨r.shape.value, false⟩, read_bound rule hr hrle, rfl, ?_⟩
    rw [check_min_eq_ok_iff hvalue, check_max_eq_ok_iff hvalue, check_min_eq_ok_iff hvalue,
      check_max_eq_ok_iff hvalue, Decimal.value_shape, Decimal.value_shape]
    simp
  · rw [check_precision_eq_ok_iff (Literal.decimalValue_eq_ok hv hvle), Decimal.value_shape]
  · obtain ⟨cause, herror, hcode⟩ := Literal.decimalValue_eq_error hv hvlt
    exact ⟨cause, hc.check_eq_error herror, hcode⟩
  · obtain ⟨cause, herror, hcode⟩ := Literal.decimalValue_eq_error_of_not_isNumber h hnumber
    exact ⟨cause, hc.check_eq_error herror, hcode⟩

end Constraint
end ExampleSchema
