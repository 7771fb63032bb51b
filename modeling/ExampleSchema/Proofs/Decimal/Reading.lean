import ExampleSchema.Decimal.Parse
import ExampleSchema.Proofs.Decimal.Value
import ExampleSchema.Proofs.Json.Number
import ExampleSchema.Proofs.Outcome
import Mathlib

/-!
# Which texts are decimals

A number as it is written is put together from its parts, and so is the rational number that it denotes.
Reading takes such a text apart again, and moves the point by the exponent.

* `Numeral`: a number as it is written, with its `bytes` and its `value`.
* `Decimal.shape_eq_ok_iff`: the texts that are taken apart, and the parts of each.
* `Decimal.value_shape`: the decimal that is put together from the parts has the value of the number.
* `Decimal.parse_isExact`: reading gives a decimal for the texts that write a number, and it is exact.
-/

namespace ExampleSchema

/-! ## Numbers as they are written -/

namespace Numeral

/-- One or more decimal digits. -/
abbrev Digits := { ds : Bytes // ds ≠ [] ∧ IsDigits ds }

/-- The sign of an exponent, which may be missing. -/
inductive Sign where
  | missing
  | plus
  | minus
  deriving DecidableEq

/-- An exponent. -/
structure Exponent where
  mark : { b : UInt8 // Bytes.char b = 'e' ∨ Bytes.char b = 'E' }
  sign : Sign
  digits : Digits

end Numeral

/-- A number as it is written, with any number of zeros in front. -/
structure Numeral where
  negative : Bool
  whole : Numeral.Digits
  /-- The digits after the point, if there is one. -/
  fraction? : Option Numeral.Digits
  exponent? : Option Numeral.Exponent

namespace Numeral

/-- The bytes of a sign. -/
def Sign.bytes : Sign → Bytes
  | missing => []
  | plus => [Char.toUInt8 '+']
  | minus => [Char.toUInt8 '-']

/-- The bytes of an exponent. -/
def Exponent.bytes (e : Exponent) : Bytes := e.mark.1 :: (e.sign.bytes ++ e.digits.1)

/-- The bytes of the minus in front of a number. -/
def minusBytes (negative : Bool) : Bytes := if negative then [Char.toUInt8 '-'] else []

/-- The bytes of the point and the digits after it. -/
def fractionBytes : Option Digits → Bytes
  | some digits => Char.toUInt8 '.' :: digits.1
  | none => []

/-- The bytes of the exponent, if there is one. -/
def exponentBytes : Option Exponent → Bytes
  | some e => e.bytes
  | none => []

/-- The bytes of a number. -/
def bytes (n : Numeral) : Bytes :=
  minusBytes n.negative ++ (n.whole.1 ++ (fractionBytes n.fraction? ++ exponentBytes n.exponent?))

/-- The number that digits write. -/
def number (ds : Bytes) : Nat := Decimal.digitsNumber (ds.map Bytes.char)

/-- The digits after the point. -/
def fraction (n : Numeral) : Bytes := (n.fraction?.map Subtype.val).getD []

/-- How far the exponent moves the point, in either direction. -/
def magnitude (n : Numeral) : Nat := (n.exponent?.map fun e => number e.digits.1).getD 0

/-- Whether the exponent moves the point to the left. -/
def movesLeft (n : Numeral) : Bool := n.exponent?.any fun e => e.sign = .minus

/-- The power of ten that the exponent stands for. -/
def exponent (n : Numeral) : Int := if n.movesLeft then -n.magnitude else n.magnitude

/-- The rational number that is written. -/
def value (n : Numeral) : ℚ :=
  Decimal.signed n.negative ((number n.whole.1 + number n.fraction / 10 ^ n.fraction.length) * 10 ^ n.exponent)

/-- The number is what a text writes between its blanks, and its exponent is not too large. -/
def Writes (n : Numeral) (text : Bytes) : Prop := n.bytes = text.trim ∧ n.magnitude ≤ Decimal.maxExponent

/-- The parts of a number, as reading tells them. -/
def shape (n : Numeral) : Decimal.Shape := ⟨n.negative, n.whole.1, n.fraction, n.movesLeft, n.magnitude⟩

end Numeral

namespace Decimal

/-! ## Digits -/

theorem digitsValue_concat (ds : Bytes) (d : UInt8) :
    digitsValue (ds ++ [d]) = digitsValue ds * 10 + digitValue d := by
  simp [digitsValue]

/-- The digits of a text write the same number as its characters. -/
theorem digitsValue_eq (ds : Bytes) : digitsValue ds = Numeral.number ds := by
  induction ds using List.reverseRecOn with
  | nil => rfl
  | append_singleton ds d ih =>
    rw [digitsValue_concat, ih, Numeral.number, Numeral.number, List.map_append, digitsNumber_append]
    simp [digitsNumber, digitValue, Char.ofUInt8]

/-- No digit comes next. -/
def EndsDigits (rest : Bytes) : Prop := ∀ b ∈ rest.head?, Bytes.isDigit b = false

/-- Digits are told from what follows them. -/
theorem spanDigits_append {ds rest : Bytes} (hds : IsDigits ds) (hrest : EndsDigits rest) :
    spanDigits (ds ++ rest) = (ds, rest) := by
  rw [spanDigits, List.span_eq_takeWhile_dropWhile, List.takeWhile_append_of_pos hds,
    List.dropWhile_append_of_pos hds]
  cases rest with
  | nil => simp
  | cons b rest =>
    have hb : Bytes.isDigit b = false := hrest b rfl
    rw [List.takeWhile_cons_of_neg (by simp [hb]), List.dropWhile_cons_of_neg (by simp [hb]), List.append_nil]

/-- What is told apart are digits and what follows them. -/
theorem spanDigits_spec (text : Bytes) :
    IsDigits (spanDigits text).1 ∧ text = (spanDigits text).1 ++ (spanDigits text).2 := by
  rw [spanDigits, List.span_eq_takeWhile_dropWhile]
  exact ⟨fun b hb => List.mem_takeWhile_imp hb, List.takeWhile_append_dropWhile.symm⟩

/-- A digit is none of the signs that stand in a number. -/
theorem char_ne_of_isDigit {b : UInt8} (h : Bytes.isDigit b = true) {c : Char} (hc : c.isDigit = false) :
    Bytes.char b ≠ c := by
  rintro rfl
  rw [Bytes.isDigit, hc] at h
  cases h

/-! ## From the parts to the text -/

section

variable {ds rest : Bytes}

theorem spanMinus_append (negative : Bool) (hne : ds ≠ []) (hds : IsDigits ds) :
    spanMinus (Numeral.minusBytes negative ++ (ds ++ rest)) = (negative, ds ++ rest) := by
  cases negative with
  | true => rfl
  | false =>
    obtain ⟨d, ds, rfl⟩ := List.exists_cons_of_ne_nil hne
    exact if_neg (char_ne_of_isDigit (hds d (List.mem_cons_self ..)) rfl)

theorem spanSign_append (sign : Numeral.Sign) (hne : ds ≠ []) (hds : IsDigits ds) :
    spanSign (sign.bytes ++ (ds ++ rest)) = (decide (sign = .minus), ds ++ rest) := by
  cases sign with
  | plus | minus => rfl
  | missing =>
    obtain ⟨d, ds, rfl⟩ := List.exists_cons_of_ne_nil hne
    have hd := hds d (List.mem_cons_self ..)
    exact (if_neg (char_ne_of_isDigit hd rfl)).trans (if_neg (char_ne_of_isDigit hd rfl))

end

/-- Neither a digit nor a point comes first in an exponent. -/
theorem endsDigits_exponentBytes (exponent? : Option Numeral.Exponent) :
    EndsDigits (Numeral.exponentBytes exponent?) ∧
      ∀ b ∈ (Numeral.exponentBytes exponent?).head?, Bytes.char b ≠ '.' := by
  cases exponent? with
  | none => exact ⟨nofun, nofun⟩
  | some e =>
    have hmark : ∀ b ∈ e.bytes.head?, Bytes.char b = 'e' ∨ Bytes.char b = 'E' := by
      rintro b ⟨⟩
      exact e.mark.2
    refine ⟨fun b hb => ?_, fun b hb => ?_⟩
    · rcases hmark b hb with h | h <;> rw [Bytes.isDigit, h] <;> rfl
    · rcases hmark b hb with h | h <;> rw [h] <;> decide

theorem endsDigits_fractionBytes_append (fraction? : Option Numeral.Digits) {rest : Bytes} (hrest : EndsDigits rest) :
    EndsDigits (Numeral.fractionBytes fraction? ++ rest) := by
  cases fraction? with
  | none => exact hrest
  | some digits =>
    rintro b ⟨⟩
    rfl

theorem spanFraction_append (fraction? : Option Numeral.Digits) {rest : Bytes} (hrest : EndsDigits rest)
    (hpoint : ∀ b ∈ rest.head?, Bytes.char b ≠ '.') :
    spanFraction (Numeral.fractionBytes fraction? ++ rest) =
      .ok ((fraction?.map Subtype.val).getD [], rest) := by
  cases fraction? with
  | some digits =>
    obtain ⟨ds, hne, hds⟩ := digits
    have hspan : spanFraction (Char.toUInt8 '.' :: (ds ++ rest)) =
        if (spanDigits (ds ++ rest)).1.isEmpty then .error .malformed else .ok (spanDigits (ds ++ rest)) := rfl
    rw [spanDigits_append hds hrest, if_neg (by simpa using hne)] at hspan
    exact hspan
  | none =>
    cases rest with
    | nil => rfl
    | cons b rest => exact if_neg (hpoint b rfl)

theorem spanExponent_exponentBytes (n : Numeral) (h : n.magnitude ≤ maxExponent) :
    spanExponent (Numeral.exponentBytes n.exponent?) = .ok (n.movesLeft, n.magnitude, []) := by
  obtain ⟨negative, whole, fraction?, exponent?⟩ := n
  cases exponent? with
  | none => rfl
  | some e =>
    obtain ⟨⟨mark, hmark⟩, sign, ⟨ds, hne, hds⟩⟩ := e
    have hsign := @spanSign_append ds [] sign hne hds
    have hdigits := @spanDigits_append ds [] hds nofun
    rw [List.append_nil] at hsign hdigits
    change Numeral.number ds ≤ maxExponent at h
    rw [Numeral.exponentBytes, Numeral.Exponent.bytes, spanExponent, if_pos hmark, hsign]
    dsimp only
    rw [hdigits]
    dsimp only
    rw [if_neg (by simpa using hne), digitsValue_eq, if_neg (Nat.not_lt.2 h)]
    rfl

/-- **A number is taken apart** into its parts. -/
theorem shape_bytes (n : Numeral) (h : n.magnitude ≤ maxExponent) : Decimal.shape n.bytes = .ok n.shape := by
  obtain ⟨hends, hpoint⟩ := endsDigits_exponentBytes n.exponent?
  rw [Decimal.shape, Numeral.bytes, spanMinus_append _ n.whole.2.1 n.whole.2.2]
  dsimp only
  rw [spanDigits_append n.whole.2.2 (endsDigits_fractionBytes_append n.fraction? hends)]
  dsimp only
  rw [if_neg (by simpa using n.whole.2.1), spanFraction_append n.fraction? hends hpoint]
  change (do let x ← spanExponent (Numeral.exponentBytes n.exponent?); _ : Except Refusal Shape) = _
  rw [spanExponent_exponentBytes n h]
  rfl

/-! ## From the text to the parts -/

theorem spanMinus_spec (text : Bytes) : text = Numeral.minusBytes (spanMinus text).1 ++ (spanMinus text).2 := by
  cases text with
  | nil => rfl
  | cons b rest =>
    rw [spanMinus]
    split
    · next h =>
      rw [Bytes.eq_of_char_eq h]
      rfl
    · rfl

theorem spanSign_spec (text : Bytes) : ∃ sign : Numeral.Sign, text = sign.bytes ++ (spanSign text).2 := by
  cases text with
  | nil => exact ⟨.missing, rfl⟩
  | cons b rest =>
    rw [spanSign]
    split
    · next h =>
      rw [Bytes.eq_of_char_eq h]
      exact ⟨.plus, rfl⟩
    · have h := spanMinus_spec (b :: rest)
      cases hminus : (spanMinus (b :: rest)).1 with
      | true => exact ⟨.minus, by rwa [hminus] at h⟩
      | false => exact ⟨.missing, by rwa [hminus] at h⟩

theorem spanFraction_spec {text fraction rest : Bytes} (h : spanFraction text = .ok (fraction, rest)) :
    ∃ fraction?, text = Numeral.fractionBytes fraction? ++ rest := by
  cases text with
  | nil =>
    cases h
    exact ⟨none, rfl⟩
  | cons b more =>
    rw [spanFraction] at h
    split at h
    · next hpoint =>
      obtain ⟨hdigits, hmore⟩ := spanDigits_spec more
      dsimp only at h
      split at h
      · cases h
      · next hne =>
        cases h
        refine ⟨some ⟨_, by simpa using hne, hdigits⟩, ?_⟩
        rw [Bytes.eq_of_char_eq hpoint, Numeral.fractionBytes, List.cons_append, ← hmore]
    · cases h
      exact ⟨none, rfl⟩

theorem spanExponent_spec {text rest : Bytes} {negative : Bool} {exponent : Nat}
    (h : spanExponent text = .ok (negative, exponent, rest)) :
    ∃ exponent?, text = Numeral.exponentBytes exponent? ++ rest ∧
      (exponent?.map fun e => Numeral.number e.digits.1).getD 0 ≤ maxExponent := by
  cases text with
  | nil =>
    cases h
    exact ⟨none, rfl, Nat.zero_le _⟩
  | cons b more =>
    rw [spanExponent] at h
    split at h
    · next hmark =>
      obtain ⟨sign, hsign⟩ := spanSign_spec more
      obtain ⟨hdigits, hmore⟩ := spanDigits_spec (spanSign more).2
      dsimp only at h
      split at h
      · cases h
      · next hne =>
        split at h
        · cases h
        · next hle =>
          cases h
          refine ⟨some ⟨⟨b, hmark⟩, sign, ⟨_, by simpa using hne, hdigits⟩⟩, ?_, ?_⟩
          · rw [Numeral.exponentBytes, Numeral.Exponent.bytes, List.cons_append, List.append_assoc, ← hmore,
              ← hsign]
          · rw [digitsValue_eq] at hle
            exact Nat.not_lt.1 hle
    · cases h
      exact ⟨none, rfl, Nat.zero_le _⟩

/-- **A text that is taken apart** is a number. -/
theorem exists_numeral_of_shape {text : Bytes} {s : Shape} (h : Decimal.shape text = .ok s) :
    ∃ n : Numeral, n.bytes = text ∧ n.magnitude ≤ maxExponent := by
  obtain ⟨hdigits, hwhole⟩ := spanDigits_spec (spanMinus text).2
  rw [Decimal.shape] at h
  dsimp only at h
  split at h
  · cases h
  · next hne =>
    obtain ⟨⟨fraction, afterFraction⟩, hfraction, h⟩ := Except.bind_eq_ok_iff.1 h
    obtain ⟨⟨negative, exponent, afterExponent⟩, hexponent, h⟩ := Except.bind_eq_ok_iff.1 h
    dsimp only at h
    split at h
    · next hempty =>
      obtain rfl := List.isEmpty_iff.1 hempty
      obtain ⟨fraction?, hfraction⟩ := spanFraction_spec hfraction
      obtain ⟨exponent?, hexponent, hle⟩ := spanExponent_spec hexponent
      rw [List.append_nil] at hexponent
      refine ⟨⟨(spanMinus text).1, ⟨_, by simpa using hne, hdigits⟩, fraction?, exponent?⟩, ?_, hle⟩
      rw [Numeral.bytes, ← hexponent, ← hfraction, ← hwhole, ← spanMinus_spec]
    · cases h

/-- The texts that are taken apart, and the parts of each. -/
theorem shape_eq_ok_iff {text : Bytes} {s : Shape} :
    Decimal.shape text = .ok s ↔ ∃ n : Numeral, n.bytes = text ∧ n.magnitude ≤ maxExponent ∧ n.shape = s := by
  constructor
  · intro h
    obtain ⟨n, rfl, hle⟩ := exists_numeral_of_shape h
    exact ⟨n, rfl, hle, Except.ok.inj ((shape_bytes n hle).symm.trans h)⟩
  · rintro ⟨n, rfl, hle, rfl⟩
    exact shape_bytes n hle

/-! ## Values -/

/-- **Moving the point** gives the value of the number. -/
theorem value_shape (n : Numeral) : n.shape.value.value = n.value := by
  have hcoeff : (digitsValue (n.whole.1 ++ n.fraction) : ℚ) / 10 ^ n.fraction.length =
      Numeral.number n.whole.1 + Numeral.number n.fraction / 10 ^ n.fraction.length := by
    rw [digitsValue_eq, Numeral.number, List.map_append, digitsNumber_append, List.length_map]
    push_cast
    rw [add_div, mul_div_assoc, div_self (by positivity), mul_one]
    rfl
  rw [Numeral.value, ← hcoeff, Numeral.exponent, Shape.value]
  change (if n.movesLeft = true then ofScaled n.negative (digitsValue (n.whole.1 ++ n.fraction))
      (n.fraction.length + n.magnitude)
    else if n.magnitude < n.fraction.length then ofScaled n.negative (digitsValue (n.whole.1 ++ n.fraction))
      (n.fraction.length - n.magnitude)
    else ofScaled n.negative (digitsValue (n.whole.1 ++ n.fraction) *
      Nat.pow 10 (n.magnitude - n.fraction.length)) 0).value = _
  split
  · rw [value_ofScaled, pow_add, zpow_neg, zpow_natCast]
    congr 1
    field_simp
  · rw [zpow_natCast]
    split
    · next hlt =>
      -- Some of the digits after the point stay there.
      obtain ⟨k, hk⟩ := Nat.exists_eq_add_of_lt hlt
      have hkeep : n.fraction.length - n.magnitude = k + 1 := by omega
      have hlength : n.fraction.length = n.magnitude + (k + 1) := by omega
      rw [value_ofScaled, hkeep, hlength, pow_add _ n.magnitude]
      congr 1
      field_simp
    · next hge =>
      -- Zeros follow the digits after the point.
      obtain ⟨k, hk⟩ := Nat.exists_eq_add_of_le (Nat.not_lt.1 hge)
      have hmore : n.magnitude - n.fraction.length = k := by omega
      rw [value_ofScaled, hmore, hk, pow_add, Nat.pow_eq]
      congr 1
      push_cast
      field_simp

/-- Reading gives the decimals with the values of the numbers that are written. -/
theorem parse_eq_ok_iff_writes {text : Bytes} {d : Decimal} :
    parse text = .ok d ↔ ∃ n : Numeral, n.Writes text ∧ d.value = n.value := by
  rw [parse, Except.map_eq_ok_iff]
  constructor
  · rintro ⟨s, hs, rfl⟩
    obtain ⟨n, hbytes, hle, rfl⟩ := shape_eq_ok_iff.1 hs
    exact ⟨n, ⟨hbytes, hle⟩, value_shape n⟩
  · rintro ⟨n, ⟨hbytes, hle⟩, hvalue⟩
    refine ⟨n.shape, shape_eq_ok_iff.2 ⟨n, hbytes, hle, rfl⟩, ?_⟩
    rw [eq_iff_value_eq, value_shape, hvalue]

/-- Whatever number a text writes, reading gives the decimal with its value. -/
theorem parse_of_writes {text : Bytes} {n : Numeral} (h : n.Writes text) :
    parse text = .ok n.shape.value := parse_eq_ok_iff_writes.2 ⟨n, h, value_shape n⟩

/-- **Reading is exact**: it succeeds for the texts that write a number whose exponent is not too large, with a
decimal that has the value of the number and the digits of that value, as few as there can be.  So two texts
give one decimal exactly if they write one value. -/
theorem parse_isExact (text : Bytes) :
    ((∃ d, parse text = .ok d) ↔ ∃ n : Numeral, n.Writes text) ∧
    (∀ d, parse text = .ok d → d.IsCanonical ∧ ∀ n : Numeral, n.Writes text → d.value = n.value) ∧
    ∀ other (n m : Numeral), n.Writes text → m.Writes other →
      (parse text = parse other ↔ n.value = m.value) := by
  refine ⟨⟨?_, ?_⟩, fun d hd => ⟨d.isCanonical, fun n hn => ?_⟩, fun other n m hn hm => ?_⟩
  · rintro ⟨d, hd⟩
    obtain ⟨n, hn, -⟩ := parse_eq_ok_iff_writes.1 hd
    exact ⟨n, hn⟩
  · rintro ⟨n, hn⟩
    exact ⟨_, parse_of_writes hn⟩
  · rw [parse_of_writes hn] at hd
    rw [← Except.ok.inj hd, value_shape]
  · rw [parse_of_writes hn, parse_of_writes hm, Except.ok.injEq, eq_iff_value_eq, value_shape, value_shape]

end Decimal
end ExampleSchema
