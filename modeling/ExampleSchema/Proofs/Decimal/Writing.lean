import ExampleSchema.Proofs.Decimal.Order
import ExampleSchema.Proofs.Decimal.Reading
import ExampleSchema.Text.Utf8
import Mathlib

/-!
# Decimals as texts

The text of a decimal is a number as it is written: with a zero before the point where the decimal has no digits
there, with all of its digits after the point, and without an exponent.  The value of that number is the decimal's
own, so reading the text gives the decimal back.

A count is a decimal without a sign and without digits after the point.  Read digit by digit, it is given up as soon
as it does not fit.

* `Numeral.isNumber_bytes`: a number as it is written is one of the grammar if no zero leads it.
* `Decimal.numeral`: the number that a decimal is written as, with `bytes_numeral` and `value_numeral`.
* `Decimal.text_ofNat`: a count is written with the digits of the natural number.
* `Decimal.countWritten?`: the count that the digits of a decimal write, and `countWritten?_eq_toNat?`.
* `Decimal.text_isExact`: decimals and counts are what they are written as.
-/

namespace ExampleSchema

/-! ## Characters and bytes -/

/-- The bytes of the first half stand for the ASCII characters. -/
theorem Bytes.char_toUInt8 {c : Char} (h : c.toNat < 0x80) : Bytes.char c.toUInt8 = c := by
  refine Char.toNat_inj.1 ?_
  rw [Bytes.toNat_char]
  change c.toNat % 256 = c.toNat
  omega

/-- An ASCII character is one byte. -/
theorem Utf8.encode_eq_map {cs : List Char} (h : ∀ c ∈ cs, c.toNat < 0x80) : encode cs = cs.map Char.toUInt8 := by
  induction cs with
  | nil => rfl
  | cons c cs ih =>
    obtain ⟨hc, hcs⟩ := List.forall_mem_cons.1 h
    have hle : c.val.toNat ≤ 127 := Nat.le_of_lt_succ hc
    have hbyte : String.utf8EncodeChar c = [c.toUInt8] := by
      rw [String.utf8EncodeChar.eq_1, if_pos hle]
      rfl
    rw [encode, List.flatMap_cons, hbyte, ← encode, ih hcs]
    rfl

/-- A text without blanks is not trimmed. -/
theorem Bytes.trim_eq_self {text : Bytes} (h : ∀ b ∈ text, isSpace b = false) : text.trim = text := by
  have hdrop : ∀ bytes : Bytes, (∀ b ∈ bytes, isSpace b = false) → bytes.dropWhile isSpace = bytes := by
    intro bytes hbytes
    refine List.dropWhile_eq_self_iff.2 fun hl => ?_
    rw [hbytes _ (List.getElem_mem hl)]
    exact Bool.false_ne_true
  rw [trim, hdrop text h, hdrop _ fun b hb => h b (List.mem_reverse.1 hb), List.reverse_reverse]

/-! ## Numbers of the grammar -/

namespace Numeral

variable {n : Numeral} {b : UInt8} {cs : List Char}

theorem isFraction_fractionBytes (fraction? : Option Digits) : IsFraction (fractionBytes fraction?) := by
  cases fraction? with
  | none => exact .missing
  | some digits => exact .digits digits.2.1 digits.2.2

theorem isExponent_exponentBytes (exponent? : Option Exponent) : IsExponent (exponentBytes exponent?) := by
  cases exponent? with
  | none => exact .missing
  | some e =>
    have hsign : IsSign e.sign.bytes := by
      cases e.sign with
      | missing => exact .missing
      | plus => exact .plus
      | minus => exact .minus
    exact .digits e.mark.2 hsign e.digits.2.1 e.digits.2.2

/-- **A number is one of the grammar** if no zero leads it. -/
theorem isNumber_bytes (h : IsWhole n.whole.1) : IsNumber n.bytes := by
  have hunsigned : IsUnsigned (n.whole.1 ++ (fractionBytes n.fraction? ++ exponentBytes n.exponent?)) :=
    ⟨_, _, _, rfl, h, isFraction_fractionBytes _, isExponent_exponentBytes _⟩
  rw [bytes]
  cases n.negative with
  | false => exact .positive hunsigned
  | true => exact .negative hunsigned

/-- The bytes of a number before its exponent are a minus, a point and digits. -/
theorem mem_bytes (h : b ∈ n.bytes) :
    Bytes.char b = '-' ∨ Bytes.char b = '.' ∨ Bytes.isDigit b = true ∨ b ∈ exponentBytes n.exponent? := by
  rw [bytes, List.mem_append, List.mem_append, List.mem_append] at h
  rcases h with h | h | h | h
  · left
    rw [minusBytes] at h
    split at h
    · rw [List.mem_singleton.1 h]
      rfl
    · cases h
  · exact Or.inr (Or.inr (Or.inl (n.whole.2.2 b h)))
  · right
    cases hfraction : n.fraction? with
    | none =>
      rw [hfraction] at h
      cases h
    | some digits =>
      rw [hfraction, fractionBytes, List.mem_cons] at h
      rcases h with rfl | h
      · exact Or.inl rfl
      · exact Or.inr (Or.inl (digits.2.2 b h))
  · exact Or.inr (Or.inr (Or.inr h))

/-- The bytes of an exponent are its letter, its sign and digits. -/
theorem mem_exponentBytes {exponent? : Option Exponent} (h : b ∈ exponentBytes exponent?) :
    Bytes.char b ∈ ['e', 'E', '+', '-'] ∨ Bytes.isDigit b = true := by
  cases exponent? with
  | none => cases h
  | some e =>
    rw [exponentBytes, Exponent.bytes, List.mem_cons, List.mem_append] at h
    rcases h with rfl | h | h
    · left
      rcases e.mark.2 with hmark | hmark <;> rw [hmark] <;> decide
    · left
      cases hsign : e.sign with
      | missing =>
        rw [hsign] at h
        cases h
      | plus | minus =>
        rw [hsign] at h
        rw [List.mem_singleton.1 h]
        decide
    · exact Or.inr (e.digits.2.2 b h)

/-- No blank stands in a number. -/
theorem isSpace_of_mem_bytes (h : b ∈ n.bytes) : Bytes.isSpace b = false := by
  have hspace : ∀ c : Char, Bytes.char b = c → c ∈ ['-', '.', 'e', 'E', '+'] → Bytes.isSpace b = false := by
    intro c hc hmem
    rw [Bytes.isSpace, hc]
    simp only [List.mem_cons, List.not_mem_nil, or_false] at hmem
    rcases hmem with rfl | rfl | rfl | rfl | rfl <;> rfl
  have hdigit : Bytes.isDigit b = true → Bytes.isSpace b = false := by
    intro hdigit
    unfold Bytes.isSpace
    split
    iterate 4
      next hb =>
        rw [Bytes.isDigit, hb] at hdigit
        cases hdigit
    · rfl
  rcases mem_bytes h with h | h | h | h
  · exact hspace _ h (by decide)
  · exact hspace _ h (by decide)
  · exact hdigit h
  · rcases mem_exponentBytes h with h | h
    · refine hspace _ rfl ?_
      simp only [List.mem_cons, List.not_mem_nil, or_false] at h ⊢
      tauto
    · exact hdigit h

theorem trim_bytes (n : Numeral) : n.bytes.trim = n.bytes :=
  Bytes.trim_eq_self fun _ => isSpace_of_mem_bytes

/-- A number whose exponent is not too large is what its own bytes write. -/
theorem writes_bytes (h : n.magnitude ≤ Decimal.maxExponent) : n.Writes n.bytes := ⟨n.trim_bytes.symm, h⟩

/-- The letter of an exponent only stands where there is one. -/
theorem char_ne_of_exponent?_eq_none (hexponent : n.exponent? = none) (h : b ∈ n.bytes) :
    Bytes.char b ≠ 'e' ∧ Bytes.char b ≠ 'E' := by
  have hmem := mem_bytes h
  rw [hexponent] at hmem
  rcases hmem with h | h | h | h
  · rw [h]; decide
  · rw [h]; decide
  · exact ⟨Decimal.char_ne_of_isDigit h rfl, Decimal.char_ne_of_isDigit h rfl⟩
  · cases h

/-! ## Digits -/

theorem toNat_lt_of_isDigit {c : Char} (h : c.isDigit = true) : c.toNat < 0x80 :=
  (Decimal.toNat_of_isDigit h).2.trans (by decide)

/-- The digits that some characters are written as. -/
def Digits.ofChars (cs : List Char) (hne : cs ≠ []) (h : ∀ c ∈ cs, c.isDigit = true) : Digits :=
  ⟨cs.map Char.toUInt8, by simpa using hne, by
    intro b hb
    obtain ⟨c, hc, rfl⟩ := List.mem_map.1 hb
    rw [Bytes.isDigit, Bytes.char_toUInt8 (toNat_lt_of_isDigit (h c hc)), h c hc]⟩

/-- As bytes, digits write the same number. -/
theorem number_map_toUInt8 (h : ∀ c ∈ cs, c.isDigit = true) :
    number (cs.map Char.toUInt8) = Decimal.digitsNumber cs := by
  have hchars : cs.map (Bytes.char ∘ Char.toUInt8) = cs.map id :=
    List.map_congr_left fun c hc => Bytes.char_toUInt8 (toNat_lt_of_isDigit (h c hc))
  rw [number, List.map_map, hchars, List.map_id]

end Numeral

namespace Decimal

/-! ## The text of a decimal -/

/-- The digits that are shown before the point: a zero where there are none. -/
def shownDigits (d : Decimal) : List Char := if d.wholeDigits.isEmpty then ['0'] else d.wholeDigits

theorem shownDigits_ne_nil (d : Decimal) : d.shownDigits ≠ [] := by
  rw [shownDigits]
  split
  · nofun
  · next h => simpa using h

theorem isDigit_of_mem_shownDigits (d : Decimal) : ∀ c ∈ d.shownDigits, c.isDigit = true := by
  rw [shownDigits]
  split
  · simp
  · exact d.isCanonical.whole

theorem digitsNumber_shownDigits (d : Decimal) : digitsNumber d.shownDigits = digitsNumber d.wholeDigits := by
  rw [shownDigits]
  split
  · next h =>
    rw [List.isEmpty_iff.1 h]
    rfl
  · rfl

theorem fractionDigits_ne_nil {d : Decimal} (h : d.scale ≠ 0) : d.fractionDigits ≠ [] := by
  intro hnil
  rw [d.isCanonical.length, hnil] at h
  exact h rfl

/-- The number that a decimal is written as. -/
def numeral (d : Decimal) : Numeral where
  negative := d.negative
  whole := .ofChars d.shownDigits d.shownDigits_ne_nil d.isDigit_of_mem_shownDigits
  fraction? :=
    if h : d.scale = 0 then none
    else some (.ofChars d.fractionDigits (fractionDigits_ne_nil h) d.isCanonical.fraction)
  exponent? := none

/-- **The text of a decimal** has the bytes of its number. -/
theorem bytes_numeral (d : Decimal) : d.numeral.bytes = Bytes.ofString d.text := by
  have hascii : ∀ c ∈ (if d.negative then ['-'] else []) ++ d.shownDigits ++
      (if d.scale = 0 then [] else '.' :: d.fractionDigits), c.toNat < 0x80 := by
    intro c hc
    rw [List.mem_append, List.mem_append] at hc
    rcases hc with (hc | hc) | hc
    · split at hc
      · rw [List.mem_singleton.1 hc]
        decide
      · cases hc
    · exact Numeral.toNat_lt_of_isDigit (d.isDigit_of_mem_shownDigits c hc)
    · split at hc
      · cases hc
      · rcases List.mem_cons.1 hc with rfl | hc
        · decide
        · exact Numeral.toNat_lt_of_isDigit (d.isCanonical.fraction c hc)
  have htext : Bytes.ofString d.text = Utf8.encode ((if d.negative then ['-'] else []) ++ d.shownDigits ++
      (if d.scale = 0 then [] else '.' :: d.fractionDigits)) := by
    rw [Bytes.ofString, text, String.toList_ofList]
    rfl
  rw [htext, Utf8.encode_eq_map hascii, List.map_append, List.map_append, List.append_assoc, Numeral.bytes, numeral]
  refine congrArg₂ (· ++ ·) ?_ (congrArg₂ (· ++ ·) rfl ?_)
  · cases d.negative <;> rfl
  · rw [Numeral.exponentBytes, List.append_nil]
    split <;> rfl

theorem fraction_numeral (d : Decimal) : d.numeral.fraction = d.fractionDigits.map Char.toUInt8 := by
  rw [Numeral.fraction, numeral]
  dsimp only
  split
  · next h =>
    rw [List.length_eq_zero_iff.1 (d.isCanonical.length.symm.trans h)]
    rfl
  · rfl

/-- **The number that a decimal is written as** has its value. -/
theorem value_numeral (d : Decimal) : d.numeral.value = d.value := by
  have hwhole : Numeral.number d.numeral.whole.1 = digitsNumber d.wholeDigits := by
    rw [← d.digitsNumber_shownDigits]
    exact Numeral.number_map_toUInt8 d.isDigit_of_mem_shownDigits
  have hfraction : Numeral.number d.numeral.fraction = digitsNumber d.fractionDigits := by
    rw [fraction_numeral]
    exact Numeral.number_map_toUInt8 d.isCanonical.fraction
  have hlength : d.numeral.fraction.length = d.fractionDigits.length := by
    rw [fraction_numeral, List.length_map]
  have hexponent : (10 : ℚ) ^ d.numeral.exponent = 1 := by
    change (10 : ℚ) ^ (0 : ℤ) = 1
    exact zpow_zero _
  rw [Numeral.value, hwhole, hfraction, hlength, hexponent, mul_one, d.isCanonical.digits, digitsNumber_append]
  change signed d.negative _ = _
  congr 1
  push_cast
  field_simp

/-- No zero leads the text of a decimal, unless it stands alone before the point. -/
theorem isWhole_numeral (d : Decimal) : IsWhole d.numeral.whole.1 := by
  change IsWhole (d.shownDigits.map Char.toUInt8)
  rw [shownDigits]
  split
  · exact .zero
  · next hne =>
    obtain ⟨c, cs, hdigits⟩ := List.exists_cons_of_ne_nil (by simpa using hne)
    have hmem := d.isCanonical.whole
    have hhead := d.isCanonical.head
    rw [hdigits] at hmem hhead ⊢
    obtain ⟨hc, hcs⟩ := List.forall_mem_cons.1 hmem
    have hchar := Bytes.char_toUInt8 (Numeral.toNat_lt_of_isDigit hc)
    refine .digits ?_ ?_ fun b hb => ?_
    · rw [Bytes.isDigit, hchar, hc]
    · rw [hchar]
      simpa using hhead
    · obtain ⟨c', hc', rfl⟩ := List.mem_map.1 hb
      rw [Bytes.isDigit, Bytes.char_toUInt8 (Numeral.toNat_lt_of_isDigit (hcs c' hc')), hcs c' hc']

/-- **The text of a decimal is read back** as the decimal. -/
theorem parse_text (d : Decimal) : parse (Bytes.ofString d.text) = .ok d := by
  rw [← bytes_numeral]
  exact parse_eq_ok_iff_writes.2 ⟨d.numeral, Numeral.writes_bytes (Nat.zero_le _), d.value_numeral.symm⟩

/-! ## Counts -/

theorem digits_zero : digits 0 = [] := by
  exact @digits_eq 0 0 Nat.one_pos

/-- The last digit of a number stands behind those of the rest. -/
theorem digits_of_pos {n : Nat} (h : 0 < n) : digits n = digits (n / 10) ++ [Nat.digitChar (n % 10)] := by
  obtain ⟨count, hcount⟩ : ∃ count, n < 10 ^ (count + 1) := ⟨n, (Nat.lt_pow_self (by decide)).trans
    (Nat.pow_lt_pow_succ (by decide))⟩
  have hrest : n / 10 < 10 ^ count := by rw [pow_succ] at hcount; omega
  rw [digits_eq hcount, digits_eq hrest, lastDigits, List.dropWhile_append]
  split
  · next hempty =>
    -- Nothing stands before the last digit, so that is not zero.
    have hnil : digits (n / 10) = [] := by rw [digits_eq hrest]; exact List.isEmpty_iff.1 hempty
    have hzero : n / 10 = 0 := by rw [← digitsNumber_digits (n / 10), hnil]; rfl
    have hlast : Nat.digitChar (n % 10) ≠ '0' := fun h0 => by
      have := (digitChar_spec _ (Nat.mod_lt n (by decide))).2.2 h0
      omega
    rw [List.isEmpty_iff.1 hempty, List.dropWhile_cons_of_neg (by simpa using hlast)]
    rfl
  · rfl

/-- The digits of a number are those that it is commonly written with, but zero has none. -/
theorem digits_eq_toDigits (n : Nat) (h : 0 < n) : digits n = Nat.toDigits 10 n := by
  induction n using Nat.strong_induction_on with
  | _ n ih =>
    rw [digits_of_pos h]
    rcases Nat.lt_or_ge n 10 with hlt | hge
    · rw [Nat.div_eq_of_lt hlt, digits_zero, Nat.toDigits_of_lt_base hlt, Nat.mod_eq_of_lt hlt]
      rfl
    · rw [Nat.toDigits_of_base_le (by decide) hge, ih (n / 10) (by omega) (by omega)]

/-- **A count is written** with the digits of the natural number. -/
theorem text_ofNat (n : Nat) : (ofNat n).text = toString n := by
  have hdigits : (ofNat n).wholeDigits = digits n := by
    rw [wholeDigits]
    change digits (n / 10 ^ 0) = _
    rw [pow_zero, Nat.div_one]
  have hshown : (ofNat n).shownDigits = Nat.toDigits 10 n := by
    rw [shownDigits, hdigits]
    rcases Nat.eq_zero_or_pos n with rfl | hpos
    · rfl
    · rw [digits_eq_toDigits n hpos, if_neg]
      rw [List.isEmpty_iff, ← digits_eq_toDigits n hpos, digits_of_pos hpos]
      exact List.append_ne_nil_of_right_ne_nil _ (List.cons_ne_nil _ _)
  calc (ofNat n).text = String.ofList ([] ++ (ofNat n).shownDigits ++ []) := rfl
    _ = String.ofList (Nat.toDigits 10 n) := by rw [hshown, List.nil_append, List.append_nil]
    _ = toString n := rfl

theorem value_ofNat (n : Nat) : (ofNat n).value = n := by
  change signed false ((n : ℚ) / 10 ^ 0) = n
  rw [pow_zero, div_one]
  rfl

theorem toNat?_ofNat (n : Nat) : (ofNat n).toNat? = if n < UInt64.size then some n else none := by
  by_cases h : n < UInt64.size <;> simp [toNat?, ofNat, isInteger, h]

/-- A decimal that counts something is that natural number. -/
theorem eq_ofNat_of_toNat? {d : Decimal} {n : Nat} (h : d.toNat? = some n) : d = ofNat n := by
  obtain ⟨negative, coeff, scale, hreduced, hsign⟩ := d
  simp only [toNat?, isInteger, Option.ite_none_right_eq_some, Bool.and_eq_true, Bool.not_eq_true', beq_iff_eq,
    decide_eq_true_eq, Option.some.injEq] at h
  obtain ⟨⟨⟨rfl, rfl⟩, -⟩, rfl⟩ := h
  rfl

/-- **A decimal counts something** exactly if its value is a natural number that fits. -/
theorem toNat?_eq_some_iff {d : Decimal} {n : Nat} : d.toNat? = some n ↔ n < UInt64.size ∧ d.value = n := by
  constructor
  · intro h
    obtain rfl := eq_ofNat_of_toNat? h
    refine ⟨?_, value_ofNat n⟩
    by_contra hlarge
    rw [toNat?_ofNat, if_neg hlarge] at h
    cases h
  · rintro ⟨hlt, hvalue⟩
    obtain rfl : d = ofNat n := eq_iff_value_eq.2 (hvalue.trans (value_ofNat n).symm)
    rw [toNat?_ofNat, if_pos hlt]

/-! ## Counts digit by digit -/

/-- A number, if it fits into a count. -/
def fit? (n : Nat) : Option Nat := if n < UInt64.size then some n else none

/-- A count with one more digit, if that fits. -/
def pushDigit? (n : Nat) (c : Char) : Option Nat := do
  let tens ← fit? (n * 10)
  fit? (tens + (c.toNat - '0'.toNat))

/-- The count that the digits of a decimal write, read from the left.  It is given up at the first digit with which
it does not fit. -/
def countWritten? (d : Decimal) : Option Nat :=
  if d.negative ∨ d.fractionDigits ≠ [] then none
  else (d.wholeDigits ++ d.fractionDigits).foldlM pushDigit? 0

theorem pushDigit?_eq (n : Nat) (c : Char) : pushDigit? n c = fit? (n * 10 + (c.toNat - '0'.toNat)) := by
  rw [pushDigit?, fit?]
  split
  · rfl
  · rw [fit?, if_neg (by omega)]
    rfl

/-- Digits are a count if the number that they write fits, however many zeros lead it. -/
theorem foldlM_pushDigit? {n : Nat} (h : n < UInt64.size) (ds : List Char) :
    ds.foldlM pushDigit? n = fit? (n * 10 ^ ds.length + digitsNumber ds) := by
  induction ds generalizing n with
  | nil => simp [fit?, h]
  | cons c ds ih =>
    have hshift : n * 10 ^ (c :: ds).length + digitsNumber (c :: ds) =
        (n * 10 + (c.toNat - '0'.toNat)) * 10 ^ ds.length + digitsNumber ds := by
      rw [digitsNumber_cons, List.length_cons, pow_succ]
      ring
    rw [List.foldlM_cons, pushDigit?_eq, hshift]
    by_cases hfit : n * 10 + (c.toNat - '0'.toNat) < UInt64.size
    · rw [fit?, if_pos hfit]
      exact ih hfit
    · -- More digits do not make a number smaller.
      have hlarge : n * 10 + (c.toNat - '0'.toNat) ≤
          (n * 10 + (c.toNat - '0'.toNat)) * 10 ^ ds.length + digitsNumber ds :=
        (Nat.le_mul_of_pos_right _ (by positivity)).trans (Nat.le_add_right _ _)
      rw [fit?, if_neg hfit, fit?, if_neg fun hlt => hfit (hlarge.trans_lt hlt)]
      rfl

/-- **Read digit by digit**, a decimal counts the same. -/
theorem countWritten?_eq_toNat? (d : Decimal) : d.countWritten? = d.toNat? := by
  have hscale : d.scale = 0 ↔ d.fractionDigits = [] := by rw [d.isCanonical.length, List.length_eq_zero_iff]
  rw [countWritten?, toNat?, isInteger]
  split
  · next h =>
    rw [if_neg]
    rintro hcount
    simp only [Bool.and_eq_true, Bool.not_eq_true', beq_iff_eq, hscale] at hcount
    rcases h with h | h
    · rw [h] at hcount
      cases hcount.1.1
    · exact h hcount.1.2
  · next h =>
    obtain ⟨hsign, hfraction⟩ := not_or.1 h
    rw [foldlM_pushDigit? (by decide), digitsNumber_all, Nat.zero_mul, Nat.zero_add, fit?]
    simp [hsign, hscale.2 (not_not.1 hfraction)]

/-! ## All of it -/

/-- **Decimals and counts are what they are written as.**  The text of a decimal is a number of the grammar without
an exponent, and is read back as the decimal.  What a count is commonly written with is read as the count, which is
told again from its decimal.  A decimal is told to be a count exactly if its value is a natural number below
`2 ^ 64`, also when its digits are read one by one. -/
theorem text_isExact :
    (∀ d : Decimal, parse (Bytes.ofString d.text) = .ok d ∧ IsNumber (Bytes.ofString d.text) ∧
      ∀ b ∈ Bytes.ofString d.text, Bytes.char b ≠ 'e' ∧ Bytes.char b ≠ 'E') ∧
    (∀ n : UInt64, parse (Bytes.ofString (toString n.toNat)) = .ok (ofNat n.toNat) ∧
      (ofNat n.toNat).toNat? = some n.toNat) ∧
    ∀ d : Decimal, d.countWritten? = d.toNat? ∧
      (∀ n : Nat, d.toNat? = some n ↔ n < 2 ^ 64 ∧ d.value = n) ∧
      (d.toNat? = none ↔ ¬ ∃ n : Nat, n < 2 ^ 64 ∧ d.value = n) := by
  refine ⟨fun d => ⟨d.parse_text, ?_, ?_⟩, fun n => ⟨?_, ?_⟩, fun d =>
    ⟨d.countWritten?_eq_toNat?, fun n => toNat?_eq_some_iff, ?_⟩⟩
  · rw [← bytes_numeral]
    exact Numeral.isNumber_bytes d.isWhole_numeral
  · rw [← bytes_numeral]
    exact fun b => Numeral.char_ne_of_exponent?_eq_none rfl
  · rw [← text_ofNat]
    exact parse_text _
  · exact toNat?_eq_some_iff.2 ⟨n.toNat_lt_size, value_ofNat _⟩
  · rw [← Option.not_isSome_iff_eq_none, Option.isSome_iff_exists]
    exact not_congr (exists_congr fun n => toNat?_eq_some_iff)

end Decimal
end ExampleSchema
