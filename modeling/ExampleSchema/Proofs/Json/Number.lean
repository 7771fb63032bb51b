import ExampleSchema.Proofs.Json.Grammar

/-!
# Numbers, part by part

A scan reads a number as a sequence of parts.  `NumberPart.Completes` says what may follow the part that
was read last, as the grammar has it, and the scan goes from part to part in just this way:

* `NumberPart.completes_nil_iff`: a number may end after a part that is complete.
* `NumberPart.completes_cons_iff`: a byte may follow if it leads to a part from which the rest may follow.
-/

namespace ExampleSchema

namespace Bytes

/-- A byte is told by its character. -/
theorem eq_of_char_eq {b : UInt8} {c : Char} (h : char b = c) : b = c.toUInt8 := by
  rw [← h]
  exact (UInt8.toUInt8_toUInt32 b).symm

/-- A byte and its character have the same number. -/
theorem toNat_char (b : UInt8) : (char b).toNat = b.toNat := by
  exact UInt8.toNat_toUInt32 b

end Bytes

theorem isDigits_nil : IsDigits [] := fun _ h => (List.not_mem_nil h).elim

theorem isDigits_cons_iff {b : UInt8} {text : Bytes} :
    IsDigits (b :: text) ↔ Bytes.isDigit b = true ∧ IsDigits text := List.forall_mem_cons

namespace Scan
namespace NumberPart

/-- What may follow after some part of a number, up to its end. -/
def Completes (part : NumberPart) (text : Bytes) : Prop :=
  match part with
  | .minus => IsUnsigned text
  | .zero => ∃ fraction exponent, text = fraction ++ exponent ∧ IsFraction fraction ∧
      IsExponent exponent
  | .whole => ∃ digits fraction exponent, text = digits ++ (fraction ++ exponent) ∧
      IsDigits digits ∧ IsFraction fraction ∧ IsExponent exponent
  | .point => ∃ digits exponent, text = digits ++ exponent ∧ digits ≠ [] ∧ IsDigits digits ∧
      IsExponent exponent
  | .fraction => ∃ digits exponent, text = digits ++ exponent ∧ IsDigits digits ∧
      IsExponent exponent
  | .exponent => ∃ sign digits, text = sign ++ digits ∧ IsSign sign ∧ digits ≠ [] ∧ IsDigits digits
  | .exponentSign => text ≠ [] ∧ IsDigits text
  | .exponentDigits => IsDigits text

/-- A number may end after a part that is complete, and after no other. -/
theorem completes_nil_iff (part : NumberPart) : part.Completes [] ↔ part.isComplete = true := by
  constructor
  · cases part with
    | zero | whole | fraction | exponentDigits => exact fun _ => rfl
    | minus =>
      rintro ⟨whole, fraction, exponent, htext, hwhole, -, -⟩
      rw [(List.nil_eq_append_iff.1 htext).1] at hwhole
      cases hwhole
    | point =>
      rintro ⟨digits, exponent, htext, hne, -, -⟩
      exact (hne (List.nil_eq_append_iff.1 htext).1).elim
    | exponent =>
      rintro ⟨sign, digits, htext, -, hne, -⟩
      exact (hne (List.nil_eq_append_iff.1 htext).2).elim
    | exponentSign => exact fun h => (h.1 rfl).elim
  · cases part with
    | zero => exact fun _ => ⟨[], [], rfl, .missing, .missing⟩
    | whole => exact fun _ => ⟨[], [], [], rfl, isDigits_nil, .missing, .missing⟩
    | fraction => exact fun _ => ⟨[], [], rfl, isDigits_nil, .missing⟩
    | exponentDigits => exact fun _ => isDigits_nil
    | minus | point | exponent | exponentSign => exact fun h => by cases h

/-- Where digits are read, and where they lead.  The first digit of a number is not meant: a zero leads
elsewhere than the other digits. -/
inductive TakesDigit : NumberPart → NumberPart → Prop where
  | whole : TakesDigit .whole .whole
  | point : TakesDigit .point .fraction
  | fraction : TakesDigit .fraction .fraction
  | exponent : TakesDigit .exponent .exponentDigits
  | exponentSign : TakesDigit .exponentSign .exponentDigits
  | exponentDigits : TakesDigit .exponentDigits .exponentDigits

/-! ## From the scan to the grammar -/

/-- A fraction, an exponent or nothing follows the whole part. -/
theorem completes_zero_of_point {text : Bytes} (h : Completes .point text) :
    Completes .zero (Char.toUInt8 '.' :: text) := by
  obtain ⟨digits, exponent, rfl, hne, hdigits, hexponent⟩ := h
  exact ⟨_, exponent, rfl, .digits hne hdigits, hexponent⟩

theorem isExponent_of_exponent {mark : UInt8} {text : Bytes}
    (hmark : Bytes.char mark = 'e' ∨ Bytes.char mark = 'E') (h : Completes .exponent text) :
    IsExponent (mark :: text) := by
  obtain ⟨sign, digits, rfl, hsign, hne, hdigits⟩ := h
  exact .digits hmark hsign hne hdigits

theorem completes_whole_of_zero {text : Bytes} (h : Completes .zero text) :
    Completes .whole text := by
  obtain ⟨fraction, exponent, rfl, hfraction, hexponent⟩ := h
  exact ⟨[], fraction, exponent, rfl, isDigits_nil, hfraction, hexponent⟩

/-- The mark of an exponent may follow what needs no more digits. -/
theorem completes_of_mark {part : NumberPart} {mark : UInt8} {text : Bytes}
    (hpart : part = .zero ∨ part = .whole ∨ part = .fraction)
    (hmark : (Bytes.char mark == 'e' || Bytes.char mark == 'E') = true)
    (h : Completes .exponent text) : part.Completes (mark :: text) := by
  have hexponent : IsExponent (mark :: text) := isExponent_of_exponent (by simpa using hmark) h
  have hzero : Completes .zero (mark :: text) := ⟨[], _, rfl, .missing, hexponent⟩
  rcases hpart with rfl | rfl | rfl
  · exact hzero
  · exact completes_whole_of_zero hzero
  · exact ⟨[], _, rfl, isDigits_nil, hexponent⟩

/-- More digits may follow a digit, wherever digits are read. -/
theorem TakesDigit.completes {part part' : NumberPart} {b : UInt8} {text : Bytes}
    (htakes : TakesDigit part part') (hdigit : Bytes.isDigit b = true) (h : part'.Completes text) :
    part.Completes (b :: text) := by
  cases htakes with
  | whole =>
    obtain ⟨digits, fraction, exponent, rfl, hdigits, hfraction, hexponent⟩ := h
    exact ⟨b :: digits, fraction, exponent, rfl, isDigits_cons_iff.2 ⟨hdigit, hdigits⟩, hfraction,
      hexponent⟩
  | point =>
    obtain ⟨digits, exponent, rfl, hdigits, hexponent⟩ := h
    exact ⟨b :: digits, exponent, rfl, List.cons_ne_nil b digits, isDigits_cons_iff.2 ⟨hdigit, hdigits⟩,
      hexponent⟩
  | fraction =>
    obtain ⟨digits, exponent, rfl, hdigits, hexponent⟩ := h
    exact ⟨b :: digits, exponent, rfl, isDigits_cons_iff.2 ⟨hdigit, hdigits⟩, hexponent⟩
  | exponent =>
    exact ⟨[], b :: text, rfl, .missing, List.cons_ne_nil b text, isDigits_cons_iff.2 ⟨hdigit, h⟩⟩
  | exponentSign => exact ⟨List.cons_ne_nil b text, isDigits_cons_iff.2 ⟨hdigit, h⟩⟩
  | exponentDigits => exact isDigits_cons_iff.2 ⟨hdigit, h⟩

/-- What follows the first byte of the whole part may follow the sign with that byte. -/
theorem completes_minus {part' : NumberPart} {b : UInt8} {text : Bytes}
    (hnext : NumberPart.minus.next? b = some part') (h : part'.Completes text) :
    Completes .minus (b :: text) := by
  simp only [next?] at hnext
  split at hnext
  · next hzero =>
    cases hnext
    obtain rfl := Bytes.eq_of_char_eq (eq_of_beq hzero)
    obtain ⟨fraction, exponent, rfl, hfraction, hexponent⟩ := h
    exact ⟨_, fraction, exponent, rfl, .zero, hfraction, hexponent⟩
  split at hnext
  · next hzero hdigit =>
    cases hnext
    obtain ⟨digits, fraction, exponent, rfl, hdigits, hfraction, hexponent⟩ := h
    exact ⟨_, fraction, exponent, rfl, .digits hdigit (by simpa using hzero) hdigits, hfraction,
      hexponent⟩
  · cases hnext

/-- What follows the sign of an exponent, or its first digit, may follow the mark with that byte. -/
theorem completes_exponent {part' : NumberPart} {b : UInt8} {text : Bytes}
    (hnext : NumberPart.exponent.next? b = some part') (h : part'.Completes text) :
    Completes .exponent (b :: text) := by
  simp only [next?] at hnext
  split at hnext
  · next hsign =>
    cases hnext
    obtain ⟨hne, hdigits⟩ := h
    have hsign : IsSign [b] := by
      rcases Bool.or_eq_true_iff.1 hsign with hplus | hminus
      · obtain rfl := Bytes.eq_of_char_eq (eq_of_beq hplus)
        exact .plus
      · obtain rfl := Bytes.eq_of_char_eq (eq_of_beq hminus)
        exact .minus
    exact ⟨[b], text, rfl, hsign, hne, hdigits⟩
  split at hnext
  · next hdigit =>
    cases hnext
    exact TakesDigit.exponent.completes hdigit h
  · cases hnext

/-- What follows the next part may follow the byte that leads to it. -/
theorem completes_of_next? {part part' : NumberPart} {b : UInt8} {text : Bytes}
    (hnext : part.next? b = some part') (h : part'.Completes text) :
    part.Completes (b :: text) := by
  cases part with
  | minus => exact completes_minus hnext h
  | exponent => exact completes_exponent hnext h
  | zero =>
    simp only [next?] at hnext
    split at hnext
    · next hpoint =>
      cases hnext
      obtain rfl := Bytes.eq_of_char_eq (eq_of_beq hpoint)
      exact completes_zero_of_point h
    split at hnext
    · next hmark =>
      cases hnext
      exact completes_of_mark (Or.inl rfl) hmark h
    · cases hnext
  | whole =>
    simp only [next?] at hnext
    split at hnext
    · next hdigit =>
      cases hnext
      exact TakesDigit.whole.completes hdigit h
    split at hnext
    · next hpoint =>
      cases hnext
      obtain rfl := Bytes.eq_of_char_eq (eq_of_beq hpoint)
      exact completes_whole_of_zero (completes_zero_of_point h)
    split at hnext
    · next hmark =>
      cases hnext
      exact completes_of_mark (Or.inr (Or.inl rfl)) hmark h
    · cases hnext
  | fraction =>
    simp only [next?] at hnext
    split at hnext
    · next hdigit =>
      cases hnext
      exact TakesDigit.fraction.completes hdigit h
    split at hnext
    · next hmark =>
      cases hnext
      exact completes_of_mark (Or.inr (Or.inr rfl)) hmark h
    · cases hnext
  | point | exponentSign | exponentDigits =>
    simp only [next?] at hnext
    split at hnext
    · next hdigit =>
      cases hnext
      exact TakesDigit.completes (by constructor) hdigit h
    · cases hnext

/-! ## From the grammar to the scan -/

/-- A digit leads to where more of them are read. -/
theorem TakesDigit.next?_eq {part part' : NumberPart} {b : UInt8} (htakes : TakesDigit part part')
    (hdigit : Bytes.isDigit b = true) : part.next? b = some part' := by
  have hdigit : (Bytes.char b).isDigit = true := hdigit
  have hsign : (Bytes.char b == '+' || Bytes.char b == '-') = false := by
    rw [Bool.or_eq_false_iff]
    constructor <;> refine beq_false_of_ne fun h => ?_ <;> rw [h] at hdigit <;>
      exact absurd hdigit (by decide)
  cases htakes <;> simp [next?, hdigit, hsign]

/-- The mark of an exponent leads to the exponent, from where one may follow. -/
theorem next?_of_mark {part : NumberPart} {b : UInt8}
    (hmark : Bytes.char b = 'e' ∨ Bytes.char b = 'E')
    (hpart : part = .zero ∨ part = .whole ∨ part = .fraction) :
    part.next? b = some .exponent := by
  rcases hpart with rfl | rfl | rfl <;> rcases hmark with h | h <;> simp [next?, h]

theorem exists_next?_of_exponent {part : NumberPart} {b : UInt8} {text : Bytes}
    (h : IsExponent (b :: text)) (hpart : part = .zero ∨ part = .whole ∨ part = .fraction) :
    ∃ part', part.next? b = some part' ∧ part'.Completes text := by
  cases h with
  | digits hmark hsign hne hdigits =>
    exact ⟨.exponent, next?_of_mark hmark hpart, _, _, rfl, hsign, hne, hdigits⟩

/-- A fraction or an exponent follows the whole part. -/
theorem exists_next?_of_zero {part : NumberPart} {b : UInt8} {text : Bytes}
    (h : Completes .zero (b :: text)) (hpart : part = .zero ∨ part = .whole) :
    ∃ part', part.next? b = some part' ∧ part'.Completes text := by
  obtain ⟨fraction, exponent, htext, hfraction, hexponent⟩ := h
  cases hfraction with
  | missing =>
    rw [List.nil_append] at htext
    rw [← htext] at hexponent
    exact exists_next?_of_exponent hexponent (hpart.imp_right Or.inl)
  | digits hne hdigits =>
    obtain ⟨rfl, rfl⟩ := List.cons.inj htext
    refine ⟨.point, ?_, _, exponent, rfl, hne, hdigits, hexponent⟩
    rcases hpart with rfl | rfl <;> rfl

/-- The whole part follows the sign. -/
theorem exists_next?_of_minus {b : UInt8} {text : Bytes} (h : Completes .minus (b :: text)) :
    ∃ part', NumberPart.minus.next? b = some part' ∧ part'.Completes text := by
  obtain ⟨whole, fraction, exponent, htext, hwhole, hfraction, hexponent⟩ := h
  cases hwhole with
  | zero =>
    obtain ⟨rfl, rfl⟩ := List.cons.inj htext
    exact ⟨.zero, rfl, fraction, exponent, rfl, hfraction, hexponent⟩
  | digits hfirst hzero hrest =>
    obtain ⟨rfl, rfl⟩ := List.cons.inj htext
    have hdigit : (Bytes.char b).isDigit = true := hfirst
    refine ⟨.whole, ?_, _, fraction, exponent, rfl, hrest, hfraction, hexponent⟩
    simp [next?, hzero, hdigit]

/-- More digits follow those of the whole part, or what follows the whole part does. -/
theorem exists_next?_of_whole {b : UInt8} {text : Bytes} (h : Completes .whole (b :: text)) :
    ∃ part', NumberPart.whole.next? b = some part' ∧ part'.Completes text := by
  obtain ⟨digits, fraction, exponent, htext, hdigits, hfraction, hexponent⟩ := h
  cases digits with
  | nil => exact exists_next?_of_zero ⟨fraction, exponent, htext, hfraction, hexponent⟩ (Or.inr rfl)
  | cons d digits =>
    obtain ⟨rfl, rfl⟩ := List.cons.inj htext
    obtain ⟨hdigit, hdigits⟩ := isDigits_cons_iff.1 hdigits
    exact ⟨.whole, TakesDigit.whole.next?_eq hdigit, digits, fraction, exponent, rfl, hdigits, hfraction,
      hexponent⟩

/-- At least one digit follows the point. -/
theorem exists_next?_of_point {b : UInt8} {text : Bytes} (h : Completes .point (b :: text)) :
    ∃ part', NumberPart.point.next? b = some part' ∧ part'.Completes text := by
  obtain ⟨digits, exponent, htext, hne, hdigits, hexponent⟩ := h
  cases digits with
  | nil => exact (hne rfl).elim
  | cons d digits =>
    obtain ⟨rfl, rfl⟩ := List.cons.inj htext
    obtain ⟨hdigit, hdigits⟩ := isDigits_cons_iff.1 hdigits
    exact ⟨.fraction, TakesDigit.point.next?_eq hdigit, digits, exponent, rfl, hdigits, hexponent⟩

/-- More digits follow those of the fraction, or an exponent does. -/
theorem exists_next?_of_fraction {b : UInt8} {text : Bytes} (h : Completes .fraction (b :: text)) :
    ∃ part', NumberPart.fraction.next? b = some part' ∧ part'.Completes text := by
  obtain ⟨digits, exponent, htext, hdigits, hexponent⟩ := h
  cases digits with
  | nil =>
    rw [List.nil_append] at htext
    rw [← htext] at hexponent
    exact exists_next?_of_exponent hexponent (Or.inr (Or.inr rfl))
  | cons d digits =>
    obtain ⟨rfl, rfl⟩ := List.cons.inj htext
    obtain ⟨hdigit, hdigits⟩ := isDigits_cons_iff.1 hdigits
    exact ⟨.fraction, TakesDigit.fraction.next?_eq hdigit, digits, exponent, rfl, hdigits, hexponent⟩

/-- A sign or the first digit follows the mark of the exponent. -/
theorem exists_next?_of_exponentMark {b : UInt8} {text : Bytes} (h : Completes .exponent (b :: text)) :
    ∃ part', NumberPart.exponent.next? b = some part' ∧ part'.Completes text := by
  obtain ⟨sign, digits, htext, hsign, hne, hdigits⟩ := h
  cases hsign with
  | missing =>
    rw [List.nil_append] at htext
    subst htext
    obtain ⟨hdigit, hdigits⟩ := isDigits_cons_iff.1 hdigits
    exact ⟨.exponentDigits, TakesDigit.exponent.next?_eq hdigit, hdigits⟩
  | plus | minus =>
    obtain ⟨rfl, rfl⟩ := List.cons.inj htext
    exact ⟨.exponentSign, rfl, hne, hdigits⟩

/-- What may follow begins with a byte that leads to the next part. -/
theorem exists_next?_of_completes {part : NumberPart} {b : UInt8} {text : Bytes}
    (h : part.Completes (b :: text)) :
    ∃ part', part.next? b = some part' ∧ part'.Completes text := by
  cases part with
  | minus => exact exists_next?_of_minus h
  | zero => exact exists_next?_of_zero h (Or.inl rfl)
  | whole => exact exists_next?_of_whole h
  | point => exact exists_next?_of_point h
  | fraction => exact exists_next?_of_fraction h
  | exponent => exact exists_next?_of_exponentMark h
  | exponentSign =>
    obtain ⟨hdigit, hdigits⟩ := isDigits_cons_iff.1 h.2
    exact ⟨.exponentDigits, TakesDigit.exponentSign.next?_eq hdigit, hdigits⟩
  | exponentDigits =>
    obtain ⟨hdigit, hdigits⟩ := isDigits_cons_iff.1 h
    exact ⟨.exponentDigits, TakesDigit.exponentDigits.next?_eq hdigit, hdigits⟩

/-- **A byte may follow exactly if it leads to a part from which the rest may follow.** -/
theorem completes_cons_iff {part : NumberPart} {b : UInt8} {text : Bytes} :
    part.Completes (b :: text) ↔ ∃ part', part.next? b = some part' ∧ part'.Completes text :=
  ⟨exists_next?_of_completes, fun ⟨_, hnext, h⟩ => completes_of_next? hnext h⟩

end NumberPart
end Scan
end ExampleSchema
