import ExampleSchema.Decimal.Basic

/-!
# Reading decimals

A number is an optional minus, digits, an optional point with digits, and an optional exponent with
an optional sign and digits.  Blanks around it are dropped.  Zeros in front are allowed here: which
spellings a document may use is decided where documents are read.  An exponent whose magnitude is
above `maxExponent` is refused on its own account, because writing the number out would take that
many digits.

* `Decimal.Shape`: the parts of a number as they stand in the text.
* `Decimal.parse`: the decimal, or why there is none.
-/

namespace ExampleSchema
namespace Decimal

/-- The largest magnitude an exponent may have. -/
def maxExponent : Nat := 100000

/-- Why a text is not a decimal. -/
inductive Refusal where
  /-- The text is not a number. -/
  | malformed
  /-- The text is a number up to its exponent, which is out of range. -/
  | exponentOutOfRange
  deriving Repr, DecidableEq

/-- The parts of a number. -/
structure Shape where
  negative : Bool
  whole : Bytes
  fraction : Bytes
  exponentNegative : Bool
  exponent : Nat
  deriving Repr, DecidableEq

/-- The digits at the start of a text, and the text after them. -/
def spanDigits (text : Bytes) : Bytes × Bytes := text.span Bytes.isDigit

/-- The value of a digit. -/
def digitValue (b : UInt8) : Nat := b.toNat - '0'.toNat

/-- The number that some digits write. -/
def digitsValue (ds : Bytes) : Nat := ds.foldl (fun n d => n * 10 + digitValue d) 0

/-- A minus in front of a text. -/
def spanMinus (text : Bytes) : Bool × Bytes :=
  match text with
  | b :: rest => if Bytes.char b = '-' then (true, rest) else (false, text)
  | [] => (false, [])

/-- A sign in front of a text. -/
def spanSign (text : Bytes) : Bool × Bytes :=
  match text with
  | b :: rest => if Bytes.char b = '+' then (false, rest) else spanMinus text
  | [] => (false, [])

/-- A point with digits, if the text starts with a point. -/
def spanFraction (text : Bytes) : Except Refusal (Bytes × Bytes) :=
  match text with
  | b :: rest =>
    if Bytes.char b = '.' then
      let (fraction, rest) := spanDigits rest
      if fraction.isEmpty then .error .malformed else .ok (fraction, rest)
    else .ok ([], text)
  | [] => .ok ([], [])

/-- An exponent, if the text starts with its letter. -/
def spanExponent (text : Bytes) : Except Refusal (Bool × Nat × Bytes) :=
  match text with
  | b :: rest =>
    if Bytes.char b = 'e' ∨ Bytes.char b = 'E' then
      let (negative, rest) := spanSign rest
      let (ds, rest) := spanDigits rest
      if ds.isEmpty then .error .malformed
      else if digitsValue ds > maxExponent then .error .exponentOutOfRange
      else .ok (negative, digitsValue ds, rest)
    else .ok (false, 0, text)
  | [] => .ok (false, 0, [])

/-- The parts of a number that takes the whole text. -/
def shape (text : Bytes) : Except Refusal Shape := do
  let (negative, rest) := spanMinus text
  let (whole, rest) := spanDigits rest
  if whole.isEmpty then throw .malformed
  let (fraction, rest) ← spanFraction rest
  let (exponentNegative, exponent, rest) ← spanExponent rest
  if rest.isEmpty then return ⟨negative, whole, fraction, exponentNegative, exponent⟩
  throw .malformed

/-- The decimal that the parts denote: the digits as one number, with the point moved by the
exponent. -/
def Shape.value (s : Shape) : Decimal :=
  let coeff := digitsValue (s.whole ++ s.fraction)
  if s.exponentNegative then ofScaled s.negative coeff (s.fraction.length + s.exponent)
  else if s.exponent < s.fraction.length then
    ofScaled s.negative coeff (s.fraction.length - s.exponent)
  else ofScaled s.negative (coeff * Nat.pow 10 (s.exponent - s.fraction.length)) 0

/-- The decimal a text writes, blanks around it dropped. -/
def parse (text : Bytes) : Except Refusal Decimal := (shape text.trim).map Shape.value

end Decimal
end ExampleSchema
