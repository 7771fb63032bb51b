import ExampleSchema.Constraint.Basic
import ExampleSchema.Format.Basic
import ExampleSchema.Text.Blank

/-!
# Checking literals against constraints

`Constraint.check` says whether a literal keeps a constraint.  Only the constraints on the content of a
literal refuse one; those on the shape of a document are kept elsewhere.
-/

namespace ExampleSchema

/-- Accepts numbers that are not below a bound. -/
def Bound.checkMin (bound : Bound) (value : Decimal) : Verdict Unit :=
  if (if bound.exclusive then bound.value.lt value else bound.value.le value) then .ok ()
  else .error (.belowMin value bound.value bound.exclusive)

/-- Accepts numbers that are not above a bound. -/
def Bound.checkMax (bound : Bound) (value : Decimal) : Verdict Unit :=
  if (if bound.exclusive then value.lt bound.value else value.le bound.value) then .ok ()
  else .error (.aboveMax value bound.value bound.exclusive)

/-- Accepts numbers with at most some digits after the point. -/
def checkPrecision (limit : Nat) (value : Decimal) : Verdict Unit :=
  if value.scale ≤ limit then .ok () else .error (.tooPrecise value limit)

/-- Accepts strings with at least some characters. -/
def checkMinLength (limit : Nat) (text : String) : Verdict Unit :=
  if text.length < limit then .error (.tooShort text.length limit) else .ok ()

/-- Accepts strings with at most some characters. -/
def checkMaxLength (limit : Nat) (text : String) : Verdict Unit :=
  if limit < text.length then .error (.tooLong text.length limit) else .ok ()

/-- Accepts strings with a part that the pattern matches. -/
def Pattern.check (pattern : Pattern) (text : String) : Verdict Unit :=
  if pattern.occursIn text then .ok () else .error (.patternMismatch text pattern.text)

/-- Accepts strings with the format. -/
def Format.check (format : Format) (text : String) : Verdict Unit :=
  if format.accepts text then .ok () else .error (.badFormat text format)

/-- Accepts one literal only. -/
def LiteralKey.check (sample : LiteralKey) (value : Bytes) : Verdict Unit := do
  if (← LiteralKey.ofBytes value) = sample then return ()
  else throw (.notTheConstant (trimBoth value.toText) sample.text)

/-- Accepts literals that keep the constraint. -/
def Constraint.check (c : Constraint) (value : Bytes) : Verdict Unit :=
  match c with
  | .min bound => do bound.checkMin (← Literal.decimalValue value)
  | .max bound => do bound.checkMax (← Literal.decimalValue value)
  | .precision limit => do checkPrecision limit (← Literal.decimalValue value)
  | .minLength limit => do checkMinLength limit (← Literal.stringValue value)
  | .maxLength limit => do checkMaxLength limit (← Literal.stringValue value)
  | .regex pattern => do pattern.check (← Literal.stringValue value)
  | .format f => do f.check (← Literal.stringValue value)
  | .enum items => items.check value
  | .const true (some sample) => sample.check value
  | _ => .ok ()

end ExampleSchema
