import ExampleSchema.Constraint.Basic

/-!
# Reading constraints

A rule is a name and a literal.  The functions here read the literal as what the rule needs, or say
what it should have been.
-/

namespace ExampleSchema

/-- The type that a name means. -/
def TypeName.read (name : String) : Verdict TypeName :=
  match BuiltinType.ofName? name with
  | some type => .ok (.builtin type)
  | none => if isUserTypeName name then .ok (.user name) else .error (.unknownType name)

/-- The bound that the literal of a rule sets, itself not excluded. -/
def Bound.read (rule : String) (literal : Bytes) : Verdict Bound :=
  if Literal.isNumber literal then
    match Decimal.parse literal with
    | .ok value => .ok { value }
    | .error refusal => .error (.boundNotADecimal rule refusal literal.trim.toText)
  else .error (.literalUnfit rule .number)

namespace Additional

/-- What the literal of the rule allows. -/
def read (literal : Bytes) : Verdict Additional :=
  let literal := literal.trim
  match JsonType.ofBytes? literal with
  | some .boolean => .ok (if literal == Bytes.ofString "true" then .any else .nothing)
  | some .string => do return ofName (← Literal.string literal)
  | _ => .error (.literalUnfit ConstraintKind.additionalProperties.name .booleanOrTypeName)

end Additional

/-- The truth value of the literal of a rule. -/
def readFlag (rule : String) (literal : Bytes) : Verdict Bool :=
  let literal := literal.trim
  if literal == Bytes.ofString "true" then .ok true
  else if literal == Bytes.ofString "false" then .ok false
  else .error (.literalUnfit rule .boolean)

/-- The whole number of the literal of a rule. -/
def readWhole (rule : String) (expected : Expected) (literal : Bytes) : Verdict Nat :=
  if JsonType.ofBytes? literal == some .integer then do
    match (← Literal.decimal literal).toNat? with
    | some count => return count
    | none => throw (.literalUnfit rule expected)
  else .error (.literalUnfit rule expected)

/-- The count that the literal of a rule sets. -/
def readCount (rule : String) (literal : Bytes) : Verdict Nat :=
  readWhole rule .nonNegativeInteger literal

/-- The number of digits that a `precision` rule allows, at least one. -/
def readPrecision (literal : Bytes) : Verdict Nat := do
  let count ← readWhole ConstraintKind.precision.name .positiveInteger literal
  if count = 0 then throw .zeroPrecision else return count

/-- A name in an `allOf` rule. -/
def readAllOfName (name : String) : Verdict String :=
  if isUserTypeName name then .ok name else .error (.badAllOfName name)

/-- The pattern of a `regex` rule. -/
def Pattern.read (literal : Bytes) : Verdict Pattern :=
  if Literal.isString literal then do
    let text ← Literal.string literal
    match Pattern.ofText? text with
    | some pattern => return pattern
    | none => throw (.badPattern text)
  else .error (.literalUnfit ConstraintKind.regex.name .string)

/-- The constraint of a rule that marks a string's format, counts or flags something, bounds a number
or matches a pattern. -/
def Constraint.read? (rule : ConstraintKind) (literal : Bytes) : Option (Verdict Constraint) :=
  match rule with
  | .min => some ((Bound.read rule.name literal).map .min)
  | .max => some ((Bound.read rule.name literal).map .max)
  | .exclusiveMinimum => some ((readFlag rule.name literal).map .exclusiveMinimum)
  | .exclusiveMaximum => some ((readFlag rule.name literal).map .exclusiveMaximum)
  | .minLength => some ((readCount rule.name literal).map .minLength)
  | .maxLength => some ((readCount rule.name literal).map .maxLength)
  | .minItems => some ((readCount rule.name literal).map .minItems)
  | .maxItems => some ((readCount rule.name literal).map .maxItems)
  | .precision => some ((readPrecision literal).map .precision)
  | .optional => some ((readFlag rule.name literal).map .optional)
  | .nullable => some ((readFlag rule.name literal).map .nullable)
  | .const => some ((readFlag rule.name literal).map (.const · none))
  | .regex => some ((Pattern.read literal).map .regex)
  | .additionalProperties => some ((Additional.read literal).map .additionalProperties)
  | .type | .types | .or | .allOf | .enum | .format _ => none

end ExampleSchema
