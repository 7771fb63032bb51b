import ExampleSchema.Constraint.Enumeration
import ExampleSchema.Pattern.Basic

/-!
# Constraints

What a rule of an annotation asks of a value.  A constraint is of one `ConstraintKind`, and each kind
suits the types that `ConstraintKind.suits` says.

* `TypeName`: what a `type` rule names.
* `Bound`: a limit of a number.
* `Additional`: what an object may hold besides its properties.
* `Constraint`: all of them, with `Constraint.kind` and `Constraint.text`.
-/

namespace ExampleSchema

/-- What a `type` rule names: a built-in type or a type of the user. -/
inductive TypeName where
  | builtin (type : BuiltinType)
  | user (name : String)
  deriving Repr, DecidableEq, Inhabited

/-- The name as it is written. -/
def TypeName.text : TypeName → String
  | .builtin type => type.name
  | .user name => name

/-- The least or greatest number, itself excluded or not. -/
structure Bound where
  value : Decimal
  exclusive : Bool := false
  deriving DecidableEq, Inhabited

/-- What an object may hold besides its properties. -/
inductive Additional where
  | any
  | nothing
  /-- Values of a built-in type. -/
  | builtin (type : BuiltinType)
  /-- Values of a type of the user. -/
  | user (name : String)
  deriving Repr, DecidableEq, Inhabited

namespace Additional

/-- What a name allows. -/
def ofName (name : String) : Additional :=
  match BuiltinType.ofName? name with
  | some .any => .any
  | some type => .builtin type
  | none => .user name

/-- What is allowed, in a message. -/
def text : Additional → String
  | any => "any"
  | nothing => "not allowed"
  | builtin type => type.name
  | user name => name

end Additional

/-- What a rule asks of a value. -/
inductive Constraint where
  | type (name : TypeName)
  /-- The types of a union.  A member without a name has been given one. -/
  | types (names : List String)
  /-- The node is a union. -/
  | or
  | allOf (names : List String)
  | min (bound : Bound)
  | max (bound : Bound)
  | exclusiveMinimum (value : Bool)
  | exclusiveMaximum (value : Bool)
  | minLength (count : Nat)
  | maxLength (count : Nat)
  | minItems (count : Nat)
  | maxItems (count : Nat)
  | precision (count : Nat)
  | optional (value : Bool)
  | nullable (value : Bool)
  /-- The value is the sample, where the node has one. -/
  | const (value : Bool) (sample? : Option LiteralKey)
  | enum (items : Enumeration)
  | regex (pattern : Pattern)
  | additionalProperties (allowed : Additional)
  | format (format : Format)
  deriving Inhabited

namespace Constraint

/-- The kind of a constraint. -/
def kind : Constraint → ConstraintKind
  | type _ => .type
  | types _ => .types
  | or => .or
  | allOf _ => .allOf
  | min _ => .min
  | max _ => .max
  | exclusiveMinimum _ => .exclusiveMinimum
  | exclusiveMaximum _ => .exclusiveMaximum
  | minLength _ => .minLength
  | maxLength _ => .maxLength
  | minItems _ => .minItems
  | maxItems _ => .maxItems
  | precision _ => .precision
  | optional _ => .optional
  | nullable _ => .nullable
  | const _ _ => .const
  | enum _ => .enum
  | regex _ => .regex
  | additionalProperties _ => .additionalProperties
  | format f => .format f

/-- What a constraint says after its kind. -/
def detail? : Constraint → Option String
  | type name => some name.text
  | types names | allOf names => some (", ".intercalate names)
  | or | format _ => none
  | min bound | max bound =>
    some (bound.value.text ++ if bound.exclusive then " (exclusive)" else "")
  | exclusiveMinimum value | exclusiveMaximum value | optional value | nullable value
  | const value _ => some (toString value)
  | minLength count | maxLength count | minItems count | maxItems count | precision count =>
    some (toString count)
  | enum items => some items.text
  | regex pattern => some (Quoted.encode pattern.text)
  | additionalProperties allowed => some allowed.text

/-- A constraint on one line. -/
def text (c : Constraint) : String :=
  match c.detail? with
  | some detail => c.kind.name ++ ": " ++ detail
  | none => c.kind.name

end Constraint

/-- Whether constraints of a kind may stand at a node of a type.  A member of a union that is an
`enum` has no sample to tell its type by. -/
def ConstraintKind.suits (kind : ConstraintKind) (type : JsonType) : Bool :=
  match kind with
  | .type | .types | .or | .optional | .nullable => true
  | .allOf | .additionalProperties => type == .object
  | .min | .max | .exclusiveMinimum | .exclusiveMaximum => type == .integer || type == .float
  | .minLength | .maxLength | .regex | .format _ => type == .string
  | .minItems | .maxItems => type == .array
  | .precision => type == .float
  | .const => type.isLiteral
  | .enum => type.isLiteral || type == .mixed

end ExampleSchema
