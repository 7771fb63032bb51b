import ExampleSchema.Type.Builtin

/-!
# Kinds of constraints

A node has at most one constraint of each kind.  Most kinds are named like the rule that writes
them; `types` and `or` come from one rule, and a format comes from the declared type.
-/

namespace ExampleSchema

/-- The kind of a constraint. -/
inductive ConstraintKind where
  | type
  | types
  | or
  | allOf
  | min
  | max
  | exclusiveMinimum
  | exclusiveMaximum
  | minLength
  | maxLength
  | minItems
  | maxItems
  | precision
  | optional
  | nullable
  | const
  | enum
  | regex
  | additionalProperties
  | format (format : Format)
  deriving Repr, DecidableEq, Inhabited

namespace ConstraintKind

/-- All kinds. -/
def every : List ConstraintKind :=
  [.type, .types, .or, .allOf, .min, .max, .exclusiveMinimum, .exclusiveMaximum, .minLength,
    .maxLength, .minItems, .maxItems, .precision, .optional, .nullable, .const, .enum, .regex,
    .additionalProperties] ++ Format.every.map .format

/-- The name of the kind. -/
def name : ConstraintKind → String
  | .type => "type"
  | .types => "types"
  | .or => "or"
  | .allOf => "allOf"
  | .min => "min"
  | .max => "max"
  | .exclusiveMinimum => "exclusiveMinimum"
  | .exclusiveMaximum => "exclusiveMaximum"
  | .minLength => "minLength"
  | .maxLength => "maxLength"
  | .minItems => "minItems"
  | .maxItems => "maxItems"
  | .precision => "precision"
  | .optional => "optional"
  | .nullable => "nullable"
  | .const => "const"
  | .enum => "enum"
  | .regex => "regex"
  | .additionalProperties => "additionalProperties"
  | .format f => f.name

/-- The kind of a name. -/
def ofName? (name : String) : Option ConstraintKind := every.find? fun k => k.name == name

end ConstraintKind
end ExampleSchema
