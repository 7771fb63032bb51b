import ExampleSchema.Constraint.Basic

/-!
# The rules of a node

A node has at most one constraint of each kind.  `Rule` is a constraint with the mark of the rule that
wrote it, which errors point at; a constraint that follows from another rule has none.
-/

namespace ExampleSchema

/-- A constraint, and the mark of the rule that wrote it. -/
structure Rule where
  constraint : Constraint
  mark? : Option Mark := none
  deriving Inhabited

/-- The kind of the constraint. -/
def Rule.kind (r : Rule) : ConstraintKind := r.constraint.kind

/-- The rules of a node, in the order in which they came. -/
abbrev Rules := List Rule

namespace Rules

/-- The rule of a kind. -/
def rule? (rules : Rules) (kind : ConstraintKind) : Option Rule :=
  rules.find? fun r => r.kind == kind

/-- The constraint of a kind. -/
def constraint? (rules : Rules) (kind : ConstraintKind) : Option Constraint :=
  (rules.rule? kind).map Rule.constraint

/-- The mark of the rule of a kind. -/
def mark? (rules : Rules) (kind : ConstraintKind) : Option Mark :=
  (rules.rule? kind).bind Rule.mark?

/-- Whether there is a rule of a kind. -/
def has (rules : Rules) (kind : ConstraintKind) : Bool := (rules.rule? kind).isSome

/-- Adds a constraint of a kind that has no rule yet. -/
def add (rules : Rules) (constraint : Constraint) (mark? : Option Mark) : Outcome Rules :=
  if rules.has constraint.kind then
    .error ⟨.duplicateRule constraint.kind.name, mark?.map Mark.location⟩
  else .ok (rules ++ [⟨constraint, mark?⟩])

/-- The rules without that of a kind. -/
def remove (rules : Rules) (kind : ConstraintKind) : Rules :=
  rules.eraseP fun r => r.kind == kind

/-- The rules with every constraint changed. -/
def change (rules : Rules) (f : Constraint → Constraint) : Rules :=
  rules.map fun r => { r with constraint := f r.constraint }

/-- Whether a rule switches on what its kind says. -/
def flag (rules : Rules) (kind : ConstraintKind) : Bool :=
  match rules.constraint? kind with
  | some (.optional value) | some (.nullable value) | some (.exclusiveMinimum value)
  | some (.exclusiveMaximum value) => value
  | _ => false

/-- The count that a rule sets. -/
def count? (rules : Rules) (kind : ConstraintKind) : Option Nat :=
  match rules.constraint? kind with
  | some (.minLength count) | some (.maxLength count) | some (.minItems count)
  | some (.maxItems count) => some count
  | _ => none

/-- The type of the user that the `type` rule names. -/
def userType? (rules : Rules) : Option String :=
  match rules.constraint? .type with
  | some (.type (.user name)) => some name
  | _ => none

/-- The members of the union. -/
def unionNames (rules : Rules) : List String :=
  match rules.constraint? .types with
  | some (.types names) => names
  | _ => []

/-- The types of the user that the node refers to: the one of its `type` rule and the members of its
union. -/
def typeNames (rules : Rules) : List String := rules.userType?.toList ++ rules.unionNames

/-- The bound of the `min` rule. -/
def min? (rules : Rules) : Option Bound :=
  match rules.constraint? .min with
  | some (.min bound) => some bound
  | _ => none

/-- The bound of the `max` rule. -/
def max? (rules : Rules) : Option Bound :=
  match rules.constraint? .max with
  | some (.max bound) => some bound
  | _ => none

end Rules
end ExampleSchema
