import ExampleSchema.Error.Problem

/-!
# Notes

A note describes the value before it by a text, by rules, or by both.  A rule is a name with a value,
which is a literal, a shortcut, or a list or an object of these.
-/

namespace ExampleSchema

/-- The value of a rule, as it is written. -/
inductive RuleValue where
  | literal (mark : Mark)
  | shortcut (mark : Mark)
  | array (mark : Mark) (items : List RuleValue)
  /-- Rules: name, mark of the name, value. -/
  | object (mark : Mark) (rules : List (String × Mark × RuleValue))
  deriving Inhabited

/-- The mark that spans the value. -/
def RuleValue.mark : RuleValue → Mark
  | literal mark | shortcut mark | array mark _ | object mark _ => mark

/-- A note. -/
structure Note where
  /-- Where the note begins. -/
  mark : Mark
  rules? : Option (List (String × Mark × RuleValue))
  text? : Option String
  deriving Inhabited

end ExampleSchema
