import ExampleSchema.Constraint.Literal

/-!
# Enumerations

The values that an `enum` rule allows, written out or taken from a rule with a name.  No two items of
an enumeration are the same literal.
-/

namespace ExampleSchema

/-- A value of an enumeration. -/
structure EnumItem where
  key : LiteralKey
  /-- The literal as it is written. -/
  text : String
  comment : Option String := none
  deriving Repr, DecidableEq, Inhabited

/-- The values of an `enum` rule, and the name of the rule that has them if they are not its own. -/
structure Enumeration where
  items : List EnumItem := []
  rule? : Option String := none
  deriving Repr, DecidableEq, Inhabited

namespace Enumeration

/-- The enumeration of a rule with a name, whose items are not known yet. -/
def ofRule (name : String) : Enumeration := { rule? := some name }

/-- Whether a literal is among the items. -/
def contains (e : Enumeration) (key : LiteralKey) : Bool := e.items.any fun item => item.key == key

/-- Adds a literal that is not among the items yet. -/
def append (e : Enumeration) (literal : Bytes) (comment : Option String) : Verdict Enumeration := do
  let key ← LiteralKey.ofBytes literal
  let text := literal.trim.toText
  if e.contains key then throw (.duplicateEnumValue text)
  return { e with items := e.items ++ [{ key, text, comment }] }

/-- Takes over the items of a rule. -/
def resolve (e : Enumeration) (items : List EnumItem) : Enumeration := { e with items }

/-- Accepts the literals among the items. -/
def check (e : Enumeration) (value : Bytes) : Verdict Unit := do
  let key ← LiteralKey.ofBytes value
  if e.contains key then return () else throw (.notInEnum key.text)

/-- The enumeration in a message: the name of its rule, or its items. -/
def text (e : Enumeration) : String :=
  match e.rule? with
  | some name => name
  | none => "[" ++ ", ".intercalate (e.items.map EnumItem.text) ++ "]"

end Enumeration
end ExampleSchema
