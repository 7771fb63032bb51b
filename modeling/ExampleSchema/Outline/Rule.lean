import ExampleSchema.Constraint.Rules
import ExampleSchema.Outline.Tree

/-!
# Outlines of rules

A rule in a form that does not depend on how schemas are written: a literal, the name of something
else, or a list of these.
-/

namespace ExampleSchema

/-- Where a rule comes from. -/
inductive Origin where
  /-- The author wrote it. -/
  | manual
  /-- It follows from another rule. -/
  | generated
  deriving Repr, DecidableEq, Inhabited

/-- The name of the origin. -/
def Origin.name : Origin → String
  | .manual => "manual"
  | .generated => "generated"

/-- The outline of a rule. -/
inductive RuleOutline where
  | literal (value : String) (comment? : Option String) (origin : Origin)
  | reference (name : String) (origin : Origin)
  | array (items : List RuleOutline) (origin : Origin)
  deriving Inhabited

namespace RuleOutline

/-- A text under a name, left out if it is empty. -/
def textField (name text : String) : List (String × JsonTree) :=
  if text.isEmpty then [] else [(name, .text text)]

/-- A list under a name, left out if it is empty. -/
def listField (name : String) (items : List JsonTree) : List (String × JsonTree) :=
  if items.isEmpty then [] else [(name, .list items)]

mutual
/-- The outline as JSON. -/
def toTree : RuleOutline → JsonTree
  | literal value comment? origin =>
    .record ([("tokenType", .text "literal")] ++ textField "value" value
      ++ [("source", .text origin.name)] ++ comment?.toList.map fun c => ("comment", .text c))
  | reference name origin =>
    .record ([("tokenType", .text "reference")] ++ textField "value" name
      ++ [("source", .text origin.name)])
  | array items origin =>
    .record ([("tokenType", .text "array")] ++ listField "items" (toTrees items)
      ++ [("source", .text origin.name)])

/-- Outlines as JSON. -/
def toTrees : List RuleOutline → List JsonTree
  | [] => []
  | item :: rest => item.toTree :: toTrees rest
end

end RuleOutline

/-- The outline of an enumeration: the name of its rule, or its items with their comments. -/
def Enumeration.outline (e : Enumeration) (origin : Origin) : RuleOutline :=
  match e.rule? with
  | some name => .reference name origin
  | none => .array (e.items.map fun item => .literal item.text item.comment origin) origin

/-- The outline of what an object may hold besides its properties. -/
def Additional.outline (allowed : Additional) (origin : Origin) : RuleOutline :=
  match allowed with
  | .any => .literal "true" none origin
  | .nothing => .literal "false" none origin
  | .builtin type => .literal (Quoted.encode type.name) none origin
  | .user name => .reference name origin

/-- The outline of a constraint. -/
def Constraint.outline (c : Constraint) (origin : Origin) : RuleOutline :=
  let literal (value : String) : RuleOutline := .literal value none origin
  match c with
  | .type (.user name) => .reference name origin
  | .type (.builtin builtin) => literal (Quoted.encode builtin.name)
  | .types names | .allOf names => .array (names.map (.reference · origin)) origin
  | .or | .format _ => literal "true"
  | .min bound | .max bound => literal bound.value.text
  | .exclusiveMinimum value | .exclusiveMaximum value | .optional value | .nullable value
  | .const value _ => literal (toString value)
  | .minLength count | .maxLength count | .minItems count | .maxItems count
  | .precision count => literal (toString count)
  | .enum items => items.outline origin
  | .regex pattern => literal (Quoted.encode pattern.text)
  | .additionalProperties allowed => allowed.outline origin

end ExampleSchema
