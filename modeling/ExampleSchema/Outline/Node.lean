import ExampleSchema.Node.Basic
import ExampleSchema.Outline.Rule

/-!
# Outlines of schemas

A compiled tree in a form that does not depend on how schemas are written.  Each node tells what kind
of sample it was written as, its type, its rules and its comment; the nodes below it follow in order.
-/

namespace ExampleSchema

/-- What a node was written as. -/
inductive SampleKind where
  | object
  | array
  | string
  | number
  | boolean
  | null
  | shortcut
  | mixed
  deriving Repr, DecidableEq, Inhabited

/-- The name of the kind. -/
def SampleKind.name : SampleKind → String
  | .object => "object"
  | .array => "array"
  | .string => "string"
  | .number => "number"
  | .boolean => "boolean"
  | .null => "null"
  | .shortcut => "shortcut"
  | .mixed => "mixed"

/-- The outline of a node. -/
inductive Outline where
  | outline (kind : SampleKind) (type value : String) (key? : Option (String × Bool))
    (children : List Outline) (rules : List (String × RuleOutline)) (comment? : Option String)
  deriving Inhabited

namespace Outline

mutual
/-- The outline as JSON.  What is empty is left out. -/
def toTree : Outline → JsonTree
  | outline kind type value key? children rules comment? =>
    .record (
      [("tokenType", .text kind.name), ("schemaType", .text type)]
      ++ (key?.toList.map fun key => ("key", .text key.1))
      ++ (if key?.any Prod.snd then [("isKeyShortcut", .flag true)] else [])
      ++ RuleOutline.textField "value" value
      ++ RuleOutline.listField "children" (toTrees children)
      ++ (if rules.isEmpty then []
        else [("rules", .record (rules.map fun rule => (rule.1, rule.2.toTree)))])
      ++ (comment?.toList.map fun comment => ("comment", .text comment)))

/-- Outlines as JSON. -/
def toTrees : List Outline → List JsonTree
  | [] => []
  | node :: rest => node.toTree :: toTrees rest
end

end Outline

/-- What a literal was written as, told from its first byte. -/
def SampleKind.ofLiteral (literal : Bytes) : SampleKind :=
  match literal.head?.map Bytes.char with
  | some '"' => .string
  | some 't' | some 'f' => .boolean
  | some 'n' => .null
  | some _ => .number
  | none => .mixed

namespace Node

/-- What a node was written as. -/
def sampleKind (node : Node) : SampleKind :=
  match node with
  | object _ _ => .object
  | array _ _ => .array
  | reference _ _ => .shortcut
  | literal _ sample? | mixed _ sample? =>
    match sample? with
    | some sample => .ofLiteral sample.bytes
    | none => .mixed

/-- The name of the type of a node: the declared one, `mixed` for a union, the type of the user that
it refers to, or else the JSON type. -/
def typeName (node : Node) : String :=
  match node.header.declared?, node.rules.userType? with
  | some type, _ => type.name
  | none, userType? =>
    if node.rules.has .or then JsonType.mixed.name else userType?.getD node.jsonType.name

/-- The outlines of the rules of a node, by their names. -/
def ruleOutlines (node : Node) : List (String × RuleOutline) :=
  node.rules.map fun r =>
    (r.kind.name, r.constraint.outline (if r.mark?.isSome then .manual else .generated))

/-- What a node was written as, as text; objects and arrays are given by their children. -/
def sampleText (node : Node) : String :=
  match node with
  | reference header _ => header.basis.text
  | node => (node.sample?.map Mark.text).getD ""

/-- The outline of a node with the given outlines below it. -/
def outlineWith (node : Node) (key? : Option PropertyKey) (children : List Outline) : Outline :=
  .outline node.sampleKind node.typeName node.sampleText
    (key?.map fun key => (key.name, key.isShortcut)) children node.ruleOutlines node.header.comment?

mutual
/-- The outline of a node, under the key of a property if it is one. -/
def outline (key? : Option PropertyKey) : Node → Outline
  | literal header sample? => (literal header sample?).outlineWith key? []
  | mixed header sample? => (mixed header sample?).outlineWith key? []
  | reference header names => (reference header names).outlineWith key? []
  | object header properties =>
    (object header properties).outlineWith key? (outlinesOfProperties properties)
  | array header items => (array header items).outlineWith key? (outlinesOfItems items)

/-- The outlines of properties. -/
def outlinesOfProperties : List (PropertyKey × Node) → List Outline
  | [] => []
  | (key, node) :: rest => node.outline (some key) :: outlinesOfProperties rest

/-- The outlines of items. -/
def outlinesOfItems : List Node → List Outline
  | [] => []
  | node :: rest => node.outline none :: outlinesOfItems rest
end

end Node
end ExampleSchema
