import ExampleSchema.Schema.Basic

/-!
# The types a schema refers to

Every way in which a node may refer to a type of the user: its `type` and its union, `allOf`, the type
of other properties, the names of properties that are types, and a shortcut in place of a value.
-/

namespace ExampleSchema
namespace Node

/-- The types that an `allOf` or an `additionalProperties` rule names. -/
def namesInObjectRules (rules : Rules) : List String :=
  (match rules.constraint? .allOf with
    | some (.allOf names) => names
    | _ => [])
  ++ match rules.constraint? .additionalProperties with
    | some (.additionalProperties (.user name)) => [name]
    | _ => []

/-- The names that stand in the shape of a node. -/
def namesInShape : Node → List String
  | object _ properties => (properties.filter fun p => p.1.isShortcut).map fun p => p.1.name
  | reference _ names => names
  | _ => []

/-- The names that a node refers to, without the nodes below it. -/
def referredNames (node : Node) : List String :=
  node.rules.typeNames ++ namesInObjectRules node.rules ++ node.namesInShape

end Node

/-- The types of the user that a schema refers to, sorted, each once. -/
def Schema.userTypes (schema : Schema) : List String :=
  let roots := schema.root :: schema.types.map fun e => e.2.root
  let names := (roots.flatMap Node.subnodes).flatMap Node.referredNames
  (names.filter isUserTypeName).eraseDups.mergeSort fun a b => a ≤ b

end ExampleSchema
