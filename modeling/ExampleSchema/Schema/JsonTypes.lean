import ExampleSchema.Schema.Basic

/-!
# The JSON types of a node

The types of the values that a node may accept, as far as its references tell: a node that refers to
types has theirs, and a nullable one has `null` too.  `mixed` among them stands for any type.
-/

namespace ExampleSchema

/-- Types in their usual order, each once. -/
def JsonType.setOf (types : List JsonType) : List JsonType := JsonType.every.filter types.contains

/-- The types of a node, given those of the types that it refers to. -/
def Node.jsonTypesWith (lookUp : String → Verdict (List JsonType)) (node : Node) :
    Verdict (List JsonType) := do
  let names := node.rules.typeNames
  let types ← names.mapM lookUp
  let own := if names.isEmpty then [node.jsonType] else []
  let null := if node.isNullable then [.null] else []
  return JsonType.setOf (own ++ types.flatten ++ null)

/-- The types of a registered type.  `entered` are the types on the way to it, and `types` all
others. -/
def jsonTypesFrom (types : Registry) (entered : List String) (name : String) :
    Verdict (List JsonType) :=
  if entered.contains name then .error (.typeOfItself name)
  else match _h : types.root? name with
    | none => .error (.typeNotFound name)
    | some root => root.jsonTypesWith fun other => jsonTypesFrom (types.without name) (name :: entered) other
termination_by types.length
decreasing_by exact Registry.length_without_lt _h

/-- The types of a registered type. -/
def Registry.jsonTypes (types : Registry) (name : String) : Verdict (List JsonType) :=
  jsonTypesFrom types [] name

/-- The types of a node. -/
def Node.jsonTypes (types : Registry) (node : Node) : Verdict (List JsonType) :=
  node.jsonTypesWith types.jsonTypes

/-- Whether a value of a type is allowed where some types are. -/
def JsonType.admitted (allowed : List JsonType) (actual : JsonType) : Bool :=
  allowed.contains .mixed || allowed.any actual.fits

end ExampleSchema
