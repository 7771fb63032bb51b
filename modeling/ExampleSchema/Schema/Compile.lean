import ExampleSchema.Schema.Check
import ExampleSchema.Schema.Inherit

/-!
# Compiling schemas

A schema is loaded on its own and compiled with the types and rules that are registered for it: its
registry takes in those types and the unnamed types of each of them, `enum` rules are resolved, objects
inherit, and the result is checked.
-/

namespace ExampleSchema

/-- A registered type: its schema, and the document of that. -/
structure RegisteredType where
  schema : Schema
  source : Source
  deriving Inhabited

namespace Schema

/-- The schema with registered types in its registry.  The unnamed types of a registered type come
after all others and do not replace any. -/
def register (schema : Schema) (named : List (String × RegisteredType)) : Schema :=
  let own := named.foldl (fun (types : Registry) (name, type) =>
    Catalog.insert types name { root := type.schema.root, source := type.source, start := 0 })
    schema.types
  let unnamed := named.flatMap fun (_, type) => type.schema.types
  let promoted := unnamed.foldl (fun types (name, entry) => Catalog.insert types name entry) []
  let types := promoted.foldl (fun types (name, entry) => Catalog.insertNew types name entry) own
  { schema with types }

/-- Compiles a schema with registered types and enum rules. -/
def compile (schema : Schema) (named : List (String × RegisteredType)) (rules : EnumRules) :
    Outcome Schema := do
  let schema ← (schema.register named).resolveEnums rules
  let schema ← schema.expand
  schema.check
  return schema

end Schema
end ExampleSchema
