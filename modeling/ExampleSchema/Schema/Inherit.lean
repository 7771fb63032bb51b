import ExampleSchema.Schema.Enums

/-!
# Inherited properties

An `allOf` rule names object types; the object takes over their properties in front of its own.  The
types are read as they are registered, before any of them takes over properties, so a type first gathers
what its own `allOf` rule names.

An inherited property may be an object with an `allOf` rule, which then takes over properties in turn.
Where that leads back to a property on the way, it never ends; as long as no property comes twice, the
way from the root is at most as long as the schema has nodes.
-/

namespace ExampleSchema

namespace Properties

/-- Adds a property under a name that has none yet; the mark is blamed for a second one. -/
def add (properties : Properties) (property : PropertyKey × Node) (blamed : Mark) :
    Outcome Properties :=
  if properties.any fun p => p.1.name == property.1.name then
    .error ((Cause.allOfDuplicateKey property.1.name).on blamed)
  else .ok (properties ++ [property])

/-- Adds properties, each of which is blamed itself. -/
def addAll (properties added : Properties) : Outcome Properties :=
  added.foldlM (fun properties p => properties.add p p.1.mark) properties

/-- The properties as another object takes them over. -/
def inherited (properties : Properties) : Properties :=
  properties.map fun p => ({ p.1 with isInherited := true }, p.2)

end Properties

/-- The names of an `allOf` rule. -/
def Header.allOfNames (h : Header) : List String :=
  match h.rules.constraint? .allOf with
  | some (.allOf names) => names
  | _ => []

/-- The properties that an object type passes on: those of the types that its own `allOf` rule names,
then its own.  `entered` are the types on the way to it, and `types` all others. -/
def passedOn (types : Registry) (entered : List String) (name : String) : Outcome Properties :=
  if entered.contains name then .error (Cause.endlessAllOf (entered ++ [name])).anywhere
  else match _h : types.root? name with
    | none => .error (Cause.typeNotFound name).anywhere
    | some (.object header properties) => do
      let gathered ← header.allOfNames.foldlM (fun (gathered : Properties) parent => do
        gathered.addAll (← passedOn (types.without name) (entered ++ [name]) parent)) []
      gathered.addAll (Properties.inherited properties)
    | some _ => .error (Cause.allOfNotObject name).anywhere
termination_by types.length
decreasing_by exact Registry.length_without_lt _h

namespace Node

/-- Lets an object take over the properties of the types that its `allOf` rule names. -/
def inherit (types : Registry) (node : Node) : Outcome Node :=
  match node with
  | object header properties =>
    if header.rules.has .allOf then do
      let blamed := (header.rules.mark? .allOf).getD header.basis
      let gathered ← header.allOfNames.foldlM (fun (gathered : Properties) parent => do
        let added ← Outcome.orOn (passedOn types [] parent) blamed
        added.foldlM (fun gathered p => gathered.add p blamed) gathered) []
      let own := properties.filter fun p => !p.1.isInherited
      return object header (← Properties.addAll gathered own)
    else .ok node
  | node => .ok node

/-- Lets every object of a tree inherit, each before those below it, over a number of levels. -/
def expand (types : Registry) : Nat → Node → Outcome Node
  | 0, node => .error ((Cause.fault .endlessExpansion).on node.basis)
  | levels + 1, node => do
    match ← node.inherit types with
    | object header properties =>
      return object header (← properties.mapM fun (key, node) => do
        return (key, ← expand types levels node))
    | array header items => return array header (← items.mapM (expand types levels))
    | node => return node

end Node

/-- The number of nodes of a schema. -/
def Schema.nodeCount (schema : Schema) : Nat :=
  (schema.root.subnodes ++ schema.types.flatMap fun e => e.2.root.subnodes).length

/-- Lets every object of a schema inherit. -/
def Schema.expand (schema : Schema) : Outcome Schema :=
  schema.mapRoots (Node.expand schema.types (schema.nodeCount + 1))

end ExampleSchema
