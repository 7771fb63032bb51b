import ExampleSchema.Schema.Basic

/-!
# Endless types

A type is endless if every value of it would contain another value of it.  What may be missing breaks
the chain: an optional property, a nullable value, an item of an array, a property whose name is a
type.

* `Node.strictReferences`: the types that a value of a node has to contain.
* `Registry.checkEndless`: no type leads back to itself along them.
-/

namespace ExampleSchema

mutual
/-- The types that a value of a node has to contain, and the nodes that refer to them. -/
def Node.strictReferences : Node → List (String × Mark)
  | .literal header _ | .array header _ | .mixed header _ | .reference header _ =>
    if header.rules.flag .nullable then []
    else header.rules.typeNames.map fun name => (name, header.basis)
  | .object header properties =>
    if header.rules.flag .nullable then []
    else (header.rules.typeNames.map fun name => (name, header.basis))
      ++ strictReferencesOfProperties properties

/-- The types that the values of properties have to contain. -/
def strictReferencesOfProperties : List (PropertyKey × Node) → List (String × Mark)
  | [] => []
  | (key, node) :: rest =>
    (if key.isShortcut || node.isOptional then [] else node.strictReferences)
      ++ strictReferencesOfProperties rest
end

/-- Follows the references of a type and gives the types that lead nowhere endless, `settled` being
those known before.  `entered` are the types on the way to it, and `types` all others. -/
def followReferences (types : Registry) (entered settled : List String) (name : String)
    (blamed? : Option Mark) : Outcome (List String) :=
  if entered.contains name then
    let path := entered.dropWhile (· != name) ++ [name]
    .error ⟨.endlessType path, blamed?.map Mark.location⟩
  else if settled.contains name then .ok settled
  else match _h : types.root? name with
    | none => .ok settled
    | some root => do
      let settled ← root.strictReferences.foldlM (fun settled (target, mark) =>
        followReferences (types.without name) (entered ++ [name]) settled target (some mark)) settled
      return name :: settled
termination_by types.length
decreasing_by exact Registry.length_without_lt _h

/-- Accepts types none of which is endless. -/
def Registry.checkEndless (types : Registry) : Outcome Unit := do
  let _ ← (Catalog.keys types).foldlM (fun settled name => followReferences types [] settled name none) []
  return ()

end ExampleSchema
