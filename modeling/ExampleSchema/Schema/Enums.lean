import ExampleSchema.Schema.Basic

/-!
# Resolving enum rules

A node may take the values of its `enum` rule from a rule with a name.  Resolving fills in the items of
that rule, in a tree or in a whole schema.
-/

namespace ExampleSchema

/-- The items of the rules with a name. -/
abbrev EnumRules := List (String × List EnumItem)

/-- Fills in the items of the rule that an `enum` rule names. -/
def Header.resolveEnum (rules : EnumRules) (h : Header) : Outcome Header :=
  match h.rules.constraint? .enum with
  | some (.enum { rule? := some name, .. }) =>
    match Catalog.find? rules name with
    | some items =>
      let resolve (constraint : Constraint) : Constraint :=
        match constraint with
        | .enum e => .enum (e.resolve items)
        | other => other
      .ok { h with rules := h.rules.change resolve }
    | none => .error ((Cause.ruleNotFound name).on ((h.rules.mark? .enum).getD h.basis))
  | _ => .ok h

mutual
/-- Resolves the enum rules of a tree. -/
def Node.resolveEnums (rules : EnumRules) : Node → Outcome Node
  | .literal header sample? => do return .literal (← header.resolveEnum rules) sample?
  | .object header properties => do
    let header ← header.resolveEnum rules
    return .object header (← resolveEnumsOfProperties rules properties)
  | .array header items => do
    let header ← header.resolveEnum rules
    return .array header (← resolveEnumsOfItems rules items)
  | .mixed header sample? => do return .mixed (← header.resolveEnum rules) sample?
  | .reference header names => do return .reference (← header.resolveEnum rules) names

/-- Resolves the enum rules of the trees of properties. -/
def resolveEnumsOfProperties (rules : EnumRules) :
    List (PropertyKey × Node) → Outcome (List (PropertyKey × Node))
  | [] => .ok []
  | (key, node) :: rest => do
    let node ← node.resolveEnums rules
    return (key, node) :: (← resolveEnumsOfProperties rules rest)

/-- Resolves the enum rules of the trees of items. -/
def resolveEnumsOfItems (rules : EnumRules) : List Node → Outcome (List Node)
  | [] => .ok []
  | node :: rest => do
    let node ← node.resolveEnums rules
    return node :: (← resolveEnumsOfItems rules rest)
end

/-- Changes the root of a type. -/
def TypeEntry.mapRoot (change : Node → Outcome Node) (entry : TypeEntry) : Outcome TypeEntry := do
  return { entry with root := ← change entry.root }

/-- Changes the tree of a schema and then that of each of its types. -/
def Schema.mapRoots (change : Node → Outcome Node) (schema : Schema) : Outcome Schema := do
  let root ← change schema.root
  let types ← schema.types.mapM fun (name, entry) => do return (name, ← entry.mapRoot change)
  return { root, types }

/-- Resolves the enum rules of a schema. -/
def Schema.resolveEnums (rules : EnumRules) (schema : Schema) : Outcome Schema :=
  schema.mapRoots (Node.resolveEnums rules)

end ExampleSchema
