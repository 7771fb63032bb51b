import ExampleSchema.Node.Apply

/-!
# Shortcuts

Types written by their names in place of a value: `@Cat`, or `@Cat | @Dog` for a union.
-/

namespace ExampleSchema
namespace Shortcut

/-- The names of a shortcut, which stand between bars. -/
def names (mark : Mark) : Outcome (List String) :=
  (mark.text.toList.splitOn '|').mapM fun part =>
    let name := trimBoth (String.ofList part)
    if isUserTypeName name then .ok name else .error ((Cause.badTypeName name).on mark)

/-- The rules that a shortcut stands for: a `type` for one name, a union for several. -/
def rules (mark : Mark) : List String → List Rule
  | [name] => [{ constraint := .type (.user name), mark? := some mark }]
  | names => [{ constraint := .types names, mark? := some mark },
      { constraint := .or, mark? := some mark }]

/-- The node of a shortcut. -/
def node (mark : Mark) : Outcome Node := do
  let names ← names mark
  let header : Header := { jsonType := .mixed, basis := mark }
  return .reference (← header.addRules (rules mark names)) names

end Shortcut
end ExampleSchema
