import ExampleSchema.Node.Basic

/-!
# Applying rules to nodes

The rules of a note change the node they describe: besides the constraints themselves, a declared type
brings its JSON type and its format, an exclusive flag changes the bound beside it, a constant is taken
from the sample, and a literal whose rules allow several types becomes a mixed node.
-/

namespace ExampleSchema
namespace Header

/-- Adds rules, of which no two are of one kind. -/
def addRules (h : Header) (added : List Rule) : Outcome Header := do
  let rules ← added.foldlM (fun (rules : Rules) r => rules.add r.constraint r.mark?) h.rules
  return { h with rules }

/-- Declares a built-in type. -/
def declare (h : Header) (type : BuiltinType) : Outcome Header := do
  let rules ← match type.format? with
    | some format => h.rules.add (.format format) none
    | none => .ok h.rules
  let jsonType := if type.jsonType = .mixed then h.jsonType else type.jsonType
  return { h with declared? := some type, jsonType, rules }

/-- Lets the exclusive flags change the bounds. -/
def linkBounds (h : Header) : Header :=
  let exclude (constraint : Constraint) : Constraint :=
    match constraint with
    | .min bound => .min { bound with exclusive := h.rules.flag .exclusiveMinimum }
    | .max bound => .max { bound with exclusive := h.rules.flag .exclusiveMaximum }
    | other => other
  { h with rules := h.rules.change exclude }

/-- Whether the rules ask for the sample itself. -/
def isConstant (h : Header) : Bool :=
  match h.rules.constraint? .const with
  | some (.const value _) => value
  | _ => false

/-- Takes the constant from the sample. -/
def fillConstant (h : Header) (sample? : Option Mark) : Outcome Header :=
  match sample? with
  | none => .ok h
  | some sample =>
    if h.isConstant then do
      let key ← Verdict.on (LiteralKey.ofBytes sample.bytes) sample
      let fill (constraint : Constraint) : Constraint :=
        match constraint with
        | .const value _ => .const value (some key)
        | other => other
      return { h with rules := h.rules.change fill }
    else .ok h

/-- The built-in type that some rules declare. -/
def builtinOf? (added : List Rule) : Option BuiltinType :=
  added.findSome? fun r =>
    match r.constraint with
    | .type (.builtin type) => some type
    | _ => none

/-- Whether some rules refer to a type of the user. -/
def namesUserType (added : List Rule) : Bool :=
  added.any fun r =>
    match r.constraint with
    | .type (.user _) => true
    | _ => false

/-- Applies rules to what every node has. -/
def apply (h : Header) (sample? : Option Mark) (added : List Rule) : Outcome Header := do
  let h ← h.addRules added
  let h ← match builtinOf? added with
    | some type => h.declare type
    | none => .ok h
  h.linkBounds.fillConstant sample?

/-- Notes that a note describes the node, which only one does. -/
def annotate (h : Header) (note : Mark) (comment? : Option String) : Outcome Header :=
  if h.isAnnotated then .error (Cause.annotatedTwice.on note)
  else .ok { h with isAnnotated := true, comment? }

end Header

namespace Node

/-- Applies rules to a node.  A literal becomes a mixed node if it is a union, of any type, or of a
type of the user. -/
def apply (node : Node) (added : List Rule) : Outcome Node := do
  let header ← node.header.apply node.sample? added
  match node with
  | literal _ sample? =>
    let isOpen := header.rules.has .or
      || (Header.builtinOf? added).any BuiltinType.isUnrestricted
    if isOpen then return mixed { header with jsonType := .mixed } sample?
    else if Header.namesUserType added then return mixed header sample?
    else return literal header sample?
  | node => return node.withHeader header

/-- Describes a node by a note. -/
def annotate (node : Node) (note : Mark) (comment? : Option String) (added : List Rule) :
    Outcome Node := do
  (node.withHeader (← node.header.annotate note comment?)).apply added

end Node
end ExampleSchema
