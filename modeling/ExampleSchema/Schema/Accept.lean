import ExampleSchema.Constraint.Check
import ExampleSchema.Schema.Basic
import ExampleSchema.Text.Quoted
import ExampleSchema.Value.Basic

/-!
# Accepting values

`Registry.accept` says whether a node accepts a value, and what is wrong if it does not.  It goes down
the value and the tree together and from references to the types they name; the functions before it do
one step each, and are given the way to go on as `visit`.  The number of levels is limited.
-/

namespace ExampleSchema

/-- How many levels below the first a value may lead, references included. -/
def acceptLimit : Nat := 512

/-- Fails because a value is not of a type. -/
def wrongType {α : Type} (expected : JsonType) (value : Value) : Outcome α :=
  .error ((Cause.typeMismatch (.json expected) value.jsonType).on value.mark)

/-- A text as a value: the string that would be written for it. -/
def Value.ofText (sourceName text : String) : Value :=
  let bytes := Bytes.ofString (Quoted.encode text)
  .literal ⟨⟨sourceName, bytes⟩, ⟨.closing .literal, 0, bytes.length⟩⟩

namespace Node

/-- Whether a node leaves the JSON type of its values open. -/
def isOfOpenType (node : Node) : Bool :=
  node.jsonType == .mixed || node.header.declared? == some .enum

/-- Accepts literals that are of the type of a node and keep its constraints. -/
def acceptLiteral (node : Node) (value : Value) : Outcome Unit :=
  match value with
  | .literal mark =>
    if node.isOfOpenType || value.jsonType.fits node.jsonType then
      node.rules.forM fun r => Verdict.anywhere (r.constraint.check mark.bytes)
    else wrongType node.jsonType value
  | _ => wrongType node.jsonType value

end Node

/-- Accepts values of a built-in type, where nothing else is known of it. -/
def BuiltinType.accept (type : BuiltinType) (value : Value) : Outcome Unit :=
  if type.isUnrestricted then .ok ()
  else if type.jsonType == .mixed || value.jsonType.fits type.jsonType then
    match type.format? with
    | some format => Verdict.on (do format.check (← Literal.stringValue value.bytes)) value.mark
    | none => .ok ()
  else wrongType type.jsonType value

/-- Accepts with the first of some candidates that accepts.  A single one fails for its own reason,
several for one in common. -/
def acceptFirst {α : Type} (visit : α → Outcome Unit) (common : Problem) (candidates : List α) :
    Outcome Unit :=
  match candidates with
  | [candidate] => visit candidate
  | _ =>
    if candidates.any fun candidate => (visit candidate).isOk then .ok () else .error common

/-- Accepts values that one of some types accepts. -/
def Registry.acceptTypes (types : Registry) (visit : Node → Value → Outcome Unit)
    (names : List String) (value : Value) : Outcome Unit :=
  acceptFirst (fun name => do visit (← types.root name) value)
    ((Cause.noMatchingType names).on value.mark) names

/-! ## Objects -/

/-- The node of a property that an object declares by its name. -/
def Properties.declared? (properties : Properties) (name : String) : Option Node :=
  (properties.find? fun p => p.1.name == name && !p.1.isShortcut).map Prod.snd

/-- Accepts objects whose members are accepted by the properties that declare them, with a member for
every property that is not optional. -/
def Properties.acceptMembers (properties : Properties) (visit : Node → Value → Outcome Unit)
    (mark : Mark) (members : List (String × Mark × Value)) : Outcome Unit :=
  properties.forM fun (key, node) =>
    if key.isShortcut then .ok ()
    else match Catalog.find? members key.name with
      | some (_, value) => visit node value
      | none =>
        if node.isOptional then .ok () else .error ((Cause.requiredKeyMissing key.name).on mark)

/-- The node of the first property whose name is a type that accepts a name. -/
def Properties.shortcut? (properties : Properties) (types : Registry)
    (visit : Node → Value → Outcome Unit) (name : String) : Option Node :=
  let text := Value.ofText "key" name
  (properties.find? fun (key, _) =>
    key.isShortcut && ((types.root? key.name).any fun root => (visit root text).isOk)).map Prod.snd

/-- Accepts the value of a member that no property declares by its name, and says whether anything
lets it be there. -/
def Properties.acceptOther (properties : Properties) (header : Header) (types : Registry)
    (visit : Node → Value → Outcome Unit) (name : String) (value : Value) : Outcome Bool :=
  match properties.shortcut? types visit name with
  | some node => do
    visit node value
    return true
  | none =>
    match header.rules.constraint? .additionalProperties with
    | some (.additionalProperties .any) => .ok true
    | some (.additionalProperties (.builtin type)) => do
      type.accept value
      return true
    | some (.additionalProperties (.user name)) => do
      visit (← types.root name) value
      return true
    | _ => .ok false

/-- Accepts objects: first the members that properties declare, then the others. -/
def Properties.accept (properties : Properties) (header : Header) (types : Registry)
    (visit : Node → Value → Outcome Unit) (value : Value) : Outcome Unit :=
  match value with
  | .object mark members => do
    properties.acceptMembers visit mark members
    members.forM fun (name, nameMark, value) => do
      if (properties.declared? name).isNone then
        if !(← properties.acceptOther header types visit name value) then
          throw ((Cause.additionalProperty name).on nameMark)
  | _ => wrongType .object value

/-! ## Arrays -/

/-- Accepts arrays with a number of items that the rules allow, each of which one of the sample items
accepts.  Without sample items any item is accepted. -/
def acceptItems (header : Header) (samples : List Node) (visit : Node → Value → Outcome Unit)
    (value : Value) : Outcome Unit :=
  match value with
  | .array _ items => do
    let count := items.length
    if let some least := header.rules.count? .minItems then
      if count < least then throw (Cause.tooFewItems count least).anywhere
    if let some most := header.rules.count? .maxItems then
      if most < count then throw (Cause.tooManyItems count most).anywhere
    if !samples.isEmpty then
      items.forM fun item => acceptFirst (visit · item) (Cause.noMatchingItem.on item.mark) samples
  | _ => wrongType .array value

/-! ## Nodes -/

/-- Accepts values of what a node itself describes. -/
def Node.acceptSelf (node : Node) (types : Registry) (visit : Node → Value → Outcome Unit)
    (value : Value) : Outcome Unit :=
  match node with
  | .object header properties => Properties.accept properties header types visit value
  | .array header samples => acceptItems header samples visit value
  | .literal _ _ | .mixed _ _ => node.acceptLiteral value
  | .reference _ _ => .ok ()

/-- Accepts the values of a node, over a number of levels. -/
def Registry.accept (types : Registry) : Nat → Node → Value → Outcome Unit
  | 0, _, value => .error ((Cause.validatedTooDeep acceptLimit).on value.mark)
  | levels + 1, node, value =>
    if value.isNull && node.isNullable then .ok ()
    else if node.header.declared?.any BuiltinType.isUnrestricted then .ok ()
    else
      let names := node.rules.typeNames
      if names.isEmpty then
        Outcome.orOn (node.acceptSelf types (types.accept levels) value) value.mark
      else types.acceptTypes (types.accept levels) names value

namespace Schema

/-- Accepts the values of a schema. -/
def accept (schema : Schema) (value : Value) : Outcome Unit :=
  schema.types.accept (acceptLimit + 1) schema.root value

/-- Accepts the values of a member of the object that a schema describes. -/
def acceptMember (schema : Schema) (name : String) (value : Value) : Outcome Unit :=
  match schema.root with
  | .object header properties =>
    match Properties.declared? properties name with
    | some node => schema.types.accept (acceptLimit + 1) node value
    | none => do
      let visit := schema.types.accept acceptLimit
      if !(← Properties.acceptOther properties header schema.types visit name value) then
        throw (Cause.propertyNotFound name).anywhere
  | _ => .error Cause.rootNotAnObject.anywhere

end Schema
end ExampleSchema
