import ExampleSchema.Schema.Accept
import ExampleSchema.Schema.Endless
import ExampleSchema.Schema.JsonTypes

/-!
# Checking schemas

A schema is checked before values are: rules have to suit the types they stand at, references have to
lead somewhere, bounds have to be in order, and samples have to keep their own rules.  The checks of one
node come in the order of `Registry.checkNode`; nodes are checked in the order in which they are
written, the root before the types, and endless types are looked for last.
-/

namespace ExampleSchema

/-- The mark of a rule, or of the node where the rule has none. -/
def Node.markOf (node : Node) (kind : ConstraintKind) : Mark :=
  (node.rules.mark? kind).getD node.basis

/-! ## Rules -/

/-- Accepts nodes whose rules suit their type. -/
def Node.checkSuited (node : Node) : Outcome Unit :=
  node.rules.forM fun r =>
    if r.kind.suits node.jsonType then .ok ()
    else .error ((Cause.incompatibleRule r.kind node.label).on (r.mark?.getD node.basis))

/-- Whether a rule may stand beside references to types, which describe everything else. -/
def ConstraintKind.standsBesideReferences : ConstraintKind → Bool
  | .type | .types | .or | .optional | .nullable => true
  | _ => false

/-- Accepts nodes whose references to types exist, stand alone, and allow the sample's type. -/
def Node.checkReferences (node : Node) (types : Registry) : Outcome Unit := do
  let names := node.rules.typeNames
  if !names.isEmpty then
    let blamed := ((node.rules.mark? .type).or (node.rules.mark? .types)).getD node.basis
    if let some extra := node.rules.find? fun r => !r.kind.standsBesideReferences then
      throw ((Cause.ruleBesideReference extra.kind).on (extra.mark?.getD blamed))
    if !node.children.isEmpty then
      throw ((Cause.childrenBesideReference names).on node.basis)
    let allowed ← Verdict.on (node.jsonTypes types) blamed
    if !(node.jsonType == .mixed || node.jsonType.admitted allowed) then
      throw ((Cause.userTypeMismatch node.jsonType allowed names).on blamed)

/-- Accepts nodes whose bounds are in order and whose exclusive flags have a bound. -/
def Node.checkBounds (node : Node) : Outcome Unit := do
  if let (some low, some high) := (node.rules.min?, node.rules.max?) then
    if high.value.lt low.value then
      throw ((Cause.boundsOrder low.value high.value).on (node.markOf .max))
  if let (some low, some high) := (node.rules.count? .minLength, node.rules.count? .maxLength) then
    if high < low then throw ((Cause.lengthBoundsOrder low high).on (node.markOf .maxLength))
  if node.rules.has .exclusiveMinimum && !node.rules.has .min then
    throw ((Cause.exclusiveWithoutBound .exclusiveMinimum .min).on (node.markOf .exclusiveMinimum))
  if node.rules.has .exclusiveMaximum && !node.rules.has .max then
    throw ((Cause.exclusiveWithoutBound .exclusiveMaximum .max).on (node.markOf .exclusiveMaximum))

/-! ## Objects -/

/-- Accepts properties whose names, where they are types, are types of strings only. -/
def Properties.checkShortcuts (properties : Properties) (types : Registry) : Outcome Unit :=
  properties.forM fun (key, _) => do
    if key.isShortcut then
      let allowed ← Verdict.on (types.jsonTypes key.name) key.mark
      if allowed != [.string] then
        throw ((Cause.keyShortcutNotString key.name allowed).on key.mark)

/-- Accepts objects whose other properties may be of a type that exists. -/
def Node.checkAdditional (node : Node) (types : Registry) : Outcome Unit :=
  match node.rules.constraint? .additionalProperties with
  | some (.additionalProperties (.user name)) => do
    let blamed := node.markOf .additionalProperties
    if !isUserTypeName name then throw ((Cause.badTypeName name).on blamed)
    if (types.root? name).isNone then throw ((Cause.typeNotFound name).on blamed)
  | _ => .ok ()

/-! ## Arrays -/

/-- Whether an array leaves the description of its items to others. -/
def Node.describesNoItems (node : Node) (items : List Node) : Bool :=
  items.isEmpty && (!node.rules.typeNames.isEmpty || node.header.declared? == some .any)

/-- Accepts arrays whose bounds are in order and, unless others describe the items, hold for the
sample items. -/
def Node.checkItems (node : Node) (items : List Node) : Outcome Unit := do
  let least? := node.rules.count? .minItems
  let most? := node.rules.count? .maxItems
  if let (some least, some most) := (least?, most?) then
    if most < least then throw ((Cause.itemBoundsOrder least most).on (node.markOf .maxItems))
  if !node.describesNoItems items then
    let count := items.length
    if let some least := least? then
      if count < least then throw ((Cause.sampleItemsBelow count least).on (node.markOf .minItems))
    if let some most := most? then
      if most < count then throw ((Cause.sampleItemsAbove count most).on (node.markOf .maxItems))

/-! ## Samples -/

/-- Whether a number is written with an exponent. -/
def hasExponent (literal : Bytes) : Bool :=
  JsonType.ofBytes? literal == some .float
    && literal.any fun b => Bytes.char b == 'e' || Bytes.char b == 'E'

/-- Whether a declared type allows numbers with an exponent. -/
def BuiltinType.allowsExponent (type : BuiltinType) : Bool := type == .float || type == .decimal

/-- Accepts a sample that the node itself accepts. -/
def Node.checkSample (node : Node) (types : Registry) (sample : Mark) : Outcome Unit := do
  let literal := sample.bytes
  let type := (JsonType.ofBytes? literal).getD .mixed
  if type == .null && node.isNullable then return ()
  if hasExponent literal && !node.header.declared?.any BuiltinType.allowsExponent then
    throw (Cause.exponentNotAllowed.on sample)
  let unfit (cause : Cause) : Problem := (Cause.badSample sample.text cause).on sample
  match node with
  | .mixed _ _ =>
    match types.accept (acceptLimit + 1) node (.literal sample) with
    | .ok _ => return ()
    | .error problem => throw (unfit problem.cause)
  | _ =>
    if !(node.isOfOpenType || type.fits node.jsonType) then
      throw (unfit (.typeMismatch node.label type))
    node.rules.forM fun r => Verdict.on (r.constraint.check literal) sample

/-! ## Trees and schemas -/

/-- The checks that depend on the shape of a node. -/
def Node.checkShape (node : Node) (types : Registry) : Outcome Unit :=
  match node with
  | .object _ properties => do
    Properties.checkShortcuts properties types
    node.checkAdditional types
  | .array _ items => node.checkItems items
  | .literal _ sample? | .mixed _ sample? =>
    match sample? with
    | some sample => node.checkSample types sample
    | none => .ok ()
  | .reference _ _ => .ok ()

/-- Accepts a node without looking at those below it. -/
def Registry.checkNode (types : Registry) (node : Node) : Outcome Unit := do
  node.checkSuited
  node.checkReferences types
  node.checkBounds
  node.checkShape types

/-- Accepts the nodes of a tree. -/
def Registry.checkTree (types : Registry) (root : Node) : Outcome Unit :=
  root.subnodes.forM types.checkNode

/-- Accepts a schema. -/
def Schema.check (schema : Schema) : Outcome Unit := do
  schema.types.checkTree schema.root
  schema.types.forM fun (_, entry) =>
    (schema.types.checkTree entry.root).mapError (·.orLocation ⟨entry.source, entry.start⟩)
  schema.types.checkEndless

end ExampleSchema
