import ExampleSchema.Constraint.Read
import ExampleSchema.Note.Basic
import ExampleSchema.Schema.Basic
import ExampleSchema.Shortcut

/-!
# The constraints of a note

The rules of a note become constraints.  A union may write its members in place, as built-in types or
as rules; such a member becomes a type of its own, which `Unnamed` registers under a name made of the
owner of the document and a number.
-/

namespace ExampleSchema

/-- The types of union members that are written in place. -/
structure Unnamed where
  /-- The document, and the name its unnamed types are called after. -/
  source : Source
  owner : String
  types : Registry := []
  deriving Inhabited

/-- Registers a type and gives it a name. -/
def Unnamed.register (u : Unnamed) (root : Node) (start : Nat) : String × Unnamed :=
  let name := u.owner ++ "#" ++ toString (u.types.length + 1)
  (name, { u with types := Catalog.insert u.types name { root, source := u.source, start } })

namespace RuleValue

/-! ## Values -/

/-- The literal that the value of a rule has to be. -/
def literalOf (rule : ConstraintKind) : RuleValue → Outcome Mark
  | literal mark => .ok mark
  | value => .error ((Cause.ruleUnfit rule.name .literal).on value.mark)

/-- The text of a value that is a string. -/
def string? : RuleValue → Outcome (Option String)
  | literal mark =>
    if Literal.isString mark.bytes then some <$> Verdict.on (Literal.string mark.bytes) mark
    else .ok none
  | _ => .ok none

/-- Fails because the value of a rule is not what it has to be. -/
def unfit {α : Type} (rule : ConstraintKind) (expected : Expected) : Outcome α :=
  .error (Cause.ruleUnfit rule.name expected).anywhere

/-- The one name of a shortcut. -/
def singleName (rule : ConstraintKind) (expected : Expected) (mark : Mark) : Outcome String := do
  match ← Shortcut.names mark with
  | [name] => return name
  | _ => unfit rule expected

/-! ## Rules without unions -/

/-- What a `type` rule names. -/
def typeName : RuleValue → Outcome TypeName
  | shortcut mark => TypeName.user <$> singleName .type .singleTypeNotUnion mark
  | value => do
    match ← value.string? with
    | some name => Verdict.anywhere (TypeName.read name)
    | none => unfit .type .typeName

mutual
/-- The names of an `allOf` rule: a shortcut, a string, or a list of these. -/
def allOfNames : RuleValue → Outcome (List String)
  | shortcut mark => Shortcut.names mark
  | array _ items => allOfNamesOf items
  | literal mark => do
    match ← (literal mark).string? with
    | some name => return [← Verdict.anywhere (readAllOfName name)]
    | none => unfit .allOf .typeNames
  | object _ _ => unfit .allOf .typeNames

/-- The names of the items of an `allOf` rule. -/
def allOfNamesOf : List RuleValue → Outcome (List String)
  | [] => .ok []
  | item :: rest => do
    let names ← Outcome.orOn item.allOfNames item.mark
    return names ++ (← allOfNamesOf rest)
end

/-- What an `enum` rule allows: literals, or those of a rule with a name. -/
def enumeration : RuleValue → Outcome Enumeration
  | array _ items =>
    items.foldlM (fun (e : Enumeration) item => do
      let mark ← item.literalOf .enum
      Verdict.on (e.append mark.bytes none) mark) {}
  | shortcut mark => Enumeration.ofRule <$> singleName .enum .singleRuleName mark
  | value => do
    match ← value.string? with
    | some name =>
      if isUserTypeName name then return .ofRule name else unfit .enum .literalsOrRuleName
    | none => unfit .enum .literalsOrRuleName

/-- What an `additionalProperties` rule allows. -/
def additional : RuleValue → Outcome Additional
  | shortcut mark => Additional.user <$> singleName .additionalProperties .singleType mark
  | value => do
    Verdict.anywhere (Additional.read (← value.literalOf .additionalProperties).bytes)

/-- The constraint of a rule that is no union. -/
def constraint (name : String) (key : Mark) (value : RuleValue) : Outcome Constraint :=
  let unknown : Outcome Constraint := .error ((Cause.unknownRule name).on key)
  match ConstraintKind.ofName? name with
  | none => unknown
  | some .type => Constraint.type <$> value.typeName
  | some .allOf => Constraint.allOf <$> value.allOfNames
  | some .enum => Constraint.enum <$> value.enumeration
  | some .additionalProperties => Constraint.additionalProperties <$> value.additional
  | some (.format _) => unknown
  | some kind => do
    match Constraint.read? kind (← value.literalOf kind).bytes with
    | some verdict => Verdict.anywhere verdict
    | none => unknown

/-! ## Unions -/

/-- Whether a rule lists the members of a union. -/
def isUnion (name : String) : Bool :=
  name == ConstraintKind.or.name || name == ConstraintKind.types.name

/-- A node of a type that is written without a sample. -/
def memberNode (type : TypeName) (basis : Mark) : Node :=
  match type with
  | .builtin .object => .object { jsonType := .object, basis } []
  | .builtin .array => .array { jsonType := .array, basis } []
  | .builtin .any | .builtin .mixed | .user _ => .mixed { jsonType := .mixed, basis } none
  | .builtin type => .literal { jsonType := type.jsonType, basis } none

/-- The type of a union member that is written as rules. -/
def memberOfRules (mark : Mark) (added : List Rule) : Outcome Node := do
  let type? := added.findSome? fun r =>
    match r.constraint with
    | .type name => some name
    | _ => none
  let node := match type? with
    | some type => memberNode type mark
    | none => .mixed { jsonType := .mixed, basis := mark } none
  let node ← node.apply added
  if node.rules.has .or then return node.withHeader { node.header with jsonType := .mixed }
  else return node

/-- The name of a union member that is written as a string: a type of the user, or a built-in type,
which is registered. -/
def memberOfName (u : Unnamed) (mark : Mark) : Outcome (String × Unnamed) := do
  let name ← Verdict.on (Literal.string mark.bytes) mark
  if isUserTypeName name then return (name, u)
  else match BuiltinType.ofName? name with
    | none => throw ((Cause.unknownType name).on mark)
    | some type =>
      let rule : Rule := { constraint := .type (.builtin type), mark? := some mark }
      let node ← (memberNode (.builtin type) mark).apply [rule]
      return u.register node mark.start

mutual
/-- The constraints of some rules, with the types of the union members among them. -/
def constraintsOf (u : Unnamed) :
    List (String × Mark × RuleValue) → Outcome (List Rule × Unnamed)
  | [] => .ok ([], u)
  | (name, key, value) :: rest => do
    let (constraints, u) ← Outcome.orOn (do
      if isUnion name then
        let (names, u) ← value.unionNames name u
        return ([Constraint.types names, Constraint.or], u)
      else return ([← value.constraint name key], u)) value.mark
    let rules : List Rule := constraints.map fun c => { constraint := c, mark? := some value.mark }
    let (others, u) ← constraintsOf u rest
    return (rules ++ others, u)

/-- The names of the members of a union. -/
def unionNames (rule : String) (u : Unnamed) : RuleValue → Outcome (List String × Unnamed)
  | shortcut mark => do return (← Shortcut.names mark, u)
  | array mark items =>
    if items.isEmpty then .error ((Cause.emptyUnion rule).on mark) else memberNames rule u items
  | literal mark | object mark _ => .error ((Cause.ruleUnfit rule .arrayOfTypes).on mark)

/-- The names of listed members of a union. -/
def memberNames (rule : String) (u : Unnamed) : List RuleValue → Outcome (List String × Unnamed)
  | [] => .ok ([], u)
  | item :: rest => do
    let (names, u) ← item.memberNamesOf rule u
    let (others, u) ← memberNames rule u rest
    return (names ++ others, u)

/-- The names of one listed member of a union. -/
def memberNamesOf (rule : String) (u : Unnamed) : RuleValue → Outcome (List String × Unnamed)
  | shortcut mark => do return (← Shortcut.names mark, u)
  | object mark rules => do
    if Catalog.contains rules ConstraintKind.type.name then
      let (added, u) ← constraintsOf u rules
      let (name, u) := u.register (← memberOfRules mark added) mark.start
      return ([name], u)
    else throw (Cause.unionMemberWithoutType.on mark)
  | literal mark =>
    if Literal.isString mark.bytes then do
      let (name, u) ← memberOfName u mark
      return ([name], u)
    else .error ((Cause.unionMemberUnfit rule).on mark)
  | array mark _ => .error ((Cause.unionMemberUnfit rule).on mark)
end

end RuleValue
end ExampleSchema
