import ExampleSchema.Constraint.Rules

/-!
# Nodes

The tree of a schema.  A schema is written as a sample document, so its tree has the shape of the
sample: literals, objects and arrays.  Two more shapes stand where the sample does not settle the type:
a mixed node, whose rules allow several types, and a reference, written as the names of types.

* `Header`: what every node has.
* `Node`: the tree.
* `Node.subnodes`: all nodes of a tree, each before those below it.
-/

namespace ExampleSchema

/-- What every node has. -/
structure Header where
  /-- The type of the values, as far as it is known. -/
  jsonType : JsonType
  /-- The built-in type that a rule declares. -/
  declared? : Option BuiltinType := none
  rules : Rules := []
  /-- Where the node is written; what errors about it point at. -/
  basis : Mark
  comment? : Option String := none
  /-- A note has been applied to the node. -/
  isAnnotated : Bool := false
  deriving Inhabited

/-- How a property is written. -/
structure PropertyKey where
  name : String
  mark : Mark
  /-- The name is a type, and stands for any name that the type accepts. -/
  isShortcut : Bool := false
  /-- The property comes from another object. -/
  isInherited : Bool := false
  deriving Inhabited

/-- A schema as a tree. -/
inductive Node where
  /-- A value without parts.  A member of a union has no sample. -/
  | literal (header : Header) (sample? : Option Mark)
  | object (header : Header) (properties : List (PropertyKey × Node))
  | array (header : Header) (items : List Node)
  /-- A value of several types. -/
  | mixed (header : Header) (sample? : Option Mark)
  /-- The names of types in place of a value. -/
  | reference (header : Header) (names : List String)
  deriving Inhabited

/-- The properties of an object, under distinct names. -/
abbrev Properties := List (PropertyKey × Node)

namespace Node

/-! ## Parts -/

/-- What every node has. -/
def header : Node → Header
  | literal header _ | object header _ | array header _ | mixed header _ | reference header _ => header

/-- The node with another header. -/
def withHeader (node : Node) (header : Header) : Node :=
  match node with
  | literal _ sample? => literal header sample?
  | object _ properties => object header properties
  | array _ items => array header items
  | mixed _ sample? => mixed header sample?
  | reference _ names => reference header names

@[simp] theorem header_withHeader (node : Node) (h : Header) : (node.withHeader h).header = h := by
  cases node <;> rfl

/-- The rules of the node. -/
def rules (node : Node) : Rules := node.header.rules

/-- The type of the values. -/
def jsonType (node : Node) : JsonType := node.header.jsonType

/-- Where the node is written. -/
def basis (node : Node) : Mark := node.header.basis

/-- The literal that the node was written as. -/
def sample? : Node → Option Mark
  | literal _ sample? | mixed _ sample? => sample?
  | object _ _ | array _ _ | reference _ _ => none

/-- Whether a property with the node may be missing. -/
def isOptional (node : Node) : Bool := node.rules.flag .optional

/-- Whether the node accepts `null` too. -/
def isNullable (node : Node) : Bool := node.rules.flag .nullable

/-- The type by which messages call the node. -/
def label (node : Node) : TypeLabel :=
  match node.header.declared? with
  | some type => .declared type
  | none => .json node.jsonType

/-- The direct parts of an object or an array. -/
def children : Node → List Node
  | object _ properties => properties.map Prod.snd
  | array _ items => items
  | _ => []

/-! ## Subnodes -/

mutual
/-- The nodes of the tree, each before those below it. -/
def subnodes : Node → List Node
  | literal header sample? => [literal header sample?]
  | object header properties => object header properties :: subnodesOfProperties properties
  | array header items => array header items :: subnodesOfItems items
  | mixed header sample? => [mixed header sample?]
  | reference header names => [reference header names]

/-- The nodes of the trees of properties. -/
def subnodesOfProperties : List (PropertyKey × Node) → List Node
  | [] => []
  | (_, node) :: rest => node.subnodes ++ subnodesOfProperties rest

/-- The nodes of the trees of items. -/
def subnodesOfItems : List Node → List Node
  | [] => []
  | node :: rest => node.subnodes ++ subnodesOfItems rest
end

/-- The tree starts with the node itself. -/
theorem mem_subnodes_self (node : Node) : node ∈ node.subnodes := by
  cases node <;> simp [subnodes]

end Node
end ExampleSchema
