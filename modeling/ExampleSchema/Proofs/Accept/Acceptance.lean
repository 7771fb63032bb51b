import ExampleSchema.Proofs.Outcome
import ExampleSchema.Schema.Accept

/-!
# What a node accepts

The values that a node accepts, said without the order in which anything is tried, without a limit and
without reasons.  `Registry.Accepts` is the least relation with the rules below, and `accepts_iff` the
equation that it satisfies.

Whether a property written as a shortcut stands for a name depends on what a type accepts, and on what the
types of earlier shortcuts do not accept.  A name is a literal, and what a node does with a literal does
not depend on shortcuts, so that is settled first: the rules are stated for any reading of names
(`AcceptsBy`), and names are read by the rules themselves.

* `Registry.Accepts`: a node accepts a value.
* `Registry.Admits`: an object lets a member be there that no property declares by its name.
* `Registry.accepts_iff`: a node accepts a value if it takes `null` or anything, or if one of its types
  does, or if it has no types and the value is as the node describes.
-/

namespace ExampleSchema

/-! ## Values without parts -/

/-- Values of a built-in type, where nothing else is known of it: their JSON type and format. -/
def BuiltinType.Admits (type : BuiltinType) (value : Value) : Prop :=
  type.isUnrestricted = true ∨
    (type.jsonType = .mixed ∨ value.jsonType.fits type.jsonType = true) ∧
      ∀ format ∈ type.format?, ∃ text, Literal.stringValue value.bytes = .ok text ∧
        format.accepts text = true

/-- Literals that keep a constraint. -/
def Constraint.IsKept (c : Constraint) (literal : Bytes) : Prop := c.check literal = .ok ()

/-- Literals that are of the type of a node and keep its constraints. -/
def Node.DescribesLiteral (node : Node) (mark : Mark) : Prop :=
  (node.isOfOpenType = true ∨ (Value.literal mark).jsonType.fits node.jsonType = true) ∧
    ∀ r ∈ node.rules, r.constraint.IsKept mark.bytes

/-- What a node accepts whatever else it says: `null`, if it is nullable, and everything, if its type is
unrestricted. -/
def Node.AcceptsAnyway (node : Node) (value : Value) : Prop :=
  value.isNull = true ∧ node.isNullable = true ∨
    ∃ type ∈ node.header.declared?, type.isUnrestricted = true

/-- Numbers of items that the rules of an array allow. -/
def Header.AllowsCount (header : Header) (count : Nat) : Prop :=
  (∀ least ∈ header.rules.count? .minItems, least ≤ count) ∧
    ∀ most ∈ header.rules.count? .maxItems, count ≤ most

/-! ## Names -/

/-- A property is written as a shortcut, and a type of its name reads the name of a member. -/
def PropertyKey.Takes (key : PropertyKey) (types : Registry) (reads : Node → String → Prop)
    (name : String) : Prop :=
  key.isShortcut = true ∧ ∃ root ∈ types.root? key.name, reads root name

/-- The node of the first property that takes a name. -/
def Properties.IsFirst (properties : Properties) (types : Registry) (reads : Node → String → Prop)
    (name : String) (node : Node) : Prop :=
  ∃ before key after, properties = before ++ (key, node) :: after ∧ key.Takes types reads name ∧
    ∀ p ∈ before, ¬ p.1.Takes types reads name

namespace Registry

/-! ## Rules -/

mutual

/-- The values that a node accepts, if names are read in some way. -/
inductive AcceptsBy (types : Registry) (reads : Node → String → Prop) : Node → Value → Prop
  | anyway {node : Node} {value : Value} (h : node.AcceptsAnyway value) :
    AcceptsBy types reads node value
  | type {node root : Node} {value : Value} {name : String} (hname : name ∈ node.rules.typeNames)
      (hroot : types.root? name = some root) (h : AcceptsBy types reads root value) :
    AcceptsBy types reads node value
  | object {header : Header} {properties : Properties} {mark : Mark}
      {members : List (String × Mark × Value)} (hnames : header.rules.typeNames = [])
      (hdeclared : ∀ p ∈ properties, p.1.isShortcut = false →
        ∀ m value, Catalog.find? members p.1.name = some (m, value) →
          AcceptsBy types reads p.2 value)
      (hmissing : ∀ p ∈ properties, p.1.isShortcut = false →
        Catalog.find? members p.1.name = none → p.2.isOptional = true)
      (hothers : ∀ member ∈ members, properties.declared? member.1 = none →
        AdmitsBy types reads header properties member.1 member.2.2) :
    AcceptsBy types reads (.object header properties) (.object mark members)
  | array {header : Header} {samples : List Node} {mark : Mark} {items : List Value}
      (hnames : header.rules.typeNames = []) (hcount : header.AllowsCount items.length)
      (hitems : samples ≠ [] → ∀ item ∈ items, SomeAcceptsBy types reads samples item) :
    AcceptsBy types reads (.array header samples) (.array mark items)
  | literal {header : Header} {sample? : Option Mark} {mark : Mark}
      (hnames : header.rules.typeNames = [])
      (h : (Node.literal header sample?).DescribesLiteral mark) :
    AcceptsBy types reads (.literal header sample?) (.literal mark)
  | mixed {header : Header} {sample? : Option Mark} {mark : Mark}
      (hnames : header.rules.typeNames = [])
      (h : (Node.mixed header sample?).DescribesLiteral mark) :
    AcceptsBy types reads (.mixed header sample?) (.literal mark)
  | reference {header : Header} {names : List String} {value : Value}
      (hnames : header.rules.typeNames = []) :
    AcceptsBy types reads (.reference header names) value

/-- The values that one of some nodes accepts. -/
inductive SomeAcceptsBy (types : Registry) (reads : Node → String → Prop) : List Node → Value → Prop
  | intro {nodes : List Node} {node : Node} {value : Value} (hnode : node ∈ nodes)
      (h : AcceptsBy types reads node value) :
    SomeAcceptsBy types reads nodes value

/-- The members that an object lets be there though no property declares them by their name. -/
inductive AdmitsBy (types : Registry) (reads : Node → String → Prop) :
    Header → Properties → String → Value → Prop
  | shortcut {header : Header} {properties : Properties} {name : String} {value : Value} {node : Node}
      (hfirst : properties.IsFirst types reads name node) (h : AcceptsBy types reads node value) :
    AdmitsBy types reads header properties name value
  | any {header : Header} {properties : Properties} {name : String} {value : Value}
      (hnone : ∀ p ∈ properties, ¬ p.1.Takes types reads name)
      (hrule : header.rules.constraint? .additionalProperties = some (.additionalProperties .any)) :
    AdmitsBy types reads header properties name value
  | builtin {header : Header} {properties : Properties} {name : String} {value : Value}
      {type : BuiltinType} (hnone : ∀ p ∈ properties, ¬ p.1.Takes types reads name)
      (hrule : header.rules.constraint? .additionalProperties =
        some (.additionalProperties (.builtin type)))
      (h : type.Admits value) :
    AdmitsBy types reads header properties name value
  | user {header : Header} {properties : Properties} {name type : String} {value : Value} {root : Node}
      (hnone : ∀ p ∈ properties, ¬ p.1.Takes types reads name)
      (hrule : header.rules.constraint? .additionalProperties =
        some (.additionalProperties (.user type)))
      (hroot : types.root? type = some root) (h : AcceptsBy types reads root value) :
    AdmitsBy types reads header properties name value

end

/-- A type reads a name if it accepts the name as a string. -/
def Reads (types : Registry) (root : Node) (name : String) : Prop :=
  types.AcceptsBy (fun _ _ => False) root (.ofText "key" name)

/-- **The values that a node accepts.** -/
def Accepts (types : Registry) : Node → Value → Prop := types.AcceptsBy types.Reads

/-- **The members that an object lets be there**, though no property declares them by their name. -/
def Admits (types : Registry) : Header → Properties → String → Value → Prop :=
  types.AdmitsBy types.Reads

variable {types : Registry}

/-- What a node does with a literal does not depend on how names are read. -/
theorem AcceptsBy.of_literal {reads reads' : Node → String → Prop} : ∀ {node : Node} {value : Value},
    types.AcceptsBy reads node value → (∃ mark, value = .literal mark) →
      types.AcceptsBy reads' node value
  | _, _, .anyway h, _ => .anyway h
  | _, _, .type hname hroot h, hliteral => .type hname hroot (AcceptsBy.of_literal h hliteral)
  | _, _, .literal hnames h, _ => .literal hnames h
  | _, _, .mixed hnames h, _ => .mixed hnames h
  | _, _, .reference hnames, _ => .reference hnames
  | _, _, .object .., hliteral => by obtain ⟨mark, hliteral⟩ := hliteral; cases hliteral
  | _, _, .array .., hliteral => by obtain ⟨mark, hliteral⟩ := hliteral; cases hliteral

/-- **A type reads a name exactly if it accepts the name as a string.** -/
theorem reads_iff {root : Node} {name : String} :
    types.Reads root name ↔ types.Accepts root (.ofText "key" name) :=
  ⟨fun h => h.of_literal ⟨_, rfl⟩, fun h => AcceptsBy.of_literal h ⟨_, rfl⟩⟩

/-! ## Equations -/

/-- A property that is declared by its name accepts the member of that name, or may be missing. -/
def IsMet (types : Registry) (members : List (String × Mark × Value)) (p : PropertyKey × Node) : Prop :=
  p.1.isShortcut = false →
    match Catalog.find? members p.1.name with
    | some (_, value) => types.Accepts p.2 value
    | none => p.2.isOptional = true

/-- A member that no property declares by its name may be there. -/
def IsLet (types : Registry) (header : Header) (properties : Properties)
    (member : String × Mark × Value) : Prop :=
  properties.declared? member.1 = none → types.Admits header properties member.1 member.2.2

/-- The values that are as a node without types describes. -/
def Describes (types : Registry) : Node → Value → Prop
  | .object header properties, .object _ members =>
    (∀ p ∈ properties, types.IsMet members p) ∧
      ∀ member ∈ members, types.IsLet header properties member
  | .array header samples, .array _ items =>
    header.AllowsCount items.length ∧
      (samples ≠ [] → ∀ item ∈ items, ∃ sample ∈ samples, types.Accepts sample item)
  | .literal header sample?, .literal mark => (Node.literal header sample?).DescribesLiteral mark
  | .mixed header sample?, .literal mark => (Node.mixed header sample?).DescribesLiteral mark
  | .reference _ _, _ => True
  | _, _ => False

/-- The members that a rule on additional properties lets be there. -/
def AdmitsAdditional (types : Registry) (header : Header) (value : Value) : Prop :=
  match header.rules.constraint? .additionalProperties with
  | some (.additionalProperties .any) => True
  | some (.additionalProperties (.builtin type)) => type.Admits value
  | some (.additionalProperties (.user name)) => ∃ root ∈ types.root? name, types.Accepts root value
  | _ => False

/-- **An undeclared member is admitted** by the first shortcut that takes its name, or if there is none by
the rule on additional properties. -/
theorem admits_iff {header : Header} {properties : Properties} {name : String} {value : Value} :
    types.Admits header properties name value ↔
      (∃ node, properties.IsFirst types types.Reads name node ∧ types.Accepts node value) ∨
        (∀ p ∈ properties, ¬ p.1.Takes types types.Reads name) ∧
          types.AdmitsAdditional header value := by
  constructor
  · intro h
    cases h with
    | shortcut hfirst h => exact Or.inl ⟨_, hfirst, h⟩
    | any hnone hrule =>
      refine Or.inr ⟨hnone, ?_⟩
      rw [AdmitsAdditional, hrule]
      trivial
    | builtin hnone hrule h =>
      refine Or.inr ⟨hnone, ?_⟩
      rw [AdmitsAdditional, hrule]
      exact h
    | user hnone hrule hroot h =>
      refine Or.inr ⟨hnone, ?_⟩
      rw [AdmitsAdditional, hrule]
      exact ⟨_, hroot, h⟩
  · rintro (⟨node, hfirst, h⟩ | ⟨hnone, h⟩)
    · exact .shortcut hfirst h
    · unfold AdmitsAdditional at h
      split at h
      · next hrule => exact .any hnone hrule
      · next hrule => exact .builtin hnone hrule h
      · next hrule =>
        obtain ⟨root, hroot, h⟩ := h
        exact .user hnone hrule hroot h
      · exact h.elim

/-- **A value is accepted** anyway, or by a type that the node names, or if there is none as the node
describes it. -/
theorem accepts_iff {node : Node} {value : Value} :
    types.Accepts node value ↔
      node.AcceptsAnyway value ∨
        (∃ name ∈ node.rules.typeNames, ∃ root ∈ types.root? name, types.Accepts root value) ∨
          node.rules.typeNames = [] ∧ types.Describes node value := by
  constructor
  · intro h
    cases h with
    | anyway h => exact Or.inl h
    | type hname hroot h => exact Or.inr (Or.inl ⟨_, hname, _, hroot, h⟩)
    | @object header properties mark members hnames hdeclared hmissing hothers =>
      refine Or.inr (Or.inr ⟨hnames, fun p hp hkey => ?_, hothers⟩)
      split
      · next m value hmember => exact hdeclared p hp hkey m value hmember
      · next hmember => exact hmissing p hp hkey hmember
    | array hnames hcount hitems =>
      refine Or.inr (Or.inr ⟨hnames, hcount, fun hsamples item hitem => ?_⟩)
      obtain ⟨hnode, h⟩ := hitems hsamples item hitem
      exact ⟨_, hnode, h⟩
    | literal hnames h => exact Or.inr (Or.inr ⟨hnames, h⟩)
    | mixed hnames h => exact Or.inr (Or.inr ⟨hnames, h⟩)
    | reference hnames => exact Or.inr (Or.inr ⟨hnames, trivial⟩)
  · rintro (h | ⟨name, hname, root, hroot, h⟩ | ⟨hnames, h⟩)
    · exact .anyway h
    · exact .type hname hroot h
    · unfold Describes at h
      split at h
      · next header properties mark members =>
        obtain ⟨hproperties, hmembers⟩ := h
        refine .object hnames (fun p hp hkey m value hmember => ?_) (fun p hp hkey hmember => ?_)
          hmembers
        · have hmet := hproperties p hp hkey
          rw [hmember] at hmet
          exact hmet
        · have hmet := hproperties p hp hkey
          rw [hmember] at hmet
          exact hmet
      · obtain ⟨hcount, hitems⟩ := h
        refine .array hnames hcount fun hsamples item hitem => ?_
        obtain ⟨sample, hsample, h⟩ := hitems hsamples item hitem
        exact ⟨hsample, h⟩
      · exact .literal hnames h
      · exact .mixed hnames h
      · exact .reference hnames
      · exact h.elim

end Registry
end ExampleSchema
