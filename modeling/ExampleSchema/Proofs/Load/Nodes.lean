import ExampleSchema.Note.Rules
import ExampleSchema.Proofs.Json.Grammar
import ExampleSchema.Proofs.Outcome
import ExampleSchema.Proofs.Tree

/-!
# What a loaded node is

A node of a schema starts as a value that is written, be it a sample, an object, an array or a shortcut,
or as the type of a union member, and then takes the rules of notes.  Which nodes can come of this depends
on the rules that are read, and not on the nodes below, so it is said of nodes without their parts.

* `Node.bare`: a node without the nodes below it.
* `Node.Throughout`: something holds of each node of a tree, without its parts.
* `Provenance`: a value, or a member of a union.
* `Node.IsWritten`: the nodes that come of reading rules of some kind.  What holds of every loaded node is
  shown by induction on this.
* `Node.AreWritten`: all nodes of a tree are such nodes, built from values.
* `Node.AreWritten.annotate`: a note keeps a tree like that.
-/

namespace ExampleSchema

/-- What a node is built from. -/
inductive Provenance where
  /-- A value in a document. -/
  | value
  /-- A member of a union that is written in place, which has no sample. -/
  | member
  deriving DecidableEq

/-! ## Members of unions -/

/-- The type that a rule names. -/
def Constraint.type? : Constraint → Option TypeName
  | .type name => some name
  | _ => none

namespace RuleValue

/-- The type that rules name. -/
def typeOf? (added : List Rule) : Option TypeName := added.findSome? fun r => r.constraint.type?

/-- What a member that is written as rules is before they are applied. -/
def memberStart (type? : Option TypeName) (mark : Mark) : Node :=
  match type? with
  | some type => memberNode type mark
  | none => .mixed { jsonType := .mixed, basis := mark } none

/-- A member starts as the type that its rules name, and takes the rules. -/
theorem memberOfRules_eq (mark : Mark) (added : List Rule) : memberOfRules mark added = do
    let node ← (memberStart (typeOf? added) mark).apply added
    if node.rules.has .or then return node.withHeader { node.header with jsonType := .mixed } else return node := rfl

end RuleValue

namespace Node

/-! ## Nodes without their parts -/

/-- The node without the nodes below it. -/
def bare : Node → Node
  | object header _ => object header []
  | array header _ => array header []
  | node => node

@[simp] theorem header_bare (node : Node) : node.bare.header = node.header := by cases node <;> rfl

@[simp] theorem sample?_bare (node : Node) : node.bare.sample? = node.sample? := by cases node <;> rfl

@[simp] theorem bare_withHeader (node : Node) (header : Header) :
    (node.withHeader header).bare = node.bare.withHeader header := by cases node <;> rfl

@[simp] theorem children_withHeader (node : Node) (header : Header) :
    (node.withHeader header).children = node.children := by cases node <;> rfl

@[simp] theorem sample?_withHeader (node : Node) (header : Header) :
    (node.withHeader header).sample? = node.sample? := by cases node <;> rfl

@[simp] theorem rules_withHeader (node : Node) (header : Header) :
    (node.withHeader header).rules = header.rules := by cases node <;> rfl

/-- Rules do not look at the parts of a node, and leave them. -/
theorem apply_bare {node changed : Node} {added : List Rule} (h : node.apply added = .ok changed) :
    node.bare.apply added = .ok changed.bare ∧ changed.children = node.children := by
  obtain ⟨header, hheader, h⟩ := Except.bind_eq_ok_iff.1 h
  have hbare : node.bare.header.apply node.bare.sample? added = .ok header := by
    rwa [header_bare, sample?_bare]
  rw [apply, hbare, Except.ok_bind]
  cases node with
  | object | array =>
    obtain rfl := Except.ok.inj h
    exact ⟨rfl, rfl⟩
  | reference =>
    obtain rfl := Except.ok.inj h
    exact ⟨rfl, rfl⟩
  | mixed =>
    obtain rfl := Except.ok.inj h
    exact ⟨rfl, rfl⟩
  | literal _ sample? =>
    refine ⟨?_, ?_⟩
    all_goals
      dsimp only at h
      split at h
      · obtain rfl := Except.ok.inj h
        simp_all [bare, children, pure, Except.pure]
      · split at h
        · obtain rfl := Except.ok.inj h
          simp_all [bare, children, pure, Except.pure]
        · obtain rfl := Except.ok.inj h
          simp_all [bare, children, pure, Except.pure]

/-- Something holds of each node of a tree, without its parts. -/
def Throughout (P : Node → Prop) (node : Node) : Prop := ∀ part ∈ node.subnodes, P part.bare

theorem throughout_iff {P : Node → Prop} {node : Node} : node.Throughout P ↔
    P node.bare ∧ ∀ child ∈ node.children, child.Throughout P := by
  constructor
  · intro h
    refine ⟨h node node.mem_subnodes_self, fun child hchild part hpart => ?_⟩
    exact h part (mem_subnodes_iff.2 (Or.inr ⟨child, hchild, hpart⟩))
  · rintro ⟨hnode, hchildren⟩ part hpart
    rcases mem_subnodes_iff.1 hpart with rfl | ⟨child, hchild, hpart⟩
    · exact hnode
    · exact hchildren child hchild part hpart

/-! ## Written nodes -/

/-- A node, without its parts, that comes of a value or of the type of a union member by applying rules
that have been read. -/
inductive IsWritten (isRead : List Rule → Prop) : Provenance → Node → Prop where
  | sample {mark : Mark} : IsLiteral mark.bytes →
      IsWritten isRead .value
        (.literal { jsonType := (JsonType.ofBytes? mark.bytes).getD .mixed, basis := mark } (some mark))
  | object (basis : Mark) : IsWritten isRead .value (.object { jsonType := .object, basis } [])
  | array (basis : Mark) : IsWritten isRead .value (.array { jsonType := .array, basis } [])
  | shortcut {mark : Mark} {node : Node} : Shortcut.node mark = .ok node → IsWritten isRead .value node
  | member (type : TypeName) (basis : Mark) :
      IsWritten isRead .member (RuleValue.memberNode type basis)
  | rules {origin : Provenance} {node changed : Node} {added : List Rule} :
      IsWritten isRead origin node → isRead added → node.apply added = .ok changed →
      IsWritten isRead origin changed
  /-- Where a node is written and how it is commented may change. -/
  | header {origin : Provenance} {node : Node} (header : Header) :
      IsWritten isRead origin node → header.jsonType = node.header.jsonType →
      header.declared? = node.header.declared? → header.rules = node.header.rules →
      IsWritten isRead origin (node.withHeader header)
  /-- A union member that is a union has no type of its own. -/
  | union {node : Node} :
      IsWritten isRead .member node → node.rules.has .or = true →
      IsWritten isRead .member (node.withHeader { node.header with jsonType := .mixed })

variable {isRead isRead' : List Rule → Prop} {origin : Provenance}

theorem IsWritten.mono (h : ∀ added, isRead added → isRead' added) {node : Node}
    (hnode : node.IsWritten isRead origin) : node.IsWritten isRead' origin := by
  induction hnode with
  | sample hliteral => exact .sample hliteral
  | object basis => exact .object basis
  | array basis => exact .array basis
  | shortcut hmark => exact .shortcut hmark
  | member type basis => exact .member type basis
  | rules _ hadded happly ih => exact .rules ih (h _ hadded) happly
  | header header _ htype hdeclared hrules ih => exact .header header ih htype hdeclared hrules
  | union _ hor ih => exact .union ih hor

/-- A written node has no parts. -/
theorem IsWritten.bare_eq {node : Node} (h : node.IsWritten isRead origin) : node.bare = node := by
  induction h with
  | sample | object | array => rfl
  | shortcut hmark =>
    obtain ⟨names, -, hmark⟩ := Except.bind_eq_ok_iff.1 hmark
    obtain ⟨header, -, hmark⟩ := Except.bind_eq_ok_iff.1 hmark
    obtain rfl := Except.ok.inj hmark
    rfl
  | member type basis =>
    cases type with
    | builtin type => cases type <;> rfl
    | user name => rfl
  | rules _ _ happly ih =>
    have hbare := (apply_bare happly).1
    rw [ih, happly] at hbare
    exact (Except.ok.inj hbare).symm
  | header _ _ _ _ _ ih => rw [bare_withHeader, ih]
  | union _ _ ih => rw [bare_withHeader, ih]

theorem children_bare (node : Node) : node.bare.children = [] := by cases node <;> rfl

theorem IsWritten.children_eq_nil {node : Node} (h : node.IsWritten isRead origin) :
    node.children = [] := by
  rw [← h.bare_eq, children_bare]

/-- All nodes of a tree are built from values by reading rules. -/
def AreWritten (isRead : List Rule → Prop) (node : Node) : Prop :=
  node.Throughout (IsWritten isRead .value)

theorem areWritten_iff {node : Node} : node.AreWritten isRead ↔
    node.bare.IsWritten isRead .value ∧ ∀ child ∈ node.children, child.AreWritten isRead :=
  throughout_iff

theorem AreWritten.mono (h : ∀ added, isRead added → isRead' added) {node : Node}
    (hnode : node.AreWritten isRead) : node.AreWritten isRead' :=
  fun part hpart => (hnode part hpart).mono h

/-- A tree of one node. -/
theorem IsWritten.areWritten {node : Node} (h : node.IsWritten isRead .value) :
    node.AreWritten isRead := by
  refine areWritten_iff.2 ⟨by rwa [h.bare_eq], ?_⟩
  rw [h.children_eq_nil]
  exact nofun

/-! ## Rules and notes -/

/-- Another place or comment keeps a tree. -/
theorem AreWritten.withHeader {node : Node} (h : node.AreWritten isRead) {header : Header}
    (htype : header.jsonType = node.header.jsonType) (hdeclared : header.declared? = node.header.declared?)
    (hrules : header.rules = node.header.rules) : (node.withHeader header).AreWritten isRead := by
  obtain ⟨hnode, hchildren⟩ := areWritten_iff.1 h
  refine areWritten_iff.2 ⟨?_, by rwa [children_withHeader]⟩
  rw [bare_withHeader]
  refine .header header hnode ?_ ?_ ?_ <;> rwa [header_bare]

/-- Rules that have been read keep a tree. -/
theorem AreWritten.apply {node changed : Node} (h : node.AreWritten isRead) {added : List Rule}
    (hadded : isRead added) (happly : node.apply added = .ok changed) :
    changed.AreWritten isRead := by
  obtain ⟨hnode, hchildren⟩ := areWritten_iff.1 h
  obtain ⟨hbare, hsame⟩ := apply_bare happly
  exact areWritten_iff.2 ⟨.rules hnode hadded hbare, by rwa [hsame]⟩

/-- A note keeps a tree. -/
theorem AreWritten.annotate {node changed : Node} (h : node.AreWritten isRead) {note : Mark}
    {comment? : Option String} {added : List Rule} (hadded : isRead added)
    (hchanged : node.annotate note comment? added = .ok changed) : changed.AreWritten isRead := by
  obtain ⟨header, hheader, happly⟩ := Except.bind_eq_ok_iff.1 hchanged
  rw [Header.annotate] at hheader
  split at hheader
  · cases hheader
  · obtain rfl := Except.ok.inj hheader
    refine AreWritten.apply ?_ hadded happly
    exact h.withHeader rfl rfl rfl

@[simp] theorem rules_memberNode (type : TypeName) (basis : Mark) :
    (RuleValue.memberNode type basis).rules = [] := by
  cases type with
  | builtin type => cases type <;> rfl
  | user name => rfl

/-- The type of a union member that is written as rules. -/
theorem isWritten_of_memberOfRules {mark : Mark} {added : List Rule} {node : Node}
    (hadded : isRead added) (h : RuleValue.memberOfRules mark added = .ok node) :
    node.IsWritten isRead .member := by
  rw [RuleValue.memberOfRules_eq] at h
  obtain ⟨changed, happly, h⟩ := Except.bind_eq_ok_iff.1 h
  have hstart : ∀ type?, (RuleValue.memberStart type? mark).IsWritten isRead .member := by
    intro type?
    cases type? with
    | some type => exact .member type mark
    | none => exact .member (.user "") mark
  have hchanged : changed.IsWritten isRead .member := .rules (hstart _) hadded happly
  split at h
  · next hor =>
    obtain rfl := Except.ok.inj h
    exact hchanged.union hor
  · obtain rfl := Except.ok.inj h
    exact hchanged

end Node
end ExampleSchema
