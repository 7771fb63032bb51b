import ExampleSchema.Proofs.Load.Annotated
import ExampleSchema.Proofs.Order.Agreement

/-!
# Trees without places

Where the parts of a tree are written counts for nothing but errors.  So a tree may forget it, and so may a loader:
what is read afterwards is the same, up to the places in it.

* `Node.unplaced`, `Schema.unplaced`: a tree and a schema without places.  What is left of a mark are the bytes of a
  literal, of a key and of the names in place of a value.
* `Node.agreeVia_apply`, `Node.agreeVia_annotate`: rules and notes.
* `OpenNode.unplaced`, `Loader.unplaced`: what has been read so far.
* `Loader.agreeVia_place`, `Loader.agreeVia_leave`, `Loader.agreeVia_describe`: what the loader does with it.
-/

namespace ExampleSchema

open Except

/-! ## Marks and rules -/

/-- The mark without its place: only the bytes are left. -/
def Mark.unplaced (mark : Mark) : Mark := ⟨⟨"", mark.bytes⟩, ⟨mark.kind, 0, mark.bytes.length⟩⟩

@[simp] theorem Mark.bytes_unplaced (mark : Mark) : mark.unplaced.bytes = mark.bytes :=
  List.take_length

/-- Marks without places tell whether the bytes are the same. -/
theorem Mark.unplaced_eq_iff {mark mark' : Mark} :
    mark.unplaced = mark'.unplaced ↔ mark.kind = mark'.kind ∧ mark.bytes = mark'.bytes := by
  constructor
  · intro h
    have hkind : mark.unplaced.kind = mark'.unplaced.kind := congrArg Mark.kind h
    refine ⟨hkind, ?_⟩
    rw [← mark.bytes_unplaced, h, mark'.bytes_unplaced]
  · rintro ⟨hkind, hbytes⟩
    rw [unplaced, unplaced, hkind, hbytes]

/-- The rule, wherever it is written. -/
def Rule.unplaced (r : Rule) : Rule := { r with mark? := none }

namespace Rules

/-- The rules, wherever they are written. -/
def unplaced (rules : Rules) : Rules := rules.map Rule.unplaced

variable (rules : Rules)

theorem constraint?_unplaced (kind : ConstraintKind) : rules.unplaced.constraint? kind = rules.constraint? kind := by
  rw [constraint?, constraint?, rule?, rule?, unplaced, List.find?_map, Option.map_map]
  rfl

theorem has_unplaced (kind : ConstraintKind) : rules.unplaced.has kind = rules.has kind := by
  rw [has, has, rule?, rule?, unplaced, List.find?_map, Option.isSome_map]
  rfl

theorem flag_unplaced (kind : ConstraintKind) : rules.unplaced.flag kind = rules.flag kind := by
  rw [flag, flag, constraint?_unplaced]

theorem change_unplaced (f : Constraint → Constraint) : rules.unplaced.change f = (rules.change f).unplaced := by
  rw [change, change, unplaced, unplaced, List.map_map, List.map_map]
  rfl

theorem agreeVia_add (constraint : Constraint) (mark? : Option Mark) :
    AgreeVia unplaced (rules.add constraint mark?) (rules.unplaced.add constraint none) := by
  rw [add, add, has_unplaced]
  split
  · trivial
  · have hall : List.map Rule.unplaced (rules ++ [(⟨constraint, mark?⟩ : Rule)]) =
        rules.map Rule.unplaced ++ [⟨constraint, none⟩] := List.map_append
    exact agree_ok.2 hall.symm

end Rules

/-! ## Headers -/

namespace Header

/-- The header with another basis, wherever its rules are written. -/
def unplaced (basis : Mark) (h : Header) : Header := { h with basis, rules := h.rules.unplaced }

variable (h : Header) {basis : Mark}

theorem agreeVia_addRules (added : List Rule) :
    AgreeVia (unplaced basis) (h.addRules added) ((h.unplaced basis).addRules (Rules.unplaced added)) := by
  refine AgreeVia.bind (F := Rules.unplaced) ?_ fun _ _ => rfl
  have hadded : List.Forall₂ (fun r r' => r' = Rule.unplaced r) added (Rules.unplaced added) :=
    List.forall₂_map_right_iff.2 (List.forall₂_same.2 fun _ _ => rfl)
  refine Agree.foldlM hadded rfl ?_
  rintro rules _ r _ rfl rfl
  exact Rules.agreeVia_add rules r.constraint r.mark?

theorem agreeVia_declare (type : BuiltinType) :
    AgreeVia (unplaced basis) (h.declare type) ((h.unplaced basis).declare type) := by
  unfold declare
  cases type.format? with
  | none => rfl
  | some format => exact (h.rules.agreeVia_add (.format format) none).bind fun _ _ => rfl

theorem linkBounds_unplaced : (h.unplaced basis).linkBounds = h.linkBounds.unplaced basis := by
  unfold linkBounds
  have hflag (kind : ConstraintKind) : (h.unplaced basis).rules.flag kind = h.rules.flag kind :=
    h.rules.flag_unplaced kind
  simp only [hflag]
  exact congrArg (fun rules => ({ h with basis, rules } : Header)) (h.rules.change_unplaced _)

theorem isConstant_unplaced : (h.unplaced basis).isConstant = h.isConstant := by
  have hrules : (h.unplaced basis).rules = h.rules.unplaced := rfl
  rw [isConstant, isConstant, hrules, Rules.constraint?_unplaced]

theorem agreeVia_fillConstant (sample? : Option Mark) :
    AgreeVia (unplaced basis) (h.fillConstant sample?)
      ((h.unplaced basis).fillConstant (sample?.map Mark.unplaced)) := by
  cases sample? with
  | none => rfl
  | some sample =>
    rw [fillConstant, Option.map_some, fillConstant, isConstant_unplaced, Mark.bytes_unplaced]
    dsimp only
    split
    · refine AgreeVia.bind (F := id) ?_ fun key _ => ?_
      · exact ((agree_refl (LiteralKey.ofBytes sample.bytes)).mono fun _ _ => Eq.symm).mapError
      · exact congrArg (fun rules => ({ h with basis, rules } : Header)) (h.rules.change_unplaced _)
    · rfl

theorem builtinOf?_unplaced (added : List Rule) : builtinOf? (Rules.unplaced added) = builtinOf? added := by
  rw [builtinOf?, builtinOf?, Rules.unplaced, List.findSome?_map]
  rfl

theorem namesUserType_unplaced (added : List Rule) : namesUserType (Rules.unplaced added) = namesUserType added := by
  rw [namesUserType, namesUserType, Rules.unplaced, List.any_map]
  rfl

/-- **Applying rules to a header.** -/
theorem agreeVia_apply (sample? : Option Mark) (added : List Rule) :
    AgreeVia (unplaced basis) (h.apply sample? added)
      ((h.unplaced basis).apply (sample?.map Mark.unplaced) (Rules.unplaced added)) := by
  rw [apply_eq, apply_eq, builtinOf?_unplaced]
  refine (h.agreeVia_addRules added).bind fun changed _ => ?_
  refine AgreeVia.bind (F := unplaced basis) ?_ fun declared _ => ?_
  · cases builtinOf? added with
    | none => rfl
    | some type => exact changed.agreeVia_declare type
  · rw [linkBounds_unplaced]
    exact declared.linkBounds.agreeVia_fillConstant sample?

theorem agreeVia_annotate (note note' : Mark) (comment? : Option String) :
    AgreeVia (unplaced basis) (h.annotate note comment?) ((h.unplaced basis).annotate note' comment?) := by
  unfold annotate
  change AgreeVia _ _ (if h.isAnnotated then _ else _)
  split
  · trivial
  · rfl

end Header

/-! ## Trees -/

/-- The key, wherever it is written. -/
def PropertyKey.unplaced (key : PropertyKey) : PropertyKey := { key with mark := key.mark.unplaced }

namespace Node

mutual
/-- **The tree, wherever it is written.** -/
def unplaced : Node → Node
  | literal header sample? => literal (header.unplaced default) (sample?.map Mark.unplaced)
  | object header properties => object (header.unplaced default) (unplacedProperties properties)
  | array header items => array (header.unplaced default) (unplacedItems items)
  | mixed header sample? => mixed (header.unplaced default) (sample?.map Mark.unplaced)
  | reference header names => reference (header.unplaced header.basis.unplaced) names

/-- The trees of properties, wherever they are written. -/
def unplacedProperties : List (PropertyKey × Node) → List (PropertyKey × Node)
  | [] => []
  | (key, node) :: rest => (key.unplaced, node.unplaced) :: unplacedProperties rest

/-- The trees of items, wherever they are written. -/
def unplacedItems : List Node → List Node
  | [] => []
  | node :: rest => node.unplaced :: unplacedItems rest
end

variable (node : Node)

/-- A property, wherever it is written. -/
abbrev unplacedProperty (p : PropertyKey × Node) : PropertyKey × Node := (p.1.unplaced, p.2.unplaced)

theorem unplacedProperties_eq (properties : Properties) :
    unplacedProperties properties = properties.map unplacedProperty := by
  induction properties with
  | nil => rfl
  | cons p rest ih => rw [unplacedProperties, ih, List.map_cons]

theorem unplacedItems_eq (items : List Node) : unplacedItems items = items.map unplaced := by
  induction items with
  | nil => rfl
  | cons item rest ih => rw [unplacedItems, ih, List.map_cons]

/-- The basis that is left: that of names in place of a value, which have their text from it. -/
def unplacedBasis : Mark :=
  match node with
  | reference header _ => header.basis.unplaced
  | _ => default

theorem header_unplaced : node.unplaced.header = node.header.unplaced node.unplacedBasis := by cases node <;> rfl

theorem sample?_unplaced : node.unplaced.sample? = node.sample?.map Mark.unplaced := by cases node <;> rfl

theorem withHeader_unplaced {header : Header} (h : header.basis = node.header.basis) :
    node.unplaced.withHeader (header.unplaced node.unplacedBasis) = (node.withHeader header).unplaced := by
  cases node with
  | reference old names =>
    replace h : header.basis = old.basis := h
    simp only [withHeader, unplaced, unplacedBasis, h]
  | literal | object | array | mixed => rfl

/-- **Applying rules to a node.** -/
theorem agreeVia_apply (added : List Rule) :
    AgreeVia unplaced (node.apply added) (node.unplaced.apply (Rules.unplaced added)) := by
  rw [apply, apply, header_unplaced, sample?_unplaced]
  refine (node.header.agreeVia_apply node.sample? added).bind fun header hheader => ?_
  have hbasis : header.basis = node.header.basis := (congrArg Header.basis (Header.eq_rewritten_of_apply hheader) :)
  cases node with
  | literal old sample? =>
    have hor : (header.unplaced default).rules.has .or = header.rules.has .or := header.rules.has_unplaced .or
    simp only [unplaced, Header.builtinOf?_unplaced, Header.namesUserType_unplaced, unplacedBasis, hor]
    split
    · rfl
    · split <;> rfl
  | object | array | mixed | reference => exact agree_ok.2 (withHeader_unplaced _ hbasis)

/-- **Describing a node by a note.** -/
theorem agreeVia_annotate (note note' : Mark) (comment? : Option String) (added : List Rule) :
    AgreeVia unplaced (node.annotate note comment? added)
      (node.unplaced.annotate note' comment? (Rules.unplaced added)) := by
  rw [annotate, annotate, header_unplaced]
  refine (node.header.agreeVia_annotate note note' comment?).bind fun header hheader => ?_
  have hbasis : header.basis = node.header.basis := by
    rw [Header.annotate] at hheader
    split at hheader
    · cases hheader
    · rw [← Except.ok.inj hheader]
  rw [withHeader_unplaced _ hbasis]
  exact agreeVia_apply _ added

end Node

/-! ## Schemas -/

/-- The type, wherever it is written. -/
def TypeEntry.unplaced (entry : TypeEntry) : TypeEntry := ⟨entry.root.unplaced, default, 0⟩

/-- The types, wherever they are written. -/
def Registry.unplaced (types : Registry) : Registry := types.map fun e => (e.1, e.2.unplaced)

/-- **The schema, wherever it is written.** -/
def Schema.unplaced (schema : Schema) : Schema := ⟨schema.root.unplaced, schema.types.unplaced⟩

/-- The unnamed types, wherever they are written. -/
def Unnamed.unplaced (u : Unnamed) : Unnamed := ⟨default, u.owner, u.types.unplaced⟩

/-! ## Open objects and arrays -/

/-- What is read of an object or an array, wherever it is written. -/
def Filling.unplaced : Filling → Filling
  | .object properties key? => .object (properties.map Node.unplacedProperty) (key?.map PropertyKey.unplaced)
  | .array items => .array (items.map Node.unplaced)

namespace OpenNode

/-- The open object or array, wherever it is written. -/
def unplaced (n : OpenNode) : OpenNode := ⟨n.header.unplaced default, n.filling.unplaced⟩

variable (n : OpenNode)

theorem close_unplaced (mark : Mark) : n.unplaced.close default = (n.close mark).unplaced := by
  obtain ⟨header, filling⟩ := n
  cases filling with
  | object properties key? =>
    change Node.object _ _ = Node.object _ (Node.unplacedProperties _)
    rw [Node.unplacedProperties_eq, List.map_reverse]
    rfl
  | array items =>
    change Node.array _ _ = Node.array _ (Node.unplacedItems _)
    rw [Node.unplacedItems_eq, List.map_reverse]
    rfl

theorem takeKey_unplaced (key : PropertyKey) : n.unplaced.takeKey key.unplaced = (n.takeKey key).unplaced := by
  obtain ⟨header, filling⟩ := n
  cases filling <;> rfl

theorem awaitsKey_unplaced : n.unplaced.awaitsKey = n.awaitsKey := by
  obtain ⟨header, filling⟩ := n
  rcases filling with ⟨properties, _ | key⟩ | items <;> rfl

theorem agreeVia_place (node : Node) : AgreeVia unplaced (n.place node) (n.unplaced.place node.unplaced) := by
  obtain ⟨header, filling⟩ := n
  rcases filling with ⟨properties, _ | key⟩ | items
  · trivial
  · have hnames : ((properties.map Node.unplacedProperty).any fun p => p.1.name == key.unplaced.name) =
        properties.any fun p => p.1.name == key.name := List.any_map
    change AgreeVia _ _ (if (List.any (List.map _ properties) _) = true then _ else _)
    rw [hnames, place]
    dsimp only
    split
    · trivial
    · rfl
  · rfl

/-- Changing the value completed last. -/
theorem changeLast?_unplaced (change change' : Node → Outcome Node)
    (h : ∀ node : Node, AgreeVia Node.unplaced (change node) (change' node.unplaced)) :
    Option.Rel (AgreeVia unplaced) (n.changeLast? change) (n.unplaced.changeLast? change') := by
  obtain ⟨header, filling⟩ := n
  rcases filling with ⟨_ | ⟨⟨key, node⟩, rest⟩, key?⟩ | ⟨_ | ⟨node, rest⟩⟩
  · exact .none
  · exact .some ((h node).map fun changed _ hsame => hsame ▸ rfl)
  · exact .none
  · exact .some ((h node).map fun changed _ hsame => hsame ▸ rfl)

end OpenNode

/-! ## The loader -/

namespace Loader

/-- What has been read, wherever it is written.  The note that is being read is left out. -/
def unplaced (l : Loader) : Loader where
  openNodes := l.openNodes.map OpenNode.unplaced
  root? := l.root?.map Node.unplaced
  target := l.target
  unnamed := l.unnamed.unplaced

variable (l : Loader)

theorem agreeVia_place (node : Node) : AgreeVia unplaced (l.place node) (l.unplaced.place node.unplaced) := by
  obtain ⟨openNodes, root?, target, note?, unnamed⟩ := l
  cases openNodes with
  | nil => rfl
  | cons top rest => exact (top.agreeVia_place node).bind fun _ _ => rfl

theorem enter_unplaced (mark : Mark) (type : JsonType) (filling : Filling) :
    l.unplaced.enter default type filling.unplaced = (l.enter mark type filling).unplaced := rfl

theorem agreeVia_leave (mark : Mark) : AgreeVia unplaced (l.leave mark) (l.unplaced.leave default) := by
  obtain ⟨openNodes, root?, target, note?, unnamed⟩ := l
  cases openNodes with
  | nil => trivial
  | cons top rest =>
    change AgreeVia _ _ (Loader.place _ (top.unplaced.close default))
    rw [OpenNode.close_unplaced _ mark]
    exact agreeVia_place { openNodes := rest, root?, target, note?, unnamed } (top.close mark)

theorem takeKey_unplaced (key : PropertyKey) : l.unplaced.takeKey key.unplaced = (l.takeKey key).unplaced := by
  obtain ⟨openNodes, root?, target, note?, unnamed⟩ := l
  cases openNodes with
  | nil => rfl
  | cons top rest =>
    change { unplaced { openNodes := top :: rest, root?, target, note?, unnamed } with
      openNodes := top.unplaced.takeKey key.unplaced :: rest.map OpenNode.unplaced } = _
    rw [OpenNode.takeKey_unplaced]
    rfl

theorem agreeVia_takeName (mark : Mark) : AgreeVia unplaced (l.takeName mark) (l.unplaced.takeName mark.unplaced) := by
  have hawaits : l.unplaced.openNodes.head?.any OpenNode.awaitsKey = l.openNodes.head?.any OpenNode.awaitsKey := by
    change (l.openNodes.map OpenNode.unplaced).head?.any _ = _
    cases l.openNodes with
    | nil => rfl
    | cons top rest => exact top.awaitsKey_unplaced
  rw [takeName, takeName, hawaits, Mark.bytes_unplaced]
  split
  · refine AgreeVia.bind (F := id) ?_ fun name _ => ?_
    · exact ((agree_refl (Literal.string mark.bytes)).mono fun _ _ => Eq.symm).mapError
    · exact agree_ok.2 (l.takeKey_unplaced { name, mark })
  · rfl

/-- **Describing what a note describes.** -/
theorem agreeVia_describe {note note' : Note} (htext : note.text? = note'.text?) (added : List Rule) :
    AgreeVia unplaced (l.describe note added) (l.unplaced.describe note' (Rules.unplaced added)) := by
  obtain ⟨mark, rules?, text?⟩ := note
  obtain ⟨mark', rules?', text?'⟩ := note'
  obtain rfl : text? = text?' := htext
  have hannotate : ∀ node : Node, AgreeVia Node.unplaced (node.annotate mark text? added)
      (node.unplaced.annotate mark' text? (Rules.unplaced added)) :=
    fun node => node.agreeVia_annotate mark mark' text? added
  obtain ⟨openNodes, root?, target, note?, unnamed⟩ := l
  cases target with
  | nothing => rfl
  | root =>
    cases root? with
    | none => trivial
    | some root => exact (hannotate root).bind fun _ _ => rfl
  | top =>
    cases openNodes with
    | nil => trivial
    | cons top rest =>
      refine (top.header.agreeVia_annotate mark mark' text?).bind fun noted _ => ?_
      exact (noted.agreeVia_apply none added).bind fun _ _ => rfl
  | lastChild =>
    cases openNodes with
    | nil => trivial
    | cons top rest =>
      have hlast := top.changeLast?_unplaced (fun node => node.annotate mark text? added)
        (fun node => node.annotate mark' text? (Rules.unplaced added)) hannotate
      simp only [describe, unplaced, List.map_cons]
      revert hlast
      generalize OpenNode.changeLast? _ _ = changed
      generalize OpenNode.changeLast? _ _ = changed'
      intro hlast
      cases hlast with
      | none => trivial
      | some hchanged => exact hchanged.bind fun _ _ => rfl

end Loader
end ExampleSchema
