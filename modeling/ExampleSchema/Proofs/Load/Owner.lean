import ExampleSchema.Proofs.Depth
import ExampleSchema.Proofs.Rules
import ExampleSchema.Schema.References

/-!
# Documents of another owner

The unnamed types of a document are called after its owner.  Apart from these names, what a document loads as does
not depend on the owner: a longer name of the owner makes their names longer, in the registry and in the unions that
refer to them, and nothing else happens.

* `qualifyName`: a name under an owner with a longer name.
* `Constraint.qualify`, `Header.qualify`, `Node.qualify`, `Unnamed.qualify`, `Loader.qualify`, `Schema.qualify`: the
  same in everything that has names, with a lemma for each function that puts them together.
* `Schema.load_qualify`: what a document loads as under an owner with a longer name.
* `Schema.userTypes_load`: the types of the user that a document refers to do not depend on its owner.
-/

namespace ExampleSchema

variable {pre : String}

/-! ## Names -/

/-- What a type is called if the name of its owner gets longer.  Types of the user have no owner. -/
def qualifyName (pre name : String) : String := if '#' ∈ name.toList then pre ++ name else name

theorem qualifyName_nameOf (pre owner : String) (number : Nat) :
    qualifyName pre (Unnamed.nameOf owner number) = Unnamed.nameOf (pre ++ owner) number := by
  rw [qualifyName, if_pos (by simp [Unnamed.nameOf])]
  simp [Unnamed.nameOf, String.append_assoc]

/-- Types of the user keep their names. -/
theorem qualifyName_of_isUserTypeName {name : String} (h : isUserTypeName name = true) :
    qualifyName pre name = name :=
  if_neg (Unnamed.hash_notMem_of_isUserTypeName h)

/-- No type becomes one of the user. -/
theorem isUserTypeName_qualifyName (pre name : String) : isUserTypeName (qualifyName pre name) = isUserTypeName name := by
  by_cases hhash : '#' ∈ name.toList
  · have hlong : '#' ∈ (qualifyName pre name).toList := by
      rw [qualifyName, if_pos hhash]
      simp [hhash]
    have hname := mt Unnamed.hash_notMem_of_isUserTypeName (not_not_intro hhash)
    have hname' := mt Unnamed.hash_notMem_of_isUserTypeName (not_not_intro hlong)
    rw [Bool.not_eq_true] at hname hname'
    rw [hname, hname']
  · rw [qualifyName, if_neg hhash]

/-- Different names stay different. -/
theorem qualifyName_injective (pre : String) : Function.Injective (qualifyName pre) := by
  intro name name' h
  by_cases hhash : '#' ∈ name.toList <;> by_cases hhash' : '#' ∈ name'.toList
  · rw [qualifyName, qualifyName, if_pos hhash, if_pos hhash'] at h
    simpa using h
  · rw [qualifyName, qualifyName, if_pos hhash, if_neg hhash'] at h
    exact absurd (by simp [← h, hhash]) hhash'
  · rw [qualifyName, qualifyName, if_neg hhash, if_pos hhash'] at h
    exact absurd (by simp [h, hhash']) hhash
  · rwa [qualifyName, qualifyName, if_neg hhash, if_neg hhash'] at h

/-- Names of types of the user stay as they are. -/
theorem map_qualifyName {names : List String} (h : ∀ name ∈ names, isUserTypeName name = true) :
    names.map (qualifyName pre) = names :=
  (List.map_congr_left fun name hname => qualifyName_of_isUserTypeName (h name hname)).trans (List.map_id names)

/-- The names in a shortcut are those of types of the user. -/
theorem Shortcut.map_qualifyName {mark : Mark} {names : List String} (h : Shortcut.names mark = .ok names) :
    names.map (qualifyName pre) = names :=
  ExampleSchema.map_qualifyName fun _ hname => isUserTypeName_of_mem h hname

/-! ## Rules -/

/-- The constraint under an owner with a longer name.  Only unions refer to unnamed types. -/
def Constraint.qualify (pre : String) : Constraint → Constraint
  | .types names => .types (names.map (qualifyName pre))
  | c => c

namespace Constraint

@[simp] theorem kind_qualify (c : Constraint) : (c.qualify pre).kind = c.kind := by cases c <;> rfl

theorem qualify_of_kind {c : Constraint} (h : c.kind ≠ .types) : c.qualify pre = c := by
  cases c <;> first | rfl | exact (h rfl).elim

end Constraint

/-- The rules under an owner with a longer name. -/
def Rules.qualify (pre : String) (rules : Rules) : Rules := rules.change (Constraint.qualify pre)

namespace Rules

variable (pre) (rules : Rules)

theorem constraint?_qualify (kind : ConstraintKind) :
    (rules.qualify pre).constraint? kind = (rules.constraint? kind).map (Constraint.qualify pre) :=
  constraint?_change_of_kind (fun _ => Constraint.kind_qualify _) kind

@[simp] theorem has_qualify (kind : ConstraintKind) : (rules.qualify pre).has kind = rules.has kind := by
  have hfound := congrArg Option.isSome (rules.constraint?_qualify pre kind)
  simpa [constraint?, has] using hfound

@[simp] theorem flag_qualify (kind : ConstraintKind) : (rules.qualify pre).flag kind = rules.flag kind := by
  rw [flag, flag, constraint?_qualify]
  cases rules.constraint? kind with
  | none => rfl
  | some c => cases c <;> rfl

/-- Changing rules other than unions. -/
theorem change_qualify {f : Constraint → Constraint} (hf : ∀ c, f (c.qualify pre) = (f c).qualify pre) :
    (rules.qualify pre).change f = Rules.qualify pre (rules.change f) := by
  rw [qualify, qualify, change_change, change_change]
  exact congrArg rules.change (funext hf)

theorem add_qualify (c : Constraint) (mark? : Option Mark) :
    (rules.qualify pre).add (c.qualify pre) mark? = Rules.qualify pre <$> rules.add c mark? := by
  rw [add, add, has_qualify, Constraint.kind_qualify]
  split
  · rfl
  · exact congrArg Except.ok (by simp [qualify, change])

end Rules

/-! ## Headers -/

/-- The header under an owner with a longer name. -/
def Header.qualify (pre : String) (h : Header) : Header := { h with rules := h.rules.qualify pre }

namespace Header

variable (pre) (h : Header)

theorem addRules_qualify (added : List Rule) :
    (h.qualify pre).addRules (Rules.qualify pre added) = qualify pre <$> h.addRules added := by
  refine Except.bind_eq_map_bind (r := Rules.qualify pre) ?_ fun _ _ => rfl
  exact Except.foldlM_map_eq_map (fun rules r => rules.add_qualify pre r.constraint r.mark?) added h.rules

theorem declare_qualify (type : BuiltinType) :
    (h.qualify pre).declare type = qualify pre <$> h.declare type := by
  unfold declare
  cases type.format? with
  | none => rfl
  | some format =>
    refine Except.bind_eq_map_bind (r := Rules.qualify pre) ?_ fun _ _ => rfl
    exact h.rules.add_qualify pre (.format format) none

/-- Changing rules other than unions. -/
theorem change_qualify {f : Constraint → Constraint} (hf : ∀ c, f (c.qualify pre) = (f c).qualify pre) :
    { h.qualify pre with rules := (h.qualify pre).rules.change f } = qualify pre { h with rules := h.rules.change f } :=
  congrArg (fun rules => { h with rules }) (h.rules.change_qualify pre hf)

theorem linkBounds_qualify : (h.qualify pre).linkBounds = h.linkBounds.qualify pre := by
  have hflag : ∀ kind, (h.qualify pre).rules.flag kind = h.rules.flag kind := h.rules.flag_qualify pre
  unfold linkBounds
  simp only [hflag]
  exact h.change_qualify pre fun c => by cases c <;> rfl

theorem isConstant_qualify : (h.qualify pre).isConstant = h.isConstant := by
  have hrules : (h.qualify pre).rules = h.rules.qualify pre := rfl
  rw [isConstant, isConstant, hrules, Rules.constraint?_qualify]
  cases h.rules.constraint? .const with
  | none => rfl
  | some c => cases c <;> rfl

theorem fillConstant_qualify (sample? : Option Mark) :
    (h.qualify pre).fillConstant sample? = qualify pre <$> h.fillConstant sample? := by
  cases sample? with
  | none => rfl
  | some sample =>
    rw [fillConstant, fillConstant, isConstant_qualify]
    dsimp only
    split
    · refine Except.bind_eq_map_bind (r := id) (id_map _).symm fun key _ => congrArg Except.ok ?_
      exact h.change_qualify pre fun c => by cases c <;> rfl
    · rfl

theorem builtinOf?_qualify (added : List Rule) : builtinOf? (Rules.qualify pre added) = builtinOf? added := by
  rw [builtinOf?, builtinOf?, Rules.qualify, Rules.change, List.findSome?_map]
  congr 1
  funext r
  obtain ⟨c, mark?⟩ := r
  cases c <;> rfl

theorem namesUserType_qualify (added : List Rule) :
    namesUserType (Rules.qualify pre added) = namesUserType added := by
  rw [namesUserType, namesUserType, Rules.qualify, Rules.change, List.any_map]
  congr 1
  funext r
  obtain ⟨c, mark?⟩ := r
  cases c <;> rfl

/-- **Applying rules to a header.** -/
theorem apply_qualify (sample? : Option Mark) (added : List Rule) :
    (h.qualify pre).apply sample? (Rules.qualify pre added) = qualify pre <$> h.apply sample? added := by
  rw [apply_eq, apply_eq, builtinOf?_qualify]
  refine Except.bind_eq_map_bind (h.addRules_qualify pre added) fun changed _ => ?_
  refine Except.bind_eq_map_bind (r := qualify pre) ?_ fun declared _ => ?_
  · cases builtinOf? added with
    | none => rfl
    | some type => exact changed.declare_qualify pre type
  · rw [linkBounds_qualify, fillConstant_qualify]

theorem annotate_qualify (note : Mark) (comment? : Option String) :
    (h.qualify pre).annotate note comment? = qualify pre <$> h.annotate note comment? := by
  unfold annotate
  change (if h.isAnnotated then _ else _) = _
  split <;> rfl

end Header

/-! ## Nodes -/

namespace Node

mutual
/-- The tree under an owner with a longer name. -/
def qualify (pre : String) : Node → Node
  | literal header sample? => literal (header.qualify pre) sample?
  | object header properties => object (header.qualify pre) (qualifyProperties pre properties)
  | array header items => array (header.qualify pre) (qualifyItems pre items)
  | mixed header sample? => mixed (header.qualify pre) sample?
  | reference header names => reference (header.qualify pre) names

/-- The trees of properties under an owner with a longer name. -/
def qualifyProperties (pre : String) : List (PropertyKey × Node) → List (PropertyKey × Node)
  | [] => []
  | (key, node) :: rest => (key, node.qualify pre) :: qualifyProperties pre rest

/-- The trees of items under an owner with a longer name. -/
def qualifyItems (pre : String) : List Node → List Node
  | [] => []
  | node :: rest => node.qualify pre :: qualifyItems pre rest
end

variable (pre) (node : Node)

theorem qualifyProperties_eq (properties : Properties) :
    qualifyProperties pre properties = properties.map fun p => (p.1, p.2.qualify pre) := by
  induction properties with
  | nil => rfl
  | cons p rest ih => rw [qualifyProperties, ih, List.map_cons]

theorem qualifyItems_eq (items : List Node) : qualifyItems pre items = items.map (qualify pre) := by
  induction items with
  | nil => rfl
  | cons item rest ih => rw [qualifyItems, ih, List.map_cons]

@[simp] theorem header_qualify : (node.qualify pre).header = node.header.qualify pre := by cases node <;> rfl

@[simp] theorem sample?_qualify : (node.qualify pre).sample? = node.sample? := by cases node <;> rfl

theorem withHeader_qualify (header : Header) :
    (node.qualify pre).withHeader (header.qualify pre) = (node.withHeader header).qualify pre := by
  cases node <;> rfl

theorem children_qualify : (node.qualify pre).children = node.children.map (qualify pre) := by
  cases node with
  | object header properties =>
    simp only [qualify, children, qualifyProperties_eq, List.map_map]
    rfl
  | array header items => exact qualifyItems_eq pre items
  | literal | mixed | reference => rfl

/-- The nodes of a tree keep their places. -/
theorem subnodes_qualify : (node.qualify pre).subnodes = node.subnodes.map (qualify pre) := by
  induction node using inductionOn with
  | step node ih =>
    rw [subnodes_eq, subnodes_eq node, List.map_cons, children_qualify, List.flatMap_map, List.map_flatMap]
    exact congrArg _ (List.flatMap_congr ih)

/-- The types of the user that a node refers to keep their names. -/
theorem userNames_qualify :
    (node.qualify pre).referredNames.filter isUserTypeName = node.referredNames.filter isUserTypeName := by
  have hrules : (node.qualify pre).rules = node.rules.qualify pre := by
    rw [rules, header_qualify]
    rfl
  have hunion : (node.rules.qualify pre).unionNames = node.rules.unionNames.map (qualifyName pre) := by
    rw [Rules.unionNames, Rules.unionNames, Rules.constraint?_qualify]
    cases node.rules.constraint? .types with
    | none => rfl
    | some c => cases c <;> rfl
  have huser : (node.rules.qualify pre).userType? = node.rules.userType? := by
    rw [Rules.userType?, Rules.userType?, Rules.constraint?_qualify]
    cases node.rules.constraint? .type with
    | none => rfl
    | some c => cases c <;> rfl
  have hobject : namesInObjectRules (node.rules.qualify pre) = namesInObjectRules node.rules := by
    rw [namesInObjectRules, namesInObjectRules, Rules.constraint?_qualify, Rules.constraint?_qualify]
    congr 1
    · cases node.rules.constraint? .allOf with
      | none => rfl
      | some c => cases c <;> rfl
    · cases node.rules.constraint? .additionalProperties with
      | none => rfl
      | some c => cases c <;> rfl
  have hshape : (node.qualify pre).namesInShape = node.namesInShape := by
    cases node with
    | object header properties =>
      simp only [qualify, namesInShape, qualifyProperties_eq, List.filter_map, List.map_map]
      rfl
    | literal | array | mixed | reference => rfl
  have hnames : (node.rules.unionNames.map (qualifyName pre)).filter isUserTypeName =
      node.rules.unionNames.filter isUserTypeName := by
    have hsame : isUserTypeName ∘ qualifyName pre = isUserTypeName := funext (isUserTypeName_qualifyName pre)
    rw [List.filter_map, hsame]
    exact map_qualifyName fun name hname => (List.mem_filter.1 hname).2
  rw [referredNames, referredNames, hrules, hobject, hshape, Rules.typeNames, Rules.typeNames, huser, hunion]
  simp only [List.filter_append, hnames]

/-- **Applying rules to a node.** -/
theorem apply_qualify (added : List Rule) :
    (node.qualify pre).apply (Rules.qualify pre added) = qualify pre <$> node.apply added := by
  rw [apply, apply, header_qualify, sample?_qualify]
  refine Except.bind_eq_map_bind (node.header.apply_qualify pre node.sample? added) fun header _ => ?_
  cases node with
  | literal old sample? =>
    simp only [qualify, Header.builtinOf?_qualify, Header.namesUserType_qualify]
    change (if ((header.rules.qualify pre).has .or || _) = true then _ else _) = _
    rw [Rules.has_qualify]
    split
    · rfl
    · split <;> rfl
  | object | array | mixed | reference => rfl

/-- **Describing a node by a note.** -/
theorem annotate_qualify (note : Mark) (comment? : Option String) (added : List Rule) :
    (node.qualify pre).annotate note comment? (Rules.qualify pre added) =
      qualify pre <$> node.annotate note comment? added := by
  rw [annotate, annotate, header_qualify]
  refine Except.bind_eq_map_bind (node.header.annotate_qualify pre note comment?) fun header _ => ?_
  rw [withHeader_qualify, apply_qualify]

end Node

/-! ## Registries -/

/-- The registry under an owner with a longer name. -/
def Registry.qualify (pre : String) (types : Registry) : Registry :=
  types.map fun e => (qualifyName pre e.1, { e.2 with root := e.2.root.qualify pre })

/-- A type is registered among others under an owner with a longer name. -/
theorem Registry.insert_qualify (pre : String) (types : Registry) (name : String) (entry : TypeEntry) :
    Catalog.insert (types.qualify pre) (qualifyName pre name) { entry with root := entry.root.qualify pre } =
      Registry.qualify pre (Catalog.insert types name entry) := by
  induction types with
  | nil => rfl
  | cons e rest ih =>
    change (if qualifyName pre name == qualifyName pre e.1 then _ else _) =
      Registry.qualify pre (if name == e.1 then _ else _)
    rw [(qualifyName_injective pre).beq_eq]
    split
    · rfl
    · exact congrArg _ ih

namespace Unnamed

/-- The unnamed types under an owner with a longer name. -/
def qualify (pre : String) (u : Unnamed) : Unnamed :=
  { u with owner := pre ++ u.owner, types := u.types.qualify pre }

theorem register_qualify (pre : String) (u : Unnamed) (root : Node) (start : Nat) :
    (u.qualify pre).register (root.qualify pre) start =
      Prod.map (qualifyName pre) (qualify pre) (u.register root start) := by
  have hlength : (u.qualify pre).types.length = u.types.length := List.length_map _
  have hname : (pre ++ u.owner) ++ "#" ++ toString (u.types.length + 1) =
      qualifyName pre (u.owner ++ "#" ++ toString (u.types.length + 1)) :=
    (qualifyName_nameOf pre u.owner (u.types.length + 1)).symm
  rw [register, hlength]
  dsimp only [qualify]
  rw [hname, Registry.insert_qualify pre u.types _ { root, source := u.source, start }]
  rfl

end Unnamed

/-! ## Notes -/

namespace RuleValue

variable (pre)

theorem memberNode_qualify (type : TypeName) (basis : Mark) :
    (memberNode type basis).qualify pre = memberNode type basis := by
  rw [memberNode.eq_def]
  split <;> rfl

theorem memberOfRules_qualify (mark : Mark) (added : List Rule) :
    memberOfRules mark (Rules.qualify pre added) = Node.qualify pre <$> memberOfRules mark added := by
  have htype : typeOf? (Rules.qualify pre added) = typeOf? added := by
    rw [typeOf?, typeOf?, Rules.qualify, Rules.change, List.findSome?_map]
    congr 1
    funext r
    obtain ⟨c, mark?⟩ := r
    cases c <;> rfl
  have hstart : (memberStart (typeOf? added) mark).qualify pre = memberStart (typeOf? added) mark := by
    cases typeOf? added with
    | none => rfl
    | some type => exact memberNode_qualify pre type mark
  rw [memberOfRules_eq, memberOfRules_eq, htype]
  refine Except.bind_eq_map_bind (r := Node.qualify pre) ?_ fun node _ => ?_
  · rw [← Node.apply_qualify, hstart]
  · have hunion : (node.qualify pre).rules.has .or = node.rules.has .or := by
      rw [Node.rules, Node.header_qualify]
      exact node.rules.has_qualify pre .or
    rw [hunion, Node.header_qualify]
    split
    · exact congrArg Except.ok (node.withHeader_qualify pre { node.header with jsonType := .mixed })
    · rfl

theorem memberOfName_qualify (u : Unnamed) (mark : Mark) :
    memberOfName (u.qualify pre) mark = Prod.map (qualifyName pre) (Unnamed.qualify pre) <$> memberOfName u mark := by
  refine Except.bind_eq_map_bind (r := id) (id_map _).symm fun name _ => ?_
  dsimp only [id]
  split
  · next huser => exact congrArg Except.ok (Prod.ext (qualifyName_of_isUserTypeName huser).symm rfl)
  · split
    · rfl
    · next type _ =>
      have hrule : ∀ rule : Rule, rule.kind ≠ .types → Rules.qualify pre [rule] = [rule] := by
        intro rule hrule
        exact congrArg (fun c => [({ rule with constraint := c } : Rule)]) (Constraint.qualify_of_kind hrule)
      refine Except.bind_eq_map_bind (r := Node.qualify pre) ?_ fun node _ =>
        congrArg Except.ok (u.register_qualify pre node mark.start)
      rw [← Node.apply_qualify, memberNode_qualify, hrule _ (by simp [Rule.kind, Constraint.kind])]

theorem shortcutNames_qualify (mark : Mark) (u : Unnamed) :
    (do return (← Shortcut.names mark, u.qualify pre) : Outcome (List String × Unnamed)) =
      Prod.map (List.map (qualifyName pre)) (Unnamed.qualify pre) <$> do return (← Shortcut.names mark, u) := by
  refine Except.bind_eq_map_bind (r := id) (id_map _).symm fun names hnames => congrArg Except.ok ?_
  exact Prod.ext (Shortcut.map_qualifyName hnames).symm rfl

mutual
/-- **What the rules of a note become** under an owner with a longer name. -/
theorem constraintsOf_qualify (u : Unnamed) : ∀ rules : List (String × Mark × RuleValue),
    constraintsOf (u.qualify pre) rules =
      Prod.map (Rules.qualify pre) (Unnamed.qualify pre) <$> constraintsOf u rules
  | [] => by
    rw [constraintsOf, constraintsOf]
    rfl
  | (name, key, value) :: rest => by
    rw [constraintsOf, constraintsOf]
    refine Except.bind_eq_map_bind (r := Prod.map (List.map (Constraint.qualify pre)) (Unnamed.qualify pre)) ?_ ?_
    · refine Eq.trans ?_ (Except.mapError_map _ _ _)
      refine congrArg (Except.mapError _) ?_
      split
      · exact Except.bind_eq_map_bind (unionNames_qualify name u value) fun _ _ => rfl
      · refine Except.bind_eq_map_bind (r := id) (id_map _).symm fun c hc => congrArg Except.ok ?_
        have hsame : c.qualify pre = c := Constraint.qualify_of_kind (kind_ne_of_constraint_eq_ok hc).1
        exact Prod.ext (congrArg (fun c => [c]) hsame.symm) rfl
    · intro first _
      refine Except.bind_eq_map_bind (constraintsOf_qualify first.2 rest) fun others _ => congrArg Except.ok ?_
      refine Prod.ext ?_ rfl
      simp [Rules.qualify, Rules.change]

theorem unionNames_qualify (rule : String) (u : Unnamed) : ∀ value : RuleValue,
    value.unionNames rule (u.qualify pre) =
      Prod.map (List.map (qualifyName pre)) (Unnamed.qualify pre) <$> value.unionNames rule u
  | .shortcut mark => by
    rw [unionNames, unionNames]
    exact shortcutNames_qualify pre mark u
  | .array mark items => by
    rw [unionNames, unionNames]
    split
    · rfl
    · exact memberNames_qualify rule u items
  | .literal mark => by
    rw [unionNames, unionNames]
    rfl
  | .object mark rules => by
    rw [unionNames, unionNames]
    rfl

theorem memberNames_qualify (rule : String) (u : Unnamed) : ∀ items : List RuleValue,
    memberNames rule (u.qualify pre) items =
      Prod.map (List.map (qualifyName pre)) (Unnamed.qualify pre) <$> memberNames rule u items
  | [] => by
    rw [memberNames, memberNames]
    rfl
  | item :: rest => by
    rw [memberNames, memberNames]
    refine Except.bind_eq_map_bind (memberNamesOf_qualify rule u item) fun first _ => ?_
    refine Except.bind_eq_map_bind (memberNames_qualify rule first.2 rest) fun others _ => congrArg Except.ok ?_
    exact Prod.ext (List.map_append ..).symm rfl

theorem memberNamesOf_qualify (rule : String) (u : Unnamed) : ∀ item : RuleValue,
    item.memberNamesOf rule (u.qualify pre) =
      Prod.map (List.map (qualifyName pre)) (Unnamed.qualify pre) <$> item.memberNamesOf rule u
  | .shortcut mark => by
    rw [memberNamesOf, memberNamesOf]
    exact shortcutNames_qualify pre mark u
  | .object mark rules => by
    rw [memberNamesOf, memberNamesOf]
    split
    · refine Except.bind_eq_map_bind (constraintsOf_qualify u rules) fun added _ => ?_
      refine Except.bind_eq_map_bind (memberOfRules_qualify pre mark added.1) fun node _ => congrArg Except.ok ?_
      exact congrArg (fun x => ([x.1], x.2)) (added.2.register_qualify pre node mark.start)
    · rfl
  | .literal mark => by
    rw [memberNamesOf, memberNamesOf]
    split
    · exact Except.bind_eq_map_bind (memberOfName_qualify pre u mark) fun _ _ => rfl
    · rfl
  | .array mark items => by
    rw [memberNamesOf, memberNamesOf]
    rfl
end

end RuleValue

/-! ## Open objects and arrays -/

/-- What is read of an object or an array under an owner with a longer name. -/
def Filling.qualify (pre : String) : Filling → Filling
  | .object properties key? => .object (properties.map fun p => (p.1, p.2.qualify pre)) key?
  | .array items => .array (items.map (Node.qualify pre))

namespace OpenNode

/-- An open object or array under an owner with a longer name. -/
def qualify (pre : String) (n : OpenNode) : OpenNode :=
  { header := n.header.qualify pre, filling := n.filling.qualify pre }

variable (pre) (n : OpenNode)

theorem close_qualify (mark : Mark) : (n.qualify pre).close mark = (n.close mark).qualify pre := by
  obtain ⟨header, filling⟩ := n
  cases filling with
  | object properties key? =>
    change Node.object _ _ = Node.object _ (Node.qualifyProperties pre _)
    rw [Node.qualifyProperties_eq, List.map_reverse]
    rfl
  | array items =>
    change Node.array _ _ = Node.array _ (Node.qualifyItems pre _)
    rw [Node.qualifyItems_eq, List.map_reverse]
    rfl

theorem takeKey_qualify (key : PropertyKey) : (n.qualify pre).takeKey key = (n.takeKey key).qualify pre := by
  obtain ⟨header, filling⟩ := n
  cases filling <;> rfl

theorem awaitsKey_qualify : (n.qualify pre).awaitsKey = n.awaitsKey := by
  obtain ⟨header, filling⟩ := n
  rcases filling with ⟨properties, _ | key⟩ | items <;> rfl

theorem place_qualify (node : Node) : (n.qualify pre).place (node.qualify pre) = qualify pre <$> n.place node := by
  obtain ⟨header, filling⟩ := n
  rcases filling with ⟨properties, _ | key⟩ | items
  · have hbasis : (node.qualify pre).basis = node.basis := by rw [Node.basis, Node.header_qualify]; rfl
    exact congrArg (fun mark => Except.error ((Cause.fault .valueWithoutKey).on mark)) hbasis
  · have hnames : ((properties.map fun p => (p.1, p.2.qualify pre)).any fun p => p.1.name == key.name) =
        properties.any fun p => p.1.name == key.name := List.any_map
    change (if (List.any (List.map _ properties) _) = true then _ else _) = _
    rw [hnames, place]
    dsimp only
    split <;> rfl
  · rfl

/-- Changing the value completed last. -/
theorem changeLast?_qualify (change change' : Node → Outcome Node)
    (h : ∀ node : Node, change' (node.qualify pre) = Node.qualify pre <$> change node) :
    (n.qualify pre).changeLast? change' = (n.changeLast? change).map fun changed => qualify pre <$> changed := by
  obtain ⟨header, filling⟩ := n
  rcases filling with ⟨_ | ⟨⟨key, node⟩, rest⟩, key?⟩ | ⟨_ | ⟨node, rest⟩⟩
  · rfl
  · refine congrArg some ?_
    rw [h node]
    cases change node <;> rfl
  · rfl
  · refine congrArg some ?_
    rw [h node]
    cases change node <;> rfl

end OpenNode

/-! ## The loader -/

namespace Loader

/-- The loader under an owner with a longer name. -/
def qualify (pre : String) (l : Loader) : Loader :=
  { l with
    openNodes := l.openNodes.map (OpenNode.qualify pre), root? := l.root?.map (Node.qualify pre),
    unnamed := l.unnamed.qualify pre }

variable (pre) (l : Loader)

theorem place_qualify (node : Node) : (l.qualify pre).place (node.qualify pre) = qualify pre <$> l.place node := by
  obtain ⟨openNodes, root?, target, note?, unnamed⟩ := l
  cases openNodes with
  | nil => rfl
  | cons top rest => exact Except.bind_eq_map_bind (top.place_qualify pre node) fun _ _ => rfl

theorem leave_qualify (mark : Mark) : (l.qualify pre).leave mark = qualify pre <$> l.leave mark := by
  obtain ⟨openNodes, root?, target, note?, unnamed⟩ := l
  cases openNodes with
  | nil => rfl
  | cons top rest =>
    change Loader.place _ ((top.qualify pre).close mark) = _
    rw [OpenNode.close_qualify]
    exact place_qualify pre { openNodes := rest, root?, target, note?, unnamed } (top.close mark)

theorem takeKey_qualify (key : PropertyKey) : (l.qualify pre).takeKey key = (l.takeKey key).qualify pre := by
  obtain ⟨openNodes, root?, target, note?, unnamed⟩ := l
  cases openNodes with
  | nil => rfl
  | cons top rest =>
    change { qualify pre { openNodes := top :: rest, root?, target, note?, unnamed } with
      openNodes := (top.qualify pre).takeKey key :: rest.map (OpenNode.qualify pre) } = _
    rw [OpenNode.takeKey_qualify]
    rfl

theorem takeName_qualify (mark : Mark) : (l.qualify pre).takeName mark = qualify pre <$> l.takeName mark := by
  have hawaits : (l.qualify pre).openNodes.head?.any OpenNode.awaitsKey = l.openNodes.head?.any OpenNode.awaitsKey := by
    change (l.openNodes.map (OpenNode.qualify pre)).head?.any _ = _
    cases l.openNodes with
    | nil => rfl
    | cons top rest => exact top.awaitsKey_qualify pre
  rw [takeName, takeName, hawaits]
  split
  · exact Except.bind_eq_map_bind (r := id) (id_map _).symm fun name _ =>
      congrArg Except.ok (l.takeKey_qualify pre _)
  · rfl

theorem shortcutNode_qualify (mark : Mark) : Shortcut.node mark = Node.qualify pre <$> Shortcut.node mark := by
  refine Except.bind_eq_map_bind (r := id) (id_map _).symm fun names hnames => ?_
  have hrules : Rules.qualify pre (Shortcut.rules mark names) = Shortcut.rules mark names := by
    have hsame : names.map (qualifyName pre) = names := Shortcut.map_qualifyName hnames
    rw [Shortcut.rules.eq_def]
    split
    · rfl
    · simp [Rules.qualify, Rules.change, Constraint.qualify, hsame]
  have hheader := Header.addRules_qualify pre { jsonType := .mixed, basis := mark } (Shortcut.rules mark names)
  rw [hrules] at hheader
  exact Except.bind_eq_map_bind hheader fun _ _ => rfl

/-! ### Notes -/

theorem describe_qualify (note : Note) (added : List Rule) :
    (l.qualify pre).describe note (Rules.qualify pre added) = qualify pre <$> l.describe note added := by
  have hannotate : ∀ node : Node, (node.qualify pre).annotate note.mark note.text? (Rules.qualify pre added) =
      Node.qualify pre <$> node.annotate note.mark note.text? added :=
    fun node => node.annotate_qualify pre note.mark note.text? added
  obtain ⟨openNodes, root?, target, note?, unnamed⟩ := l
  cases target with
  | nothing => rfl
  | root =>
    cases root? with
    | none => rfl
    | some root => exact Except.bind_eq_map_bind (hannotate root) fun _ _ => rfl
  | top =>
    cases openNodes with
    | nil => rfl
    | cons top rest =>
      refine Except.bind_eq_map_bind (top.header.annotate_qualify pre note.mark note.text?) fun noted _ => ?_
      exact Except.bind_eq_map_bind (noted.apply_qualify pre none added) fun _ _ => rfl
  | lastChild =>
    cases openNodes with
    | nil => rfl
    | cons top rest =>
      have hlast := top.changeLast?_qualify pre (fun node => node.annotate note.mark note.text? added)
        (fun node => node.annotate note.mark note.text? (Rules.qualify pre added)) hannotate
      simp only [describe, qualify, List.map_cons, hlast]
      cases top.changeLast? fun node => node.annotate note.mark note.text? added with
      | none => rfl
      | some changed => exact Except.bind_eq_map_bind rfl fun _ _ => rfl

/-- **Applying a note.** -/
theorem applyNote_qualify (note : Note) : (l.qualify pre).applyNote note = qualify pre <$> l.applyNote note := by
  rw [applyNote, applyNote]
  split
  · rfl
  · exact l.describe_qualify pre note []
  · next rules _ =>
    change (if l.target = .nothing then _ else _) = _
    split
    · rfl
    · refine Except.bind_eq_map_bind (RuleValue.constraintsOf_qualify pre l.unnamed rules) fun built _ => ?_
      exact describe_qualify pre { l with unnamed := built.2 } note built.1

/-! ### Events -/

theorem addEvent_qualify (mark : Mark) : (l.qualify pre).addEvent mark = qualify pre <$> l.addEvent mark := by
  rw [addEvent, addEvent]
  split
  · rfl
  · rfl
  · exact l.leave_qualify pre mark
  · exact l.leave_qualify pre mark
  · exact congrArg Except.ok (l.takeKey_qualify pre _)
  · exact l.takeName_qualify pre mark
  · exact l.place_qualify pre (sampleNode mark)
  · exact Except.bind_eq_map_bind (shortcutNode_qualify pre mark) fun node _ => l.place_qualify pre node
  · rfl
  · rfl
  · rfl
  · rfl

/-- **An event.** -/
theorem add_qualify (mark : Mark) : (l.qualify pre).add mark = qualify pre <$> l.add mark := by
  obtain ⟨openNodes, root?, target, note?, unnamed⟩ := l
  cases note? with
  | none => exact addEvent_qualify pre { openNodes, root?, target, unnamed } mark
  | some builder =>
    change addToNote _ builder mark = qualify pre <$> addToNote _ builder mark
    rw [addToNote.eq_def, addToNote.eq_def]
    dsimp only
    split
    · exact applyNote_qualify pre { openNodes, root?, target, unnamed } builder.note
    · exact applyNote_qualify pre { openNodes, root?, target, unnamed } builder.note
    · exact Except.bind_eq_map_bind (r := id) (id_map _).symm fun _ _ => rfl

end Loader

/-! ## Schemas -/

namespace Schema

/-- The schema under an owner with a longer name. -/
def qualify (pre : String) (schema : Schema) : Schema :=
  { root := schema.root.qualify pre, types := schema.types.qualify pre }

/-- **What a document loads as** under an owner with a longer name. -/
theorem load_qualify (pre : String) (source : Source) (owner : String) :
    load source (pre ++ owner) = qualify pre <$> load source owner := by
  have hfold : Scan.foldMarks {} source Loader.add { unnamed := { source, owner := pre ++ owner } } =
      Loader.qualify pre <$> Scan.foldMarks {} source Loader.add { unnamed := { source, owner } } := by
    refine Except.bind_eq_map_bind (r := Loader.qualify pre) ?_ fun l _ => ?_
    · have hstep : ∀ (l : Loader) (event : Event),
          (l.qualify pre).add ⟨source, event⟩ = Loader.qualify pre <$> l.add ⟨source, event⟩ :=
        fun l event => l.add_qualify pre ⟨source, event⟩
      have hevents := Except.foldlM_map_eq_map hstep (Scan.read {} source.content).events { unnamed := { source, owner } }
      rwa [List.foldlM_map] at hevents
    · cases (Scan.read {} source.content).failure <;> rfl
  refine Except.bind_eq_map_bind hfold fun l _ => ?_
  have hroot : (l.qualify pre).root? = l.root?.map (Node.qualify pre) := rfl
  rw [hroot]
  cases l.root? <;> rfl

/-- The types of the user that a schema refers to keep their names. -/
theorem userTypes_qualify (pre : String) (schema : Schema) : (schema.qualify pre).userTypes = schema.userTypes := by
  have hroots : ((schema.qualify pre).root :: (schema.qualify pre).types.map fun e => e.2.root) =
      (schema.root :: schema.types.map fun e => e.2.root).map (Node.qualify pre) := by
    simp [qualify, Registry.qualify]
  have hnodes : ∀ roots : List Node, (roots.map (Node.qualify pre)).flatMap Node.subnodes =
      (roots.flatMap Node.subnodes).map (Node.qualify pre) := by
    intro roots
    rw [List.flatMap_map, List.map_flatMap]
    exact List.flatMap_congr fun root _ => root.subnodes_qualify pre
  have hnames : ∀ nodes : List Node, ((nodes.map (Node.qualify pre)).flatMap Node.referredNames).filter isUserTypeName =
      (nodes.flatMap Node.referredNames).filter isUserTypeName := by
    intro nodes
    rw [List.flatMap_map, List.filter_flatMap, List.filter_flatMap]
    exact List.flatMap_congr fun node _ => node.userNames_qualify pre
  rw [userTypes, userTypes, hroots, hnodes, hnames]

/-- **The types of the user that a document refers to** do not depend on its owner. -/
theorem userTypes_load (source : Source) (owner owner' : String) :
    userTypes <$> load source owner = userTypes <$> load source owner' := by
  have hbare : ∀ owner, userTypes <$> load source owner = userTypes <$> load source "" := by
    intro owner
    have hload := load_qualify owner source ""
    rw [String.append_empty] at hload
    rw [hload]
    cases load source "" with
    | error p => rfl
    | ok schema => exact congrArg Except.ok (userTypes_qualify owner schema)
  rw [hbare owner, hbare owner']

end Schema

end ExampleSchema
