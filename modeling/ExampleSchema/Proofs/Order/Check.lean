import ExampleSchema.Proofs.Accept.Data
import ExampleSchema.Proofs.Order.Expansion
import ExampleSchema.Proofs.Check
import ExampleSchema.Proofs.Containment

/-!
# Checking and accepting in another order

Schemas that differ in their order pass the checks alike and accept the same values.  The checks go through the
parts of a schema and stop at the first thing that is wrong; that nothing is wrong is said of each part, so it
does not depend on the order.

* `Registry.RootsRearrange.simulates`: what validation compares is the same.
* `Registry.RootsRearrange.agree_jsonTypesFrom`: the JSON types of a type.
* `Registry.RootsRearrange.checkNode_eq_ok_iff`, `Schema.Rearranges.check_eq_ok_iff`: the checks.
* `Schema.Rearranges.agree_compile`: compiling as a whole.
-/

namespace ExampleSchema

open Except

/-! ## Accepting values -/

/-- What is declared by its name does not depend on the order. -/
theorem Properties.AreRearranged.declared?_rel {N : Node → Node → Prop} {properties properties' : Properties}
    (h : properties.AreRearranged N properties') (hdistinct : properties.AreDistinct) (name : String) :
    Option.Rel N (properties.declared? name) (properties'.declared? name) := by
  have hdistinct' := (areDistinct_iff h).1 hdistinct
  cases hfound : properties.declared? name with
  | some node =>
    obtain ⟨key, hmem, rfl, hkey⟩ := exists_of_declared?_eq_some hfound
    obtain ⟨p', hp', hmatch⟩ := h.areMatched.1 _ hmem
    rw [hmatch.1.name, declared?_eq_some_of_mem hdistinct' hp' (hmatch.1.isShortcut.symm.trans hkey)]
    exact .some hmatch.2
  | none =>
    cases hfound' : properties'.declared? name with
    | none => exact .none
    | some node' =>
      obtain ⟨key', hmem, rfl, hkey⟩ := exists_of_declared?_eq_some hfound'
      obtain ⟨p, hp, hmatch⟩ := h.areMatched.2 _ hmem
      rw [← hmatch.1.name, declared?_eq_some_of_mem hdistinct hp (hmatch.1.isShortcut.trans hkey)] at hfound
      cases hfound

namespace Node.Rearranges

variable {node node' : Node}

/-- Validation compares the same at both. -/
theorem resembles (h : node.Rearranges node') : node.Resembles Node.Rearranges node' := by
  have hheader := h.header.resembles
  cases h using Node.Aligns.elim with
  | literal => exact .literal hheader
  | mixed => exact .mixed hheader
  | reference => exact .reference hheader
  | array _ hitems => exact .array hheader hitems.areMatched
  | object _ hdistinct hproperties =>
    have hrelate : ∀ p p', PropertiesMatch Node.Rearranges p p' → PropertiesRelate Node.Rearranges p p' :=
      fun _ _ hmatch => ⟨hmatch.1.name, hmatch.2⟩
    have hnamed := IsRearranged.filter (p := fun p => !p.1.isShortcut) (q := fun p => !p.1.isShortcut) hproperties
      fun _ _ hmatch => congrArg (!·) hmatch.1.isShortcut
    have htypes := IsRearranged.forall₂_filter (p := fun p => p.1.isShortcut) hproperties
      fun _ _ hmatch => hmatch.1.isShortcut
    exact .object hheader (hproperties.declared?_rel hdistinct) (hnamed.areMatched.mono hrelate) (htypes.imp hrelate)

end Node.Rearranges

/-- **Types in another order accept the same values.** -/
theorem Registry.RootsRearrange.simulates {types types' : Registry} (h : types.RootsRearrange types') :
    types.Simulates types' Node.Rearranges Value.HasDatumOf where
  nodes _ _ := Node.Rearranges.resembles
  values _ _ := Value.resembles_of_datum_eq
  roots := h
  names _ := rfl

/-! ## JSON types -/

/-- The types of a set are what counts. -/
theorem JsonType.setOf_congr {types others : List JsonType} (h : ∀ t, t ∈ types ↔ t ∈ others) :
    setOf types = setOf others := by
  refine List.filter_congr fun t _ => ?_
  rw [Bool.eq_iff_iff, List.contains_iff_mem, List.contains_iff_mem, h]

namespace Node.Rearranges

variable {node node' : Node}

/-- The JSON types of a node, given those of the types that it refers to. -/
theorem agree_jsonTypesWith (h : node.Rearranges node') {lookUp lookUp' : String → Verdict (List JsonType)}
    (hlookUp : ∀ name, Agree Eq (lookUp name) (lookUp' name)) :
    Agree Eq (node.jsonTypesWith lookUp) (node'.jsonTypesWith lookUp') := by
  have hfound : Agree (fun found found' : List (List JsonType) => found.Perm found')
      (node.rules.typeNames.mapM lookUp) (node'.rules.typeNames.mapM lookUp') :=
    (agree_mapM_of_perm h.typeNames_perm).trans (agree_mapM_congr hlookUp _)
      fun _ _ _ hperm hsame => hsame ▸ hperm
  refine hfound.bind fun found found' hperm => ?_
  rw [h.typeNames_perm.isEmpty_eq, h.jsonType_eq, h.isNullable_eq]
  dsimp only
  refine agree_ok.2 (JsonType.setOf_congr fun t => ?_)
  simp only [List.mem_append, hperm.flatten.mem_iff]

end Node.Rearranges

namespace Registry.RootsRearrange

variable {types types' : Registry} (h : types.RootsRearrange types')
include h

/-- **The JSON types of a type.** -/
theorem agree_jsonTypesFrom (entered : List String) (name : String) :
    Agree Eq (jsonTypesFrom types entered name) (jsonTypesFrom types' entered name) := by
  induction types, entered, name using jsonTypesFrom.induct generalizing types' with
  | case1 types entered name hentered =>
    rw [jsonTypesFrom, jsonTypesFrom, if_pos hentered, if_pos hentered]
    trivial
  | case2 types entered name hentered hroot =>
    rw [jsonTypesFrom_of_none hentered hroot, jsonTypesFrom_of_none hentered (h.root?_eq_none hroot)]
    trivial
  | case3 types entered name hentered root hroot ih =>
    obtain ⟨root', hroot', hrelated⟩ := h.exists_root? hroot
    rw [jsonTypesFrom_of_root hentered hroot, jsonTypesFrom_of_root hentered hroot']
    exact hrelated.agree_jsonTypesWith fun other => ih other (h.without name)

theorem agree_jsonTypes (name : String) : Agree Eq (types.jsonTypes name) (types'.jsonTypes name) :=
  h.agree_jsonTypesFrom [] name

/-- What is asked of a type that is registered is asked on both sides. -/
theorem exists_root?_and_iff (name : String) {P Q : Node → Prop}
    (hPQ : ∀ root root' : Node, root.Rearranges root' → (P root ↔ Q root')) :
    (∃ root, types.root? name = some root ∧ P root) ↔ ∃ root, types'.root? name = some root ∧ Q root := by
  cases hroot : types.root? name with
  | none => simp [h.root?_eq_none hroot]
  | some root =>
    obtain ⟨root', hroot', hrelated⟩ := h.exists_root? hroot
    simpa [hroot'] using hPQ root root' hrelated

/-- A type is registered on both sides or on neither. -/
theorem exists_root?_iff (name : String) :
    (∃ root, types.root? name = some root) ↔ ∃ root, types'.root? name = some root := by
  simpa using h.exists_root?_and_iff name (P := fun _ => True) (Q := fun _ => True) fun _ _ _ => Iff.rfl

/-! ## The checks of a node -/

variable {node node' : Node} (hnode : node.Rearranges node')
include hnode

omit h in
theorem checkSuited_eq_ok_iff : node.checkSuited = .ok () ↔ node'.checkSuited = .ok () := by
  rw [Node.checkSuited_eq_ok_iff, Node.checkSuited_eq_ok_iff, hnode.jsonType_eq]
  exact hnode.header.rules.rearranged.areMatched.forall_iff fun r r' hrule => by
    rw [Rule.kind, Rule.kind, hrule.kind_eq]

omit h in
theorem children_eq_nil_iff : node.children = [] ↔ node'.children = [] := by
  cases hnode using Node.Aligns.elim with
  | literal | mixed | reference => exact Iff.rfl
  | array _ hitems => exact hitems.areMatched.eq_nil_iff
  | object _ _ hproperties =>
    rw [Node.children, Node.children, List.map_eq_nil_iff, List.map_eq_nil_iff]
    exact hproperties.areMatched.eq_nil_iff

theorem checkReferences_eq_ok_iff :
    node.checkReferences types = .ok () ↔ node'.checkReferences types' = .ok () := by
  have hrules := hnode.header.rules
  have hallowed : Agree Eq (node.jsonTypes types) (node'.jsonTypes types') :=
    hnode.agree_jsonTypesWith h.agree_jsonTypes
  have hnames : node.rules.typeNames = [] ↔ node'.rules.typeNames = [] := by
    rw [← List.length_eq_zero_iff, hnode.typeNames_perm.length_eq, List.length_eq_zero_iff]
  rw [Node.checkReferences_eq_ok_iff, Node.checkReferences_eq_ok_iff, hnames, hnode.jsonType_eq,
    children_eq_nil_iff hnode]
  simp only [hallowed.eq_ok_iff]
  refine or_congr_right (and_congr_left fun _ => ?_)
  exact hrules.rearranged.areMatched.forall_iff fun r r' hrule => by rw [Rule.kind, Rule.kind, hrule.kind_eq]

omit h in
theorem checkBounds_eq_ok_iff : node.checkBounds = .ok () ↔ node'.checkBounds = .ok () := by
  have hrules := hnode.header.rules
  rw [Node.checkBounds_eq_ok_iff, Node.checkBounds_eq_ok_iff]
  simp only [Rules.min?, Rules.max?, Node.rules, hrules.has_eq, hrules.count?_eq,
    hrules.constraint?_eq (show ConstraintKind.min ≠ .types by decide),
    hrules.constraint?_eq (show ConstraintKind.max ≠ .types by decide)]

omit h in
theorem checkItems_eq_ok_iff {items items' : List Node} (hitems : AreRearrangedItems Node.Rearranges items items') :
    node.checkItems items = .ok () ↔ node'.checkItems items' = .ok () := by
  have hempty : items.isEmpty = items'.isEmpty := by
    rw [Bool.eq_iff_iff, List.isEmpty_iff, List.isEmpty_iff, hitems.areMatched.eq_nil_iff]
  have hdescribes : node.describesNoItems items = node'.describesNoItems items' := by
    rw [Node.describesNoItems, Node.describesNoItems, hempty, hnode.typeNames_perm.isEmpty_eq,
      hnode.header.declared]
  rw [Node.checkItems_eq_ok_iff, Node.checkItems_eq_ok_iff, hdescribes, hitems.length_eq]
  simp only [Node.rules, hnode.header.rules.count?_eq]

theorem checkAdditional_eq_ok_iff :
    node.checkAdditional types = .ok () ↔ node'.checkAdditional types' = .ok () := by
  have hallowed := hnode.header.rules.constraint?_eq (show ConstraintKind.additionalProperties ≠ .types by decide)
  rw [Node.checkAdditional_eq_ok_iff, Node.checkAdditional_eq_ok_iff, Node.rules, hallowed]
  simp only [h.exists_root?_iff, Node.rules]

theorem keepsSample_iff {sample sample' : Mark} (hsample : sample.bytes = sample'.bytes) :
    node.KeepsSample types sample ↔ node'.KeepsSample types' sample' := by
  have haccept := h.simulates.accept_iff (acceptLimit + 1) node node' (.literal sample) (.literal sample') hnode
    (congrArg Datum.literal hsample)
  have hopen : node.isOfOpenType = node'.isOfOpenType := by
    rw [Node.isOfOpenType, Node.isOfOpenType, hnode.jsonType_eq, hnode.header.declared]
  have hkept := hnode.header.resembles.isKept sample'.bytes
  have hjsonType := hnode.jsonType_eq
  cases hnode using Node.Aligns.elim with
  | mixed => exact haccept
  | literal | reference | array | object =>
    refine and_congr ?_ (hsample ▸ hkept)
    rw [hopen, hjsonType, hsample]

theorem checkSample_eq_ok_iff {sample sample' : Mark} (hsample : sample.bytes = sample'.bytes) :
    node.checkSample types sample = .ok () ↔ node'.checkSample types' sample' = .ok () := by
  rw [Node.checkSample_eq_ok_iff, Node.checkSample_eq_ok_iff, keepsSample_iff h hnode hsample,
    hnode.isNullable_eq, hnode.header.declared, hsample]

/-- The check of the samples of literals. -/
theorem checkSample?_eq_ok_iff {sample? sample?' : Option Mark}
    (hsample : sample?.map Mark.bytes = sample?'.map Mark.bytes) :
    (match sample? with
      | some sample => node.checkSample types sample
      | none => .ok ()) = .ok () ↔
    (match sample?' with
      | some sample => node'.checkSample types' sample
      | none => .ok ()) = .ok () := by
  cases sample? <;> cases sample?'
  · exact Iff.rfl
  · cases hsample
  · cases hsample
  · exact checkSample_eq_ok_iff h hnode (Option.some.inj hsample)

theorem checkShape_eq_ok_iff : node.checkShape types = .ok () ↔ node'.checkShape types' = .ok () := by
  have hall := hnode
  cases hnode using Node.Aligns.elim with
  | literal _ hsample | mixed _ hsample => exact checkSample?_eq_ok_iff h hall hsample
  | reference => exact Iff.rfl
  | array hheader hitems =>
    exact checkItems_eq_ok_iff hall hitems
  | object hheader hdistinct hproperties =>
    rw [Node.checkShape_object_eq_ok_iff, Node.checkShape_object_eq_ok_iff,
      Properties.checkShortcuts_eq_ok_iff, Properties.checkShortcuts_eq_ok_iff,
      checkAdditional_eq_ok_iff h hall]
    refine and_congr_left fun _ => hproperties.areMatched.forall_iff fun p p' hmatch => ?_
    rw [hmatch.1.isShortcut, hmatch.1.name, (h.agree_jsonTypes _).eq_ok_iff]

/-- **The checks of a node.** -/
theorem checkNode_eq_ok_iff : types.checkNode node = .ok () ↔ types'.checkNode node' = .ok () := by
  rw [Registry.checkNode_eq_ok_iff, Registry.checkNode_eq_ok_iff, checkSuited_eq_ok_iff hnode,
    checkReferences_eq_ok_iff h hnode, checkBounds_eq_ok_iff hnode, checkShape_eq_ok_iff h hnode]

end Registry.RootsRearrange

/-! ## Trees and schemas -/

namespace Node.Rearranges

variable {node node' : Node}

/-- The nodes of two trees are matched. -/
theorem areMatched_subnodes (h : node.Rearranges node') :
    AreMatched Node.Rearranges node.subnodes node'.subnodes := by
  induction h using Node.Aligns.induct with
  | literal hheader hsample => exact .cons (.literal hheader hsample) ⟨nofun, nofun⟩
  | mixed hheader hsample => exact .cons (.mixed hheader hsample) ⟨nofun, nofun⟩
  | reference hheader hnames => exact .cons (.reference hheader hnames) ⟨nofun, nofun⟩
  | array hheader hitems =>
    rw [subnodes_eq, subnodes_eq]
    refine .cons (.of_items hheader (hitems.mono fun _ _ h => h.1)) ?_
    exact hitems.areMatched.flatMap fun _ _ hitem => hitem.2
  | object hheader hdistinct hproperties =>
    rw [subnodes_eq, subnodes_eq, children, children, List.flatMap_map, List.flatMap_map]
    refine .cons (.of_properties hheader hdistinct (hproperties.mono fun _ _ h => ⟨h.1, h.2.1⟩)) ?_
    exact hproperties.areMatched.flatMap fun _ _ hproperty => hproperty.2.2

/-- What a value has to contain is the same, if that holds of what its required parts contain. -/
theorem mem_strictReferences_iff_of_requiredParts (h : node.Rearranges node') {name : String}
    (hparts : AreMatched (fun part part' => name ∈ part.strictReferences.map Prod.fst ↔
      name ∈ part'.strictReferences.map Prod.fst) node.requiredParts node'.requiredParts) :
    name ∈ node.strictReferences.map Prod.fst ↔ name ∈ node'.strictReferences.map Prod.fst := by
  rw [strictReferences_eq, strictReferences_eq node', h.isNullable_eq]
  split
  · exact Iff.rfl
  · simp only [List.map_append, List.mem_append, List.map_map, Function.comp_def, List.map_id', List.map_flatMap,
      List.mem_flatMap, h.typeNames_perm.mem_iff]
    exact or_congr_right (hparts.exists_iff fun _ _ hpart => hpart)

/-- **The types that a value has to contain** are the same. -/
theorem mem_strictReferences_iff (h : node.Rearranges node') (name : String) :
    name ∈ node.strictReferences.map Prod.fst ↔ name ∈ node'.strictReferences.map Prod.fst := by
  induction h using Node.Aligns.induct with
  | literal hheader hsample =>
    exact mem_strictReferences_iff_of_requiredParts (.literal hheader hsample) ⟨nofun, nofun⟩
  | mixed hheader hsample => exact mem_strictReferences_iff_of_requiredParts (.mixed hheader hsample) ⟨nofun, nofun⟩
  | reference hheader hnames =>
    exact mem_strictReferences_iff_of_requiredParts (.reference hheader hnames) ⟨nofun, nofun⟩
  | array hheader hitems =>
    exact mem_strictReferences_iff_of_requiredParts (.of_items hheader (hitems.mono fun _ _ h => h.1)) ⟨nofun, nofun⟩
  | object hheader hdistinct hproperties =>
    refine mem_strictReferences_iff_of_requiredParts
      (.of_properties hheader hdistinct (hproperties.mono fun _ _ h => ⟨h.1, h.2.1⟩)) ?_
    have hrequired := IsRearranged.filter (p := fun p => !(p.1.isShortcut || p.2.isOptional))
      (q := fun p => !(p.1.isShortcut || p.2.isOptional)) hproperties fun p p' ⟨hmatch, hnode, _⟩ => by
        rw [hmatch.isShortcut, Node.Rearranges.isOptional_eq hnode]
    exact hrequired.areMatched.map fun _ _ ⟨_, _, hpart⟩ => hpart

end Node.Rearranges

/-- **The search for endless types.** -/
theorem Registry.RootsRearrange.checkEndless_eq_ok_iff {types types' : Registry} (h : types.RootsRearrange types') :
    types.checkEndless = .ok () ↔ types'.checkEndless = .ok () := by
  have hcontains : types.Contains = types'.Contains := by
    funext name target
    rw [eq_iff_iff, Contains, Contains]
    exact h.exists_root?_and_iff name fun _ _ hroot => hroot.mem_strictReferences_iff target
  simp only [Registry.checkEndless_eq_ok_iff, IsGrounded, hcontains]

namespace Schema.Rearranges

variable {schema schema' : Schema}

/-- The nodes of two schemas are matched. -/
theorem areMatched_nodes (h : schema.Rearranges schema') :
    AreMatched Node.Rearranges schema.nodes schema'.nodes := by
  refine (AreMatched.cons h.root ?_).flatMap fun _ _ => Node.Rearranges.areMatched_subnodes
  exact (AreMatched.of_forall₂ h.types).map fun _ _ he => he.2

/-- **The check pass.** -/
theorem check_eq_ok_iff (h : schema.Rearranges schema') : schema.check = .ok () ↔ schema'.check = .ok () := by
  have hroots := h.types.rootsRearrange
  rw [Schema.check_eq_ok_iff, Schema.check_eq_ok_iff, hroots.checkEndless_eq_ok_iff]
  refine and_congr_left fun _ => h.areMatched_nodes.forall_iff fun _ _ hnode => ?_
  exact hroots.checkNode_eq_ok_iff hnode

/-- **Schemas in another order accept the same values.** -/
theorem accept_iff (h : schema.Rearranges schema') (value : Value) :
    schema.accept value = .ok () ↔ schema'.accept value = .ok () :=
  Schema.accept_iff_of_simulates h.types.rootsRearrange.simulates h.root rfl

/-- So do the members of the objects that they describe. -/
theorem acceptMember_iff (h : schema.Rearranges schema') (name : String) (value : Value) :
    schema.acceptMember name value = .ok () ↔ schema'.acceptMember name value = .ok () :=
  Schema.acceptMember_iff_of_simulates h.types.rootsRearrange.simulates h.root rfl name

/-- **Compiling as a whole.** -/
theorem agree_compile (h : schema.Rearranges schema') {named named' : List (String × RegisteredType)}
    (hnamed : AreRearrangedTypes named named') (rules : EnumRules) :
    Agree Schema.Rearranges (schema.compile named rules) (schema'.compile named' rules) := by
  refine ((h.register hnamed).agree_resolveEnums rules).bind fun _ _ hresolved => ?_
  refine hresolved.agree_expand.bind fun _ _ hexpanded => ?_
  exact (agree_unit_iff.2 hexpanded.check_eq_ok_iff).bind fun _ _ _ => hexpanded

end Schema.Rearranges
end ExampleSchema
