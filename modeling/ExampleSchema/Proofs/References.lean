import ExampleSchema.Proofs.Rules

/-!
# Which names a compiled schema knows

A node may mention types of the user in many ways: by its `type` rule or its union, by `allOf`, as the
type of other properties, as the name of a property, and as a shortcut.  Each way is resolved by a pass or
a check of its own.  Those for `allOf` and for other properties look at nodes that are written as objects,
whereas such rules may stand wherever the type of the node is `object`: what is declared to be an object
and written as something else is not looked at.

* `Node.Mentions`: a node mentions a type.
* `Node.IsHollow`: a node is an object by its type only.
* `Session.Arises.mem_keys_of_mentions`: a compiled schema has every type that is mentioned, except by the
  rules for objects of a hollow node.
* `Session.hollow_mentions`: the exception, in a schema that compiles.
-/

namespace ExampleSchema

/-- A node mentions a type of the user. -/
inductive Node.Mentions (node : Node) : String → Prop where
  | type {r : Rule} {name : String} : r ∈ node.rules → r.constraint = .type (.user name) →
      Mentions node name
  | types {r : Rule} {names : List String} {name : String} : r ∈ node.rules →
      r.constraint = .types names → name ∈ names → Mentions node name
  | allOf {r : Rule} {names : List String} {name : String} : r ∈ node.rules →
      r.constraint = .allOf names → name ∈ names → Mentions node name
  | additionalProperties {r : Rule} {name : String} : r ∈ node.rules →
      r.constraint = .additionalProperties (.user name) → Mentions node name
  /-- The name of a property is a type. -/
  | keyShortcut {header : Header} {properties : Properties} {p : PropertyKey × Node} :
      node = .object header properties → p ∈ properties → p.1.isShortcut = true →
      Mentions node p.1.name
  /-- The names of types stand in place of a value. -/
  | shortcut {header : Header} {names : List String} {name : String} :
      node = .reference header names → name ∈ names → Mentions node name

/-- A node whose type is `object` and which is not written as an object. -/
def Node.IsHollow (node : Node) : Prop :=
  node.jsonType = .object ∧ ∀ header properties, node ≠ .object header properties

/-- A rule for objects stands at an object or at a hollow node. -/
theorem Node.isHollow_or_exists_of_suits {node : Node} {kind : ConstraintKind}
    (hkind : kind = .allOf ∨ kind = .additionalProperties) (h : kind.suits node.jsonType = true) :
    node.IsHollow ∨ ∃ header properties, node = .object header properties := by
  have hobject : node.jsonType = .object := by
    rcases hkind with rfl | rfl <;> simpa [ConstraintKind.suits] using h
  by_cases hwritten : ∃ header properties, node = .object header properties
  · exact Or.inr hwritten
  · push Not at hwritten
    exact Or.inl ⟨hobject, hwritten⟩

/-! ## Names that are looked up -/

theorem Registry.mem_keys_of_root?_eq_some {types : Registry} {name : String} {root : Node}
    (h : types.root? name = some root) : name ∈ Catalog.keys types := by
  obtain ⟨entry, hentry, -⟩ := Option.map_eq_some_iff.1 h
  refine by_contra fun hname => ?_
  rw [Catalog.find?_eq_none_iff.2 hname] at hentry
  cases hentry

/-- A name that is listed leads to a type. -/
theorem Registry.exists_root?_of_mem_keys {types : Registry} {name : String} (h : name ∈ Catalog.keys types) :
    ∃ root, types.root? name = some root := by
  rw [← Option.isSome_iff_exists, root?, Option.isSome_map, Option.isSome_iff_ne_none, Ne,
    Catalog.find?_eq_none_iff, not_not]
  exact h

/-- A type whose JSON types are known is registered. -/
theorem Registry.mem_keys_of_jsonTypes_eq_ok {types : Registry} {name : String}
    {allowed : List JsonType} (h : types.jsonTypes name = .ok allowed) : name ∈ Catalog.keys types := by
  cases hroot : types.root? name with
  | some root => exact mem_keys_of_root?_eq_some hroot
  | none =>
    rw [jsonTypes, jsonTypesFrom, if_neg (by simp)] at h
    split at h
    · cases h
    · next root hsome =>
      rw [hroot] at hsome
      cases hsome

/-- A type that passes on its properties is registered. -/
theorem Registry.mem_keys_of_passedOn_eq_ok {types : Registry} {name : String}
    {properties : Properties} (h : passedOn types [] name = .ok properties) :
    name ∈ Catalog.keys types := by
  cases hroot : types.root? name with
  | some root => exact mem_keys_of_root?_eq_some hroot
  | none =>
    rw [passedOn_of_none (by simp) hroot] at h
    cases h

namespace Node

/-- The types that an object names in `allOf` are registered. -/
def InheritsFrom (types : Registry) (node : Node) : Prop :=
  ∀ header properties, node = .object header properties →
    ∀ name ∈ header.allOfNames, name ∈ Catalog.keys types

theorem has_of_mem_allOfNames {header : Header} {name : String} (h : name ∈ header.allOfNames) :
    header.rules.has .allOf = true := by
  rw [Header.allOfNames] at h
  split at h
  · next names hnames =>
    obtain ⟨r, hr, -⟩ := Option.map_eq_some_iff.1 hnames
    rw [Rules.has, hr]
    rfl
  · cases h

/-- An object inherits from types that are registered. -/
theorem inheritsFrom_of_inherit_eq_ok {types : Registry} {node whole : Node}
    (h : node.inherit types = .ok whole) : node.bare.InheritsFrom types := by
  intro header properties hbare name hname
  cases node with
  | object header' properties' =>
    obtain ⟨rfl, -⟩ := object.inj hbare
    rw [inherit, if_pos (has_of_mem_allOfNames hname)] at h
    obtain ⟨gathered, hgathered, -⟩ := Except.bind_eq_ok_iff.1 h
    obtain ⟨before, after, hstep⟩ := Except.exists_of_mem_foldlM hgathered hname
    obtain ⟨added, hadded, -⟩ := Except.bind_eq_ok_iff.1 hstep
    exact Registry.mem_keys_of_passedOn_eq_ok (Except.mapError_eq_ok_iff.1 hadded)
  | array | literal | mixed | reference => cases hbare

/-- All objects of a tree that has been expanded inherit from types that are registered. -/
theorem throughout_inheritsFrom_of_expand_eq_ok {types : Registry} {levels : Nat} {node new : Node}
    (h : node.expand types levels = .ok new) : new.Throughout (InheritsFrom types) := by
  induction levels generalizing node new with
  | zero => cases h
  | succ levels ih =>
    rw [expand_succ] at h
    obtain ⟨whole, hwhole, h⟩ := Except.bind_eq_ok_iff.1 h
    obtain ⟨children, hmap, h⟩ := Except.bind_eq_ok_iff.1 h
    obtain rfl := Except.ok.inj h
    refine throughout_iff.2 ⟨?_, fun child hchild => ?_⟩
    · rw [bare_withChildren, inherit_bare hwhole]
      exact inheritsFrom_of_inherit_eq_ok hwhole
    · obtain ⟨part, -, hexpanded⟩ :=
        Except.exists_of_mem_mapM hmap (mem_of_mem_children_withChildren hchild)
      exact ih hexpanded

end Node

namespace Schema

/-- Changing the trees of a schema keeps the names of its types. -/
theorem keys_mapRoots {schema changed : Schema} {change : Node → Outcome Node}
    (h : schema.mapRoots change = .ok changed) :
    Catalog.keys changed.types = Catalog.keys schema.types := by
  obtain ⟨root, -, h⟩ := Except.bind_eq_ok_iff.1 h
  obtain ⟨types, htypes, h⟩ := Except.bind_eq_ok_iff.1 h
  obtain rfl := Except.ok.inj h
  exact Catalog.keys_eq_of_mapM_eq_ok htypes

end Schema

/-- The types that a node refers to are registered. -/
theorem Node.mem_keys_of_mem_typeNames {types : Registry} {node : Node}
    (h : node.checkReferences types = .ok ()) :
    ∀ name ∈ node.rules.typeNames, name ∈ Catalog.keys types := by
  obtain ⟨allowed, hallowed⟩ := exists_jsonTypes_of_checkReferences h
  obtain ⟨listed, hlisted, -⟩ := Except.bind_eq_ok_iff.1 hallowed
  intro name hname
  obtain ⟨found, hfound⟩ := Except.exists_mapM_eq_ok_iff.1 ⟨listed, hlisted⟩ name hname
  exact Registry.mem_keys_of_jsonTypes_eq_ok hfound

/-! ## Compiled schemas -/

namespace Session.Arises

variable {s : Session} {schema : Schema}

/-- The types that objects of a compiled schema name in `allOf` are registered. -/
theorem inheritsFrom (hs : s.Arises) (h : s.compiled = .ok schema) {node : Node}
    (hnode : node ∈ schema.nodes) : node.bare.InheritsFrom schema.types := by
  obtain ⟨loaded, -, hcompile⟩ := hs.exists_of_compiled_eq_ok h
  obtain ⟨resolved, -, hexpanded, -⟩ := Schema.compile_eq_ok_iff.1 hcompile
  obtain ⟨root, hroot, hnode⟩ := List.mem_flatMap.1 hnode
  obtain ⟨old, -, hexpand⟩ := Schema.exists_of_mem_roots_mapRoots hexpanded hroot
  intro header properties hbare name hname
  rw [Schema.keys_mapRoots hexpanded]
  exact Node.throughout_inheritsFrom_of_expand_eq_ok hexpand node hnode header properties hbare name
    hname

/-- Each node of a compiled schema has passed its checks. -/
theorem checkNode_eq_ok (hs : s.Arises) (h : s.compiled = .ok schema) {node : Node}
    (hnode : node ∈ schema.nodes) : schema.types.checkNode node = .ok () := by
  obtain ⟨loaded, -, hcompile⟩ := hs.exists_of_compiled_eq_ok h
  obtain ⟨resolved, -, -, hcheck⟩ := Schema.compile_eq_ok_iff.1 hcompile
  exact (Schema.check_eq_ok_iff.1 hcheck).1 node hnode

/-- **Which names a compiled schema knows.**  Every type that a node mentions is registered, unless the
node is hollow and mentions it in a rule for objects. -/
theorem mem_keys_of_mentions (hs : s.Arises) (h : s.compiled = .ok schema) {node : Node}
    (hnode : node ∈ schema.nodes) {name : String} (hname : node.Mentions name) :
    name ∈ Catalog.keys schema.types ∨
      (node.IsHollow ∧ name ∈ Node.namesInObjectRules node.rules) := by
  obtain ⟨hnodup, hshortcut⟩ := hs.isRegular h hnode
  obtain ⟨hsuited, hreferences, -, hshape⟩ :=
    Registry.checkNode_eq_ok_iff.1 (hs.checkNode_eq_ok h hnode)
  have hsuited := Node.checkSuited_eq_ok_iff.1 hsuited
  have htypeNames := Node.mem_keys_of_mem_typeNames hreferences
  cases hname with
  | type hr hc => exact Or.inl (htypeNames _ ((Rules.mem_typeNames_iff hnodup).2 (Or.inl ⟨_, hr, hc⟩)))
  | types hr hc hmem =>
    exact Or.inl (htypeNames _ ((Rules.mem_typeNames_iff hnodup).2 (Or.inr ⟨_, hr, _, hc, hmem⟩)))
  | shortcut hnode hmem => exact Or.inl (htypeNames _ ((hshortcut _ _ hnode).2 name hmem))
  | keyShortcut hobject hp hkey =>
    subst hobject
    have hkeys := Properties.checkShortcuts_eq_ok_iff.1 (Node.checkShape_object_eq_ok_iff.1 hshape).1
    exact Or.inl (Registry.mem_keys_of_jsonTypes_eq_ok (hkeys _ hp hkey))
  | @allOf r names _ hr hc hmem =>
    have hfound : node.rules.constraint? .allOf = some (.allOf names) :=
      (Rules.constraint?_eq_some_iff hnodup).2 ⟨r, hr, hc, rfl⟩
    have hkind : r.kind = .allOf := by rw [Rule.kind, hc, Constraint.kind]
    rcases Node.isHollow_or_exists_of_suits (Or.inl hkind) (hsuited r hr) with
      hhollow | ⟨header, properties, rfl⟩
    · refine Or.inr ⟨hhollow, List.mem_append_left _ ?_⟩
      rwa [hfound]
    · refine Or.inl (hs.inheritsFrom h hnode header [] rfl name ?_)
      rwa [Header.allOfNames, show header.rules.constraint? .allOf = some (.allOf names) from hfound]
  | @additionalProperties r _ hr hc =>
    have hfound : node.rules.constraint? .additionalProperties =
        some (.additionalProperties (.user name)) :=
      (Rules.constraint?_eq_some_iff hnodup).2 ⟨r, hr, hc, rfl⟩
    have hkind : r.kind = .additionalProperties := by rw [Rule.kind, hc, Constraint.kind]
    rcases Node.isHollow_or_exists_of_suits (Or.inr hkind) (hsuited r hr) with
      hhollow | ⟨header, properties, rfl⟩
    · refine Or.inr ⟨hhollow, List.mem_append_right _ ?_⟩
      simp [hfound]
    · have hadditional := (Node.checkShape_object_eq_ok_iff.1 hshape).2
      obtain ⟨-, root, hroot⟩ := Node.checkAdditional_eq_ok_iff.1 hadditional name hfound
      exact Or.inl (Registry.mem_keys_of_root?_eq_some hroot)

end Session.Arises

namespace Session

/-- A document that is written as the name of a type, and the type. -/
def cat : Outcome Session :=
  addType { source := .ofString "root" "@Cat" } "@Cat" (.ofString "@Cat" "\"Tom\"")

/-- The names of the root of that schema and its type, if it compiles. -/
def catNames? : Option (List String × JsonType) :=
  match cat >>= compiled with
  | .ok ⟨.reference header names, _⟩ => some (names, header.jsonType)
  | _ => none

/-- The type that such a document names is registered. -/
theorem mem_keys_of_cat : ∃ s schema, cat = .ok s ∧ s.compiled = .ok schema ∧
    schema.root.Mentions "@Cat" ∧ "@Cat" ∈ Catalog.keys schema.types := by
  have hnames : catNames? = some (["@Cat"], .mixed) := by decide +kernel
  rw [catNames?] at hnames
  split at hnames
  · next header names types hcompiled =>
    obtain ⟨rfl, htype⟩ := Prod.mk.inj (Option.some.inj hnames)
    obtain ⟨s, hs, hcompiled⟩ := Except.bind_eq_ok_iff.1 hcompiled
    have hmentions : (Node.reference header ["@Cat"]).Mentions "@Cat" :=
      .shortcut rfl (List.mem_singleton.2 rfl)
    refine ⟨s, _, hs, hcompiled, hmentions, ?_⟩
    rcases (Arises.addType (.start _) hs).mem_keys_of_mentions hcompiled
      (Schema.mem_nodes_of_mem_roots (List.mem_cons_self ..)) hmentions with h | ⟨⟨hobject, -⟩, -⟩
    · exact h
    · exact nomatch htype.symm.trans hobject
  · cases hnames

/-! ## A hollow node -/

/-- A document that is written as an array and declared to be an object. -/
def hollow : Session :=
  { source := .ofString "root" "[] // \x7btype: \"object\", allOf: \"@Missing\"\x7d" }

/-- What the root of that schema names in `allOf`, and the names of its types, if it compiles. -/
def hollowNames? : Option (List String × List String) :=
  match hollow.compiled with
  | .ok schema => some (schema.root.header.allOfNames, Catalog.keys schema.types)
  | .error _ => none

/-- A schema that compiles need not have every type that its nodes mention. -/
theorem hollow_mentions : hollow.Arises ∧ ∃ schema, hollow.compiled = .ok schema ∧
    ∃ node ∈ schema.nodes, node.Mentions "@Missing" ∧ "@Missing" ∉ Catalog.keys schema.types := by
  refine ⟨.start _, ?_⟩
  have hnames : hollowNames? = some (["@Missing"], []) := by decide +kernel
  rw [hollowNames?] at hnames
  split at hnames
  · next schema hcompiled =>
    obtain ⟨hallOf, hkeys⟩ := Prod.mk.inj (Option.some.inj hnames)
    refine ⟨schema, hcompiled, schema.root,
      Schema.mem_nodes_of_mem_roots (List.mem_cons_self ..), ?_, ?_⟩
    · rw [Header.allOfNames] at hallOf
      split at hallOf
      · next names hfound =>
        obtain ⟨r, hr, hc⟩ := Option.map_eq_some_iff.1 hfound
        refine .allOf (List.mem_of_find?_eq_some hr) hc ?_
        rw [hallOf]
        exact List.mem_singleton.2 rfl
      · cases hallOf
    · rw [hkeys]
      exact nofun
  · cases hnames

end Session
end ExampleSchema
