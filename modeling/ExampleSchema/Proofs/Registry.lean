import ExampleSchema.Proofs.Containment
import ExampleSchema.Schema.Compile

/-!
# Registries that coincide

A registry is a list, but what is done with it looks types up by their names.  So registries that have the
same types under the same names, in whatever order, are as good: objects inherit the same properties, the
same JSON types are computed, and the same values are accepted, with the same problems otherwise.

* `Registry.Coincides`: the same types under the same names.
* `passedOn_congr`, `Node.expand_congr`, `jsonTypesFrom_congr`, `Registry.accept_eq_of_coincides`,
  `Registry.checkNode_congr`, `Registry.checkEndless_congr`: what coinciding registries have in common.
* `Registry.coincides_of_perm`: registries in different orders.
-/

namespace ExampleSchema

/-- Two registries have the same types under the same names. -/
def Registry.Coincides (types others : Registry) : Prop := ∀ name, types.root? name = others.root? name

section

variable {types others : Registry}

namespace Registry.Coincides

theorem without (h : types.Coincides others) (name : String) :
    Registry.Coincides (types.without name) (others.without name) := by
  intro other
  rw [root?_without, root?_without, h other]

theorem root_eq (h : types.Coincides others) : types.root = others.root := by
  funext name
  rw [root, root, h name]

end Registry.Coincides

/-! ## Inheriting -/

theorem passedOn_congr (h : types.Coincides others) (entered : List String) (name : String) :
    passedOn types entered name = passedOn others entered name := by
  induction types, entered, name using passedOn.induct generalizing others with
  | case1 types entered name hentered =>
    rw [passedOn_of_entered hentered, passedOn_of_entered hentered]
  | case2 types entered name hentered hroot =>
    rw [passedOn_of_none hentered hroot, passedOn_of_none hentered (h name ▸ hroot)]
  | case3 types entered name hentered header properties hroot ih =>
    rw [passedOn_of_object hentered hroot, passedOn_of_object hentered (h name ▸ hroot)]
    simp only [ih _ (h.without name)]
  | case4 types entered name hentered root hroot hnot =>
    rw [passedOn_of_not_object hentered hnot hroot,
      passedOn_of_not_object hentered (h name ▸ hnot) hroot]

theorem Node.inherit_congr (h : types.Coincides others) (node : Node) :
    node.inherit types = node.inherit others := by
  unfold inherit
  simp only [passedOn_congr h]

theorem Node.expand_congr (h : types.Coincides others) (levels : Nat) (node : Node) :
    node.expand types levels = node.expand others levels := by
  induction levels generalizing node with
  | zero => rfl
  | succ levels ih =>
    rw [expand_succ, expand_succ, inherit_congr h, funext ih]

/-! ## JSON types -/

theorem jsonTypesFrom_congr (h : types.Coincides others) (entered : List String) (name : String) :
    jsonTypesFrom types entered name = jsonTypesFrom others entered name := by
  induction types, entered, name using jsonTypesFrom.induct generalizing others with
  | case1 types entered name hentered =>
    rw [jsonTypesFrom, jsonTypesFrom, if_pos hentered, if_pos hentered]
  | case2 types entered name hentered hroot =>
    rw [jsonTypesFrom_of_none hentered hroot, jsonTypesFrom_of_none hentered (h name ▸ hroot)]
  | case3 types entered name hentered root hroot ih =>
    rw [jsonTypesFrom_of_root hentered hroot, jsonTypesFrom_of_root hentered (h name ▸ hroot)]
    exact congrArg root.jsonTypesWith (funext fun other => ih other (h.without name))

theorem Registry.jsonTypes_congr (h : types.Coincides others) : types.jsonTypes = others.jsonTypes :=
  funext fun name => jsonTypesFrom_congr h [] name

/-! ## Accepting values -/

theorem Properties.acceptOther_eq_of_coincides (h : types.Coincides others) (properties : Properties)
    (header : Header) (visit : Node → Value → Outcome Unit) (name : String) (value : Value) :
    properties.acceptOther header types visit name value
      = properties.acceptOther header others visit name value := by
  simp only [acceptOther, shortcut?, h.root_eq, h _]

theorem Registry.accept_eq_of_coincides (h : types.Coincides others) (levels : Nat) :
    types.accept levels = others.accept levels := by
  induction levels with
  | zero => rfl
  | succ levels ih =>
    funext node value
    have hself : node.acceptSelf types (types.accept levels) value
        = node.acceptSelf others (others.accept levels) value := by
      rw [ih]
      cases node with
      | object header properties =>
        simp only [Node.acceptSelf, Properties.accept, Properties.acceptOther_eq_of_coincides h]
      | literal | array | mixed | reference => rfl
    have htypes : types.acceptTypes (types.accept levels)
        = others.acceptTypes (others.accept levels) := by
      unfold acceptTypes
      rw [ih, h.root_eq]
    rw [accept, accept, hself, htypes]

/-! ## Checks -/

theorem Registry.checkNode_congr (h : types.Coincides others) :
    types.checkNode = others.checkNode := by
  funext node
  unfold checkNode Node.checkReferences Node.jsonTypes Node.checkShape Properties.checkShortcuts
    Node.checkAdditional Node.checkSample
  simp only [jsonTypes_congr h, accept_eq_of_coincides h, h _]

theorem Registry.checkEndless_congr (h : types.Coincides others) :
    types.checkEndless = .ok () ↔ others.checkEndless = .ok () := by
  have hcontains : types.Contains = others.Contains := by
    funext name target
    rw [Contains, Contains, h name]
  simp only [checkEndless_eq_ok_iff, IsGrounded, hcontains]

/-! ## Registries in different orders -/

theorem Registry.coincides_of_perm (h : types.Perm others) (hnodup : (Catalog.keys types).Nodup) :
    types.Coincides others := fun name => by
  rw [root?, root?, Catalog.find?_congr_of_perm h hnodup]

end

namespace Schema

/-- Two schemas have the same tree, and the same types in another order. -/
structure IsReordered (schema other : Schema) : Prop where
  root : schema.root = other.root
  types : schema.types.Perm other.types
  nodup : (Catalog.keys schema.types).Nodup

variable {schema other : Schema}

namespace IsReordered

theorem coincides (h : schema.IsReordered other) : schema.types.Coincides other.types :=
  Registry.coincides_of_perm h.types h.nodup

theorem nodeCount_eq (h : schema.IsReordered other) : schema.nodeCount = other.nodeCount := by
  rw [nodeCount, nodeCount, h.root]
  exact ((h.types.flatMap_right _).append_left _).length_eq

theorem mem_nodes_iff (h : schema.IsReordered other) (node : Node) :
    node ∈ schema.nodes ↔ node ∈ other.nodes := by
  simp only [Schema.mem_nodes_iff, h.root, h.types.mem_iff]

/-- Changing all trees keeps the order, and so makes of the same trees the same. -/
theorem mapRoots (h : schema.IsReordered other) {change : Node → Outcome Node} {changed : Schema}
    (hchanged : schema.mapRoots change = .ok changed) :
    ∃ changed', other.mapRoots change = .ok changed' ∧ changed.IsReordered changed' := by
  obtain ⟨root, hroot, hchanged⟩ := Except.bind_eq_ok_iff.1 hchanged
  obtain ⟨types, htypes, hchanged⟩ := Except.bind_eq_ok_iff.1 hchanged
  obtain rfl := Except.ok.inj hchanged
  obtain ⟨types', htypes', hperm⟩ := Except.exists_mapM_of_perm h.types htypes
  rw [h.root] at hroot
  refine ⟨{ root, types := types' }, ?_, rfl, hperm, ?_⟩
  · rw [Schema.mapRoots, hroot, Except.ok_bind, htypes']
    rfl
  · rw [Catalog.keys_eq_of_mapM_eq_ok htypes]
    exact h.nodup

theorem expand (h : schema.IsReordered other) {expanded : Schema} (hexpanded : schema.expand = .ok expanded) :
    ∃ expanded', other.expand = .ok expanded' ∧ expanded.IsReordered expanded' := by
  have hchange : Node.expand other.types (other.nodeCount + 1)
      = Node.expand schema.types (schema.nodeCount + 1) := by
    rw [h.nodeCount_eq]
    exact funext fun node => (Node.expand_congr h.coincides _ node).symm
  rw [Schema.expand, hchange]
  exact h.mapRoots hexpanded

theorem check (h : schema.IsReordered other) (hcheck : schema.check = .ok ()) : other.check = .ok () := by
  rw [check_eq_ok_iff] at hcheck ⊢
  rw [← Registry.checkNode_congr h.coincides, ← Registry.checkEndless_congr h.coincides]
  exact ⟨fun node hnode => hcheck.1 node ((h.mem_nodes_iff node).2 hnode), hcheck.2⟩

theorem accept_eq (h : schema.IsReordered other) (value : Value) :
    schema.accept value = other.accept value := by
  rw [accept, accept, Registry.accept_eq_of_coincides h.coincides, h.root]

theorem acceptMember_eq (h : schema.IsReordered other) (name : String) (value : Value) :
    schema.acceptMember name value = other.acceptMember name value := by
  unfold acceptMember
  rw [h.root]
  simp only [Registry.accept_eq_of_coincides h.coincides, Properties.acceptOther_eq_of_coincides h.coincides]

end IsReordered
end Schema
end ExampleSchema
