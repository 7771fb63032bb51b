import ExampleSchema.Proofs.Containment
import ExampleSchema.Proofs.Location.Compile
import ExampleSchema.Proofs.References
import ExampleSchema.Proofs.Samples
import ExampleSchema.Proofs.Unions
import ExampleSchema.Proofs.Validation

/-!
# Names that are looked up

Compiling looks types up by their names: the types that an object inherits from, those that a node refers to,
those that stand for names of properties, and the type of other properties.  Each name comes from a node of the
document or of a registered type, since compiling moves nodes about and completes their rules, but never makes up a
name.  So if all names at these nodes are known, no type is missing.

* `Header.Finds`, `Node.FindsOwn`, `Node.Finds`, `Schema.Finds`: all names that are looked up are known.
* `Schema.Finds.register`, `Schema.Finds.resolveEnums`, `Schema.Finds.expand`: one for each step of compiling.
* `passedOn_meets_finds`, `jsonTypesFrom_missesNone`: the two searches that go from type to type.
* `Registry.checkNode_missesNone`: the checks of a node.
* `Schema.compile_missesNone`: all steps together.
-/

namespace ExampleSchema

variable {known : String → Prop}

/-! ## Problems -/

/-- The cause is none that a missing type has. -/
def Cause.MissesNone (c : Cause) : Prop := c.code ≠ .typeNotFound

/-- The problem is not that a type is missing. -/
def Problem.MissesNone (p : Problem) : Prop := p.code ≠ .typeNotFound

/-- A cause is judged by its code. -/
theorem Cause.missesNone (code : ErrorCode) {c : Cause} (hcode : c.code = code) (h : code ≠ .typeNotFound) :
    c.MissesNone := by
  rw [MissesNone, hcode]
  exact h

theorem Cause.IsOfValue.missesNone {c : Cause} (h : c.IsOfValue) : c.MissesNone := by
  intro hcode
  rw [IsOfValue, hcode] at h
  rcases h with h | h <;> exact absurd h (by decide)

theorem Verdict.on_missesNone {α : Type} {v : Verdict α} (h : v.FailsOnly Cause.MissesNone) (m : Mark) :
    (v.on m).FailsOnly Problem.MissesNone := h.mapError fun _ => id

/-! ## Nodes -/

/-- The names in the rules of a node are known: those that it refers to, those that it inherits from, and that of
other properties. -/
structure Header.Finds (known : String → Prop) (h : Header) : Prop where
  types : ∀ name ∈ h.rules.typeNames, known name
  allOf : ∀ name ∈ h.allOfNames, known name
  additional : ∀ name, h.rules.constraint? .additionalProperties = some (.additionalProperties (.user name)) →
    isUserTypeName name = true → known name

/-- Rules that are completed name the types that they named before. -/
theorem Header.Finds.change {h : Header} (hh : h.Finds known) {f : Constraint → Constraint}
    (hf : ∀ c, Constraint.Completes c (f c)) : Header.Finds known { h with rules := h.rules.change f } := by
  refine ⟨?_, ?_, ?_⟩
  · simpa only [Rules.typeNames_change hf] using hh.types
  · simpa only [allOfNames, Rules.constraint?_change_of_names hf (Or.inr (Or.inr (Or.inl rfl)))] using hh.allOf
  · simpa only [Rules.constraint?_change_of_names hf (Or.inr (Or.inr (Or.inr rfl)))] using hh.additional

namespace Node

/-- The names that are looked up at a node, in its rules and as names of properties, are known. -/
structure FindsOwn (known : String → Prop) (node : Node) : Prop where
  header : node.header.Finds known
  keys : ∀ key ∈ node.keys, key.isShortcut = true → known key.name

/-- The names that are looked up at any node of a tree are known. -/
def Finds (known : String → Prop) (node : Node) : Prop := ∀ part ∈ node.subnodes, part.FindsOwn known

variable {node : Node}

theorem finds_iff : node.Finds known ↔ node.FindsOwn known ∧ ∀ child ∈ node.children, child.Finds known := by
  rw [Finds, subnodes_eq, List.forall_mem_cons, List.forall_mem_flatMap]
  rfl

theorem Finds.findsOwn (h : node.Finds known) : node.FindsOwn known := h node (mem_subnodes_self node)

/-- Nodes that know more names find what they did. -/
theorem Finds.mono {more : String → Prop} (h : node.Finds known) (hmore : ∀ name, known name → more name) :
    node.Finds more := by
  intro part hpart
  obtain ⟨⟨htypes, hallOf, hadditional⟩, hkeys⟩ := h part hpart
  refine ⟨⟨fun name hname => hmore _ (htypes name hname), fun name hname => hmore _ (hallOf name hname), ?_⟩, ?_⟩
  · exact fun name hname huser => hmore _ (hadditional name hname huser)
  · exact fun key hkey hshortcut => hmore _ (hkeys key hkey hshortcut)

end Node

/-- The names of properties and those at their nodes are known. -/
def Properties.Finds (known : String → Prop) (properties : Properties) : Prop :=
  ∀ p ∈ properties, (p.1.isShortcut = true → known p.1.name) ∧ p.2.Finds known

namespace Node

variable {node : Node}

/-- An object finds what its rules and its properties name. -/
theorem finds_object_iff {header : Header} {properties : Properties} :
    (object header properties).Finds known ↔ header.Finds known ∧ properties.Finds known := by
  rw [finds_iff]
  constructor
  · rintro ⟨⟨hheader, hkeys⟩, hchildren⟩
    refine ⟨hheader, fun p hp => ⟨?_, hchildren p.2 (List.mem_map_of_mem hp)⟩⟩
    exact hkeys p.1 (List.mem_map_of_mem hp)
  · rintro ⟨hheader, hproperties⟩
    refine ⟨⟨hheader, fun key hkey => ?_⟩, fun child hchild => ?_⟩
    · obtain ⟨p, hp, rfl⟩ := List.mem_map.1 hkey
      exact (hproperties p hp).1
    · obtain ⟨p, hp, rfl⟩ := List.mem_map.1 hchild
      exact (hproperties p hp).2

/-- A node whose parts are exchanged finds its own names as before. -/
theorem FindsOwn.withChildren (h : node.FindsOwn known) {children : List Node}
    (hchildren : ∀ child ∈ children, child.Finds known) : (node.withChildren children).Finds known := by
  refine finds_iff.2 ⟨⟨?_, fun key hkey => ?_⟩, fun child hchild => ?_⟩
  · have hheader := h.header
    cases node <;> exact hheader
  · exact h.keys key (mem_keys_of_mem_keys_withChildren hkey)
  · exact hchildren child (mem_of_mem_children_withChildren hchild)

theorem FindsOwn.withHeader (h : node.FindsOwn known) {header : Header} (hheader : header.Finds known) :
    (node.withHeader header).FindsOwn known := by
  refine ⟨by rwa [header_withHeader], ?_⟩
  have hkeys := h.keys
  cases node <;> exact hkeys

end Node

/-! ## Schemas -/

/-- The names that are looked up at the nodes of the registered types are known. -/
def Registry.Finds (known : String → Prop) (types : Registry) : Prop := ∀ e ∈ types, e.2.root.Finds known

theorem Registry.Finds.root {types : Registry} (h : types.Finds known) {name : String} {root : Node}
    (hroot : types.root? name = some root) : root.Finds known := by
  obtain ⟨e, he, rfl⟩ := exists_mem_of_root?_eq_some hroot
  exact h e he

/-- The names that are looked up at the nodes of a schema are known. -/
def Schema.Finds (known : String → Prop) (schema : Schema) : Prop := ∀ root ∈ schema.roots, root.Finds known

namespace Schema

variable {schema : Schema}

theorem Finds.mono {more : String → Prop} (h : schema.Finds known) (hmore : ∀ name, known name → more name) :
    schema.Finds more := fun root hroot => (h root hroot).mono hmore

theorem Finds.types (h : schema.Finds known) : Registry.Finds known schema.types :=
  fun _ he => h _ (mem_roots_of_mem_types he)

/-- The registry takes in the trees of the registered types. -/
theorem Finds.register (h : schema.Finds known) {named : List (String × RegisteredType)}
    (hnamed : ∀ e ∈ named, e.2.schema.Finds known) : (schema.register named).Finds known := by
  intro root hroot
  rcases List.mem_cons.1 hroot with rfl | hroot
  · exact h _ (List.mem_cons_self ..)
  · obtain ⟨e, he, rfl⟩ := List.mem_map.1 hroot
    rcases mem_of_mem_types_register he with he | ⟨type, htype, he | he⟩
    · exact h.types e he
    · rw [he]
      exact hnamed type htype _ (List.mem_cons_self ..)
    · exact (hnamed type htype).types e he

end Schema

/-! ## Resolving rules -/

/-- Resolving a rule fails because a rule is missing, and never because a type is. -/
theorem Header.resolveEnum_meets_finds {h : Header} (hh : h.Finds known) (rules : EnumRules) :
    (h.resolveEnum rules).Meets (Finds known) Problem.MissesNone := by
  cases hresolved : h.resolveEnum rules with
  | ok resolved =>
    obtain ⟨f, rfl, hf⟩ := exists_of_resolveEnum_eq_ok hresolved
    exact hh.change hf
  | error p =>
    rw [resolveEnum] at hresolved
    split at hresolved
    · split at hresolved
      · cases hresolved
      · obtain rfl := Except.error.inj hresolved
        rintro ⟨⟩
    · cases hresolved

theorem Node.resolveEnums_meets_finds {node : Node} (h : node.Finds known) (rules : EnumRules) :
    (node.resolveEnums rules).Meets (Finds known) Problem.MissesNone := by
  induction node using inductionOn with
  | step node ih =>
    obtain ⟨hnode, hchildren⟩ := finds_iff.1 h
    rw [resolveEnums_eq]
    refine (Header.resolveEnum_meets_finds hnode.header rules).bind fun header hheader => ?_
    refine (Except.Meets.mapM fun child hchild => ih child hchild (hchildren child hchild)).bind ?_
    intro children hmap
    exact (hnode.withHeader hheader).withChildren hmap

theorem Schema.Finds.resolveEnums {schema : Schema} (h : schema.Finds known) (rules : EnumRules) :
    (schema.resolveEnums rules).Meets (Schema.Finds known) Problem.MissesNone :=
  mapRoots_meets fun root hroot => Node.resolveEnums_meets_finds (h root hroot) rules

/-! ## Inheriting -/

namespace Properties

variable {properties added : Properties} {p : PropertyKey × Node} {blamed : Mark}

theorem finds_nil : Finds known [] := fun _ hp => (List.not_mem_nil hp).elim

theorem add_meets_finds (h : properties.Finds known) (hp : (p.1.isShortcut = true → known p.1.name) ∧ p.2.Finds known) :
    (properties.add p blamed).Meets (Finds known) Problem.MissesNone := by
  refine .ite nofun fun q hq => ?_
  rcases List.mem_append.1 hq with hq | hq
  · exact h q hq
  · rwa [List.mem_singleton.1 hq]

theorem addAll_meets_finds (h : properties.Finds known) (hadded : added.Finds known) :
    (properties.addAll added).Meets (Finds known) Problem.MissesNone :=
  Except.Meets.foldlM h fun _ hall p hp => add_meets_finds hall (hadded p hp)

theorem Finds.inherited (h : properties.Finds known) : (inherited properties).Finds known := by
  intro p hp
  obtain ⟨q, hq, rfl⟩ := List.mem_map.1 hp
  exact h q hq

end Properties

section

variable {types part : Registry} (hknown : ∀ name, known name → name ∈ Catalog.keys types) (htypes : types.Finds known)
include hknown htypes

/-- **What a type passes on** that is known.  The types on the way to it are entered, and so are known too. -/
theorem passedOn_meets_finds {entered : List String} {name : String}
    (hpart : ∀ other ∉ entered, part.root? other = types.root? other) (hname : known name) :
    (passedOn part entered name).Meets (Properties.Finds known) Problem.MissesNone := by
  induction part, entered, name using passedOn.induct with
  | case1 part entered name hentered =>
    rw [passedOn_of_entered hentered]
    rintro ⟨⟩
  | case2 part entered name hentered hroot =>
    rw [hpart name (by simpa using hentered)] at hroot
    obtain ⟨root, hsome⟩ := Registry.exists_root?_of_mem_keys (hknown name hname)
    cases hroot.symm.trans hsome
  | case3 part entered name hentered header properties hroot ih =>
    have hrest : ∀ other ∉ entered ++ [name], (part.without name).root? other = types.root? other :=
      fun _ => root?_without_of_notMem hpart
    obtain ⟨hheader, hown⟩ := Node.finds_object_iff.1
      (htypes.root ((hpart name (by simpa using hentered)).symm.trans hroot))
    rw [passedOn_of_object hentered hroot]
    refine Except.Meets.bind (Except.Meets.foldlM Properties.finds_nil fun gathered hgathered parent hparent => ?_)
      fun gathered hgathered => Properties.addAll_meets_finds hgathered hown.inherited
    exact (ih parent hrest (hheader.allOf parent hparent)).bind fun added hadded =>
      Properties.addAll_meets_finds hgathered hadded
  | case4 part entered name hentered root hnot hroot =>
    rw [passedOn_of_not_object hentered hroot hnot]
    rintro ⟨⟩

theorem Node.inherit_meets_finds {node : Node} (h : node.Finds known) :
    (node.inherit types).Meets (Finds known) Problem.MissesNone := by
  cases node with
  | object header properties =>
    obtain ⟨hheader, hproperties⟩ := finds_object_iff.1 h
    have hown : Properties.Finds known (properties.filter fun p => !p.1.isInherited) := fun p hp =>
      hproperties p (List.mem_filter.1 hp).1
    rw [inherit]
    refine .ite (Except.Meets.bind (Except.Meets.foldlM (@Properties.finds_nil known) ?_) ?_) h
    · intro gathered hgathered parent hparent
      have hpassed : (passedOn types [] parent).Meets (Properties.Finds known) Problem.MissesNone :=
        passedOn_meets_finds hknown htypes (fun _ _ => rfl) (hheader.allOf parent hparent)
      refine Except.Meets.bind (hpassed.mapError fun _ => id) fun added hadded => ?_
      exact Except.Meets.foldlM hgathered fun _ hall p hp => Properties.add_meets_finds hall (hadded p hp)
    · intro gathered hgathered
      exact (Properties.addAll_meets_finds hgathered hown).bind fun all hall => finds_object_iff.2 ⟨hheader, hall⟩
  | literal | array | mixed | reference => exact h

theorem Node.expand_meets_finds {node : Node} (h : node.Finds known) (levels : Nat) :
    (node.expand types levels).Meets (Finds known) Problem.MissesNone := by
  induction levels generalizing node with
  | zero =>
    rw [expand]
    rintro ⟨⟩
  | succ levels ih =>
    rw [expand_succ]
    refine (inherit_meets_finds hknown htypes h).bind fun whole hwhole => ?_
    obtain ⟨hown, hchildren⟩ := finds_iff.1 hwhole
    exact (Except.Meets.mapM fun child hchild => ih (hchildren child hchild)).bind fun children hmap =>
      hown.withChildren hmap

/-! ## Checks of a node -/

/-- **The JSON types of a type** that is known are looked for among types that are known. -/
theorem jsonTypesFrom_missesNone {entered : List String} {name : String}
    (hpart : ∀ other ∉ entered, part.root? other = types.root? other) (hname : known name) :
    (jsonTypesFrom part entered name).FailsOnly Cause.MissesNone := by
  induction part, entered, name using jsonTypesFrom.induct with
  | case1 part entered name hentered =>
    rw [jsonTypesFrom, if_pos hentered]
    rintro ⟨⟩
  | case2 part entered name hentered hroot =>
    rw [hpart name (by simpa using hentered)] at hroot
    obtain ⟨root, hsome⟩ := Registry.exists_root?_of_mem_keys (hknown name hname)
    cases hroot.symm.trans hsome
  | case3 part entered name hentered root hroot ih =>
    have hrest : ∀ other ∉ name :: entered, (part.without name).root? other = types.root? other := by
      intro other hother
      rw [List.mem_cons, not_or] at hother
      rw [Registry.root?_without, if_neg hother.1, hpart other hother.2]
    have hroot' := (hpart name (by simpa using hentered)).symm.trans hroot
    rw [jsonTypesFrom_of_root hentered hroot]
    refine Except.Meets.bind (Except.FailsOnly.mapM fun other hother => ?_) fun _ _ => trivial
    exact ih other hrest ((htypes.root hroot').findsOwn.header.types other hother)

theorem Registry.jsonTypes_missesNone {name : String} (hname : known name) :
    (types.jsonTypes name).FailsOnly Cause.MissesNone :=
  jsonTypesFrom_missesNone hknown htypes (fun _ _ => rfl) hname

namespace Node

theorem checkReferences_missesNone {node : Node} (h : node.FindsOwn known) :
    (node.checkReferences types).FailsOnly Problem.MissesNone := by
  have hjsonTypes : (node.jsonTypes types).FailsOnly Cause.MissesNone :=
    Except.Meets.bind (Except.FailsOnly.mapM fun name hname =>
      Registry.jsonTypes_missesNone hknown htypes (h.header.types name hname)) fun _ _ => trivial
  unfold checkReferences
  dsimp only
  refine .ite ?_ trivial
  split
  · rintro ⟨⟩
  · refine .ite nofun ((Verdict.on_missesNone hjsonTypes _).bind fun _ _ => ?_)
    exact .ite nofun trivial

theorem checkShortcuts_missesNone {properties : Properties} (h : properties.Finds known) :
    (properties.checkShortcuts types).FailsOnly Problem.MissesNone := by
  refine Except.FailsOnly.forM fun p hp => ?_
  dsimp only
  split
  · next hshortcut =>
    have hjsonTypes := Registry.jsonTypes_missesNone hknown htypes ((h p hp).1 hshortcut)
    exact (Verdict.on_missesNone hjsonTypes _).bind fun _ _ => .ite nofun trivial
  · trivial

omit htypes in
theorem checkAdditional_missesNone {node : Node} (h : node.FindsOwn known) :
    (node.checkAdditional types).FailsOnly Problem.MissesNone := by
  unfold checkAdditional
  split
  · next name hname =>
    dsimp only
    split
    · rintro ⟨⟩
    · next huser =>
      have hname := h.header.additional name hname (by simpa using huser)
      obtain ⟨root, hroot⟩ := Registry.exists_root?_of_mem_keys (hknown name hname)
      simp [hroot, pure, Except.pure]
  · trivial

end Node
end

/-- Two literals that cannot be compared are no missing type. -/
theorem LiteralKey.ofBytes_missesNone (literal : Bytes) : (ofBytes literal).FailsOnly Cause.MissesNone := by
  have hstring := (Literal.string_failsOnly literal.trim).imp (fun _ => id) fun _ => Cause.IsOfValue.missesNone
  unfold ofBytes
  dsimp only
  split
  · exact hstring.bind fun _ _ => trivial
  all_goals first | trivial | exact nofun

namespace Node

theorem checkSuited_missesNone (node : Node) : node.checkSuited.FailsOnly Problem.MissesNone :=
  Except.FailsOnly.forM fun _ _ => .ite trivial nofun

theorem checkBounds_missesNone (node : Node) : node.checkBounds.FailsOnly Problem.MissesNone := by
  -- every way through the four guards ends well or blames a bound
  unfold checkBounds
  dsimp only
  repeat' split
  all_goals first | trivial | exact nofun

theorem checkItems_missesNone (node : Node) (items : List Node) : (node.checkItems items).FailsOnly Problem.MissesNone := by
  unfold checkItems
  dsimp only
  repeat' split
  all_goals first | trivial | exact nofun

/-- Whatever is wrong with a sample, the problem is that the sample is bad. -/
theorem checkSample_missesNone (node : Node) (types : Registry) (sample : Mark) :
    (node.checkSample types sample).FailsOnly Problem.MissesNone := by
  unfold checkSample
  dsimp only
  refine .ite trivial (.ite nofun ?_)
  split
  · split
    · trivial
    · rintro ⟨⟩
  · refine .ite nofun (Except.FailsOnly.forM fun r _ => Verdict.on_missesNone ?_ sample)
    exact r.constraint.check_failsOnly_of_key (fun _ => Cause.IsOfValue.missesNone) (LiteralKey.ofBytes_missesNone _)

end Node

section

variable {types : Registry} (hknown : ∀ name, known name → name ∈ Catalog.keys types) (htypes : types.Finds known)
include hknown htypes

theorem Node.checkShape_missesNone {node : Node} (h : node.Finds known) :
    (node.checkShape types).FailsOnly Problem.MissesNone := by
  cases node with
  | object header properties =>
    refine (checkShortcuts_missesNone hknown htypes (finds_object_iff.1 h).2).bind fun _ _ => ?_
    exact checkAdditional_missesNone hknown h.findsOwn
  | array header items => exact checkItems_missesNone _ items
  | literal header sample? | mixed header sample? =>
    cases sample? with
    | none => trivial
    | some sample => exact checkSample_missesNone _ types sample
  | reference => trivial

/-- **The checks of a node** miss no type if its names are known. -/
theorem Registry.checkNode_missesNone {node : Node} (h : node.Finds known) :
    (types.checkNode node).FailsOnly Problem.MissesNone :=
  node.checkSuited_missesNone.bind fun _ _ =>
    (Node.checkReferences_missesNone hknown htypes h.findsOwn).bind fun _ _ =>
      node.checkBounds_missesNone.bind fun _ _ => Node.checkShape_missesNone hknown htypes h

end

/-! ## Compiling -/

/-- The nodes below one that finds its names find theirs. -/
theorem Node.Finds.of_mem_subnodes {node part : Node} (h : node.Finds known) (hpart : part ∈ node.subnodes) :
    part.Finds known := fun inner hinner => h inner (mem_subnodes_trans hpart hinner)

namespace Schema

variable {schema : Schema}

theorem Finds.of_mem_nodes (h : schema.Finds known) {node : Node} (hnode : node ∈ schema.nodes) :
    node.Finds known := by
  obtain ⟨root, hroot, hnode⟩ := List.mem_flatMap.1 hnode
  exact (h root hroot).of_mem_subnodes hnode

section

variable (hknown : ∀ name, known name → name ∈ Catalog.keys schema.types) (h : schema.Finds known)
include hknown h

theorem Finds.expand : schema.expand.Meets (Finds known) Problem.MissesNone :=
  mapRoots_meets fun root hroot => Node.expand_meets_finds hknown h.types (h root hroot) _

theorem Finds.check : schema.check.FailsOnly Problem.MissesNone := by
  cases hcheck : schema.check with
  | ok => trivial
  | error p =>
    intro hcode
    rcases exists_of_check_eq_error hcheck with ⟨origin, node, before, after, hnodes, -, q, hq, hcause⟩ | hendless
    · have hnode : node ∈ schema.nodes := by
        rw [← map_originated, hnodes]
        simp
      have hmisses := (Registry.checkNode_missesNone hknown h.types (h.of_mem_nodes hnode)).of_error hq
      rw [Problem.MissesNone, Problem.code, hcause] at hmisses
      exact hmisses hcode
    · have hcode' := (Registry.code_of_checkEndless schema.types).of_error hendless
      rw [hcode] at hcode'
      cases hcode'

end

/-- **Compiling misses no type** if all names that are looked up at the nodes of a schema and of the registered types
are known, and those that are known are registered. -/
theorem compile_missesNone (h : schema.Finds known) {named : List (String × RegisteredType)}
    (hnamed : ∀ e ∈ named, e.2.schema.Finds known)
    (hknown : ∀ name, known name → name ∈ Catalog.keys (schema.register named).types) (rules : EnumRules) :
    (schema.compile named rules).FailsOnly Problem.MissesNone := by
  have hregistered := h.register hnamed
  unfold compile
  cases hresolved : (schema.register named).resolveEnums rules with
  | error p => exact (hregistered.resolveEnums rules).of_error hresolved
  | ok resolved =>
    have hfinds := (hregistered.resolveEnums rules).of_ok hresolved
    rw [← keys_mapRoots hresolved] at hknown
    rw [Except.ok_bind]
    cases hexpanded : resolved.expand with
    | error p => exact (hfinds.expand hknown).of_error hexpanded
    | ok expanded =>
      have hfinds' := (hfinds.expand hknown).of_ok hexpanded
      rw [← keys_mapRoots hexpanded] at hknown
      rw [Except.ok_bind]
      exact (hfinds'.check hknown).bind fun _ _ => trivial

end Schema
end ExampleSchema
