import ExampleSchema.Proofs.Check
import ExampleSchema.Proofs.Load.Loading
import ExampleSchema.Proofs.Session

/-!
# Where the nodes of a compiled schema come from

Compiling copies nodes: types join a registry, `enum` rules are filled in, objects take over properties.
It never makes up a node.  Each node of a compiled schema is, but for the nodes below it, a node that was
written in a document of the session, with the items of its `enum` rule filled in.

* `Provenance.ofName`: what the tree under a name is built from.
* `Node.ThroughoutFrom`: something holds of each node of a tree, without its parts, given the origin of
  the tree.
* `Schema.Everywhere`: the same of each tree of a schema.
* `Schema.Everywhere.register`, `Schema.Everywhere.resolveEnums`, `Schema.Everywhere.expand`: one for each
  step of compiling.
* `Session.Arises.everywhere`: where the nodes of a prepared schema come from.
-/

namespace ExampleSchema

/-- What the tree of a registered type is built from: that of a type of the user from a value, that of an
unnamed type from a member of a union. -/
def Provenance.ofName (name : String) : Provenance := if isUserTypeName name then .value else .member

theorem Provenance.ofName_of_isUserTypeName {name : String} (h : isUserTypeName name = true) :
    ofName name = .value := if_pos h

theorem Provenance.ofName_nameOf (owner : String) (number : Nat) :
    ofName (Unnamed.nameOf owner number) = .member :=
  if_neg fun h => Unnamed.nameOf_ne_userTypeName h rfl

variable {P Q : Provenance → Node → Prop} {origin : Provenance}

/-- The node is no array that has items. -/
def Node.HasNoItems : Node → Prop
  | .array _ items => items = []
  | _ => True

/-- Something holds of the root of a tree by the origin of the tree, and of each node below as of a value;
each node is taken without its parts.  An array that is a union member has none. -/
structure Node.ThroughoutFrom (P : Provenance → Node → Prop) (origin : Provenance) (node : Node) : Prop where
  bare : P origin node.bare
  children : ∀ child ∈ node.children, child.Throughout (P .value)
  hasNoItems : origin = .member → node.HasNoItems

theorem Node.throughoutFrom_value_iff {node : Node} :
    node.ThroughoutFrom P .value ↔ node.Throughout (P .value) := by
  rw [throughout_iff]
  exact ⟨fun h => ⟨h.bare, h.children⟩, fun h => ⟨h.1, h.2, nofun⟩⟩

/-! ## Registering -/

/-- Something holds of each node of the registered types, without its parts. -/
def Registry.Everywhere (P : Provenance → Node → Prop) (types : Registry) : Prop :=
  ∀ e ∈ types, e.2.root.ThroughoutFrom P (Provenance.ofName e.1)

namespace Registry.Everywhere

variable {types : Registry} {name : String} {entry : TypeEntry}

theorem insert (h : Registry.Everywhere P types)
    (hentry : entry.root.ThroughoutFrom P (Provenance.ofName name)) :
    Registry.Everywhere P (Catalog.insert types name entry) := by
  intro e he
  rcases Catalog.mem_or_eq_of_mem_insert he with he | rfl
  · exact h e he
  · exact hentry

theorem insertNew (h : Registry.Everywhere P types)
    (hentry : entry.root.ThroughoutFrom P (Provenance.ofName name)) :
    Registry.Everywhere P (Catalog.insertNew types name entry) := by
  intro e he
  rcases Catalog.mem_or_eq_of_mem_insertNew he with he | rfl
  · exact h e he
  · exact hentry

end Registry.Everywhere

/-- Something holds of each node of a schema, without its parts. -/
structure Schema.Everywhere (P : Provenance → Node → Prop) (schema : Schema) : Prop where
  root : schema.root.ThroughoutFrom P .value
  types : Registry.Everywhere P schema.types

namespace Schema.Everywhere

variable {schema : Schema}

/-- Of each node what holds does so for one of the origins. -/
theorem exists_of_mem_nodes (h : schema.Everywhere P) {node : Node} (hnode : node ∈ schema.nodes) :
    ∃ origin, P origin node.bare := by
  have hroot : ∀ {origin : Provenance} {root : Node}, root.ThroughoutFrom P origin →
      node ∈ root.subnodes → ∃ origin, P origin node.bare := by
    intro origin root hroot hnode
    rcases Node.mem_subnodes_iff.1 hnode with rfl | ⟨child, hchild, hnode⟩
    · exact ⟨origin, hroot.bare⟩
    · exact ⟨.value, hroot.children child hchild node hnode⟩
  rcases mem_nodes_iff.1 hnode with hnode | ⟨e, he, hnode⟩
  · exact hroot h.root hnode
  · exact hroot (h.types e he) hnode

/-- The registry takes in the trees of the registered types. -/
theorem register (h : schema.Everywhere P) {named : List (String × RegisteredType)}
    (hnames : ∀ e ∈ named, isUserTypeName e.1 = true)
    (hnamed : ∀ e ∈ named, e.2.schema.Everywhere P) : (schema.register named).Everywhere P := by
  have hown : Registry.Everywhere P (named.foldl (fun (types : Registry) e =>
      Catalog.insert types e.1 { root := e.2.schema.root, source := e.2.source, start := 0 })
      schema.types) := by
    refine List.foldlRecOn (motive := Registry.Everywhere P) _ _ h.types fun _ htypes e he => ?_
    refine htypes.insert ?_
    rw [Provenance.ofName_of_isUserTypeName (hnames e he)]
    exact (hnamed e he).root
  have hunnamed : Registry.Everywhere P (named.flatMap fun e => e.2.schema.types) := by
    intro e he
    obtain ⟨type, htype, he⟩ := List.mem_flatMap.1 he
    exact (hnamed type htype).types e he
  have hnone : Registry.Everywhere P [] := by simp [Registry.Everywhere]
  have hpromoted : Registry.Everywhere P ((named.flatMap fun e => e.2.schema.types).foldl
      (fun types e => Catalog.insert types e.1 e.2) []) :=
    List.foldlRecOn (motive := Registry.Everywhere P) _ _ hnone fun _ htypes e he =>
      htypes.insert (hunnamed e he)
  exact ⟨h.root, List.foldlRecOn (motive := Registry.Everywhere P) _ _ hown fun _ htypes e he =>
    htypes.insertNew (hpromoted e he)⟩

end Schema.Everywhere

/-! ## Changing each tree -/

/-- Changing each tree keeps the names. -/
theorem Schema.exists_of_mapRoots {schema changed : Schema} {change : Node → Outcome Node}
    (h : schema.mapRoots change = .ok changed) : change schema.root = .ok changed.root ∧
      ∀ e ∈ changed.types, ∃ old ∈ schema.types, old.1 = e.1 ∧ change old.2.root = .ok e.2.root := by
  obtain ⟨root, hroot, h⟩ := Except.bind_eq_ok_iff.1 h
  obtain ⟨types, htypes, h⟩ := Except.bind_eq_ok_iff.1 h
  obtain rfl := Except.ok.inj h
  refine ⟨hroot, fun e he => ?_⟩
  obtain ⟨old, hold, he⟩ := Except.exists_of_mem_mapM htypes he
  obtain ⟨entry, hentry, he⟩ := Except.bind_eq_ok_iff.1 he
  obtain rfl := Except.ok.inj he
  obtain ⟨root, hroot, hentry⟩ := Except.bind_eq_ok_iff.1 hentry
  obtain rfl := Except.ok.inj hentry
  exact ⟨old, hold, rfl, hroot⟩

theorem Schema.exists_of_mem_roots_mapRoots {schema changed : Schema} {change : Node → Outcome Node}
    (h : schema.mapRoots change = .ok changed) {root : Node} (hroot : root ∈ changed.roots) :
    ∃ old ∈ schema.roots, change old = .ok root := by
  obtain ⟨hfirst, htypes⟩ := exists_of_mapRoots h
  rcases List.mem_cons.1 hroot with rfl | hroot
  · exact ⟨_, List.mem_cons_self .., hfirst⟩
  · obtain ⟨e, he, rfl⟩ := List.mem_map.1 hroot
    obtain ⟨old, hold, -, hnew⟩ := htypes e he
    exact ⟨_, mem_roots_of_mem_types hold, hnew⟩

/-- Changing each tree guarantees of each what the change of a tree does, and fails as that does. -/
theorem Schema.mapRoots_meets {schema : Schema} {change : Node → Outcome Node} {good : Node → Prop}
    {bad : Problem → Prop} (h : ∀ root ∈ schema.roots, (change root).Meets good bad) :
    (schema.mapRoots change).Meets (fun changed => ∀ root ∈ changed.roots, good root) bad := by
  have hentries : ∀ e ∈ schema.types, (do return (e.1, ← e.2.mapRoot change) : Outcome (String × TypeEntry)).Meets
      (fun changed => good changed.2.root) bad := by
    intro e he
    have hentry : (e.2.mapRoot change).Meets (fun entry => good entry.root) bad :=
      (h e.2.root (mem_roots_of_mem_types he)).bind fun _ hnew => hnew
    exact hentry.bind fun _ hnew => hnew
  refine (h schema.root (List.mem_cons_self ..)).bind fun root hroot => ?_
  refine (Except.Meets.mapM hentries).bind fun types htypes => List.forall_mem_cons.2 ⟨hroot, fun root hroot => ?_⟩
  obtain ⟨e, he, rfl⟩ := List.mem_map.1 hroot
  exact htypes e he

/-- Changing each tree keeps what the change of a tree keeps. -/
theorem Schema.Everywhere.mapRoots {schema changed : Schema} {change : Node → Outcome Node}
    (h : schema.Everywhere P) (hchanged : schema.mapRoots change = .ok changed)
    (hchange : ∀ (origin : Provenance) (old new : Node), old.ThroughoutFrom P origin →
      change old = .ok new → new.ThroughoutFrom Q origin) : changed.Everywhere Q := by
  obtain ⟨hroot, htypes⟩ := exists_of_mapRoots hchanged
  refine ⟨hchange _ _ _ h.root hroot, fun e he => ?_⟩
  obtain ⟨old, hold, hname, hnew⟩ := htypes e he
  rw [← hname]
  exact hchange _ _ _ (h.types old hold) hnew

/-! ## Resolving rules -/

namespace Node

@[simp] theorem bare_withChildren (node : Node) (children : List Node) :
    (node.withChildren children).bare = node.bare := by cases node <;> rfl

theorem mem_of_mem_children_withChildren {node child : Node} {children : List Node}
    (h : child ∈ (node.withChildren children).children) : child ∈ children := by
  cases node with
  | object header properties =>
    obtain ⟨p, hp, rfl⟩ := List.mem_map.1 h
    obtain ⟨i, hi, rfl⟩ := List.getElem_of_mem hp
    rw [List.getElem_zipWith]
    exact List.getElem_mem _
  | array header items => exact h
  | literal | mixed | reference => cases h

theorem children_withChildren {node : Node} {children : List Node} (h : children.length = node.children.length) :
    (node.withChildren children).children = children := by
  cases node with
  | object header properties =>
    rw [Node.children, List.length_map] at h
    exact List.ext_getElem (by simp [withChildren, Node.children, h]) (by simp [withChildren, Node.children])
  | array header items => rfl
  | literal | mixed | reference => exact (List.eq_nil_of_length_eq_zero h).symm

end Node

theorem resolveEnumsOfProperties_eq (rules : EnumRules) (properties : Properties) :
    resolveEnumsOfProperties rules properties = (do
      return properties.zipWith (fun p child => (p.1, child))
        (← (properties.map Prod.snd).mapM (Node.resolveEnums rules))) := by
  rw [← Except.mapM_update_eq]
  induction properties with
  | nil => rfl
  | cons p rest ih =>
    rw [resolveEnumsOfProperties, ih, List.mapM_cons]
    cases p.2.resolveEnums rules <;> rfl

theorem resolveEnumsOfItems_eq (rules : EnumRules) (items : List Node) :
    resolveEnumsOfItems rules items = items.mapM (Node.resolveEnums rules) := by
  induction items with
  | nil => rfl
  | cons node rest ih => rw [resolveEnumsOfItems, ih, List.mapM_cons]

namespace Node

/-- Resolving the rules of a node is resolving its own and those of its parts. -/
theorem resolveEnums_eq (rules : EnumRules) (node : Node) :
    node.resolveEnums rules = (do
      let header ← node.header.resolveEnum rules
      let children ← node.children.mapM (Node.resolveEnums rules)
      return (node.withHeader header).withChildren children) := by
  cases node with
  | object header properties =>
    simp only [resolveEnums, resolveEnumsOfProperties_eq, Node.header, children]
    cases header.resolveEnum rules with
    | error p => rfl
    | ok header => cases (properties.map Prod.snd).mapM (Node.resolveEnums rules) <;> rfl
  | array header items =>
    simp only [resolveEnums, resolveEnumsOfItems_eq, Node.header, children]
    rfl
  | literal | mixed | reference => simp only [resolveEnums, Node.header, children]; rfl

theorem resolveEnums_bare {rules : EnumRules} {node : Node} {header : Header}
    (h : node.header.resolveEnum rules = .ok header) :
    node.bare.resolveEnums rules = .ok (node.bare.withHeader header) := by
  rw [resolveEnums_eq, header_bare, h]
  cases node <;> rfl

/-- Each node of the new tree is a node of the old one with its rules resolved. -/
theorem Throughout.resolveEnums {P : Node → Prop} {rules : EnumRules} {old new : Node}
    (hold : old.Throughout P) (h : old.resolveEnums rules = .ok new) :
    new.Throughout fun bare => ∃ old, P old ∧ old.resolveEnums rules = .ok bare := by
  induction old using inductionOn generalizing new with
  | step old ih =>
    obtain ⟨hnode, hchildren⟩ := throughout_iff.1 hold
    rw [resolveEnums_eq] at h
    obtain ⟨header, hheader, h⟩ := Except.bind_eq_ok_iff.1 h
    obtain ⟨children, hmap, h⟩ := Except.bind_eq_ok_iff.1 h
    obtain rfl := Except.ok.inj h
    refine throughout_iff.2 ⟨⟨old.bare, hnode, ?_⟩, fun child hchild => ?_⟩
    · rw [bare_withChildren, bare_withHeader, resolveEnums_bare hheader]
    · obtain ⟨part, hpart, hresolved⟩ :=
        Except.exists_of_mem_mapM hmap (mem_of_mem_children_withChildren hchild)
      exact ih part hpart (hchildren part hpart) hresolved

/-- An array without items has none once its parts have been changed one by one. -/
theorem HasNoItems.withChildren {node : Node} (h : node.HasNoItems) {change : Node → Outcome Node}
    {children : List Node} (hmap : node.children.mapM change = .ok children) :
    (node.withChildren children).HasNoItems := by
  cases node with
  | array header items =>
    obtain rfl : items = [] := h
    obtain rfl := Except.ok.inj hmap
    rfl
  | literal | object | mixed | reference => trivial

theorem HasNoItems.withHeader {node : Node} (h : node.HasNoItems) (header : Header) :
    (node.withHeader header).HasNoItems := by
  cases node <;> exact h

theorem ThroughoutFrom.resolveEnums {rules : EnumRules} {old new : Node}
    (hold : old.ThroughoutFrom P origin) (h : old.resolveEnums rules = .ok new) :
    new.ThroughoutFrom (fun origin bare => ∃ old, P origin old ∧ old.resolveEnums rules = .ok bare)
      origin := by
  rw [resolveEnums_eq] at h
  obtain ⟨header, hheader, h⟩ := Except.bind_eq_ok_iff.1 h
  obtain ⟨children, hmap, h⟩ := Except.bind_eq_ok_iff.1 h
  obtain rfl := Except.ok.inj h
  refine ⟨⟨old.bare, hold.bare, ?_⟩, fun child hchild => ?_, fun horigin => ?_⟩
  · rw [bare_withChildren, bare_withHeader, resolveEnums_bare hheader]
  · obtain ⟨part, hpart, hresolved⟩ :=
      Except.exists_of_mem_mapM hmap (mem_of_mem_children_withChildren hchild)
    exact (hold.children part hpart).resolveEnums hresolved
  · rw [← children_withHeader old header] at hmap
    exact ((hold.hasNoItems horigin).withHeader header).withChildren hmap

end Node

/-! ## Inheriting -/

namespace Node

/-- Inheriting changes the parts of a node only. -/
theorem inherit_bare {types : Registry} {node whole : Node} (h : node.inherit types = .ok whole) :
    whole.bare = node.bare := by
  cases node with
  | object header properties =>
    rw [inherit] at h
    split at h
    · obtain ⟨gathered, -, h⟩ := Except.bind_eq_ok_iff.1 h
      obtain ⟨all, -, h⟩ := Except.bind_eq_ok_iff.1 h
      obtain rfl := Except.ok.inj h
      rfl
    · obtain rfl := Except.ok.inj h
      rfl
  | array | literal | mixed | reference =>
    obtain rfl := Except.ok.inj h
    rfl

/-- An array does not inherit. -/
theorem HasNoItems.inherit {types : Registry} {node whole : Node} (h : node.HasNoItems)
    (hwhole : node.inherit types = .ok whole) : whole.HasNoItems := by
  have hbare := inherit_bare hwhole
  cases node with
  | array =>
    obtain rfl := Except.ok.inj hwhole
    exact h
  | literal | object | mixed | reference =>
    cases whole with
    | array => cases hbare
    | literal | object | mixed | reference => trivial

/-- What an object has once it has inherited: its own parts and those of types. -/
theorem throughout_of_mem_inherit {types : Registry} (htypes : Registry.Everywhere P types)
    {node whole : Node} (hchildren : ∀ child ∈ node.children, child.Throughout (P .value))
    (h : node.inherit types = .ok whole) : ∀ child ∈ whole.children, child.Throughout (P .value) := by
  intro child hchild
  rcases (inherit_meets types node).of_ok h child hchild with hchild | ⟨e, he, hchild⟩
  · exact hchildren child hchild
  · exact (htypes e he).children child hchild

/-- Each node of the new tree is a node of the old one or of a type. -/
theorem Throughout.expand {types : Registry} (htypes : Registry.Everywhere P types) {levels : Nat}
    {old new : Node} (hold : old.Throughout (P .value)) (h : old.expand types levels = .ok new) :
    new.Throughout (P .value) := by
  induction levels generalizing old new with
  | zero => cases h
  | succ levels ih =>
    rw [expand_succ] at h
    obtain ⟨whole, hwhole, h⟩ := Except.bind_eq_ok_iff.1 h
    obtain ⟨children, hmap, h⟩ := Except.bind_eq_ok_iff.1 h
    obtain rfl := Except.ok.inj h
    obtain ⟨hnode, hchildren⟩ := throughout_iff.1 hold
    refine throughout_iff.2 ⟨?_, fun child hchild => ?_⟩
    · rwa [bare_withChildren, inherit_bare hwhole]
    · obtain ⟨part, hpart, hexpanded⟩ :=
        Except.exists_of_mem_mapM hmap (mem_of_mem_children_withChildren hchild)
      exact ih (throughout_of_mem_inherit htypes hchildren hwhole part hpart) hexpanded

theorem ThroughoutFrom.expand {types : Registry} (htypes : Registry.Everywhere P types)
    {levels : Nat} {old new : Node} (hold : old.ThroughoutFrom P origin)
    (h : old.expand types levels = .ok new) : new.ThroughoutFrom P origin := by
  cases levels with
  | zero => cases h
  | succ levels =>
    rw [expand_succ] at h
    obtain ⟨whole, hwhole, h⟩ := Except.bind_eq_ok_iff.1 h
    obtain ⟨children, hmap, h⟩ := Except.bind_eq_ok_iff.1 h
    obtain rfl := Except.ok.inj h
    refine ⟨?_, fun child hchild => ?_, fun horigin => ?_⟩
    · rw [bare_withChildren, inherit_bare hwhole]
      exact hold.bare
    · obtain ⟨part, hpart, hexpanded⟩ :=
        Except.exists_of_mem_mapM hmap (mem_of_mem_children_withChildren hchild)
      exact (throughout_of_mem_inherit htypes hold.children hwhole part hpart).expand htypes hexpanded
    · exact ((hold.hasNoItems horigin).inherit hwhole).withChildren hmap

end Node

namespace Schema.Everywhere

variable {schema changed : Schema}

theorem resolveEnums (h : schema.Everywhere P) {rules : EnumRules}
    (hchanged : schema.resolveEnums rules = .ok changed) :
    changed.Everywhere fun origin bare =>
      ∃ old, P origin old ∧ old.resolveEnums rules = .ok bare :=
  h.mapRoots hchanged fun _ _ _ hold => hold.resolveEnums

theorem expand (h : schema.Everywhere P) (hchanged : schema.expand = .ok changed) :
    changed.Everywhere P :=
  h.mapRoots hchanged fun _ _ _ hold => hold.expand h.types

end Schema.Everywhere

/-! ## Compiling -/

/-- The nodes of a loaded schema come of reading rules. -/
theorem Schema.everywhere_of_load_eq_ok {source : Source} {owner : String} {schema : Schema}
    (h : Schema.load source owner = .ok schema) :
    schema.Everywhere (Node.IsWritten AreRead) := by
  obtain ⟨notes, hloaded⟩ := exists_isLoaded_of_load_eq_ok h
  refine ⟨Node.throughoutFrom_value_iff.2 (hloaded.areWritten.mono fun _ => IsReadFrom.areRead),
    fun e he => ?_⟩
  have hwritten := (hloaded.inOrder.areWritten e he).mono fun _ => ReadIn.areRead
  obtain ⟨number, hname⟩ := hloaded.inOrder.exists_eq_nameOf (List.mem_map_of_mem he)
  rw [hname, Provenance.ofName_nameOf]
  have hchildren := hwritten.children_eq_nil
  refine ⟨by rwa [hwritten.bare_eq], ?_, fun _ => ?_⟩
  · rw [hchildren]
    exact nofun
  · cases hroot : e.2.root with
    | array header items =>
      rw [hroot] at hchildren
      exact hchildren
    | literal | object | mixed | reference => trivial

/-- A node comes of a value or of a member of a union, and the items of its `enum` rule have been filled
in. -/
def Session.Makes (s : Session) (origin : Provenance) (node : Node) : Prop :=
  ∃ written : Node, written.IsWritten AreRead origin ∧ written.resolveEnums s.rules = .ok node

namespace Session.Arises

variable {s : Session}

/-- **Where the nodes of a prepared schema come from**: each was written, without the nodes below it, in
some document, and the items of its `enum` rule have been filled in. -/
theorem everywhere (hs : s.Arises) {loaded resolved schema : Schema} (hload : s.load = .ok loaded)
    (hresolved : (loaded.register s.types).resolveEnums s.rules = .ok resolved)
    (hexpanded : resolved.expand = .ok schema) : schema.Everywhere s.Makes := by
  have hregistered := (Schema.everywhere_of_load_eq_ok hload).register
    (fun e he => (hs.load_of_mem_types he).1)
    (fun e he => Schema.everywhere_of_load_eq_ok (hs.load_of_mem_types he).2)
  exact (hregistered.resolveEnums hresolved).expand hexpanded

/-- Where a node of a compiled schema comes from. -/
theorem exists_makes (hs : s.Arises) {schema : Schema} (h : s.compiled = .ok schema) {node : Node}
    (hnode : node ∈ schema.nodes) : ∃ origin, s.Makes origin node.bare := by
  obtain ⟨loaded, hload, hcompile⟩ := hs.exists_of_compiled_eq_ok h
  obtain ⟨resolved, hresolved, hexpanded, -⟩ := Schema.compile_eq_ok_iff.1 hcompile
  exact (hs.everywhere hload hresolved hexpanded).exists_of_mem_nodes hnode

end Session.Arises

end ExampleSchema
