import ExampleSchema.Proofs.Accept.Example
import ExampleSchema.Proofs.Depth
import ExampleSchema.Proofs.References

/-!
# The example that a document is

A document that refers to nothing but what is written in place is an example of its own values.  Compiling
such a document leaves its tree as it is written but for the items of `enum` rules, since nothing is
inherited, and each node of the tree has a sample or parts.

* `Node.IsPlain`: a node refers to what is written in place, and only literals are unions.
* `Node.expand_eq_self`, `Node.datum?_of_resolveEnums_eq_ok`: compiling keeps the example.
* `Session.Arises.isSampled`: the nodes of a plain document have their pieces of the example.
* `Session.Arises.validate_datum`: each text that writes the example of a plain document is valid, and there is
  such a text.
-/

namespace ExampleSchema

open Scan (maxDepth)

namespace Node

/-- No name of a property is a type. -/
def HasNoKeyShortcuts : Node → Prop
  | object _ properties => ∀ p ∈ properties, p.1.isShortcut = false
  | _ => True

/-- A node refers to no type of the user, and no property is named by one; it inherits nothing; and it is a
union only if it is neither an object nor an array.  A type of the user may still be named for properties
that are not declared, as the example has none of these. -/
structure IsPlain (node : Node) : Prop extends node.RefersInPlace where
  allOf : .allOf ∉ node.rules.kinds
  keys : node.HasNoKeyShortcuts
  union : node.IsLeaf ∨ .or ∉ node.rules.kinds ∧ .types ∉ node.rules.kinds

instance : (node : Node) → Decidable node.HasNoKeyShortcuts
  | object _ properties => inferInstanceAs (Decidable (∀ p ∈ properties, p.1.isShortcut = false))
  | literal _ _ | array _ _ | mixed _ _ | reference _ _ => .isTrue trivial

instance : (node : Node) → Decidable node.IsLeaf
  | object _ _ | array _ _ => .isFalse id
  | literal _ _ | mixed _ _ | reference _ _ => .isTrue trivial

instance (node : Node) : Decidable node.IsPlain :=
  decidable_of_iff (node.RefersInPlace ∧ .allOf ∉ node.rules.kinds ∧ node.HasNoKeyShortcuts ∧
      (node.IsLeaf ∨ .or ∉ node.rules.kinds ∧ .types ∉ node.rules.kinds))
    ⟨fun ⟨hplace, hallOf, hkeys, hunion⟩ => ⟨hplace, hallOf, hkeys, hunion⟩,
      fun h => ⟨h.toRefersInPlace, h.allOf, h.keys, h.union⟩⟩

/-! ## Compiling a tree without inheritance -/

variable {types : Registry} {rules : EnumRules} {levels : Nat} {node new : Node}

theorem inherit_eq_self (types : Registry) (h : .allOf ∉ node.rules.kinds) : node.inherit types = .ok node := by
  cases node with
  | object header properties =>
    rw [inherit, if_neg]
    exact fun hhas => h (Rules.has_eq_true_iff.1 hhas)
  | literal | array | mixed | reference => rfl

theorem withChildren_children (node : Node) : node.withChildren node.children = node := by
  cases node with
  | object header properties =>
    rw [withChildren, children]
    congr 1
    induction properties with
    | nil => rfl
    | cons p rest ih => rw [List.map_cons, List.zipWith_cons_cons, ih]
  | literal | array | mixed | reference => rfl

/-- **A tree that inherits nothing** stays as it is. -/
theorem expand_eq_self (h : node.expand types levels = .ok new)
    (hallOf : ∀ part ∈ node.subnodes, .allOf ∉ part.rules.kinds) : new = node := by
  induction levels generalizing node new with
  | zero => cases h
  | succ levels ih =>
    rw [expand_succ, inherit_eq_self types (hallOf node node.mem_subnodes_self), Except.ok_bind] at h
    obtain ⟨children, hchildren, h⟩ := Except.bind_eq_ok_iff.1 h
    obtain rfl := Except.ok.inj h
    have hsame : children = node.children := Except.mapM_eq_self hchildren fun child hchild part hpart =>
      ih hpart fun inner hinner => hallOf inner (mem_subnodes_iff.2 (Or.inr ⟨child, hchild, hinner⟩))
    rw [hsame, withChildren_children]

/-- Each node of a tree whose rules have been resolved is one of the tree before, resolved. -/
theorem exists_of_mem_subnodes_resolveEnums (h : node.resolveEnums rules = .ok new) {part : Node}
    (hpart : part ∈ new.subnodes) : ∃ written ∈ node.subnodes, written.resolveEnums rules = .ok part := by
  induction node using inductionOn generalizing new with
  | step node ih =>
    rcases mem_subnodes_iff.1 hpart with rfl | ⟨child, hchild, hbelow⟩
    · exact ⟨node, node.mem_subnodes_self, h⟩
    · rw [resolveEnums_eq] at h
      obtain ⟨header, -, h⟩ := Except.bind_eq_ok_iff.1 h
      obtain ⟨children, hmap, h⟩ := Except.bind_eq_ok_iff.1 h
      obtain rfl := Except.ok.inj h
      obtain ⟨own, hown, hresolved⟩ :=
        Except.exists_of_mem_mapM hmap (mem_of_mem_children_withChildren hchild)
      obtain ⟨written, hwritten, hfound⟩ := ih own hown hresolved hbelow
      exact ⟨written, mem_subnodes_iff.2 (Or.inr ⟨own, hown, hwritten⟩), hfound⟩

/-- Each node of a tree becomes one of the tree whose rules have been resolved. -/
theorem exists_mem_subnodes_of_resolveEnums (h : node.resolveEnums rules = .ok new) {part : Node}
    (hpart : part ∈ node.subnodes) : ∃ resolved ∈ new.subnodes, part.resolveEnums rules = .ok resolved := by
  induction node using inductionOn generalizing new with
  | step node ih =>
    rcases mem_subnodes_iff.1 hpart with rfl | ⟨child, hchild, hbelow⟩
    · exact ⟨new, new.mem_subnodes_self, h⟩
    · rw [resolveEnums_eq] at h
      obtain ⟨header, -, h⟩ := Except.bind_eq_ok_iff.1 h
      obtain ⟨children, hmap, h⟩ := Except.bind_eq_ok_iff.1 h
      obtain rfl := Except.ok.inj h
      obtain ⟨own, hown, hresolved⟩ := Except.exists_mem_of_mapM hmap hchild
      obtain ⟨resolved, hmem, hfound⟩ := ih child hchild hresolved hbelow
      refine ⟨resolved, mem_subnodes_iff.2 (Or.inr ⟨own, ?_, hmem⟩), hfound⟩
      rwa [children_withChildren (by rw [Except.length_of_mapM hmap, children_withHeader])]

mutual

/-- **Resolving the rules of a tree keeps its example.** -/
theorem datum?_of_resolveEnums_eq_ok : ∀ (node : Node) {new : Node}, node.resolveEnums rules = .ok new →
    new.datum? = node.datum?
  | .literal header sample?, new, h | .mixed header sample?, new, h => by
    obtain ⟨changed, -, h⟩ := Except.bind_eq_ok_iff.1 h
    obtain rfl := Except.ok.inj h
    rfl
  | .reference header names, new, h => by
    obtain ⟨changed, -, h⟩ := Except.bind_eq_ok_iff.1 h
    obtain rfl := Except.ok.inj h
    rfl
  | .object header properties, new, h => by
    obtain ⟨changed, -, h⟩ := Except.bind_eq_ok_iff.1 h
    obtain ⟨parts, hparts, h⟩ := Except.bind_eq_ok_iff.1 h
    obtain rfl := Except.ok.inj h
    rw [datum?, datum?, membersOf?_of_resolveEnums_eq_ok properties hparts]
  | .array header items, new, h => by
    obtain ⟨changed, -, h⟩ := Except.bind_eq_ok_iff.1 h
    obtain ⟨parts, hparts, h⟩ := Except.bind_eq_ok_iff.1 h
    obtain rfl := Except.ok.inj h
    rw [datum?, datum?, itemsOf?_of_resolveEnums_eq_ok items hparts]

theorem membersOf?_of_resolveEnums_eq_ok : ∀ (properties : List (PropertyKey × Node))
    {new : List (PropertyKey × Node)}, resolveEnumsOfProperties rules properties = .ok new →
    membersOf? new = membersOf? properties
  | [], new, h => by
    obtain rfl := Except.ok.inj h
    rfl
  | (key, node) :: rest, new, h => by
    obtain ⟨part, hpart, h⟩ := Except.bind_eq_ok_iff.1 h
    obtain ⟨others, hothers, h⟩ := Except.bind_eq_ok_iff.1 h
    obtain rfl := Except.ok.inj h
    rw [membersOf?, membersOf?, datum?_of_resolveEnums_eq_ok node hpart,
      membersOf?_of_resolveEnums_eq_ok rest hothers]

theorem itemsOf?_of_resolveEnums_eq_ok : ∀ (items : List Node) {new : List Node},
    resolveEnumsOfItems rules items = .ok new → itemsOf? new = itemsOf? items
  | [], new, h => by
    obtain rfl := Except.ok.inj h
    rfl
  | node :: rest, new, h => by
    obtain ⟨part, hpart, h⟩ := Except.bind_eq_ok_iff.1 h
    obtain ⟨others, hothers, h⟩ := Except.bind_eq_ok_iff.1 h
    obtain rfl := Except.ok.inj h
    rw [itemsOf?, itemsOf?, datum?_of_resolveEnums_eq_ok node hpart,
      itemsOf?_of_resolveEnums_eq_ok rest hothers]

end

/-- Resolving the rules of properties keeps how the properties are written. -/
theorem map_fst_of_resolveEnumsOfProperties {properties changed : List (PropertyKey × Node)}
    (h : resolveEnumsOfProperties rules properties = .ok changed) :
    changed.map Prod.fst = properties.map Prod.fst := by
  induction properties generalizing changed with
  | nil =>
    obtain rfl := Except.ok.inj h
    rfl
  | cons p rest ih =>
    obtain ⟨part, -, h⟩ := Except.bind_eq_ok_iff.1 h
    obtain ⟨others, hothers, h⟩ := Except.bind_eq_ok_iff.1 h
    obtain rfl := Except.ok.inj h
    rw [List.map_cons, List.map_cons, ih hothers]

theorem HasReadKeys.resolveEnums (h : node.HasReadKeys) (hresolved : node.resolveEnums rules = .ok new) :
    new.HasReadKeys := by
  cases node with
  | object header properties =>
    obtain ⟨changed, -, hresolved⟩ := Except.bind_eq_ok_iff.1 hresolved
    obtain ⟨parts, hparts, hresolved⟩ := Except.bind_eq_ok_iff.1 hresolved
    obtain rfl := Except.ok.inj hresolved
    have hsame := map_fst_of_resolveEnumsOfProperties hparts
    obtain ⟨hnodup, hread⟩ := h
    refine ⟨?_, fun p hp => ?_⟩
    · have hnames := congrArg (List.map PropertyKey.name) hsame
      rw [List.map_map, List.map_map] at hnames
      exact (congrArg List.Nodup hnames).mpr hnodup
    · have hkey := List.mem_map_of_mem (f := Prod.fst) hp
      rw [hsame] at hkey
      obtain ⟨old, hold, heq⟩ := List.mem_map.1 hkey
      exact heq ▸ hread old hold
  | array header items =>
    obtain ⟨changed, -, hresolved⟩ := Except.bind_eq_ok_iff.1 hresolved
    obtain ⟨parts, -, hresolved⟩ := Except.bind_eq_ok_iff.1 hresolved
    obtain rfl := Except.ok.inj hresolved
    trivial
  | literal | mixed | reference =>
    obtain ⟨changed, -, hresolved⟩ := Except.bind_eq_ok_iff.1 hresolved
    obtain rfl := Except.ok.inj hresolved
    trivial

/-- Resolving the rules of a tree keeps its layout. -/
theorem IsLaidOut.resolveEnums {depth : Nat} (h : node.IsLaidOut depth)
    (hresolved : node.resolveEnums rules = .ok new) : new.IsLaidOut depth := by
  induction depth generalizing node new with
  | zero =>
    cases node with
    | object | array => exact h.elim
    | literal | mixed | reference =>
      obtain ⟨changed, -, hresolved⟩ := Except.bind_eq_ok_iff.1 hresolved
      obtain rfl := Except.ok.inj hresolved
      trivial
  | succ depth ih =>
    obtain ⟨hkeys, hchildren⟩ := h
    refine ⟨hkeys.resolveEnums hresolved, fun child hchild => ?_⟩
    rw [resolveEnums_eq] at hresolved
    obtain ⟨header, -, hresolved⟩ := Except.bind_eq_ok_iff.1 hresolved
    obtain ⟨children, hmap, hresolved⟩ := Except.bind_eq_ok_iff.1 hresolved
    obtain rfl := Except.ok.inj hresolved
    obtain ⟨own, hown, hpart⟩ := Except.exists_of_mem_mapM hmap (mem_of_mem_children_withChildren hchild)
    exact ih (hchildren own hown) hpart

/-! ## Plain nodes -/

/-- A node that is written as a literal has a sample. -/
def HasSample : Node → Prop
  | literal _ sample? | mixed _ sample? => sample?.isSome = true
  | _ => True

theorem hasSample_withHeader {header : Header} : (node.withHeader header).HasSample ↔ node.HasSample := by
  cases node <;> exact Iff.rfl

/-- A value in a document is its own sample. -/
theorem IsWritten.hasSample {isRead : List Rule → Prop} (h : node.IsWritten isRead .value) : node.HasSample := by
  generalize horigin : Provenance.value = origin at h
  induction h with
  | sample => rfl
  | object | array => trivial
  | shortcut hmark =>
    obtain ⟨header, names, rfl, -⟩ := exists_of_shortcutNode hmark
    trivial
  | member | union => cases horigin
  | rules _ _ happly ih =>
    obtain ⟨header, -, hbecomes⟩ := exists_becomes_of_apply_eq_ok happly
    cases hbecomes with
    | same => exact hasSample_withHeader.2 (ih horigin)
    | opened hnode | referring hnode =>
      subst hnode
      exact ih horigin
  | header _ _ _ _ _ ih => exact hasSample_withHeader.2 (ih horigin)

/-- A node in place of which names stand, stands for types of the user. -/
def NamesUserTypes : Node → Prop
  | reference _ names => ∀ name ∈ names, isUserTypeName name = true
  | _ => True

theorem namesUserTypes_withHeader {header : Header} :
    (node.withHeader header).NamesUserTypes ↔ node.NamesUserTypes := by
  cases node <;> exact Iff.rfl

/-- The names in place of a written node are those of types of the user. -/
theorem IsWritten.namesUserTypes {isRead : List Rule → Prop} {origin : Provenance}
    (h : node.IsWritten isRead origin) : node.NamesUserTypes := by
  induction h with
  | sample | object | array => trivial
  | shortcut hmark =>
    obtain ⟨header, names, rfl, hnames, -⟩ := exists_of_shortcutNode hmark
    exact fun name hname => Shortcut.isUserTypeName_of_mem hnames hname
  | member type basis =>
    cases type with
    | builtin type => cases type <;> trivial
    | user name => trivial
  | rules _ _ happly ih =>
    obtain ⟨header, -, hbecomes⟩ := exists_becomes_of_apply_eq_ok happly
    cases hbecomes with
    | same => exact namesUserTypes_withHeader.2 ih
    | opened | referring => trivial
  | header _ _ _ _ _ ih | union _ _ ih => exact namesUserTypes_withHeader.2 ih

/-- A plain node that is no union refers to nothing. -/
theorem RefersInPlace.typeNames_eq_nil (h : node.RefersInPlace) (hnodup : node.rules.kinds.Nodup)
    (htypes : .types ∉ node.rules.kinds) : node.rules.typeNames = [] := by
  refine List.eq_nil_iff_forall_not_mem.2 fun name hname => ?_
  rcases (Rules.mem_typeNames_iff hnodup).1 hname with ⟨r, hr, hc⟩ | ⟨r, hr, names, hc, -⟩
  · exact h.type r hr name hc
  · exact htypes (List.mem_map.2 ⟨r, hr, by rw [Rule.kind, hc]; rfl⟩)

end Node

namespace Session

variable {s : Session} {loaded schema : Schema}

/-- **The nodes of a plain document have their pieces of the example**, once it has been compiled. -/
theorem Arises.isSampled (hs : s.Arises) (hload : s.load = .ok loaded) (h : s.compiled = .ok schema)
    (hplain : ∀ node ∈ loaded.nodes, node.IsPlain) {node part : Node} (hnode : node ∈ loaded.root.subnodes)
    (hpart : node.resolveEnums s.rules = .ok part) : part.IsSampled schema.types := by
  obtain ⟨notes, hloaded⟩ := Schema.exists_isLoaded_of_load_eq_ok hload
  obtain ⟨-, hnotes⟩ := Schema.isLaidOut_of_load_eq_ok hload hloaded.notes_eq
  have hwritten := hloaded.areWritten node hnode
  have hread := hwritten.mono fun _ => IsReadFrom.areRead
  have hnested : node.bare.IsWritten
      (UnionsNestWithin (loaded.unnamed s.source s.source.name).Has maxDepth) .value := by
    refine hwritten.mono fun added hadded => ?_
    rcases hadded with rfl | ⟨note, hnote, rules, hrules, hreads⟩
    · exact fun _ hr => (List.not_mem_nil hr).elim
    · exact hreads.unionsNestWithin (hnotes note hnote rules hrules)
  have hself := hplain node (Schema.mem_nodes_iff.2 (Or.inl hnode))
  have htypes : ∀ e ∈ loaded.types, e.2.root.RefersInPlace := fun e he =>
    (hplain _ (Schema.mem_nodes_iff.2 (Or.inr ⟨e, he, e.2.root.mem_subnodes_self⟩))).toRefersInPlace
  have hnodup : node.rules.kinds.Nodup := by
    rw [Node.rules, ← Node.header_bare]
    exact hread.isRegular.nodup
  have hnames := Node.typeNames_of_resolveEnums_eq_ok hpart
  have hnone : .types ∉ node.rules.kinds → part.rules.typeNames = [] := fun htypes =>
    hnames.trans (hself.typeNames_eq_nil hnodup htypes)
  cases node with
  | literal header sample? =>
    obtain ⟨changed, -, hpart⟩ := Except.bind_eq_ok_iff.1 hpart
    obtain rfl := Except.ok.inj hpart
    obtain ⟨sample, rfl⟩ := Option.isSome_iff_exists.1 hwritten.hasSample
    refine .literal (hnone fun htypes => ?_)
    exact (hread.isStated.literal header (some sample) rfl).1 (hread.or_mem_iff.2 htypes)
  | mixed header sample? =>
    obtain ⟨changed, -, hpart⟩ := Except.bind_eq_ok_iff.1 hpart
    obtain rfl := Except.ok.inj hpart
    obtain ⟨sample, rfl⟩ := Option.isSome_iff_exists.1 hwritten.hasSample
    exact .mixed (hs.refersWithin hload h htypes hnested hself.toRefersInPlace hnames)
  | reference header names =>
    obtain ⟨hne, hmem⟩ := hread.isRegular.names header names rfl
    obtain ⟨name, hname⟩ := List.exists_mem_of_ne_nil names hne
    have hother := (hwritten.exists_of_mem_typeNames hself.toRefersInPlace (hmem name hname)).1
    cases hother.symm.trans (hwritten.namesUserTypes name hname)
  | object header properties =>
    obtain ⟨changed, -, hpart⟩ := Except.bind_eq_ok_iff.1 hpart
    obtain ⟨parts, hparts, hpart⟩ := Except.bind_eq_ok_iff.1 hpart
    obtain rfl := Except.ok.inj hpart
    refine .object (hnone (hself.union.resolve_left id).2) fun p hp => ?_
    have hkey := List.mem_map_of_mem (f := Prod.fst) hp
    rw [Node.map_fst_of_resolveEnumsOfProperties hparts] at hkey
    obtain ⟨old, hold, heq⟩ := List.mem_map.1 hkey
    exact heq ▸ hself.keys old hold
  | array header items =>
    obtain ⟨changed, -, hpart⟩ := Except.bind_eq_ok_iff.1 hpart
    obtain ⟨parts, -, hpart⟩ := Except.bind_eq_ok_iff.1 hpart
    obtain rfl := Except.ok.inj hpart
    exact .array (hnone (hself.union.resolve_left id).2)

/-- **The example of a plain document is valid.**  If a plain document compiles, then it has an example, which is
written by some text, and validation accepts every text that writes it. -/
theorem Arises.validate_datum (hs : s.Arises) (hload : s.load = .ok loaded) (h : s.compiled = .ok schema)
    (hplain : ∀ node ∈ loaded.nodes, node.IsPlain) : ∃ d, loaded.root.datum? = some d ∧
      (∃ text v, Value.parse ⟨"value", text⟩ = .ok v ∧ v.datum = d) ∧
      ∀ text v, Value.parse ⟨"value", text⟩ = .ok v → v.datum = d → s.validate text = .ok () := by
  obtain ⟨loaded', hload', hcompile⟩ := hs.exists_of_compiled_eq_ok h
  obtain rfl := Except.ok.inj (hload.symm.trans hload')
  obtain ⟨resolved, hresolved, hexpanded, -⟩ := Schema.compile_eq_ok_iff.1 hcompile
  have hroot : loaded.root.resolveEnums s.rules = .ok resolved.root := (Schema.exists_of_mapRoots hresolved).1
  have hsame : schema.root = resolved.root := by
    refine Node.expand_eq_self (Schema.exists_of_mapRoots hexpanded).1 fun part hpart => ?_
    obtain ⟨node, hnode, hpart⟩ := Node.exists_of_mem_subnodes_resolveEnums hroot hpart
    obtain ⟨f, hrules, hf⟩ := Node.exists_change_of_resolveEnums_eq_ok hpart
    rw [hrules, Rules.kinds_change hf]
    exact (hplain node (Schema.mem_nodes_iff.2 (Or.inl hnode))).allOf
  rw [← hsame] at hroot
  have hsampled : ∀ part ∈ schema.root.subnodes, part.IsSampled schema.types := by
    intro part hpart
    obtain ⟨node, hnode, hpart⟩ := Node.exists_of_mem_subnodes_resolveEnums hroot hpart
    exact hs.isSampled hload h hplain hnode hpart
  have hnodes : ∀ part ∈ schema.root.subnodes, part ∈ schema.nodes := fun part hpart =>
    Schema.mem_nodes_iff.2 (Or.inl hpart)
  obtain ⟨notes, hloaded⟩ := Schema.exists_isLoaded_of_load_eq_ok hload
  have hlaidOut := (Schema.isLaidOut_of_load_eq_ok hload hloaded.notes_eq).1.resolveEnums hroot
  obtain ⟨d, hd, hwritable⟩ := Node.exists_datum? hlaidOut hsampled fun part hpart =>
    (hs.isStated h (hnodes part hpart)).sample
  refine ⟨d, ?_, hwritable.exists_parse "value", fun text v hparse hv => ?_⟩
  · rw [← Node.datum?_of_resolveEnums_eq_ok loaded.root hroot, hd]
  · rw [validate, h, Except.ok_bind, hparse]
    refine Registry.accept_datum hlaidOut hsampled (fun part hpart => hs.checkNode_eq_ok h (hnodes part hpart)) ?_ ?_
    · rw [hd, hv]
    · decide

/-- What a document is loaded as and compiled to, if it is plain. -/
def plain? (document : String) : Option (Schema × Schema) :=
  match (ofText document).load, (ofText document).compiled with
  | .ok loaded, .ok schema => if ∀ node ∈ loaded.nodes, node.IsPlain then some (loaded, schema) else none
  | _, _ => none

/-- An object with a number in place of which a string may stand, and with a list. -/
def person : String :=
  "\x7b \"id\": 5, // \x7bor: [\"integer\", \x7btype: \"string\", minLength: 2\x7d]\x7d\n" ++
  "  \"tags\": [\"a\", null] // \x7bminItems: 1\x7d\n\x7d"

/-- That object is an example of its own values. -/
theorem validate_person : ∃ loaded schema, (ofText person).load = .ok loaded ∧
    (ofText person).compiled = .ok schema ∧ (∀ node ∈ loaded.nodes, node.IsPlain) ∧
    ∃ d, loaded.root.datum? = some d ∧ (∃ text v, Value.parse ⟨"value", text⟩ = .ok v ∧ v.datum = d) ∧
      ∀ text v, Value.parse ⟨"value", text⟩ = .ok v → v.datum = d →
        (ofText person).validate text = .ok () := by
  have hperson : (plain? person).isSome = true := by decide +kernel
  rw [plain?] at hperson
  split at hperson
  · next loaded schema hload hcompiled =>
    rw [Option.isSome_ite] at hperson
    exact ⟨loaded, schema, hload, hcompiled, hperson,
      (arises_ofText person).validate_datum hload hcompiled hperson⟩
  · cases hperson

end Session
end ExampleSchema
