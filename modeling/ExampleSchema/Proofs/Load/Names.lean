import ExampleSchema.Proofs.Depth
import ExampleSchema.Proofs.Lookup

/-!
# The names in a loaded schema

A name in a rule, in a shortcut or as the name of a property is that of a type of the user, or the name that a member
of a union has been given.  The first kind is reported as a type that the schema refers to, the second is that of an
unnamed type of the schema.  So every name that is going to be looked up is either reported or there already.

* `Constraint.names`: the types that a constraint names.
* `ReadsRules.isNamed`: the names in rules that have been read.
* `Node.IsWritten.finds`: those in a written node.
* `Schema.finds_of_load_eq_ok`: those in what a document loads as.
* `Schema.Finds.reported`: what is looked up by the name of a type of the user is reported.
-/

namespace ExampleSchema

variable {stands : String → Node → Nat → Prop} {known : String → Prop}

/-! ## Constraints -/

/-- The types that a constraint refers to or inherits from. -/
def Constraint.names : Constraint → List String
  | .type (.user name) => [name]
  | .types names | .allOf names => names
  | _ => []

/-- What names types is of one of the kinds that do. -/
theorem Constraint.kind_of_mem_names {c : Constraint} {name : String} (h : name ∈ c.names) :
    c.kind = .type ∨ c.kind = .types ∨ c.kind = .allOf ∨ c.kind = .additionalProperties := by
  cases c with
  | type => exact Or.inl rfl
  | types => exact Or.inr (Or.inl rfl)
  | allOf => exact Or.inr (Or.inr (Or.inl rfl))
  | _ => cases h

namespace Rules

variable {rules : Rules} {name : String}

/-- What is found among rules is the constraint of one. -/
theorem exists_of_constraint?_eq_some {kind : ConstraintKind} {c : Constraint} (h : rules.constraint? kind = some c) :
    ∃ r ∈ rules, r.constraint = c := by
  obtain ⟨r, hr, hc⟩ := Option.map_eq_some_iff.1 h
  exact ⟨r, List.mem_of_find?_eq_some hr, hc⟩

theorem exists_of_mem_typeNames (h : name ∈ rules.typeNames) : ∃ r ∈ rules, name ∈ r.constraint.names := by
  rcases List.mem_append.1 h with h | h
  · rw [userType?] at h
    split at h
    · next other hc =>
      obtain ⟨r, hr, hc⟩ := exists_of_constraint?_eq_some hc
      refine ⟨r, hr, ?_⟩
      rw [hc]
      exact h
    · cases h
  · rw [unionNames] at h
    split at h
    · next names hc =>
      obtain ⟨r, hr, hc⟩ := exists_of_constraint?_eq_some hc
      refine ⟨r, hr, ?_⟩
      rw [hc]
      exact h
    · cases h

end Rules

theorem Header.exists_of_mem_allOfNames {h : Header} {name : String} (hname : name ∈ h.allOfNames) :
    ∃ r ∈ h.rules, name ∈ r.constraint.names := by
  rw [allOfNames] at hname
  split at hname
  · next names hc =>
    obtain ⟨r, hr, hc⟩ := Rules.exists_of_constraint?_eq_some hc
    refine ⟨r, hr, ?_⟩
    rw [hc]
    exact hname
  · cases hname

/-! ## Names that are read -/

/-- The rules of a shortcut have its names. -/
theorem Shortcut.mem_of_mem_rules {mark : Mark} {names : List String} {r : Rule} (hr : r ∈ rules mark names)
    {name : String} (hname : name ∈ r.constraint.names) : name ∈ names := by
  rcases names with _ | ⟨first, _ | ⟨second, rest⟩⟩
  case cons.nil =>
    rw [List.mem_singleton.1 hr] at hname
    exact hname
  all_goals
    rcases List.mem_cons.1 hr with rfl | hr
    · exact hname
    · rw [List.mem_singleton.1 hr] at hname
      cases hname

namespace RuleValue

variable {name : String}

theorem isUserTypeName_of_singleName {kind : ConstraintKind} {expected : Expected} {mark : Mark}
    (h : singleName kind expected mark = .ok name) : isUserTypeName name = true := by
  obtain ⟨names, hnames, h⟩ := Except.bind_eq_ok_iff.1 h
  split at h
  · obtain rfl := Except.ok.inj h
    exact Shortcut.isUserTypeName_of_mem hnames (List.mem_singleton.2 rfl)
  · cases h

/-- What a `type` rule names, where it is no built-in type, is called as a type of the user. -/
theorem isUserTypeName_of_typeName {value : RuleValue} (h : value.typeName = .ok (.user name)) :
    isUserTypeName name = true := by
  unfold typeName at h
  split at h
  · next mark =>
    obtain ⟨single, hsingle, h⟩ := Except.map_eq_ok_iff.1 h
    obtain rfl := TypeName.user.inj h
    exact isUserTypeName_of_singleName hsingle
  · obtain ⟨word?, -, h⟩ := Except.bind_eq_ok_iff.1 h
    split at h
    · next word =>
      have hread := Except.mapError_eq_ok_iff.1 h
      rw [TypeName.read] at hread
      split at hread
      · cases hread
      · split at hread
        · next huser =>
          obtain rfl := TypeName.user.inj (Except.ok.inj hread)
          exact huser
        · cases hread
    · cases h

theorem isUserTypeName_of_readAllOfName {word : String} (h : readAllOfName word = .ok name) :
    isUserTypeName name = true := by
  rw [readAllOfName] at h
  split at h
  · next huser =>
    obtain rfl := Except.ok.inj h
    exact huser
  · cases h

mutual
/-- What an `allOf` rule names is called as types of the user. -/
theorem isUserTypeName_of_allOfNames : ∀ (value : RuleValue) {names : List String}, value.allOfNames = .ok names →
    ∀ name ∈ names, isUserTypeName name = true
  | .shortcut mark, names, h => by
    rw [allOfNames] at h
    exact fun name hname => Shortcut.isUserTypeName_of_mem h hname
  | .array mark items, names, h => by
    rw [allOfNames] at h
    exact isUserTypeName_of_allOfNamesOf items h
  | .literal mark, names, h => by
    rw [allOfNames] at h
    obtain ⟨word?, -, h⟩ := Except.bind_eq_ok_iff.1 h
    split at h
    · obtain ⟨name, hname, h⟩ := Except.bind_eq_ok_iff.1 h
      obtain rfl := Except.ok.inj h
      exact List.forall_mem_singleton.2 (isUserTypeName_of_readAllOfName (Except.mapError_eq_ok_iff.1 hname))
    · cases h
  | .object mark rules, names, h => by
    rw [allOfNames] at h
    cases h

theorem isUserTypeName_of_allOfNamesOf : ∀ (items : List RuleValue) {names : List String},
    allOfNamesOf items = .ok names → ∀ name ∈ names, isUserTypeName name = true
  | [], names, h => by
    rw [allOfNamesOf] at h
    obtain rfl := Except.ok.inj h
    exact List.forall_mem_nil _
  | item :: rest, names, h => by
    rw [allOfNamesOf] at h
    obtain ⟨own, hown, h⟩ := Except.bind_eq_ok_iff.1 h
    obtain ⟨others, hothers, h⟩ := Except.bind_eq_ok_iff.1 h
    obtain rfl := Except.ok.inj h
    exact List.forall_mem_append.2 ⟨isUserTypeName_of_allOfNames item (Except.mapError_eq_ok_iff.1 hown),
      isUserTypeName_of_allOfNamesOf rest hothers⟩
end

/-- What a rule names that is no union is called as a type of the user. -/
theorem isUserTypeName_of_constraint {rule : String} {key : Mark} {value : RuleValue} {c : Constraint}
    (h : value.constraint rule key = .ok c) (hname : name ∈ c.names) : isUserTypeName name = true := by
  have hmap : ∀ {α : Type} {x : Outcome α} {f : α → Constraint}, f <$> x = .ok c → ∃ a, x = .ok a ∧ f a = c :=
    Except.map_eq_ok_iff.1
  rw [constraint] at h
  split at h
  · cases h
  · obtain ⟨type, htype, rfl⟩ := hmap h
    cases type with
    | builtin => cases hname
    | user =>
      obtain rfl := List.mem_singleton.1 hname
      exact isUserTypeName_of_typeName htype
  · obtain ⟨names, hnames, rfl⟩ := hmap h
    exact isUserTypeName_of_allOfNames value hnames name hname
  · obtain ⟨items, -, rfl⟩ := hmap h
    cases hname
  · obtain ⟨others, -, rfl⟩ := hmap h
    cases hname
  · cases h
  · next kind _ htype hallOf _ hadditional _ _ =>
    obtain ⟨mark, -, h⟩ := Except.bind_eq_ok_iff.1 h
    split at h
    · next verdict hread =>
      obtain rfl : verdict = .ok c := Except.mapError_eq_ok_iff.1 h
      have hkind := Constraint.kind_eq_of_read? hread
      rcases Constraint.kind_of_mem_names hname with hc | hc | hc | hc
      all_goals
        rw [hkind] at hc
        subst hc
        first | cases hread | contradiction
    · cases h

end RuleValue

/-! ## Rules -/

/-- The name of a type of the user, or one that stands for a node. -/
def IsNamed (stands : String → Node → Nat → Prop) (name : String) : Prop :=
  isUserTypeName name = true ∨ ∃ node start, stands name node start

/-- A member of a union is called as a type of the user, or its name stands for it. -/
theorem ReadsMember.isNamed {item : RuleValue} {names : List String} (h : ReadsMember stands item names) :
    ∀ name ∈ names, IsNamed stands name := by
  intro name hname
  cases h with
  | shortcut hnames => exact Or.inl (Shortcut.isUserTypeName_of_mem hnames hname)
  | userType _ huser =>
    obtain rfl := List.mem_singleton.1 hname
    exact Or.inl huser
  | builtinType _ _ _ hstands | rules _ _ hstands =>
    obtain rfl := List.mem_singleton.1 hname
    exact Or.inr ⟨_, _, hstands⟩

theorem ReadsUnion.isNamed {value : RuleValue} {names : List String} (h : ReadsUnion stands value names) :
    ∀ name ∈ names, IsNamed stands name := by
  intro name hname
  cases h with
  | shortcut hnames => exact Or.inl (Shortcut.isUserTypeName_of_mem hnames hname)
  | array _ hmembers =>
    obtain ⟨item, -, own, hitem, hown⟩ := hmembers.exists_of_mem hname
    exact hitem.isNamed name hown

/-- **The names in rules that have been read.** -/
theorem ReadsRules.isNamed {rules : List (String × Mark × RuleValue)} {added : List Rule}
    (h : ReadsRules stands rules added) : ∀ r ∈ added, ∀ name ∈ r.constraint.names, IsNamed stands name := by
  induction rules generalizing added with
  | nil =>
    cases h
    exact List.forall_mem_nil _
  | cons rule rest ih =>
    cases h with
    | union _ hvalue hrest =>
      exact List.forall_mem_cons.2
        ⟨hvalue.isNamed, List.forall_mem_cons.2 ⟨List.forall_mem_nil _, ih hrest⟩⟩
    | rule _ hconstraint hrest =>
      refine List.forall_mem_cons.2 ⟨fun name hname => ?_, ih hrest⟩
      exact Or.inl (RuleValue.isUserTypeName_of_constraint hconstraint hname)

/-- **The names in a written node.** -/
theorem Node.IsWritten.finds {isRead : List Rule → Prop} {origin : Provenance} {node : Node}
    (h : node.IsWritten isRead origin) (huser : ∀ name, isUserTypeName name = true → known name)
    (hread : ∀ added, isRead added → ∀ r ∈ added, ∀ name ∈ r.constraint.names, known name) :
    node.header.Finds known := by
  have hrules : ∀ r ∈ node.rules, ∀ name ∈ r.constraint.names, known name := by
    intro r hr name hname
    rcases h.exists_of_names hr (Constraint.kind_of_mem_names hname) with ⟨mark, names, hnames, hr⟩ | ⟨added, hadded, hr⟩
    · exact huser name (Shortcut.isUserTypeName_of_mem hnames (Shortcut.mem_of_mem_rules hr hname))
    · exact hread added hadded r hr name hname
  refine ⟨fun name hname => ?_, fun name hname => ?_, fun name _ => huser name⟩
  · obtain ⟨r, hr, hname⟩ := Rules.exists_of_mem_typeNames hname
    exact hrules r hr name hname
  · obtain ⟨r, hr, hname⟩ := Header.exists_of_mem_allOfNames hname
    exact hrules r hr name hname

/-! ## Properties -/

namespace Node

variable {node : Node}

/-- The keys of the properties in a tree as it has been read. -/
theorem IsLaidOut.isRead_of_mem_keys {levels : Nat} (h : node.IsLaidOut levels) :
    ∀ part ∈ node.subnodes, ∀ key ∈ part.keys, key.IsRead := by
  induction levels generalizing node with
  | zero =>
    intro part hpart key hkey
    cases node with
    | object | array => exact h.elim
    | literal | mixed | reference =>
      rw [List.mem_singleton.1 hpart] at hkey
      cases hkey
  | succ levels ih =>
    intro part hpart key hkey
    rcases mem_subnodes_iff.1 hpart with rfl | ⟨child, hchild, hpart⟩
    · cases part with
      | object header properties =>
        obtain ⟨p, hp, rfl⟩ := List.mem_map.1 hkey
        exact h.1.2 p hp
      | literal | array | mixed | reference => cases hkey
    · exact ih (h.2 child hchild) part hpart key hkey

theorem keys_eq_nil_of_children (h : node.children = []) : node.keys = [] := by
  cases node with
  | object header properties => exact List.map_eq_nil_iff.2 (List.map_eq_nil_iff.1 h)
  | literal | array | mixed | reference => rfl

end Node

/-! ## Schemas -/

namespace Schema

variable {schema : Schema}

/-- The types that a schema reports are those of the user that its nodes refer to. -/
theorem mem_userTypes_iff {name : String} : name ∈ schema.userTypes ↔
    isUserTypeName name = true ∧ ∃ node ∈ schema.nodes, name ∈ node.referredNames := by
  rw [userTypes, List.mem_mergeSort, List.mem_eraseDups, List.mem_filter, and_comm, List.mem_flatMap]
  rfl

/-- **What is looked up by the name of a type of the user is reported.** -/
theorem Finds.reported (h : schema.Finds fun name => isUserTypeName name = true ∨ known name) :
    schema.Finds fun name => name ∈ schema.userTypes ∨ known name := by
  intro root hroot part hpart
  have hreported : ∀ name ∈ part.referredNames, isUserTypeName name = true ∨ known name →
      name ∈ schema.userTypes ∨ known name := by
    intro name hname hfinds
    refine hfinds.imp_left fun huser => mem_userTypes_iff.2 ⟨huser, part, ?_, hname⟩
    exact List.mem_flatMap.2 ⟨root, hroot, hpart⟩
  obtain ⟨⟨htypes, hallOf, hadditional⟩, hkeys⟩ := h root hroot part hpart
  refine ⟨⟨fun name hname => ?_, fun name hname => ?_, fun name hname huser => ?_⟩, fun key hkey hshortcut => ?_⟩
  · refine hreported name ?_ (htypes name hname)
    exact List.mem_append_left _ (List.mem_append_left _ hname)
  · refine hreported name ?_ (hallOf name hname)
    exact List.mem_append_left _ (List.mem_append_right _ (List.mem_append_left _ hname))
  · refine hreported name ?_ (hadditional name hname huser)
    refine List.mem_append_left _ (List.mem_append_right _ (List.mem_append_right _ ?_))
    rw [show part.rules.constraint? .additionalProperties = _ from hname]
    exact List.mem_singleton.2 rfl
  · refine hreported key.name ?_ (hkeys key hkey hshortcut)
    refine List.mem_append_right _ ?_
    cases part with
    | object header properties =>
      obtain ⟨p, hp, rfl⟩ := List.mem_map.1 hkey
      exact List.mem_map.2 ⟨p, List.mem_filter.2 ⟨hp, hshortcut⟩, rfl⟩
    | literal | array | mixed | reference => cases hkey

/-- **The names in what a document loads as** are those of types of the user and those of its unnamed types. -/
theorem finds_of_load_eq_ok {source : Source} {owner : String} (h : Schema.load source owner = .ok schema) :
    schema.Finds fun name => isUserTypeName name = true ∨ name ∈ Catalog.keys schema.types := by
  obtain ⟨notes, hloaded⟩ := exists_isLoaded_of_load_eq_ok h
  have hlaidOut := (isLaidOut_of_load_eq_ok h hloaded.notes_eq).1
  have hnamed : ∀ name, IsNamed (schema.unnamed source owner).Has name →
      isUserTypeName name = true ∨ name ∈ Catalog.keys schema.types := by
    rintro name (huser | ⟨node, start, hhas⟩)
    · exact Or.inl huser
    · exact Or.inr (List.mem_map_of_mem (f := Prod.fst) (Catalog.mem_of_find?_eq_some hhas))
  intro root hroot
  rcases List.mem_cons.1 hroot with rfl | hroot
  · intro part hpart
    have hread := hlaidOut.isRead_of_mem_keys part hpart
    refine ⟨?_, fun key hkey hshortcut => Or.inl ((hread key hkey).shortcut hshortcut)⟩
    have hwritten := hloaded.areWritten part hpart
    rw [← Node.header_bare]
    refine hwritten.finds (fun _ => Or.inl) fun added hadded r hr name hname => hnamed name ?_
    rcases hadded with rfl | ⟨note, -, rules, -, hreads⟩
    · cases hr
    · exact hreads.isNamed r hr name hname
  · obtain ⟨e, he, rfl⟩ := List.mem_map.1 hroot
    have hwritten := hloaded.inOrder.areWritten e he
    refine Node.finds_iff.2 ⟨⟨?_, ?_⟩, ?_⟩
    · refine hwritten.finds (fun _ => Or.inl) fun added hadded r hr name hname => hnamed name ?_
      obtain ⟨rules, hreads⟩ := hadded
      exact hreads.isNamed r hr name hname
    · rw [Node.keys_eq_nil_of_children hwritten.children_eq_nil]
      exact List.forall_mem_nil _
    · rw [hwritten.children_eq_nil]
      exact List.forall_mem_nil _

end Schema
end ExampleSchema
