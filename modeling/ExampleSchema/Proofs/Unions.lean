import ExampleSchema.Proofs.Rules

/-!
# What the members of unions stand for

The members of a union that are written in place become types without a name, called after the owner of
their document.  Each document is loaded on its own, and compiling puts the types of all documents into
one registry.  A name tells the owner, and a registered type is called differently from every other, so
the types of different documents stay apart.  The exception is the document that the session is about: it
is called after its file, and a file may be called like a registered type.

* `Session.Clashes`: names are given to two types.
* `Session.Resolves`: a name leads to what compiling makes of a node.
* `Node.IsWritten.exists_of_types`: where a union comes from.
* `Schema.find?_register`: what is registered under a name.
* `Session.Arises.keepsUnions_iff`: every name that a union gives to a member leads to that member, exactly
  if names do not clash.
* `Session.twins_lose`: the exception.
-/

namespace ExampleSchema

/-! ## Where a union comes from -/

/-- The union of a shortcut is the shortcut. -/
theorem Shortcut.eq_of_mem_rules {mark : Mark} {names others : List String} {r : Rule}
    (hr : r ∈ rules mark names) (hc : r.constraint = .types others) :
    r.mark? = some mark ∧ others = names := by
  rcases names with _ | ⟨first, _ | ⟨second, rest⟩⟩
  case cons.nil =>
    rw [List.mem_singleton.1 hr] at hc
    cases hc
  all_goals
    rcases List.mem_cons.1 hr with rfl | hr
    · exact ⟨rfl, (Constraint.types.inj hc).symm⟩
    · rw [List.mem_singleton.1 hr] at hc
      cases hc

/-- A rule of a written node that names types is one of a shortcut or has been read. -/
theorem Node.IsWritten.exists_of_names {isRead : List Rule → Prop} {origin : Provenance} {node : Node}
    (h : node.IsWritten isRead origin) {r : Rule} (hr : r ∈ node.rules)
    (hkind : r.kind = .type ∨ r.kind = .types ∨ r.kind = .allOf ∨ r.kind = .additionalProperties) :
    (∃ mark names, Shortcut.names mark = .ok names ∧ r ∈ Shortcut.rules mark names) ∨
      ∃ added, isRead added ∧ r ∈ added := by
  induction h with
  | sample | object | array => cases hr
  | member type basis =>
    rw [rules_memberNode] at hr
    cases hr
  | @shortcut mark node hmark =>
    obtain ⟨header, names, rfl, hnames, hrules, -⟩ := exists_of_shortcutNode hmark
    rw [Node.rules, Node.header, hrules] at hr
    exact Or.inl ⟨mark, names, hnames, hr⟩
  | @rules _ node changed added hnode hadded happly ih =>
    obtain ⟨header, hheader, hchanged, -⟩ := exists_header_of_apply_eq_ok happly
    obtain ⟨formats, f, hrules, hf, hformats, -⟩ := Header.exists_of_apply_eq_ok hheader
    rw [hchanged, hrules] at hr
    have hr := Rules.mem_of_mem_change_of_names hf hr hkind
    rcases List.mem_append.1 hr with hr | hr
    · rcases List.mem_append.1 hr with hr | hr
      · exact ih hr
      · exact Or.inr ⟨added, hadded, hr⟩
    · obtain ⟨format, hformat⟩ := hformats r hr
      rw [Rule.kind, hformat] at hkind
      simp [Constraint.kind] at hkind
  | header header _ _ _ hrules ih =>
    rw [rules_withHeader, hrules] at hr
    exact ih hr
  | union _ _ ih =>
    rw [rules_withHeader] at hr
    exact ih hr

/-- A union of a written node is a shortcut or has been read. -/
theorem Node.IsWritten.exists_of_types {isRead : List Rule → Prop} {origin : Provenance} {node : Node}
    (h : node.IsWritten isRead origin) {r : Rule} (hr : r ∈ node.rules) {names : List String}
    (hc : r.constraint = .types names) :
    (∃ mark, r.mark? = some mark ∧ Shortcut.names mark = .ok names) ∨
      ∃ added, isRead added ∧ r ∈ added := by
  have hkind : r.kind = .types := by rw [Rule.kind, hc, Constraint.kind]
  rcases h.exists_of_names hr (Or.inr (Or.inl hkind)) with ⟨mark, others, hnames, hr⟩ | hread
  · obtain ⟨hblamed, rfl⟩ := Shortcut.eq_of_mem_rules hr hc
    exact Or.inl ⟨mark, hblamed, hnames⟩
  · exact Or.inr hread

/-! ## The registry of a compiled schema -/

/-- The entry of a registered type. -/
def RegisteredType.entry (type : RegisteredType) : TypeEntry :=
  { root := type.schema.root, source := type.source, start := 0 }

namespace Schema

/-- The registry takes in the registered types, and then those of their unnamed types whose names are
new. -/
theorem types_register (schema : Schema) (named : List (String × RegisteredType)) :
    (schema.register named).types =
      (Catalog.insertAll [] (named.flatMap fun e => e.2.schema.types)).foldl
        (fun types e => Catalog.insertNew types e.1 e.2)
        (Catalog.insertAll schema.types (named.map fun e => (e.1, e.2.entry))) := by
  rw [Catalog.insertAll, Catalog.insertAll, List.foldl_map]
  rfl

/-- **What is registered under a name**: a type of the user, an unnamed type of the document, or an
unnamed type of a type of the user. -/
theorem find?_register (schema : Schema) (named : List (String × RegisteredType)) (name : String) :
    Catalog.find? (schema.register named).types name =
      ((Catalog.find? (named.map fun e => (e.1, e.2.entry)).reverse name).or
        (Catalog.find? schema.types name)).or
        (Catalog.find? (named.flatMap fun e => e.2.schema.types).reverse name) := by
  rw [types_register, Catalog.find?_foldl_insertNew, Catalog.find?_insertAll, Catalog.find?_insertAll,
    Catalog.find?_nil, Option.or_none]

/-- A type of a registry is an unnamed type of the document, a type of the user, or an unnamed type of that. -/
theorem mem_of_mem_types_register {schema : Schema} {named : List (String × RegisteredType)}
    {e : String × TypeEntry} (he : e ∈ (schema.register named).types) : e ∈ schema.types ∨
      ∃ type ∈ named, e.2.root = type.2.schema.root ∨ e ∈ type.2.schema.types := by
  rw [types_register] at he
  rcases Catalog.mem_or_mem_of_mem_foldl_insertNew he with he | he
  · refine (Catalog.mem_or_mem_of_mem_insertAll he).imp_right fun he => ?_
    obtain ⟨type, htype, rfl⟩ := List.mem_map.1 he
    exact ⟨type, htype, Or.inl rfl⟩
  · rcases Catalog.mem_or_mem_of_mem_insertAll he with he | he
    · exact (List.not_mem_nil he).elim
    · obtain ⟨type, htype, he⟩ := List.mem_flatMap.1 he
      exact Or.inr ⟨type, htype, Or.inr he⟩

/-- The names of a registry. -/
theorem mem_keys_register_iff {schema : Schema} {named : List (String × RegisteredType)} {name : String} :
    name ∈ Catalog.keys (schema.register named).types ↔ name ∈ Catalog.keys named ∨
      name ∈ Catalog.keys schema.types ∨ ∃ type ∈ named, name ∈ Catalog.keys type.2.schema.types := by
  have hnamed : Catalog.keys (named.map fun e => (e.1, e.2.entry)).reverse = (Catalog.keys named).reverse := by
    simp [Catalog.keys]
  have hunnamed : name ∈ Catalog.keys (named.flatMap fun e => e.2.schema.types).reverse ↔
      ∃ type ∈ named, name ∈ Catalog.keys type.2.schema.types := by
    simp only [Catalog.keys, List.mem_map, List.mem_reverse, List.mem_flatMap]
    constructor
    · rintro ⟨e, ⟨type, htype, he⟩, hname⟩
      exact ⟨type, htype, e, he, hname⟩
    · rintro ⟨type, htype, e, he, hname⟩
      exact ⟨e, ⟨type, htype, he⟩, hname⟩
  rw [← not_iff_not, ← Catalog.find?_eq_none_iff, find?_register, Option.or_eq_none_iff, Option.or_eq_none_iff,
    Catalog.find?_eq_none_iff, Catalog.find?_eq_none_iff, Catalog.find?_eq_none_iff, hnamed, hunnamed,
    List.mem_reverse, not_or, not_or, and_assoc]

/-- A registry has no name twice. -/
theorem nodup_keys_register {schema : Schema} (h : (Catalog.keys schema.types).Nodup)
    (named : List (String × RegisteredType)) : (Catalog.keys (schema.register named).types).Nodup := by
  rw [types_register]
  exact Catalog.nodup_keys_foldl_insertNew (Catalog.nodup_keys_insertAll h _) _

/-- Changing the trees of a schema changes those that are found. -/
theorem exists_find?_mapRoots {schema changed : Schema} {change : Node → Outcome Node}
    (h : schema.mapRoots change = .ok changed) {name : String} {entry : TypeEntry}
    (hentry : Catalog.find? schema.types name = some entry) :
    ∃ root, change entry.root = .ok root ∧
      Catalog.find? changed.types name = some { entry with root } := by
  obtain ⟨root, -, h⟩ := Except.bind_eq_ok_iff.1 h
  obtain ⟨types, htypes, h⟩ := Except.bind_eq_ok_iff.1 h
  obtain rfl := Except.ok.inj h
  obtain ⟨new, hnew, hfind⟩ := Catalog.exists_find?_of_mapM_eq_ok htypes hentry
  obtain ⟨root, hroot, hnew⟩ := Except.bind_eq_ok_iff.1 hnew
  obtain rfl := Except.ok.inj hnew
  exact ⟨root, hroot, hfind⟩

end Schema

/-! ## Unions of a session -/

namespace Session

/-- A registered type has the name of the document and is not written like it, and both have unnamed
types. -/
def Clashes (s : Session) : Prop :=
  ∃ loaded type, s.load = .ok loaded ∧ (s.source.name, type) ∈ s.types ∧ type.source ≠ s.source ∧
    loaded.types ≠ [] ∧ type.schema.types ≠ []

/-- What compiling makes of a tree: its rules are resolved and its objects inherit. -/
def Finishes (s : Session) (node finished : Node) : Prop :=
  ∃ loaded resolved part, s.load = .ok loaded ∧
    (loaded.register s.types).resolveEnums s.rules = .ok resolved ∧
    node.resolveEnums s.rules = .ok part ∧
    part.expand resolved.types (resolved.nodeCount + 1) = .ok finished

/-- In a compiled schema a name leads to what compiling makes of a node of some document. -/
def Resolves (s : Session) (schema : Schema) (source : Source) (name : String) (node : Node)
    (start : Nat) : Prop :=
  ∃ root, s.Finishes node root ∧ Catalog.find? schema.types name = some { root, source, start }

/-- What is kept, in a compiled schema, of the unions of a document and of its unnamed types. -/
structure KeepsUnions (s : Session) (schema : Schema) (source : Source) (loaded : Schema) : Prop where
  /-- No unnamed type is lost. -/
  unnamed : ∀ e ∈ loaded.types, e.2.source = source ∧
    s.Resolves schema source e.1 e.2.root e.2.start
  /-- The names of each union of each note lead to its members. -/
  notes : ∃ notes, source.notes = .ok notes ∧
    (∀ note ∈ notes, ∀ rules, note.rules? = some rules →
      ∃ added, ReadsRules (s.Resolves schema source) rules added) ∧
    -- The unions of the tree are shortcuts and those of the notes.
    ∀ node ∈ loaded.root.subnodes, ∀ r ∈ node.rules, ∀ names, r.constraint = .types names →
      (∃ mark, r.mark? = some mark ∧ Shortcut.names mark = .ok names) ∨
      ∃ note ∈ notes, ∃ rules, note.rules? = some rules ∧ ∃ e ∈ rules,
        RuleValue.isUnion e.1 = true ∧ r.mark? = some e.2.2.mark ∧
        ReadsUnion (s.Resolves schema source) e.2.2 names

namespace Arises

variable {s : Session} {loaded part : Schema} {owner : String} {source : Source}

section

variable (hs : s.Arises) (h : s.Loads owner source part) {name : String} {entry : TypeEntry}
include hs h

/-- The unnamed types of a document are called after its owner, in order. -/
theorem inOrder : (part.unnamed source owner).InOrder := by
  obtain ⟨notes, hloaded⟩ := Schema.exists_isLoaded_of_load_eq_ok (hs.load_of_loads h)
  exact hloaded.inOrder

theorem exists_eq_nameOf (hentry : (name, entry) ∈ part.types) :
    ∃ number, name = Unnamed.nameOf owner number :=
  (hs.inOrder h).exists_eq_nameOf (List.mem_map_of_mem hentry)

theorem source_eq_of_mem (hentry : (name, entry) ∈ part.types) : entry.source = source :=
  (hs.inOrder h).source _ hentry

theorem find?_eq_some_of_mem (hentry : (name, entry) ∈ part.types) :
    Catalog.find? part.types name = some entry :=
  Catalog.find?_eq_some_of_unique hentry fun _ => Catalog.eq_of_mem_of_nodup (hs.inOrder h).nodup hentry

end

/-- The names of different documents are different. -/
theorem eq_of_mem_unnamed (hs : s.Arises) {name : String} {type type' : RegisteredType}
    {owner' : String} {entry other : TypeEntry} (htype : (owner, type) ∈ s.types)
    (htype' : (owner', type') ∈ s.types) (hentry : (name, entry) ∈ type.schema.types)
    (hother : (name, other) ∈ type'.schema.types) : other = entry := by
  obtain ⟨number, rfl⟩ := hs.exists_eq_nameOf (.type htype) hentry
  obtain ⟨number', hname⟩ := hs.exists_eq_nameOf (.type htype') hother
  obtain rfl : owner = owner' := (Unnamed.nameOf_inj hname).1
  obtain rfl := Catalog.eq_of_mem_of_nodup hs.nodup_types htype htype'
  exact Catalog.eq_of_mem_of_nodup (hs.inOrder (.type htype)).nodup hentry hother

/-- No type of the user is called like an unnamed type. -/
theorem find?_userTypes_nameOf (hs : s.Arises) (owner : String) (number : Nat) :
    Catalog.find? (s.types.map fun e => (e.1, e.2.entry)).reverse (Unnamed.nameOf owner number) = none := by
  refine Catalog.find?_eq_none_iff.2 fun hmem => ?_
  obtain ⟨e, he, hname⟩ := List.mem_map.1 hmem
  obtain ⟨type, htype, rfl⟩ := List.mem_map.1 (List.mem_reverse.1 he)
  exact Unnamed.nameOf_ne_userTypeName (hs.load_of_mem_types htype).1 hname.symm

/-- The unnamed types of the document that the session is about are registered under their names. -/
theorem find?_register_document (hs : s.Arises) (hload : s.load = .ok loaded) {name : String}
    {entry : TypeEntry} (hentry : (name, entry) ∈ loaded.types) :
    Catalog.find? (loaded.register s.types).types name = some entry := by
  have hfound := hs.find?_eq_some_of_mem (.document hload) hentry
  obtain ⟨number, rfl⟩ := hs.exists_eq_nameOf (.document hload) hentry
  rw [Schema.find?_register, hs.find?_userTypes_nameOf, Option.none_or, hfound, Option.some_or]

/-- **Every unnamed type is registered** under its name, unless names clash. -/
theorem find?_register (hs : s.Arises) (hapart : ¬ s.Clashes) (hload : s.load = .ok loaded)
    (h : s.Loads owner source part) {name : String} {entry : TypeEntry}
    (hentry : (name, entry) ∈ part.types) :
    Catalog.find? (loaded.register s.types).types name = some entry := by
  cases h with
  | document hpart =>
    obtain rfl := Except.ok.inj (hload.symm.trans hpart)
    exact hs.find?_register_document hload hentry
  | @type _ type htype =>
    have hfound := hs.find?_eq_some_of_mem (.type htype) hentry
    obtain ⟨number, rfl⟩ := hs.exists_eq_nameOf (.type htype) hentry
    rw [Schema.find?_register, hs.find?_userTypes_nameOf, Option.none_or]
    cases hdocument : Catalog.find? loaded.types (Unnamed.nameOf owner number) with
    | some other =>
      obtain ⟨number', hname⟩ :=
        hs.exists_eq_nameOf (.document hload) (Catalog.mem_of_find?_eq_some hdocument)
      obtain rfl : owner = s.source.name := (Unnamed.nameOf_inj hname).1
      rw [Option.some_or]
      have hsource : type.source = s.source := by
        refine by_contra fun hne => hapart ⟨loaded, type, hload, htype, hne, ?_, ?_⟩
        · exact List.ne_nil_of_mem (Catalog.mem_of_find?_eq_some hdocument)
        · exact List.ne_nil_of_mem hentry
      -- Written alike, the document and the type load as the same.
      have hsame : Schema.load type.source s.source.name = .ok type.schema :=
        (hs.load_of_mem_types htype).2
      rw [hsource] at hsame
      obtain rfl := Except.ok.inj (hload.symm.trans hsame)
      exact hdocument.symm.trans hfound
    | none =>
      rw [Option.none_or]
      refine Catalog.find?_eq_some_of_unique (List.mem_reverse.2 ?_) fun other hother => ?_
      · exact List.mem_flatMap.2 ⟨_, htype, hentry⟩
      · obtain ⟨e, he, hother⟩ := List.mem_flatMap.1 (List.mem_reverse.1 hother)
        exact hs.eq_of_mem_unnamed htype he hentry hother

/-- What is registered under a name is found under it, finished, in the compiled schema. -/
theorem exists_finishes_of_find?_register (hs : s.Arises) {schema : Schema} (h : s.compiled = .ok schema)
    (hload : s.load = .ok loaded) {name : String} {entry : TypeEntry}
    (hfound : Catalog.find? (loaded.register s.types).types name = some entry) :
    ∃ root, s.Finishes entry.root root ∧
      Catalog.find? schema.types name = some { entry with root } := by
  obtain ⟨loaded', hload', hcompile⟩ := hs.exists_of_compiled_eq_ok h
  obtain rfl := Except.ok.inj (hload.symm.trans hload')
  obtain ⟨resolved, hresolved, hexpanded, -⟩ := Schema.compile_eq_ok_iff.1 hcompile
  obtain ⟨middle, hmiddle, hfound⟩ := Schema.exists_find?_mapRoots hresolved hfound
  obtain ⟨root, hroot, hfound⟩ := Schema.exists_find?_mapRoots hexpanded hfound
  exact ⟨root, ⟨loaded, resolved, middle, hload, hresolved, hmiddle, hroot⟩, hfound⟩

/-- In a compiled schema an unnamed type is found, finished, unless names clash. -/
theorem resolves (hs : s.Arises) {schema : Schema} (h : s.compiled = .ok schema)
    (hapart : ¬ s.Clashes) (hpart : s.Loads owner source part) {name : String} {entry : TypeEntry}
    (hentry : (name, entry) ∈ part.types) :
    s.Resolves schema source name entry.root entry.start := by
  obtain ⟨loaded, hload, -⟩ := hs.exists_of_compiled_eq_ok h
  obtain ⟨root, hfinishes, hfound⟩ :=
    hs.exists_finishes_of_find?_register h hload (hs.find?_register hapart hload hpart hentry)
  refine ⟨root, hfinishes, ?_⟩
  rw [hfound, ← hs.source_eq_of_mem hpart hentry]

/-- In a compiled schema the names of the unions of a document lead to their members, and no unnamed
type is lost, unless names clash. -/
theorem keepsUnions (hs : s.Arises) {schema : Schema} (h : s.compiled = .ok schema)
    (hapart : ¬ s.Clashes) (hpart : s.Loads owner source part) :
    s.KeepsUnions schema source part := by
  obtain ⟨notes, hloaded⟩ := Schema.exists_isLoaded_of_load_eq_ok (hs.load_of_loads hpart)
  have hresolves : ∀ name node start, (part.unnamed source owner).Has name node start →
      s.Resolves schema source name node start := fun name node start hname =>
    hs.resolves h hapart hpart (Catalog.mem_of_find?_eq_some hname)
  refine ⟨fun e he => ?_, notes, hloaded.notes_eq, fun note hnote rules hrules => ?_, ?_⟩
  · exact ⟨hloaded.inOrder.source e he, hs.resolves h hapart hpart he⟩
  · obtain ⟨added, hadded⟩ := hloaded.areRead note hnote rules hrules
    exact ⟨added, hadded.mono hresolves⟩
  · intro node hnode r hr names hc
    have hr : r ∈ node.bare.rules := by rwa [Node.rules, Node.header_bare]
    rcases (hloaded.areWritten node hnode).exists_of_types hr hc with
      hshortcut | ⟨added, rfl | ⟨note, hnote, rules, hrules, hreads⟩, hadded⟩
    · exact Or.inl hshortcut
    · cases hadded
    · obtain ⟨e, he, hunion, hmark, hnames⟩ := hreads.exists_union r hadded names hc
      exact Or.inr ⟨note, hnote, rules, hrules, e, he, hunion, hmark, hnames.mono hresolves⟩

/-- Where there are unnamed types, there is a first one. -/
theorem exists_first (hs : s.Arises) (h : s.Loads owner source part) (hne : part.types ≠ []) :
    ∃ entry, (Unnamed.nameOf owner 1, entry) ∈ part.types := by
  have hnames := (hs.inOrder h).names
  have hmem : Unnamed.nameOf owner 1 ∈ Catalog.keys part.types := by
    rw [show Catalog.keys part.types = _ from hnames]
    exact List.mem_map.2 ⟨0, List.mem_range.2 (List.length_pos_of_ne_nil hne), rfl⟩
  obtain ⟨⟨name, entry⟩, hentry, rfl⟩ := List.mem_map.1 hmem
  exact ⟨entry, hentry⟩

/-- **What the members of unions stand for.**  In a compiled schema the names of the unions of all
documents lead to their members, and no unnamed type is lost, exactly if names do not clash. -/
theorem keepsUnions_iff (hs : s.Arises) {schema : Schema} (h : s.compiled = .ok schema) :
    (∀ owner source part, s.Loads owner source part → s.KeepsUnions schema source part) ↔
      ¬ s.Clashes := by
  refine ⟨fun hkeeps => ?_, fun hapart owner source part => hs.keepsUnions h hapart⟩
  rintro ⟨loaded, type, hload, htype, hsource, hloaded, hschema⟩
  obtain ⟨entry, hentry⟩ := hs.exists_first (.document hload) hloaded
  obtain ⟨other, hother⟩ := hs.exists_first (.type htype) hschema
  obtain ⟨-, root, -, hroot⟩ := (hkeeps _ _ _ (.document hload)).unnamed _ hentry
  obtain ⟨-, root', -, hroot'⟩ := (hkeeps _ _ _ (.type htype)).unnamed _ hother
  exact hsource (congrArg TypeEntry.source (Option.some.inj (hroot'.symm.trans hroot)))

end Arises

/-- A document and a type that are called differently, each a union of types that are written in
place. -/
def siblings : Outcome Session :=
  addType { source := .ofString "@A" "1 // \x7bor: [\"integer\", \"boolean\"]\x7d" } "@B"
    (.ofString "@B" "1 // \x7bor: [\"string\", \"integer\"]\x7d")

/-- The names of all types of that schema, if it compiles. -/
def siblingNames? : Option (List String) :=
  match siblings >>= compiled with
  | .ok schema => some (Catalog.keys schema.types)
  | .error _ => none

/-- The unions of both keep their members. -/
theorem siblings_keepUnions : ∃ s schema, siblings = .ok s ∧ s.compiled = .ok schema ∧
    Catalog.keys schema.types = ["@A#1", "@A#2", "@B", "@B#1", "@B#2"] ∧
    ∀ owner source part, s.Loads owner source part → s.KeepsUnions schema source part := by
  have hnames : siblingNames? = some ["@A#1", "@A#2", "@B", "@B#1", "@B#2"] := by decide +kernel
  rw [siblingNames?] at hnames
  split at hnames
  · next schema hcompiled =>
    obtain ⟨s, hs, hcompiled⟩ := Except.bind_eq_ok_iff.1 hcompiled
    have hapart : ¬ s.Clashes := by
      rintro ⟨-, type, -, htype, -⟩
      obtain ⟨-, -, -, schema, -, rfl⟩ := addType_eq_ok_iff.1 hs
      have hname : "@A" = "@B" := congrArg Prod.fst (List.mem_singleton.1 htype)
      exact absurd hname (by decide)
    exact ⟨s, schema, hs, hcompiled, Option.some.inj hnames,
      ((Arises.addType (.start _) hs).keepsUnions_iff hcompiled).2 hapart⟩
  · cases hnames

/-! ## Two documents of one name -/

/-- A union of an integer and a truth value. -/
def firstTwin : Source := .ofString "@A" "1 // \x7bor: [\"integer\", \"boolean\"]\x7d"

/-- A union of a string and an integer. -/
def secondTwin : Source := .ofString "@A" "1 // \x7bor: [\"string\", \"integer\"]\x7d"

/-- The first union as a document that is called like a type, and the second as that type. -/
def twins : Outcome Session := addType { source := firstTwin } "@A" secondTwin

/-- The names of the unnamed types of the second union, and the document of what has the first of these
names in the compiled schema. -/
def twinNames? : Option (List String × Option Source) :=
  match Schema.load secondTwin "@A", twins >>= compiled with
  | .ok part, .ok schema =>
    some (Catalog.keys part.types, (Catalog.find? schema.types "@A#1").map TypeEntry.source)
  | _, _ => none

/-- An unnamed type may be lost, and its name lead to a type of another document. -/
theorem twins_lose : ∃ s schema part, twins = .ok s ∧ s.Arises ∧ s.compiled = .ok schema ∧
    s.Loads "@A" secondTwin part ∧ ∃ e ∈ part.types,
      ¬ s.Resolves schema secondTwin e.1 e.2.root e.2.start := by
  have hnames : twinNames? = some (["@A#1", "@A#2"], some firstTwin) := by decide +kernel
  rw [twinNames?] at hnames
  split at hnames
  · next part schema hpart hcompiled =>
    obtain ⟨s, hs, hcompiled⟩ := Except.bind_eq_ok_iff.1 hcompiled
    obtain ⟨hkeys, hfound⟩ := Prod.mk.inj (Option.some.inj hnames)
    have hmem : "@A#1" ∈ Catalog.keys part.types := by
      rw [hkeys]
      exact List.mem_cons_self ..
    obtain ⟨e, he, hname⟩ := List.mem_map.1 hmem
    have hloads : s.Loads "@A" secondTwin part := by
      obtain ⟨-, -, -, schema, hload, rfl⟩ := addType_eq_ok_iff.1 hs
      obtain rfl := Except.ok.inj (hpart.symm.trans hload)
      have htype : ∀ (s : Session) (type : RegisteredType), s.types = [("@A", type)] →
          s.Loads "@A" type.source type.schema := fun s type h => .type (h ▸ List.mem_singleton.2 rfl)
      exact htype _ { schema := part, source := secondTwin } rfl
    refine ⟨s, schema, part, hs, .addType (.start _) hs, hcompiled, hloads, e, he, ?_⟩
    rintro ⟨root, -, hroot⟩
    rw [hname] at hroot
    rw [hroot] at hfound
    have hsame : secondTwin = firstTwin := Option.some.inj hfound
    exact absurd hsame (by decide)
  · cases hnames

end Session
end ExampleSchema
