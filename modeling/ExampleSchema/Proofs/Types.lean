import ExampleSchema.Proofs.Accept.Levels
import ExampleSchema.Proofs.References

/-!
# JSON types and acceptance

The check of a schema works out, for each type, the JSON types that its values may have.  The types of a
node are those of the types that it refers to, or else its own.  Validation goes the same way, so what it
accepts has one of these types, with exceptions that are all of one kind: a node says something about its
type that validation does not look at.

* `Registry.Settles`: the references of a type come to an end.
* `Registry.Settles.exists_jsonTypesFrom`: then its JSON types are known.
* `Node.Misstates`: validation does not hold a node to the type that it is given.
* `Node.admitted_or_excuses`: what a node accepts, given the same of the types that it refers to.
* `Session.Arises.admitted_of_accept`: what a type accepts has one of its JSON types, unless it is accepted
  by a node that misstates its type.
-/

namespace ExampleSchema

/-! ## Sets of types -/

namespace JsonType

theorem mem_setOf_iff {types : List JsonType} {t : JsonType} : t ∈ setOf types ↔ t ∈ types := by
  simp [setOf, mem_every]

theorem admitted_iff {allowed : List JsonType} {actual : JsonType} :
    actual.admitted allowed = true ↔
      .mixed ∈ allowed ∨ ∃ t ∈ allowed, actual.fits t = true := by
  simp [admitted]

/-- What a set admits, a larger one admits. -/
theorem admitted_mono {allowed more : List JsonType} (hsub : allowed ⊆ more) {actual : JsonType}
    (h : actual.admitted allowed = true) : actual.admitted more = true := by
  rcases admitted_iff.1 h with hmixed | ⟨t, ht, hfits⟩
  · exact admitted_iff.2 (Or.inl (hsub hmixed))
  · exact admitted_iff.2 (Or.inr ⟨t, hsub ht, hfits⟩)

end JsonType

namespace Node

variable {lookUp : String → Verdict (List JsonType)} {node : Node}

/-- The types of a node are known where those of the types that it refers to are. -/
theorem exists_jsonTypesWith_iff : (∃ allowed, node.jsonTypesWith lookUp = .ok allowed) ↔
    ∀ name ∈ node.rules.typeNames, ∃ found, lookUp name = .ok found := by
  rw [← Except.exists_mapM_eq_ok_iff]
  constructor
  · rintro ⟨allowed, h⟩
    obtain ⟨listed, hlisted, -⟩ := Except.bind_eq_ok_iff.1 h
    exact ⟨listed, hlisted⟩
  · rintro ⟨listed, hlisted⟩
    rw [jsonTypesWith, hlisted]
    exact ⟨_, rfl⟩

/-- The types of a node: its own or those that it refers to, and `null` if it is nullable. -/
theorem mem_iff_of_jsonTypesWith_eq_ok {allowed : List JsonType}
    (h : node.jsonTypesWith lookUp = .ok allowed) {t : JsonType} :
    t ∈ allowed ↔ (node.rules.typeNames = [] ∧ t = node.jsonType) ∨
      (∃ name ∈ node.rules.typeNames, ∃ found, lookUp name = .ok found ∧ t ∈ found) ∨
      (node.isNullable = true ∧ t = .null) := by
  obtain ⟨listed, hlisted, h⟩ := Except.bind_eq_ok_iff.1 h
  obtain rfl := Except.ok.inj h
  rw [JsonType.mem_setOf_iff, List.mem_append, List.mem_append, or_assoc]
  refine or_congr ?_ (or_congr ?_ ?_)
  · cases hnames : node.rules.typeNames <;> simp
  · rw [List.mem_flatten]
    constructor
    · rintro ⟨found, hfound, ht⟩
      obtain ⟨name, hname, hlookUp⟩ := Except.exists_of_mem_mapM hlisted hfound
      exact ⟨name, hname, found, hlookUp, ht⟩
    · rintro ⟨name, hname, found, hlookUp, ht⟩
      obtain ⟨found', hfound', hlookUp'⟩ := Except.exists_mem_of_mapM hlisted hname
      obtain rfl := Except.ok.inj (hlookUp.symm.trans hlookUp')
      exact ⟨found, hfound', ht⟩
  · cases node.isNullable <;> simp

end Node

/-! ## References -/

namespace Registry

variable {types : Registry} {name other : String} {entered : List String}

/-- The root of a type refers to another type. -/
def Names (types : Registry) (name other : String) : Prop :=
  ∃ root, types.root? name = some root ∧ other ∈ root.rules.typeNames

/-- The references of a type lead to registered types only, and come to an end. -/
inductive Settles (types : Registry) : String → Prop where
  | intro {name : String} {root : Node} : types.root? name = some root →
      (∀ other ∈ root.rules.typeNames, Settles types other) → Settles types name

/-- The references of a type that settles do not lead back to it. -/
theorem Settles.not_transGen (h : types.Settles name) :
    ¬ Relation.TransGen types.Names name name := by
  induction h with
  | @intro name root hroot _ ih =>
    intro hback
    obtain ⟨other, hnames, hrest⟩ := Relation.TransGen.head'_iff.1 hback
    obtain ⟨root', hroot', hother⟩ := hnames
    obtain rfl := Option.some.inj (hroot.symm.trans hroot')
    exact ih other hother (Relation.TransGen.tail' hrest ⟨root, hroot, hother⟩)

theorem root?_without (types : Registry) (name other : String) :
    (types.without name).root? other = if other = name then none else types.root? other := by
  simp only [root?, without]
  induction types with
  | nil => simp
  | cons e rest ih =>
    obtain ⟨key, entry⟩ := e
    by_cases hkey : key = name
    · subst hkey
      rw [List.filter_cons_of_neg (by simp), ih, Catalog.find?_cons]
      by_cases hother : other = key <;> simp [hother]
    · rw [List.filter_cons_of_pos (by simpa using hkey), Catalog.find?_cons, Catalog.find?_cons]
      by_cases hother : other = key
      · subst hother
        simp [hkey]
      · simpa [hother] using ih

end Registry

section

variable {types part : Registry} {name : String} {entered : List String} {root : Node}

theorem jsonTypesFrom_of_none (h : ¬ entered.contains name) (hroot : part.root? name = none) :
    jsonTypesFrom part entered name = .error (.typeNotFound name) := by
  rw [jsonTypesFrom, if_neg h]
  split <;> simp_all

theorem jsonTypesFrom_of_root (h : ¬ entered.contains name) (hroot : part.root? name = some root) :
    jsonTypesFrom part entered name =
      root.jsonTypesWith (jsonTypesFrom (part.without name) (name :: entered)) := by
  rw [jsonTypesFrom, if_neg h]
  split <;> simp_all

/-- Where JSON types are known, references come to an end. -/
theorem settles_of_jsonTypesFrom_eq_ok
    (hpart : ∀ other root, part.root? other = some root → types.root? other = some root)
    {allowed : List JsonType} (h : jsonTypesFrom part entered name = .ok allowed) :
    types.Settles name := by
  induction part, entered, name using jsonTypesFrom.induct generalizing allowed with
  | case1 part entered name hentered =>
    rw [jsonTypesFrom, if_pos hentered] at h
    cases h
  | case2 part entered name hentered hroot =>
    rw [jsonTypesFrom_of_none hentered hroot] at h
    cases h
  | case3 part entered name hentered root hroot ih =>
    rw [jsonTypesFrom_of_root hentered hroot] at h
    refine .intro (hpart name root hroot) fun other hother => ?_
    obtain ⟨found, hfound⟩ := Node.exists_jsonTypesWith_iff.1 ⟨allowed, h⟩ other hother
    refine ih other (fun other' root' hroot' => ?_) hfound
    rw [Registry.root?_without] at hroot'
    split at hroot'
    · cases hroot'
    · exact hpart other' root' hroot'

/-- **Where references come to an end, JSON types are known.**  What is entered on the way is out of
reach. -/
theorem Registry.Settles.exists_jsonTypesFrom (h : types.Settles name)
    (hpart : ∀ other ∉ entered, part.root? other = types.root? other)
    (hentered : ∀ other, Relation.ReflTransGen types.Names name other → other ∉ entered) :
    ∃ allowed, jsonTypesFrom part entered name = .ok allowed := by
  induction h generalizing part entered with
  | @intro name root hroot hnames ih =>
    have hself := hentered name .refl
    have hround := (Settles.intro hroot hnames).not_transGen
    rw [jsonTypesFrom_of_root (by simpa using hself) ((hpart name hself).trans hroot)]
    refine Node.exists_jsonTypesWith_iff.2 fun other hother => ?_
    have hstep : types.Names name other := ⟨root, hroot, hother⟩
    refine ih other hother (fun third hthird => ?_) fun third hthird => ?_
    · rw [List.mem_cons, not_or] at hthird
      rw [root?_without, if_neg hthird.1]
      exact hpart third hthird.2
    · rw [List.mem_cons, not_or]
      refine ⟨?_, hentered third (Relation.ReflTransGen.head hstep hthird)⟩
      rintro rfl
      exact hround (Relation.TransGen.head' hstep hthird)

end

/-! ## What a node accepts -/

/-- Validation does not hold a node to the type that it is given. -/
inductive Node.Misstates (node : Node) : Prop where
  /-- A declaration that any value is accepted counts more than references, and than an object or an
  array. -/
  | open : node.header.declared?.any BuiltinType.isUnrestricted = true →
      node.rules.typeNames ≠ [] ∨ node.jsonType ≠ .mixed → Misstates node
  /-- Of an `enum` only the items count. -/
  | enum : node.rules.typeNames = [] → node.header.declared? = some .enum → node.jsonType ≠ .mixed →
      node.children = [] → Misstates node
  /-- What is written as an object accepts objects. -/
  | object {header : Header} {properties : Properties} : node = .object header properties →
      node.rules.typeNames = [] → node.jsonType ≠ .object → node.jsonType ≠ .mixed → Misstates node
  /-- What is written as an array accepts arrays. -/
  | array {header : Header} {items : List Node} : node = .array header items →
      node.rules.typeNames = [] → node.jsonType ≠ .array → node.jsonType ≠ .mixed → Misstates node

/-- A node refers to the root of a type. -/
def Node.RefersTo (types : Registry) (node root : Node) : Prop :=
  ∃ name ∈ node.rules.typeNames, types.root? name = some root

/-- A node that misstates its type, and to which the references of another one lead, accepts a value. -/
def Registry.Excuses (types : Registry) (node : Node) (v : Value) : Prop :=
  ∃ levels part, Relation.ReflTransGen (Node.RefersTo types) node part ∧ part.Misstates ∧
    types.accept levels part v = .ok ()

namespace Node

variable {types : Registry} {node : Node} {v : Value} {levels : Nat}

/-- A literal that a node without children accepts has the type of the node, unless the node misstates it. -/
theorem fits_of_acceptLiteral (hnames : node.rules.typeNames = []) (hchildren : node.children = [])
    (h : node.acceptLiteral v = .ok ()) :
    node.Misstates ∨ node.jsonType = .mixed ∨ v.jsonType.fits node.jsonType = true := by
  cases v with
  | object | array => cases h
  | literal mark =>
    rw [acceptLiteral] at h
    split at h
    · next htype =>
      rw [isOfOpenType, Bool.or_eq_true, Bool.or_eq_true, beq_iff_eq, beq_iff_eq] at htype
      rcases htype with (hmixed | henum) | hfits
      · exact Or.inr (Or.inl hmixed)
      · by_cases hmixed : node.jsonType = .mixed
        · exact Or.inr (Or.inl hmixed)
        · exact Or.inl (.enum hnames henum hmixed hchildren)
      · exact Or.inr (Or.inr hfits)
    · cases h

/-- What a node itself describes has the type of the node, unless the node misstates it. -/
theorem fits_of_acceptSelf (hregular : node.IsRegular) (hnames : node.rules.typeNames = [])
    {visit : Node → Value → Outcome Unit} (h : node.acceptSelf types visit v = .ok ()) :
    node.Misstates ∨ node.jsonType = .mixed ∨ v.jsonType.fits node.jsonType = true := by
  by_cases hmixed : node.jsonType = .mixed
  · exact Or.inr (Or.inl hmixed)
  cases node with
  | literal header sample? => exact fits_of_acceptLiteral hnames rfl h
  | mixed header sample? => exact fits_of_acceptLiteral hnames rfl h
  | reference header names =>
    obtain ⟨hne, hmem⟩ := hregular.names header names rfl
    obtain ⟨name, hname⟩ := List.exists_mem_of_ne_nil names hne
    have hname := hmem name hname
    rw [hnames] at hname
    cases hname
  | object header properties =>
    cases v with
    | literal | array => cases h
    | object mark members =>
      by_cases htype : (object header properties).jsonType = .object
      · rw [htype]
        exact Or.inr (Or.inr rfl)
      · exact Or.inl (.object rfl hnames htype hmixed)
  | array header items =>
    cases v with
    | literal | object => cases h
    | array mark values =>
      by_cases htype : (array header items).jsonType = .array
      · rw [htype]
        exact Or.inr (Or.inr rfl)
      · exact Or.inl (.array rfl hnames htype hmixed)

/-- **What a node accepts** has one of its types, or is accepted by a node that misstates its type, given
the same of the types that it refers to. -/
theorem admitted_or_excuses (hregular : node.IsRegular) {lookUp : String → Verdict (List JsonType)}
    (hlookUp : ∀ name ∈ node.rules.typeNames, ∀ found, lookUp name = .ok found → ∀ root,
      types.root? name = some root → ∀ levels, types.accept levels root v = .ok () →
        v.jsonType.admitted found = true ∨ types.Excuses root v)
    {allowed : List JsonType} (hallowed : node.jsonTypesWith lookUp = .ok allowed)
    (h : types.accept levels node v = .ok ()) :
    v.jsonType.admitted allowed = true ∨ types.Excuses node v := by
  have hmem := @mem_iff_of_jsonTypesWith_eq_ok _ _ _ hallowed
  cases levels with
  | zero => cases h
  | succ levels =>
    have hself : node.Misstates → types.Excuses node v := fun hmisstates =>
      ⟨levels + 1, node, .refl, hmisstates, h⟩
    rw [Registry.accept] at h
    split at h
    · next hnull =>
      rw [Bool.and_eq_true, Value.isNull, beq_iff_eq] at hnull
      have hallows : JsonType.null ∈ allowed := hmem.2 (Or.inr (Or.inr ⟨hnull.2, rfl⟩))
      exact Or.inl (JsonType.admitted_iff.2 (Or.inr ⟨.null, hallows, by rw [hnull.1]; rfl⟩))
    · split at h
      · next hopen =>
        by_cases hstated : node.rules.typeNames = [] ∧ node.jsonType = .mixed
        · have hallows : JsonType.mixed ∈ allowed := hmem.2 (Or.inl ⟨hstated.1, hstated.2.symm⟩)
          exact Or.inl (JsonType.admitted_iff.2 (Or.inl hallows))
        · rw [not_and_or] at hstated
          exact Or.inr (hself (.open hopen hstated))
      · dsimp only at h
        split at h
        · next hnames =>
          have hnames : node.rules.typeNames = [] := by simpa using hnames
          have hown : node.jsonType ∈ allowed := hmem.2 (Or.inl ⟨hnames, rfl⟩)
          rcases fits_of_acceptSelf hregular hnames (Except.mapError_eq_ok_iff.1 h) with
            hmisstates | hmixed | hfits
          · exact Or.inr (hself hmisstates)
          · exact Or.inl (JsonType.admitted_iff.2 (Or.inl (hmixed ▸ hown)))
          · exact Or.inl (JsonType.admitted_iff.2 (Or.inr ⟨_, hown, hfits⟩))
        · obtain ⟨name, hname, hvisit⟩ := (acceptFirst_eq_ok_iff fun _ _ _ _ _ => Iff.rfl).1 h
          obtain ⟨root, hroot, hvisit⟩ := Except.bind_eq_ok_iff.1 hvisit
          have hroot := Registry.root_eq_ok_iff.1 hroot
          obtain ⟨found, hfound⟩ := exists_jsonTypesWith_iff.1 ⟨allowed, hallowed⟩ name hname
          rcases hlookUp name hname found hfound root hroot levels hvisit with hadmitted | hexcuses
          · refine Or.inl (JsonType.admitted_mono (fun t ht => ?_) hadmitted)
            exact hmem.2 (Or.inr (Or.inl ⟨name, hname, found, hfound, ht⟩))
          · obtain ⟨levels', part, hpath, hpart⟩ := hexcuses
            exact Or.inr ⟨levels', part, hpath.head ⟨name, hname, hroot⟩, hpart⟩

end Node

/-- What a type accepts has one of its JSON types, or is accepted by a node that misstates its type. -/
theorem admitted_of_accept_of_jsonTypesFrom {types part : Registry} {entered : List String}
    {name : String} (hregular : ∀ name root, types.root? name = some root → root.IsRegular)
    (hpart : ∀ other root, part.root? other = some root → types.root? other = some root)
    {allowed : List JsonType} (hallowed : jsonTypesFrom part entered name = .ok allowed) {root : Node}
    (hroot : types.root? name = some root) {levels : Nat} {v : Value}
    (h : types.accept levels root v = .ok ()) :
    v.jsonType.admitted allowed = true ∨ types.Excuses root v := by
  induction part, entered, name using jsonTypesFrom.induct generalizing allowed root levels with
  | case1 part entered name hentered =>
    rw [jsonTypesFrom, if_pos hentered] at hallowed
    cases hallowed
  | case2 part entered name hentered hnone =>
    rw [jsonTypesFrom_of_none hentered hnone] at hallowed
    cases hallowed
  | case3 part entered name hentered root' hroot' ih =>
    obtain rfl := Option.some.inj ((hpart name root' hroot').symm.trans hroot)
    rw [jsonTypesFrom_of_root hentered hroot'] at hallowed
    refine Node.admitted_or_excuses (hregular name _ hroot) ?_ hallowed h
    intro other _ found hfound root hroot levels h
    refine ih other (fun third root' hroot' => ?_) hfound hroot h
    rw [Registry.root?_without] at hroot'
    split at hroot'
    · cases hroot'
    · exact hpart third root' hroot'

/-! ## Compiled schemas -/

namespace Session

/-- The references of each type of a compiled schema come to an end. -/
theorem Arises.settles {s : Session} (hs : s.Arises) {schema : Schema} (h : s.compiled = .ok schema) {name : String}
    {root : Node} (hroot : schema.types.root? name = some root) : schema.types.Settles name := by
  refine .intro hroot fun other hother => ?_
  have hnode := Schema.mem_nodes_of_root?_eq_some hroot
  have hcheck := (Registry.checkNode_eq_ok_iff.1 (hs.checkNode_eq_ok h hnode)).2.1
  have hknown := Node.exists_jsonTypesWith_iff.1 (Node.exists_jsonTypes_of_checkReferences hcheck)
  obtain ⟨found, hfound⟩ := hknown other hother
  exact settles_of_jsonTypesFrom_eq_ok (fun _ _ => id) hfound

/-- **JSON types and acceptance.**  The JSON types of each type of a compiled schema are known, and what
the type accepts has one of them, unless a node that misstates its type accepts it. -/
theorem Arises.admitted_of_accept {s : Session} (hs : s.Arises) {schema : Schema}
    (h : s.compiled = .ok schema) {name : String} {root : Node}
    (hroot : schema.types.root? name = some root) :
    ∃ allowed, schema.types.jsonTypes name = .ok allowed ∧ ∀ levels v,
      schema.types.accept levels root v = .ok () →
        v.jsonType.admitted allowed = true ∨ schema.types.Excuses root v := by
  have hregular : ∀ name root, schema.types.root? name = some root → root.IsRegular :=
    fun name root hroot => hs.isRegular h (Schema.mem_nodes_of_root?_eq_some hroot)
  have hknown : ∃ allowed, jsonTypesFrom schema.types [] name = .ok allowed :=
    (hs.settles h hroot).exists_jsonTypesFrom (fun _ _ => rfl) (by simp)
  obtain ⟨allowed, hallowed⟩ := hknown
  exact ⟨allowed, hallowed, fun levels v haccept =>
    admitted_of_accept_of_jsonTypesFrom hregular (fun _ _ => id) hallowed hroot haccept⟩

/-- The text `"Kitty"`. -/
def kitty : Value :=
  .literal ⟨.ofString "value" "\"Kitty\"", ⟨.closing .literal, 0, 7⟩⟩

/-- Whether the type of `cat` accepts that text, if the schema compiles. -/
def catAccepts? : Option Bool :=
  match cat >>= compiled with
  | .ok schema => (schema.types.root? "@Cat").map fun root => (schema.types.accept 1 root kitty).isOk
  | .error _ => none

/-- A type of strings accepts a string. -/
theorem admitted_of_cat : ∃ s schema root, cat = .ok s ∧ s.compiled = .ok schema ∧
    schema.types.root? "@Cat" = some root ∧ schema.types.accept 1 root kitty = .ok () ∧
    ∃ allowed, schema.types.jsonTypes "@Cat" = .ok allowed ∧
      (kitty.jsonType.admitted allowed = true ∨ schema.types.Excuses root kitty) := by
  have haccepts : catAccepts? = some true := by decide +kernel
  rw [catAccepts?] at haccepts
  split at haccepts
  · next schema hcompiled =>
    obtain ⟨s, hs, hcompiled⟩ := Except.bind_eq_ok_iff.1 hcompiled
    obtain ⟨root, hroot, haccept⟩ := Option.map_eq_some_iff.1 haccepts
    have haccept := isOk_iff.1 haccept
    obtain ⟨allowed, hallowed, hadmits⟩ :=
      (Arises.addType (.start _) hs).admitted_of_accept hcompiled hroot
    exact ⟨s, schema, root, hs, hcompiled, hroot, haccept, allowed, hallowed, hadmits 1 kitty haccept⟩
  · cases haccepts

/-! ## A type that is understated -/

/-- A document that is written as the name of a type, and the type: an object that is declared to be any
value. -/
def anything : Outcome Session :=
  addType { source := .ofString "root" "@T" } "@T" (.ofString "@T" "\x7b\x7d // \x7btype: \"any\"\x7d")

/-- The number one. -/
def one : Value :=
  .literal ⟨.ofString "value" "1", ⟨.closing .literal, 0, 1⟩⟩

/-- The JSON types of that type, and whether it accepts the number, if the schema compiles. -/
def anythingTypes? : Option (List JsonType × Bool) :=
  match anything >>= compiled with
  | .ok schema =>
    match schema.types.jsonTypes "@T", schema.types.root? "@T" with
    | .ok allowed, some root => some (allowed, (schema.types.accept (acceptLimit + 1) root one).isOk)
    | _, _ => none
  | .error _ => none

/-- A type may accept values of other JSON types than those that it is said to have. -/
theorem anything_accepts : ∃ s schema root allowed, anything = .ok s ∧ s.Arises ∧
    s.compiled = .ok schema ∧ schema.types.root? "@T" = some root ∧
    schema.types.jsonTypes "@T" = .ok allowed ∧
    schema.types.accept (acceptLimit + 1) root one = .ok () ∧ ¬ one.jsonType.admitted allowed = true := by
  have htypes : anythingTypes? = some ([.object], true) := by decide +kernel
  rw [anythingTypes?] at htypes
  split at htypes
  · next schema hcompiled =>
    obtain ⟨s, hs, hcompiled⟩ := Except.bind_eq_ok_iff.1 hcompiled
    split at htypes
    · next allowed root hallowed hroot =>
      obtain ⟨rfl, haccept⟩ := Prod.mk.inj (Option.some.inj htypes)
      refine ⟨s, schema, root, _, hs, .addType (.start _) hs, hcompiled, hroot, hallowed,
        isOk_iff.1 haccept, by decide +kernel⟩
    · cases htypes
  · cases htypes

end Session
end ExampleSchema
