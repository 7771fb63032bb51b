import ExampleSchema.Proofs.Expansion.Endless

/-!
# What a check says

The checks of a schema fail at the first thing that is wrong.  A schema that passes them is one in which
nothing is wrong anywhere, so each check turns into a statement about every node.

* `Schema.compile_eq_ok_iff`: compiling is resolving, expanding and checking.
* `Schema.check_eq_ok_iff`: a schema passes if each of its nodes does and no type is endless.
* `Registry.checkNode_eq_ok_iff`: a node passes if it passes each of the four checks.
* `Node.checkSuited_eq_ok_iff`, `Node.checkReferences_eq_ok_iff`, `Node.checkBounds_eq_ok_iff`,
  `Properties.checkShortcuts_eq_ok_iff`, `Node.checkAdditional_eq_ok_iff`: what these say of the rules and names
  of a node.
* `Node.checkItems_eq_ok_iff`, `Node.checkSample_eq_ok_iff`: what the checks of samples say.
-/

namespace ExampleSchema

/-! ## Rules and names -/

namespace Node

/-- Rules suit the type of their node. -/
theorem checkSuited_eq_ok_iff {node : Node} :
    node.checkSuited = .ok () ↔ ∀ r ∈ node.rules, r.kind.suits node.jsonType = true := by
  rw [checkSuited, Except.forM_eq_ok_iff]
  refine forall₂_congr fun r _ => ?_
  split <;> simp_all

/-- A node that refers to types has no other rules and no parts, the types of what it refers to are
known, and the type of the node is among them if it is known itself. -/
theorem checkReferences_eq_ok_iff {types : Registry} {node : Node} :
    node.checkReferences types = .ok () ↔ node.rules.typeNames = [] ∨
      (∀ r ∈ node.rules, r.kind.standsBesideReferences = true) ∧ node.children = [] ∧
      ∃ allowed, node.jsonTypes types = .ok allowed ∧
        (node.jsonType = .mixed ∨ node.jsonType.admitted allowed = true) := by
  rw [checkReferences]
  by_cases hnames : node.rules.typeNames = []
  · simp [hnames, pure, Except.pure]
  have hsome : node.rules.typeNames.isEmpty = false := by simpa using hnames
  simp only [hsome, hnames, Bool.not_false, if_true, false_or]
  have hothers : (node.rules.find? fun r => !r.kind.standsBesideReferences) = none ↔
      ∀ r ∈ node.rules, r.kind.standsBesideReferences = true := by
    simp
  rw [← hothers]
  cases node.rules.find? fun r => !r.kind.standsBesideReferences with
  | some extra => simp [throw, throwThe, MonadExceptOf.throw]
  | none =>
    cases node.children with
    | cons child rest => simp [throw, throwThe, MonadExceptOf.throw]
    | nil =>
      cases node.jsonTypes types with
      | error cause => simp [Verdict.on, Except.mapError]
      | ok allowed =>
        by_cases hmixed : node.jsonType = .mixed <;> cases hadmitted : node.jsonType.admitted allowed <;>
          simp [Verdict.on, Except.mapError, hmixed, hadmitted, throw, throwThe, MonadExceptOf.throw,
            pure, Except.pure]

/-- Lower bounds are not above upper ones, and exclusive flags have a bound. -/
theorem checkBounds_eq_ok_iff {node : Node} : node.checkBounds = .ok () ↔
    (∀ low ∈ node.rules.min?, ∀ high ∈ node.rules.max?, high.value.lt low.value = false) ∧
    (∀ low ∈ node.rules.count? .minLength, ∀ high ∈ node.rules.count? .maxLength, low ≤ high) ∧
    (node.rules.has .exclusiveMinimum = true → node.rules.has .min = true) ∧
    (node.rules.has .exclusiveMaximum = true → node.rules.has .max = true) := by
  have hflag : ∀ has needs : Bool, (has = true → needs = true) ↔ (has && !needs) = false := by decide
  rw [checkBounds, hflag, hflag]
  cases node.rules.min? <;> cases node.rules.max? <;> cases node.rules.count? .minLength <;>
    cases node.rules.count? .maxLength <;>
    simp [throw, throwThe, MonadExceptOf.throw, pure, Except.pure, Except.guard_eq_ok_iff]

/-- The types of the values of a node that passes are known. -/
theorem exists_jsonTypes_of_checkReferences {types : Registry} {node : Node}
    (h : node.checkReferences types = .ok ()) : ∃ allowed, node.jsonTypes types = .ok allowed := by
  rcases checkReferences_eq_ok_iff.1 h with hnames | ⟨-, -, allowed, hallowed, -⟩
  · rw [jsonTypes, jsonTypesWith, hnames]
    exact ⟨_, rfl⟩
  · exact ⟨allowed, hallowed⟩

/-- The type of other properties is a registered type, if it is a type of the user. -/
theorem checkAdditional_eq_ok_iff {types : Registry} {node : Node} :
    node.checkAdditional types = .ok () ↔ ∀ name,
      node.rules.constraint? .additionalProperties = some (.additionalProperties (.user name)) →
        isUserTypeName name = true ∧ ∃ root, types.root? name = some root := by
  rw [checkAdditional]
  split
  · next name hname =>
    rw [hname]
    cases hwell : isUserTypeName name <;> cases hroot : types.root? name <;>
      simp_all [throw, throwThe, MonadExceptOf.throw, pure, Except.pure]
  · next hother => exact ⟨fun _ name hname => (hother name hname).elim, fun _ => rfl⟩

/-! ## Samples -/

/-- The bounds of an array are in order and, unless others describe the items, hold for the sample items. -/
theorem checkItems_eq_ok_iff {node : Node} {items : List Node} : node.checkItems items = .ok () ↔
    (∀ least ∈ node.rules.count? .minItems, ∀ most ∈ node.rules.count? .maxItems, least ≤ most) ∧
    (node.describesNoItems items = true ∨
      (∀ least ∈ node.rules.count? .minItems, least ≤ items.length) ∧
      ∀ most ∈ node.rules.count? .maxItems, items.length ≤ most) := by
  rw [checkItems]
  cases node.rules.count? .minItems <;> cases node.rules.count? .maxItems <;>
    cases node.describesNoItems items <;>
    simp [throw, throwThe, MonadExceptOf.throw, pure, Except.pure, Except.guard_eq_ok_iff]

/-- A sample keeps what its node asks of literals; that of a mixed node is validated. -/
def KeepsSample (node : Node) (types : Registry) (sample : Mark) : Prop :=
  match node with
  | mixed _ _ => types.accept (acceptLimit + 1) node (.literal sample) = .ok ()
  | _ => (node.isOfOpenType = true ∨
      ((JsonType.ofBytes? sample.bytes).getD .mixed).fits node.jsonType = true) ∧
    ∀ r ∈ node.rules, r.constraint.check sample.bytes = .ok ()

/-- A sample is `null`, where that is accepted anyway, or it has no exponent where none may be, and is kept. -/
theorem checkSample_eq_ok_iff {node : Node} {types : Registry} {sample : Mark} :
    node.checkSample types sample = .ok () ↔
      ((JsonType.ofBytes? sample.bytes).getD .mixed = .null ∧ node.isNullable = true) ∨
      (hasExponent sample.bytes = true → node.header.declared?.any BuiltinType.allowsExponent = true) ∧
        node.KeepsSample types sample := by
  have hexponent : ∀ has allowed : Bool, (has = true → allowed = true) ↔ ¬ (has && !allowed) = true := by decide
  rw [checkSample, hexponent]
  by_cases hnull : (JsonType.ofBytes? sample.bytes).getD .mixed = .null ∧ node.isNullable = true
  · simp [hnull, pure, Except.pure]
  · rw [if_neg (by simpa using hnull), or_iff_right hnull]
    refine Except.guard_eq_ok_iff.trans (and_congr_right fun _ => ?_)
    cases node with
    | mixed header sample? =>
      rw [KeepsSample]
      dsimp only
      split <;> simp_all [throw, throwThe, MonadExceptOf.throw, pure, Except.pure]
    | _ =>
      refine Except.guard_eq_ok_iff.trans (and_congr ?_ (Except.forM_eq_ok_iff.trans ?_))
      · rw [Bool.not_eq_true, Bool.not_eq_false', Bool.or_eq_true]
      · exact forall₂_congr fun r _ => Except.mapError_eq_ok_iff

end Node

/-- A name of a property that is a type is a type of strings. -/
theorem Properties.checkShortcuts_eq_ok_iff {types : Registry} {properties : Properties} :
    Properties.checkShortcuts properties types = .ok () ↔
      ∀ p ∈ properties, p.1.isShortcut = true → types.jsonTypes p.1.name = .ok [.string] := by
  rw [checkShortcuts, Except.forM_eq_ok_iff]
  refine forall₂_congr fun p _ => ?_
  obtain ⟨key, node⟩ := p
  cases hkey : key.isShortcut with
  | false => simp [hkey, pure, Except.pure]
  | true =>
    cases htypes : types.jsonTypes key.name with
    | error cause => simp [hkey, htypes, Verdict.on, Except.mapError]
    | ok allowed =>
      by_cases hallowed : allowed = [.string] <;>
        simp [hkey, htypes, hallowed, Verdict.on, Except.mapError, throw, throwThe, MonadExceptOf.throw,
          pure, Except.pure]

/-! ## Nodes -/

/-- A node passes if it passes each of the four checks. -/
theorem Registry.checkNode_eq_ok_iff {types : Registry} {node : Node} :
    types.checkNode node = .ok () ↔ node.checkSuited = .ok () ∧
      node.checkReferences types = .ok () ∧ node.checkBounds = .ok () ∧
      node.checkShape types = .ok () := by
  simp only [checkNode, Except.bind_eq_ok_iff]
  constructor
  · rintro ⟨⟨⟩, hsuited, ⟨⟩, hreferences, ⟨⟩, hbounds, hshape⟩
    exact ⟨hsuited, hreferences, hbounds, hshape⟩
  · rintro ⟨hsuited, hreferences, hbounds, hshape⟩
    exact ⟨(), hsuited, (), hreferences, (), hbounds, hshape⟩

/-- What the check of its shape says of an object. -/
theorem Node.checkShape_object_eq_ok_iff {types : Registry} {header : Header}
    {properties : Properties} :
    (Node.object header properties).checkShape types = .ok () ↔
      Properties.checkShortcuts properties types = .ok () ∧
      (Node.object header properties).checkAdditional types = .ok () := by
  simp only [checkShape, Except.bind_eq_ok_iff]
  constructor
  · rintro ⟨⟨⟩, hshortcuts, hadditional⟩
    exact ⟨hshortcuts, hadditional⟩
  · rintro ⟨hshortcuts, hadditional⟩
    exact ⟨(), hshortcuts, hadditional⟩

/-! ## Schemas -/

namespace Schema

theorem mem_nodes_iff {schema : Schema} {node : Node} :
    node ∈ schema.nodes ↔ node ∈ schema.root.subnodes ∨
      ∃ e ∈ schema.types, node ∈ e.2.root.subnodes := by
  simp [nodes, roots, List.mem_flatMap]

/-- **A schema passes if each of its nodes does** and none of its types is endless. -/
theorem check_eq_ok_iff {schema : Schema} :
    schema.check = .ok () ↔ (∀ node ∈ schema.nodes, schema.types.checkNode node = .ok ()) ∧
      schema.types.checkEndless = .ok () := by
  have htree : ∀ root : Node, schema.types.checkTree root = .ok () ↔
      ∀ node ∈ root.subnodes, schema.types.checkNode node = .ok () := fun root =>
    Except.forM_eq_ok_iff
  have htypes : (schema.types.forM fun e =>
      (schema.types.checkTree e.2.root).mapError fun p : Problem =>
        p.orLocation ⟨e.2.source, e.2.start⟩) = .ok () ↔
      ∀ e ∈ schema.types, ∀ node ∈ e.2.root.subnodes, schema.types.checkNode node = .ok () := by
    rw [Except.forM_eq_ok_iff]
    exact forall₂_congr fun e _ => Except.mapError_eq_ok_iff.trans (htree e.2.root)
  rw [check, Except.bind_eq_ok_iff]
  simp only [Except.bind_eq_ok_iff, htree, htypes, mem_nodes_iff, or_imp, forall_and, forall_exists_index,
    and_imp]
  constructor
  · rintro ⟨⟨⟩, hroot, ⟨⟩, hentries, hendless⟩
    exact ⟨⟨hroot, fun node e he hnode => hentries e he node hnode⟩, hendless⟩
  · rintro ⟨⟨hroot, hentries⟩, hendless⟩
    exact ⟨(), hroot, (), fun e he node hnode => hentries node e he hnode, hendless⟩

/-- Compiling a schema is resolving its rules, letting its objects inherit, and checking it. -/
theorem compile_eq_ok_iff {loaded schema : Schema} {named : List (String × RegisteredType)}
    {rules : EnumRules} :
    loaded.compile named rules = .ok schema ↔ ∃ resolved,
      (loaded.register named).resolveEnums rules = .ok resolved ∧ resolved.expand = .ok schema ∧
      schema.check = .ok () := by
  simp only [compile, Except.bind_eq_ok_iff]
  constructor
  · rintro ⟨resolved, hresolved, expanded, hexpanded, ⟨⟩, hcheck, h⟩
    obtain rfl := Except.ok.inj h
    exact ⟨resolved, hresolved, hexpanded, hcheck⟩
  · rintro ⟨resolved, hresolved, hexpanded, hcheck⟩
    exact ⟨resolved, hresolved, schema, hexpanded, (), hcheck, rfl⟩

end Schema
end ExampleSchema
