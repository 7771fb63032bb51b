import ExampleSchema.Proofs.Declarations
import ExampleSchema.Proofs.Types

/-!
# What the checks of samples blame

Some of the checks of a schema look at its samples: whether a sample keeps its own rules, and whether there
are as many sample items as the rules of an array ask for.  A union member that is written in place has no
sample, so these checks should pass it by.  They do, except that an array without items is taken for a
sample with no items.

* `ErrorCode.IsOfSample`: the codes of such checks.
* `Registry.checkNode_eq_error_iff`: when the check of a node fails with such a code.
* `Schema.originated`, `Schema.StopsAt`: the nodes of a schema with what they are built from, and the node
  at which the check of the schema stops.
* `Node.IsWritten.sample?_eq_none`: a union member has no sample.
* `Session.Arises.origin_of_check_eq_error`: where the check of a sample fails, the node is built from a
  value, or it is an array that asks for items.
-/

namespace ExampleSchema

/-- The codes with which the check of a sample, or of the number of sample items, fails. -/
def ErrorCode.IsOfSample (code : ErrorCode) : Prop :=
  code = .arrayItemsCount ∨ code = .invalidExample ∨ code = .exponentNotAllowed ∨ code.layer = 5

instance (code : ErrorCode) : Decidable code.IsOfSample :=
  inferInstanceAs (Decidable (_ ∨ _ ∨ _ ∨ _))

/-- A problem that has nothing to do with samples. -/
def Problem.IsOfRules (p : Problem) : Prop := ¬ p.code.IsOfSample

/-! ## Checks of rules -/

/-- The JSON types of a type are unknown if a type is missing or refers to itself. -/
theorem jsonTypesFrom_failsOnly (types : Registry) (entered : List String) (name : String) :
    (jsonTypesFrom types entered name).FailsOnly fun c => ¬ c.code.IsOfSample := by
  induction types, entered, name using jsonTypesFrom.induct with
  | case1 types entered name hentered =>
    rw [jsonTypesFrom, if_pos hentered]
    exact (by decide : ¬ ErrorCode.IsOfSample .recursionInJsonType)
  | case2 types entered name hentered hroot =>
    rw [jsonTypesFrom_of_none hentered hroot]
    exact (by decide : ¬ ErrorCode.IsOfSample .typeNotFound)
  | case3 types entered name hentered root hroot ih =>
    rw [jsonTypesFrom_of_root hentered hroot]
    exact Except.Meets.bind (Except.FailsOnly.mapM fun other _ => ih other) fun _ _ => trivial

namespace Node

variable {types : Registry} {node : Node}

theorem jsonTypes_failsOnly (node : Node) (types : Registry) :
    (node.jsonTypes types).FailsOnly fun c => ¬ c.code.IsOfSample :=
  Except.Meets.bind (Except.FailsOnly.mapM fun other _ => jsonTypesFrom_failsOnly types [] other)
    fun _ _ => trivial

theorem checkSuited_failsOnly (node : Node) : node.checkSuited.FailsOnly Problem.IsOfRules :=
  Except.FailsOnly.forM fun _ _ => .ite trivial (by decide : ¬ ErrorCode.IsOfSample .unexpectedConstraint)

theorem checkReferences_failsOnly (node : Node) (types : Registry) :
    (node.checkReferences types).FailsOnly Problem.IsOfRules := by
  have hjsonTypes : ∀ blamed, (Verdict.on (node.jsonTypes types) blamed).FailsOnly Problem.IsOfRules :=
    fun _ => (node.jsonTypes_failsOnly types).mapError fun _ => id
  unfold checkReferences
  dsimp only
  refine .ite ?_ trivial
  split
  · exact (by decide : ¬ ErrorCode.IsOfSample .rulesWithTypeReference)
  · refine .ite (by decide : ¬ ErrorCode.IsOfSample .childrenWithTypeReference) ?_
    refine (hjsonTypes _).bind fun allowed _ => ?_
    exact .ite (by decide : ¬ ErrorCode.IsOfSample .incorrectUserType) trivial

theorem checkBounds_failsOnly (node : Node) : node.checkBounds.FailsOnly Problem.IsOfRules := by
  have horder : ¬ ErrorCode.IsOfSample .boundsOrder := by decide
  have hflag : ¬ ErrorCode.IsOfSample .exclusiveWithoutBound := by decide
  -- every way through the four guards ends well or with one of these codes
  unfold checkBounds
  dsimp only
  repeat' split
  all_goals trivial

theorem checkShortcuts_failsOnly (properties : Properties) (types : Registry) :
    (Properties.checkShortcuts properties types).FailsOnly Problem.IsOfRules := by
  refine Except.FailsOnly.forM fun p _ => ?_
  dsimp only
  refine .ite ?_ trivial
  refine Except.Meets.bind ((jsonTypesFrom_failsOnly types [] p.1.name).mapError fun _ => id) fun _ _ => ?_
  exact .ite (by decide : ¬ ErrorCode.IsOfSample .keyShortcutNotString) trivial

theorem checkAdditional_failsOnly (node : Node) (types : Registry) :
    (node.checkAdditional types).FailsOnly Problem.IsOfRules := by
  unfold checkAdditional
  split
  · refine .ite (by decide : ¬ ErrorCode.IsOfSample .invalidTypeName) ?_
    exact .ite (by decide : ¬ ErrorCode.IsOfSample .typeNotFound) trivial
  · trivial

/-! ## Checks of samples -/

/-- An array asks for another number of items than it has, and does not leave that to others. -/
def Miscounts (node : Node) (items : List Node) : Prop :=
  (∀ least ∈ node.rules.count? .minItems, ∀ most ∈ node.rules.count? .maxItems, least ≤ most) ∧
    node.describesNoItems items = false ∧
    ((∃ least ∈ node.rules.count? .minItems, items.length < least) ∨
      ∃ most ∈ node.rules.count? .maxItems, most < items.length)

/-- The check of the number of items fails where an array miscounts. -/
theorem exists_checkItems_eq_error_iff {items : List Node} :
    (∃ p, node.checkItems items = .error p ∧ p.code.IsOfSample) ↔ node.Miscounts items := by
  have hbelow : ∀ count limit mark, ((Cause.sampleItemsBelow count limit).on mark).code.IsOfSample :=
    fun _ _ _ => (by decide : ErrorCode.IsOfSample .arrayItemsCount)
  have habove : ∀ count limit mark, ((Cause.sampleItemsAbove count limit).on mark).code.IsOfSample :=
    fun _ _ _ => (by decide : ErrorCode.IsOfSample .arrayItemsCount)
  have horder : ∀ least most mark, ¬ ((Cause.itemBoundsOrder least most).on mark).code.IsOfSample :=
    fun _ _ _ => (by decide : ¬ ErrorCode.IsOfSample .minItemsGreaterThanMaxItems)
  rw [Miscounts, checkItems]
  cases node.rules.count? .minItems with
  | none =>
    cases node.rules.count? .maxItems with
    | none => cases node.describesNoItems items <;> simp [pure, Except.pure]
    | some most =>
      cases node.describesNoItems items <;> by_cases hmany : most < items.length <;>
        simp [throw, throwThe, MonadExceptOf.throw, pure, Except.pure, hmany, habove]
  | some least =>
    cases node.rules.count? .maxItems with
    | none =>
      cases node.describesNoItems items <;> by_cases hfew : items.length < least <;>
        simp [throw, throwThe, MonadExceptOf.throw, pure, Except.pure, hfew, hbelow]
    | some most =>
      by_cases hless : most < least
      · simp [throw, throwThe, MonadExceptOf.throw, hless, horder]
      · have hle := Nat.not_lt.1 hless
        cases node.describesNoItems items <;> by_cases hfew : items.length < least <;>
          by_cases hmany : most < items.length <;>
          simp [throw, throwThe, MonadExceptOf.throw, pure, Except.pure, hless, hle, hfew, hmany, hbelow,
            habove]

theorem checkItems_failsOnly (node : Node) (items : List Node) : (node.checkItems items).FailsOnly
    fun p => p.code.IsOfSample → p.code = .arrayItemsCount := by
  have horder : ¬ ErrorCode.IsOfSample .minItemsGreaterThanMaxItems := by decide
  unfold checkItems
  dsimp only
  repeat' split
  all_goals first | trivial | exact fun _ => rfl | exact fun hcode => (horder hcode).elim

/-- What has a sample, and what is an array, is looked at by the checks of samples. -/
def MissesSample (types : Registry) : Node → Prop
  | array header items => (array header items).Miscounts items
  | literal header (some sample) =>
    ∃ p, (literal header (some sample)).checkSample types sample = .error p ∧ p.code.IsOfSample
  | mixed header (some sample) =>
    ∃ p, (mixed header (some sample)).checkSample types sample = .error p ∧ p.code.IsOfSample
  | _ => False

/-- The check of the shape of a node fails with a code of samples where the node misses its sample. -/
theorem exists_checkShape_eq_error_iff :
    (∃ p, node.checkShape types = .error p ∧ p.code.IsOfSample) ↔ node.MissesSample types := by
  cases node with
  | object header properties =>
    refine iff_of_false ?_ id
    rintro ⟨p, hp, hcode⟩
    have hfails := (checkShortcuts_failsOnly properties types).bind fun _ _ =>
      checkAdditional_failsOnly (object header properties) types
    exact hfails.of_error hp hcode
  | array header items => exact exists_checkItems_eq_error_iff
  | literal header sample? =>
    cases sample? with
    | none => exact iff_of_false (fun ⟨_, hp, _⟩ => nomatch hp) id
    | some sample => exact Iff.rfl
  | mixed header sample? =>
    cases sample? with
    | none => exact iff_of_false (fun ⟨_, hp, _⟩ => nomatch hp) id
    | some sample => exact Iff.rfl
  | reference => exact iff_of_false (fun ⟨_, hp, _⟩ => nomatch hp) id

end Node

/-- **When the check of a node fails for a sample**: the node passes the checks of its rules, and fails
that of its shape. -/
theorem Registry.checkNode_eq_error_iff {types : Registry} {node : Node} {p : Problem}
    (hcode : p.code.IsOfSample) : types.checkNode node = .error p ↔
      node.checkSuited = .ok () ∧ node.checkReferences types = .ok () ∧ node.checkBounds = .ok () ∧
        node.checkShape types = .error p := by
  constructor
  · intro hp
    rcases Except.bind_eq_error_iff.1 hp with hp | ⟨⟨⟩, hsuited, hp⟩
    · exact (node.checkSuited_failsOnly.of_error hp hcode).elim
    rcases Except.bind_eq_error_iff.1 hp with hp | ⟨⟨⟩, hreferences, hp⟩
    · exact ((node.checkReferences_failsOnly types).of_error hp hcode).elim
    rcases Except.bind_eq_error_iff.1 hp with hp | ⟨⟨⟩, hbounds, hp⟩
    · exact (node.checkBounds_failsOnly.of_error hp hcode).elim
    exact ⟨hsuited, hreferences, hbounds, hp⟩
  · rintro ⟨hsuited, hreferences, hbounds, hp⟩
    rw [checkNode, hsuited, Except.ok_bind, hreferences, Except.ok_bind, hbounds, Except.ok_bind, hp]

/-! ## The node at which the check of a schema stops -/

/-- The nodes of a tree, with what each is built from: the root as the tree is, all others from values. -/
def Node.originated (origin : Provenance) (root : Node) : List (Provenance × Node) :=
  (origin, root) :: (root.children.flatMap subnodes).map fun node => (.value, node)

theorem Node.map_originated (origin : Provenance) (root : Node) :
    (root.originated origin).map Prod.snd = root.subnodes := by
  rw [subnodes_eq, originated, List.map_cons, List.map_map]
  exact congrArg (root :: ·) (List.map_id _)

namespace Schema

/-- The nodes of a schema in the order in which they are checked, with what each is built from. -/
def originated (schema : Schema) : List (Provenance × Node) :=
  schema.root.originated .value ++ schema.types.flatMap fun e => e.2.root.originated (.ofName e.1)

theorem map_originated (schema : Schema) : schema.originated.map Prod.snd = schema.nodes := by
  rw [originated, List.map_append, Node.map_originated, List.map_flatMap]
  simp only [Node.map_originated, nodes, roots, List.flatMap_cons, List.flatMap_map]

/-- The check of a schema stops at a node: all nodes before it pass, and it is refused for the cause of a
problem. -/
def StopsAt (schema : Schema) (origin : Provenance) (node : Node) (p : Problem) : Prop :=
  ∃ before after, schema.originated = before ++ (origin, node) :: after ∧
    (∀ e ∈ before, schema.types.checkNode e.2 = .ok ()) ∧
    ∃ q, schema.types.checkNode node = .error q ∧ q.cause = p.cause

/-- A tree is refused at the first of its nodes that is refused. -/
theorem exists_of_checkTree_eq_error {types : Registry} {origin : Provenance} {root : Node} {p : Problem}
    (h : types.checkTree root = .error p) : ∃ before origin' node after,
      root.originated origin = before ++ (origin', node) :: after ∧
      (∀ e ∈ before, types.checkNode e.2 = .ok ()) ∧ types.checkNode node = .error p := by
  rw [Registry.checkTree, ← Node.map_originated origin root] at h
  obtain ⟨before, node, after, hl, hbefore, hp⟩ := Except.forM_eq_error_iff.1 h
  obtain ⟨before', rest, heq, rfl, hrest⟩ := List.map_eq_append_iff.1 hl
  obtain ⟨⟨origin', node'⟩, after', rfl, rfl, rfl⟩ := List.map_eq_cons_iff.1 hrest
  exact ⟨before', origin', node', after', heq, fun e he => hbefore e.2 (List.mem_map_of_mem he), hp⟩

/-- A tree that passes consists of nodes that pass. -/
theorem checkNode_of_checkTree_eq_ok {types : Registry} {origin : Provenance} {root : Node}
    (h : types.checkTree root = .ok ()) : ∀ e ∈ root.originated origin, types.checkNode e.2 = .ok () := by
  intro e he
  refine Except.forM_eq_ok_iff.1 h e.2 ?_
  rw [← Node.map_originated origin root]
  exact List.mem_map_of_mem he

/-- **Where the check of a schema fails**: at one of its nodes, or because a type is endless. -/
theorem exists_of_check_eq_error {schema : Schema} {p : Problem} (h : schema.check = .error p) :
    (∃ origin node, schema.StopsAt origin node p) ∨ schema.types.checkEndless = .error p := by
  rcases Except.bind_eq_error_iff.1 h with h | ⟨⟨⟩, hroot, h⟩
  · obtain ⟨before, origin, node, after, hl, hbefore, hp⟩ :=
      @exists_of_checkTree_eq_error _ .value _ _ h
    refine Or.inl ⟨origin, node, before, after ++ schema.types.flatMap fun e =>
      e.2.root.originated (.ofName e.1), ?_, hbefore, p, hp, rfl⟩
    rw [originated, hl, List.append_assoc, List.cons_append]
  rcases Except.bind_eq_error_iff.1 h with h | ⟨⟨⟩, -, h⟩
  · obtain ⟨first, e, last, htypes, hfirst, hp⟩ := Except.forM_eq_error_iff.1 h
    obtain ⟨q, hq, rfl⟩ := Except.mapError_eq_error_iff.1 hp
    obtain ⟨before, origin, node, after, hl, hbefore, hq⟩ :=
      @exists_of_checkTree_eq_error _ (.ofName e.1) _ _ hq
    refine Or.inl ⟨origin, node, schema.root.originated .value ++
      ((first.flatMap fun e => e.2.root.originated (.ofName e.1)) ++ before),
      after ++ last.flatMap fun e => e.2.root.originated (.ofName e.1), ?_, ?_, q, hq, rfl⟩
    · rw [originated, htypes, List.flatMap_append, List.flatMap_cons, hl]
      simp
    · intro x hx
      rcases List.mem_append.1 hx with hx | hx
      · exact checkNode_of_checkTree_eq_ok hroot x hx
      rcases List.mem_append.1 hx with hx | hx
      · obtain ⟨earlier, hearlier, hx⟩ := List.mem_flatMap.1 hx
        have htree := Except.mapError_eq_ok_iff.1 (hfirst earlier hearlier)
        exact checkNode_of_checkTree_eq_ok htree x hx
      · exact hbefore x hx
  · exact Or.inr h

end Schema

/-- Following references fails where a type is endless. -/
theorem followReferences_failsOnly (types : Registry) (entered settled : List String) (name : String)
    (blamed? : Option Mark) :
    (followReferences types entered settled name blamed?).FailsOnly fun p => p.code = .infiniteRecursion := by
  induction types, entered, settled, name, blamed? using followReferences.induct with
  | case1 types entered settled name blamed? hentered =>
    rw [followReferences, if_pos hentered]
    rfl
  | case2 types entered settled name blamed? hentered hsettled =>
    rw [followReferences, if_neg hentered, if_pos hsettled]
    trivial
  | case3 types entered settled name blamed? hentered hsettled hroot =>
    rw [followReferences, if_neg hentered, if_neg hsettled]
    split
    · trivial
    · next hsome => exact nomatch hroot.symm.trans hsome
  | case4 types entered settled name blamed? hentered hsettled root hroot ih =>
    rw [followReferences, if_neg hentered, if_neg hsettled]
    split
    · trivial
    · exact Except.Meets.bind (Except.FailsOnly.foldlM fun settled reference _ =>
        ih settled reference.1 reference.2) fun _ _ => trivial

theorem Registry.code_of_checkEndless (types : Registry) :
    types.checkEndless.FailsOnly fun p => p.code = .infiniteRecursion :=
  Except.Meets.bind (Except.FailsOnly.foldlM fun settled name _ =>
    followReferences_failsOnly types [] settled name none) fun _ _ => trivial

theorem Registry.checkEndless_failsOnly (types : Registry) : types.checkEndless.FailsOnly Problem.IsOfRules := by
  refine types.code_of_checkEndless.imp (fun _ => id) fun p hcode => ?_
  rw [Problem.IsOfRules, hcode]
  decide

/-! ## Union members -/

namespace Node

variable {isRead : List Rule → Prop} {node : Node}

/-- **A union member has no sample.** -/
theorem IsWritten.sample?_eq_none (h : node.IsWritten isRead .member) : node.sample? = none := by
  generalize horigin : Provenance.member = origin at h
  induction h with
  | sample | object | array | shortcut => cases horigin
  | member type basis =>
    cases type with
    | builtin type => cases type <;> rfl
    | user name => rfl
  | rules _ _ happly ih =>
    obtain ⟨header, -, hbecomes⟩ := exists_becomes_of_apply_eq_ok happly
    rw [hbecomes.sample_eq]
    exact ih horigin
  | @header _ node _ _ _ _ _ ih =>
    rw [sample?_withHeader]
    exact ih horigin
  | @union node _ _ ih =>
    rw [sample?_withHeader]
    exact ih rfl

/-- Resolving rules keeps the sample. -/
theorem sample?_of_resolveEnums_eq_ok {enumRules : EnumRules} {written : Node}
    (h : written.resolveEnums enumRules = .ok node) : node.sample? = written.sample? := by
  rw [resolveEnums_eq] at h
  obtain ⟨header, -, h⟩ := Except.bind_eq_ok_iff.1 h
  obtain ⟨children, -, h⟩ := Except.bind_eq_ok_iff.1 h
  obtain rfl := Except.ok.inj h
  cases written <;> rfl

/-- A union member misses its sample only as an array that asks for items. -/
theorem exists_of_missesSample {types : Registry} (hsample : node.sample? = none)
    (hitems : node.HasNoItems) (h : node.MissesSample types) :
    ∃ header, node = .array header [] ∧ node.Miscounts [] := by
  cases node with
  | array header items =>
    obtain rfl : items = [] := hitems
    exact ⟨header, rfl, h⟩
  | object | reference => exact h.elim
  | literal header sample? | mixed header sample? =>
    obtain rfl : sample? = none := hsample
    exact h.elim

/-- What is known of the nodes of a tree by their origin. -/
theorem ThroughoutFrom.of_mem_originated {P : Provenance → Node → Prop} {origin origin' : Provenance}
    {root : Node} (h : root.ThroughoutFrom P origin) (hnode : (origin', node) ∈ root.originated origin) :
    P origin' node.bare ∧ (origin' = .member → node.HasNoItems) := by
  rcases List.mem_cons.1 hnode with heq | hnode
  · obtain ⟨rfl, rfl⟩ := Prod.mk.inj heq
    exact ⟨h.bare, h.hasNoItems⟩
  · obtain ⟨part, hpart, heq⟩ := List.mem_map.1 hnode
    obtain ⟨rfl, rfl⟩ := Prod.mk.inj heq
    obtain ⟨child, hchild, hpart⟩ := List.mem_flatMap.1 hpart
    exact ⟨h.children child hchild part hpart, nofun⟩

end Node

/-- What is known of the nodes of a schema by their origin. -/
theorem Schema.Everywhere.of_mem_originated {P : Provenance → Node → Prop} {schema : Schema}
    (h : schema.Everywhere P) {origin : Provenance} {node : Node}
    (hnode : (origin, node) ∈ schema.originated) :
    P origin node.bare ∧ (origin = .member → node.HasNoItems) := by
  rcases List.mem_append.1 hnode with hnode | hnode
  · exact h.root.of_mem_originated hnode
  · obtain ⟨e, he, hnode⟩ := List.mem_flatMap.1 hnode
    exact (h.types e he).of_mem_originated hnode

namespace Session

/-- **The checks of samples blame samples.**  If the check of a prepared schema fails with a code of samples,
then the node at which it stops is built from a value, or it is built from a union member that is an array
and asks for items, and the code is that for the number of items. -/
theorem Arises.origin_of_check_eq_error {s : Session} (hs : s.Arises) {loaded resolved schema : Schema}
    (hload : s.load = .ok loaded)
    (hresolved : (loaded.register s.types).resolveEnums s.rules = .ok resolved)
    (hexpanded : resolved.expand = .ok schema) {p : Problem} (hp : schema.check = .error p)
    (hcode : p.code.IsOfSample) :
    ∃ origin node, schema.StopsAt origin node p ∧ s.Makes origin node.bare ∧
      (origin = .member → p.code = .arrayItemsCount ∧
        ∃ header, node = .array header [] ∧ node.Miscounts []) := by
  rcases Schema.exists_of_check_eq_error hp with ⟨origin, node, hstops⟩ | hendless
  · refine ⟨origin, node, hstops, ?_⟩
    obtain ⟨before, after, horiginated, -, q, hq, hcause⟩ := hstops
    have hmem : (origin, node) ∈ schema.originated := by
      rw [horiginated]
      exact List.mem_append_right _ (List.mem_cons_self ..)
    obtain ⟨hmakes, hitems⟩ := (hs.everywhere hload hresolved hexpanded).of_mem_originated hmem
    refine ⟨hmakes, fun horigin => ?_⟩
    subst horigin
    have hq' : q.code = p.code := congrArg Cause.code hcause
    rw [← hq'] at hcode ⊢
    obtain ⟨written, hwritten, hmade⟩ := hmakes
    have hsample : node.sample? = none := by
      rw [← Node.sample?_bare, Node.sample?_of_resolveEnums_eq_ok hmade, hwritten.sample?_eq_none]
    obtain ⟨-, -, -, hshape⟩ := (Registry.checkNode_eq_error_iff hcode).1 hq
    have hmisses := Node.exists_checkShape_eq_error_iff.1 ⟨q, hshape, hcode⟩
    obtain ⟨header, rfl, hcount⟩ := Node.exists_of_missesSample hsample (hitems rfl) hmisses
    exact ⟨(Node.checkItems_failsOnly _ _).of_error hshape hcode, header, rfl, hcount⟩
  · exact (schema.types.checkEndless_failsOnly.of_error hendless hcode).elim

/-- What a document is loaded as, resolved to and expanded to, and the problem with which the check of that
fails. -/
def refused? (document : String) : Option (Schema × Schema × Schema × Problem) :=
  match (ofText document).load with
  | .error _ => none
  | .ok loaded =>
    match (loaded.register []).resolveEnums [] with
    | .error _ => none
    | .ok resolved =>
      match resolved.expand with
      | .error _ => none
      | .ok schema =>
        match schema.check with
        | .ok _ => none
        | .error p => some (loaded, resolved, schema, p)

theorem of_refused?_eq_some {document : String} {loaded resolved schema : Schema} {p : Problem}
    (h : refused? document = some (loaded, resolved, schema, p)) :
    (ofText document).load = .ok loaded ∧ (loaded.register []).resolveEnums [] = .ok resolved ∧
      resolved.expand = .ok schema ∧ schema.check = .error p := by
  unfold refused? at h
  split at h
  · cases h
  next loaded' hload =>
  split at h
  · cases h
  next resolved' hresolved =>
  split at h
  · cases h
  next schema' hexpanded =>
  split at h
  · cases h
  next q hq =>
  cases h
  exact ⟨hload, hresolved, hexpanded, hq⟩

/-- A text that has to be longer is the sample that is blamed. -/
theorem origin_of_short : ∃ loaded resolved schema p,
    (ofText "\"a\" // \x7bminLength: 2\x7d").load = .ok loaded ∧
    (loaded.register []).resolveEnums [] = .ok resolved ∧ resolved.expand = .ok schema ∧
    schema.check = .error p ∧ p.code.IsOfSample ∧
    ∃ origin node, schema.StopsAt origin node p ∧ (ofText "\"a\" // \x7bminLength: 2\x7d").Makes origin node.bare ∧
      (origin = .member → p.code = .arrayItemsCount ∧ ∃ header, node = .array header [] ∧ node.Miscounts []) := by
  have hrefused : ((refused? "\"a\" // \x7bminLength: 2\x7d").any fun r => r.2.2.2.code == .stringTooShort) = true := by
    decide +kernel
  obtain ⟨⟨loaded, resolved, schema, p⟩, hrefused, hcode⟩ := (Option.any_eq_true _ _).1 hrefused
  obtain ⟨hload, hresolved, hexpanded, hcheck⟩ := of_refused?_eq_some hrefused
  have hcode : p.code.IsOfSample := by
    rw [beq_iff_eq.1 hcode]
    decide
  exact ⟨loaded, resolved, schema, p, hload, hresolved, hexpanded, hcheck, hcode,
    (arises_ofText _).origin_of_check_eq_error hload hresolved hexpanded hcheck hcode⟩

/-- Whether the first node of a schema that is refused is a union member, and refused for the number of
items. -/
def refusesMember (schema : Schema) (p : Problem) : Bool :=
  match schema.originated.find? fun e => !(schema.types.checkNode e.2).isOk with
  | some (.member, node) =>
    match schema.types.checkNode node with
    | .error q => q.cause == p.cause && p.code == .arrayItemsCount
    | .ok _ => false
  | _ => false

/-- A union member of lists that have an item is taken for a sample without items. -/
theorem member_stopsAt : ∃ loaded resolved schema p,
    (ofText "1 // \x7bor: [\"integer\", \x7btype: \"array\", minItems: 1\x7d]\x7d").load = .ok loaded ∧
    (loaded.register []).resolveEnums [] = .ok resolved ∧ resolved.expand = .ok schema ∧
    schema.check = .error p ∧ p.code = .arrayItemsCount ∧ ∃ node, schema.StopsAt .member node p := by
  have hrefused : ((refused? "1 // \x7bor: [\"integer\", \x7btype: \"array\", minItems: 1\x7d]\x7d").any
      fun r => refusesMember r.2.2.1 r.2.2.2) = true := by decide +kernel
  obtain ⟨⟨loaded, resolved, schema, p⟩, hrefused, htest⟩ := (Option.any_eq_true _ _).1 hrefused
  obtain ⟨hload, hresolved, hexpanded, hcheck⟩ := of_refused?_eq_some hrefused
  unfold refusesMember at htest
  split at htest
  · next node hfind =>
    obtain ⟨-, before, after, horiginated, hbefore⟩ := List.find?_eq_some_iff_append.1 hfind
    split at htest
    · next q hq =>
      obtain ⟨hcause, hcode⟩ := Bool.and_eq_true_iff.1 htest
      refine ⟨loaded, resolved, schema, p, hload, hresolved, hexpanded, hcheck, beq_iff_eq.1 hcode, node,
        before, after, horiginated, fun e he => ?_, q, hq, beq_iff_eq.1 hcause⟩
      exact isOk_iff.1 (by simpa using hbefore e he)
    · cases htest
  · cases htest

end Session

end ExampleSchema
