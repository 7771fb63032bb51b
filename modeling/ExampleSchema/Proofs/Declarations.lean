import ExampleSchema.Proofs.Json.Literals
import ExampleSchema.Proofs.Rules

/-!
# What a node says about its type

A node has a JSON type, and it may declare a built-in type, refer to types, or be a union.  What it says in
one of these ways limits what it says in the others, because a rule that declares a type sets the JSON type
too, and a literal that is a union or refers to a type becomes a mixed node.

* `AreRead.or_iff`: a union among rules has members.
* `Header.type_of_apply_eq_ok`: what rules do to the type of a node.
* `Node.Becomes`: what they do to its shape.
* `Node.IsStated`: how what a node says about its type goes together.
* `Node.IsWritten.isStated`, `Session.Arises.isStated`: every node is like that.
* `Node.jsonType_eq_of_declared`: a node that refers to no types has the JSON type of the declared one.
-/

namespace ExampleSchema

/-! ## Unions have members -/

variable {stands : String → Node → Nat → Prop}

/-- A listed member of a union has a name. -/
theorem ReadsMember.ne_nil {item : RuleValue} {names : List String}
    (h : ReadsMember stands item names) : names ≠ [] := by
  cases h with
  | shortcut hnames => exact Node.ne_nil_of_shortcutNames hnames
  | userType | builtinType | rules => exact List.cons_ne_nil _ _

/-- A union has members. -/
theorem ReadsUnion.ne_nil {value : RuleValue} {names : List String}
    (h : ReadsUnion stands value names) : names ≠ [] := by
  cases h with
  | shortcut hnames => exact Node.ne_nil_of_shortcutNames hnames
  | array hitems hmembers =>
    cases hmembers with
    | nil => exact (hitems rfl).elim
    | cons hitem hrest =>
      intro hnil
      exact hitem.ne_nil (List.append_eq_nil_iff.1 hnil).1

/-- Rules that say that a node is a union say so with its members, and the other way round. -/
theorem ReadsRules.or_iff {rules : List (String × Mark × RuleValue)} {added : List Rule}
    (h : ReadsRules stands rules added) :
    (.or ∈ Rules.kinds added ↔ .types ∈ Rules.kinds added) ∧
      ∀ r ∈ added, ∀ names, r.constraint = .types names → names ≠ [] := by
  induction rules generalizing added with
  | nil =>
    cases h
    exact ⟨by simp [Rules.kinds], fun _ hr => (List.not_mem_nil hr).elim⟩
  | cons rule rest ih =>
    cases h with
    | union hname hvalue hrest =>
      refine ⟨?_, ?_⟩
      · simp [Rules.kinds, Rule.kind, Constraint.kind]
      · intro r hr names hc
        simp only [List.mem_cons] at hr
        rcases hr with rfl | rfl | hr
        · obtain rfl := Constraint.types.inj hc
          exact hvalue.ne_nil
        · cases hc
        · exact (ih hrest).2 r hr names hc
    | rule hname hconstraint hrest =>
      obtain ⟨htypes, hor⟩ := RuleValue.kind_ne_of_constraint_eq_ok hconstraint
      obtain ⟨hiff, hnames⟩ := ih hrest
      refine ⟨?_, ?_⟩
      · simp only [Rules.kinds, List.map_cons, List.mem_cons] at hiff ⊢
        simp only [Rule.kind, hor.symm, htypes.symm, false_or] at hiff ⊢
        exact hiff
      · intro r hr names hc
        rcases List.mem_cons.1 hr with rfl | hr
        · dsimp only at hc
          subst hc
          exact (htypes rfl).elim
        · exact hnames r hr names hc

theorem AreRead.or_iff {added : List Rule} (h : AreRead added) :
    (.or ∈ Rules.kinds added ↔ .types ∈ Rules.kinds added) ∧
      ∀ r ∈ added, ∀ names, r.constraint = .types names → names ≠ [] := by
  obtain ⟨stands, rules, hreads⟩ := h
  exact hreads.or_iff

/-! ## What rules do to a type -/

/-- The built-in types that leave everything open. -/
theorem BuiltinType.eq_of_isUnrestricted {type : BuiltinType} (h : type.isUnrestricted = true) :
    type = .any ∨ type = .mixed := by
  cases type with
  | any => exact Or.inl rfl
  | mixed => exact Or.inr rfl
  | _ => cases h

namespace Header

/-- What declares a type is a rule. -/
theorem exists_of_builtinOf? {added : List Rule} {type : BuiltinType}
    (h : builtinOf? added = some type) : ∃ r ∈ added, r.constraint = .type (.builtin type) := by
  obtain ⟨r, hr, hfound⟩ := List.exists_of_findSome?_eq_some h
  split at hfound
  · next hc =>
    obtain rfl := Option.some.inj hfound
    exact ⟨r, hr, hc⟩
  · cases hfound

theorem type_mem_kinds_of_builtinOf? {added : List Rule} {type : BuiltinType}
    (h : builtinOf? added = some type) : .type ∈ Rules.kinds added := by
  obtain ⟨r, hr, hc⟩ := exists_of_builtinOf? h
  exact List.mem_map.2 ⟨r, hr, by rw [Rule.kind, hc]; rfl⟩

/-- Declaring a type sets the JSON type, unless the declared type leaves it open. -/
theorem type_of_declare_eq_ok {h declared : Header} {type : BuiltinType}
    (hdeclared : h.declare type = .ok declared) : declared.declared? = some type ∧
      declared.jsonType = if type.jsonType = .mixed then h.jsonType else type.jsonType := by
  rw [declare] at hdeclared
  dsimp only at hdeclared
  split at hdeclared
  · obtain ⟨rules, -, hdeclared⟩ := Except.bind_eq_ok_iff.1 hdeclared
    obtain rfl := Except.ok.inj hdeclared
    exact ⟨rfl, rfl⟩
  · obtain rfl := Except.ok.inj hdeclared
    exact ⟨rfl, rfl⟩

/-- **What rules do to a type**: the declared type, if there is one, sets the JSON type, unless it leaves it
open. -/
theorem type_of_apply_eq_ok {h changed : Header} {sample? : Option Mark} {added : List Rule}
    (happly : h.apply sample? added = .ok changed) :
    changed.declared? = (builtinOf? added).or h.declared? ∧
      changed.jsonType = (match builtinOf? added with
        | some type => if type.jsonType = .mixed then h.jsonType else type.jsonType
        | none => h.jsonType) := by
  rw [apply_eq] at happly
  obtain ⟨h₁, hadded, happly⟩ := Except.bind_eq_ok_iff.1 happly
  obtain ⟨h₂, hdeclared, happly⟩ := Except.bind_eq_ok_iff.1 happly
  obtain ⟨-, htype, hdeclaredBefore, -⟩ := exists_of_addRules_eq_ok hadded
  have hfilled : changed.declared? = h₂.declared? ∧ changed.jsonType = h₂.jsonType := by
    unfold fillConstant at happly
    split at happly
    · obtain rfl := Except.ok.inj happly
      exact ⟨rfl, rfl⟩
    · split at happly
      · obtain ⟨key, -, happly⟩ := Except.bind_eq_ok_iff.1 happly
        obtain rfl := Except.ok.inj happly
        exact ⟨rfl, rfl⟩
      · obtain rfl := Except.ok.inj happly
        exact ⟨rfl, rfl⟩
  rw [hfilled.1, hfilled.2]
  cases hbuiltin : builtinOf? added with
  | none =>
    rw [hbuiltin] at hdeclared
    obtain rfl := Except.ok.inj hdeclared
    exact ⟨hdeclaredBefore, htype⟩
  | some type =>
    rw [hbuiltin] at hdeclared
    rw [← htype]
    exact type_of_declare_eq_ok hdeclared

/-- The kinds of the rules that are there and of those that are added. -/
theorem mem_kinds_of_apply_eq_ok {h changed : Header} {sample? : Option Mark} {added : List Rule}
    (happly : h.apply sample? added = .ok changed) {kind : ConstraintKind}
    (hkind : ∀ format, kind ≠ .format format) :
    kind ∈ changed.rules.kinds ↔ kind ∈ h.rules.kinds ∨ kind ∈ Rules.kinds added := by
  obtain ⟨formats, f, hrules, hf, hformats, -⟩ := exists_of_apply_eq_ok happly
  have hnone : kind ∉ Rules.kinds formats := by
    intro hmem
    obtain ⟨r, hr, rfl⟩ := List.mem_map.1 hmem
    obtain ⟨format, hc⟩ := hformats r hr
    exact hkind format (by rw [Rule.kind, hc]; rfl)
  rw [hrules, Rules.kinds_change hf]
  simp only [Rules.kinds, List.map_append, List.mem_append] at hnone ⊢
  tauto

/-- A kind of rule that is there is not added once more. -/
theorem disjoint_kinds_of_apply_eq_ok {h changed : Header} {sample? : Option Mark} {added : List Rule}
    (happly : h.apply sample? added = .ok changed) (hnodup : changed.rules.kinds.Nodup) :
    h.rules.kinds.Disjoint (Rules.kinds added) := by
  obtain ⟨formats, f, hrules, hf, -, -⟩ := exists_of_apply_eq_ok happly
  have hkinds : changed.rules.kinds = h.rules.kinds ++ (Rules.kinds added ++ Rules.kinds formats) := by
    rw [hrules, Rules.kinds_change hf]
    simp [Rules.kinds]
  rw [hkinds] at hnodup
  exact List.disjoint_of_disjoint_append_right_left (List.disjoint_of_nodup_append hnodup)

/-- The members of a union stay as they are. -/
theorem mem_of_apply_eq_ok_of_types {h changed : Header} {sample? : Option Mark} {added : List Rule}
    (happly : h.apply sample? added = .ok changed) {r : Rule} (hr : r ∈ h.rules ++ added)
    (hkind : r.kind = .types) : r ∈ changed.rules := by
  obtain ⟨formats, f, hrules, hf, -, -⟩ := exists_of_apply_eq_ok happly
  rw [hrules]
  exact Rules.mem_change_of_names hf (List.mem_append_left _ hr) (by simp [hkind])

/-- A rule that names types was there or is added. -/
theorem mem_or_mem_of_apply_eq_ok {h changed : Header} {sample? : Option Mark} {added : List Rule}
    (happly : h.apply sample? added = .ok changed) {r : Rule} (hr : r ∈ changed.rules)
    (hkind : r.kind = .type ∨ r.kind = .types ∨ r.kind = .allOf ∨ r.kind = .additionalProperties) :
    r ∈ h.rules ∨ r ∈ added := by
  obtain ⟨formats, f, hrules, hf, hformats, -⟩ := exists_of_apply_eq_ok happly
  rw [hrules] at hr
  have hr := Rules.mem_of_mem_change_of_names hf hr hkind
  rcases List.mem_append.1 hr with hr | hr
  · exact List.mem_append.1 hr
  · obtain ⟨format, hc⟩ := hformats r hr
    rw [Rule.kind, hc] at hkind
    simp [Constraint.kind] at hkind

end Header

/-! ## What rules do to the shape of a node -/

namespace Node

variable {node changed : Node} {added : List Rule}

/-- What a node becomes as its rules change its header. -/
inductive Becomes (node : Node) (added : List Rule) (header : Header) : Node → Prop where
  /-- It keeps its shape.  A literal does so if it is no union, of no type that leaves everything open, and
  of no type of the user. -/
  | same : (∀ old sample?, node = .literal old sample? → .or ∉ header.rules.kinds ∧
      (∀ type ∈ Header.builtinOf? added, type.isUnrestricted = false) ∧
      Header.namesUserType added = false) → Becomes node added header (node.withHeader header)
  /-- A literal becomes a mixed node of an open type. -/
  | opened {old : Header} {sample? : Option Mark} : node = .literal old sample? →
      (.or ∈ header.rules.kinds ∨ ∃ type ∈ Header.builtinOf? added, type.isUnrestricted = true) →
      Becomes node added header (.mixed { header with jsonType := .mixed } sample?)
  /-- A literal of a type of the user becomes a mixed node. -/
  | referring {old : Header} {sample? : Option Mark} : node = .literal old sample? →
      Becomes node added header (.mixed header sample?)

theorem Becomes.declared_eq {header : Header} (h : Becomes node added header changed) :
    changed.header.declared? = header.declared? := by
  cases h with
  | same => rw [header_withHeader]
  | opened | referring => rfl

theorem Becomes.rules_eq {header : Header} (h : Becomes node added header changed) :
    changed.rules = header.rules := by
  cases h with
  | same => rw [rules_withHeader]
  | opened | referring => rfl

theorem Becomes.sample_eq {header : Header} (h : Becomes node added header changed) :
    changed.sample? = node.sample? := by
  cases h with
  | same => cases node <;> rfl
  | opened hnode | referring hnode =>
    rw [hnode]
    rfl

/-- Rules change the header of a node, and its shape along with that. -/
theorem exists_becomes_of_apply_eq_ok (h : node.apply added = .ok changed) : ∃ header,
    node.header.apply node.sample? added = .ok header ∧ Becomes node added header changed := by
  obtain ⟨header, hheader, h⟩ := Except.bind_eq_ok_iff.1 h
  refine ⟨header, hheader, ?_⟩
  cases node with
  | literal old sample? =>
    dsimp only at h
    split at h
    · next hopen =>
      obtain rfl := Except.ok.inj h
      refine .opened rfl ?_
      rwa [Bool.or_eq_true, Rules.has_eq_true_iff, Option.any_eq_true] at hopen
    · next hclosed =>
      rw [Bool.or_eq_true, Rules.has_eq_true_iff, Option.any_eq_true] at hclosed
      split at h
      · obtain rfl := Except.ok.inj h
        exact .referring rfl
      · next huser =>
        obtain rfl := Except.ok.inj h
        refine .same fun _ _ _ => ⟨fun hor => hclosed (Or.inl hor), fun type htype => ?_,
          by simpa using huser⟩
        exact Bool.eq_false_iff.2 fun hany => hclosed (Or.inr ⟨type, htype, hany⟩)
  | object | array | mixed | reference =>
    obtain rfl := Except.ok.inj h
    refine .same fun old sample? hnode => ?_
    cases hnode

/-! ## What a node says -/

/-- The JSON type of a node that declares none is that of what it is written as, or open.  An object or an
array leaves it open if it is a union. -/
def HasOwnType (node : Node) : Prop :=
  match node with
  | .object header _ => header.jsonType = .object ∨ .or ∈ header.rules.kinds
  | .array header _ => header.jsonType = .array ∨ .or ∈ header.rules.kinds
  | .literal header _ | .mixed header _ =>
    header.jsonType.isLiteral = true ∨ header.jsonType = .mixed
  | .reference _ _ => True

/-- How what a node says about its type goes together. -/
structure IsStated (node : Node) : Prop where
  /-- A type is declared by a rule. -/
  declared : ∀ type, node.header.declared? = some type → .type ∈ node.rules.kinds
  /-- A declared type sets the JSON type, except in a union. -/
  jsonType : ∀ type, node.header.declared? = some type → type.jsonType ≠ .mixed →
    node.jsonType = type.jsonType ∨ .or ∈ node.rules.kinds
  /-- A declared type may leave the JSON type to what is written. -/
  own : (∀ type, node.header.declared? = some type → type.jsonType = .mixed) → node.HasOwnType
  /-- A union has members. -/
  union : .or ∈ node.rules.kinds → ∃ r ∈ node.rules, ∃ names, r.constraint = .types names ∧ names ≠ []
  /-- A literal node refers to nothing. -/
  literal : ∀ header sample?, node = .literal header sample? →
    .or ∉ node.rules.kinds ∧ ∀ r ∈ node.rules, ∀ name, r.constraint ≠ .type (.user name)
  /-- A sample is a literal. -/
  sample : ∀ mark, node.sample? = some mark → IsLiteral mark.bytes

/-- A node whose place, comment or details of rules have changed. -/
theorem IsStated.change (h : node.IsStated) {header : Header} (htype : header.jsonType = node.jsonType)
    (hdeclared : header.declared? = node.header.declared?) {f : Constraint → Constraint}
    (hf : ∀ c, Constraint.Completes c (f c)) (hrules : header.rules = node.rules.change f) :
    (node.withHeader header).IsStated := by
  have hkinds : header.rules.kinds = node.rules.kinds := by rw [hrules, Rules.kinds_change hf]
  refine ⟨?_, ?_, fun hmixed => ?_, ?_, fun old sample? hnode => ?_, fun mark hmark => ?_⟩
  · rw [header_withHeader, rules_withHeader, hdeclared, hkinds]
    exact h.declared
  · rw [header_withHeader, rules_withHeader, Node.jsonType, header_withHeader, hdeclared, hkinds, htype]
    exact h.jsonType
  · rw [header_withHeader, hdeclared] at hmixed
    have hown := h.own hmixed
    cases node with
    | object | array =>
      simp only [HasOwnType, withHeader, htype, hkinds] at hown ⊢
      exact hown
    | literal | mixed =>
      simp only [HasOwnType, withHeader, htype] at hown ⊢
      exact hown
    | reference => trivial
  · rw [rules_withHeader, hkinds, hrules]
    intro hor
    obtain ⟨r, hr, names, hc, hnames⟩ := h.union hor
    exact ⟨r, Rules.mem_change_of_names hf hr (by simp [Rule.kind, hc, Constraint.kind]), names, hc, hnames⟩
  · cases node with
    | literal old' sample?' =>
      obtain ⟨hor, huser⟩ := h.literal old' sample?' rfl
      rw [rules_withHeader, hkinds, hrules]
      refine ⟨hor, fun r hr name hc => huser r ?_ name hc⟩
      exact Rules.mem_of_mem_change_of_names hf hr (by simp [Rule.kind, hc, Constraint.kind])
    | object | array | mixed | reference => cases hnode
  · refine h.sample mark ?_
    cases node <;> exact hmark

/-- What names a type among some rules. -/
theorem namesUserType_of_mem {r : Rule} (hr : r ∈ added) {name : String}
    (hc : r.constraint = .type (.user name)) : Header.namesUserType added = true :=
  List.any_eq_true.2 ⟨r, hr, by rw [hc]⟩

/-- A shortcut says nothing of its own. -/
theorem isStated_shortcut {mark : Mark} (h : Shortcut.node mark = .ok node) : node.IsStated := by
  obtain ⟨names, hnames, h⟩ := Except.bind_eq_ok_iff.1 h
  obtain ⟨header, hheader, h⟩ := Except.bind_eq_ok_iff.1 h
  obtain rfl := Except.ok.inj h
  obtain ⟨hrules, -, hdeclared, -⟩ := Header.exists_of_addRules_eq_ok hheader
  have hnone : ∀ type, header.declared? ≠ some type := by simp [hdeclared]
  have hunion : .or ∈ header.rules.kinds →
      ∃ r ∈ header.rules, ∃ names, r.constraint = .types names ∧ names ≠ [] := by
    intro hor
    rw [hrules] at hor ⊢
    match names, ne_nil_of_shortcutNames hnames with
    | [name], _ => simp [Shortcut.rules, Rules.kinds, Rule.kind, Constraint.kind] at hor
    | first :: second :: rest, hne =>
      exact ⟨_, List.mem_append_right _ (List.mem_cons_self ..), _, rfl, hne⟩
  exact {
    declared := fun type h => (hnone type h).elim
    jsonType := fun type h => (hnone type h).elim
    own := fun _ => trivial
    union := hunion
    literal := fun _ _ h => by cases h
    sample := fun _ h => by cases h }

/-- A node that has no rules yet. -/
theorem isStated_of_rules_eq_nil (hrules : node.rules = []) (hdeclared : node.header.declared? = none)
    (hown : node.HasOwnType) (hsample : ∀ mark, node.sample? = some mark → IsLiteral mark.bytes) :
    node.IsStated where
  declared type h := nomatch hdeclared.symm.trans h
  jsonType type h := nomatch hdeclared.symm.trans h
  own _ := hown
  union h := by simp [hrules, Rules.kinds] at h
  literal header sample? _ := by simp [hrules, Rules.kinds]
  sample := hsample

/-- The type of a union member starts out as what it is the type of. -/
theorem isStated_memberNode (type : TypeName) (basis : Mark) :
    (RuleValue.memberNode type basis).IsStated := by
  refine isStated_of_rules_eq_nil (rules_memberNode type basis) ?_ ?_ ?_
  all_goals
    cases type with
    | user name => simp [RuleValue.memberNode, HasOwnType, Node.header, sample?]
    | builtin type =>
      cases type <;> simp [RuleValue.memberNode, HasOwnType, Node.header, sample?,
        BuiltinType.jsonType, JsonType.isLiteral]

namespace Becomes

variable {header : Header}

/-- The JSON type is that of the header, unless the node is open. -/
theorem jsonType_eq (h : Becomes node added header changed) :
    changed.jsonType = header.jsonType ∨ .or ∈ changed.rules.kinds ∨
      ∃ type ∈ Header.builtinOf? added, type.isUnrestricted = true := by
  cases h with
  | same =>
    rw [jsonType, header_withHeader]
    exact Or.inl rfl
  | referring => exact Or.inl rfl
  | opened _ hopen => exact Or.inr hopen

/-- A node that keeps its JSON type keeps to what it is written as. -/
theorem hasOwnType (h : Becomes node added header changed) (hown : node.HasOwnType)
    (htype : header.jsonType = node.header.jsonType)
    (hor : .or ∈ node.rules.kinds → .or ∈ header.rules.kinds) : changed.HasOwnType := by
  cases h with
  | same =>
    cases node with
    | object | array =>
      simp only [HasOwnType, withHeader, htype] at hown ⊢
      exact hown.imp_right hor
    | literal | mixed =>
      simp only [HasOwnType, withHeader, htype] at hown ⊢
      exact hown
    | reference => trivial
  | opened => exact Or.inr rfl
  | referring hnode =>
    subst hnode
    simp only [HasOwnType, htype] at hown ⊢
    exact hown

end Becomes

namespace IsStated

variable {header : Header}

/-- A type is still declared by a rule. -/
theorem type_mem_kinds_of_apply (h : node.IsStated)
    (hheader : node.header.apply node.sample? added = .ok header) {type : BuiltinType}
    (hdeclared : header.declared? = some type) : .type ∈ header.rules.kinds := by
  rw [(Header.type_of_apply_eq_ok hheader).1, Option.or_eq_some_iff] at hdeclared
  refine (Header.mem_kinds_of_apply_eq_ok hheader (by simp)).2 ?_
  rcases hdeclared with hbuiltin | ⟨-, hbefore⟩
  · exact Or.inr (Header.type_mem_kinds_of_builtinOf? hbuiltin)
  · exact Or.inl (h.declared type hbefore)

/-- A declared type has set the JSON type of the header, except in a union. -/
theorem jsonType_of_apply (h : node.IsStated)
    (hheader : node.header.apply node.sample? added = .ok header) {type : BuiltinType}
    (hdeclared : header.declared? = some type) (hmixed : type.jsonType ≠ .mixed) :
    header.jsonType = type.jsonType ∨ .or ∈ header.rules.kinds := by
  obtain ⟨hafter, htype⟩ := Header.type_of_apply_eq_ok hheader
  rw [hafter] at hdeclared
  rw [htype, Header.mem_kinds_of_apply_eq_ok hheader (by simp)]
  cases hbuiltin : Header.builtinOf? added with
  | none =>
    rw [hbuiltin, Option.none_or] at hdeclared
    exact (h.jsonType type hdeclared hmixed).imp_right Or.inl
  | some declared =>
    rw [hbuiltin, Option.some_or] at hdeclared
    obtain rfl := Option.some.inj hdeclared
    exact Or.inl (if_neg hmixed)

/-- A type that is declared by now and leaves the JSON type to what is written leaves it so from the start,
because a node declares its type once. -/
theorem hasOwnType_of_becomes (h : node.IsStated)
    (hheader : node.header.apply node.sample? added = .ok header)
    (hbecomes : Becomes node added header changed) (hnodup : header.rules.kinds.Nodup)
    (hmixed : ∀ type, header.declared? = some type → type.jsonType = .mixed) : changed.HasOwnType := by
  obtain ⟨hdeclared, htype⟩ := Header.type_of_apply_eq_ok hheader
  rw [hdeclared] at hmixed
  have hsame : header.jsonType = node.header.jsonType := by
    rw [htype]
    cases hbuiltin : Header.builtinOf? added with
    | none => rfl
    | some declared => exact if_pos (hmixed declared (by rw [hbuiltin, Option.some_or]))
  refine hbecomes.hasOwnType (h.own fun type hbefore => ?_) hsame fun hor =>
    (Header.mem_kinds_of_apply_eq_ok hheader (by simp)).2 (Or.inl hor)
  cases hbuiltin : Header.builtinOf? added with
  | none => exact hmixed type (by rw [hbuiltin, Option.none_or, hbefore])
  | some declared =>
    have hdisjoint := Header.disjoint_kinds_of_apply_eq_ok hheader hnodup
    exact (hdisjoint (h.declared type hbefore) (Header.type_mem_kinds_of_builtinOf? hbuiltin)).elim

/-- A union has members, be it one from the start or by the rules that are read. -/
theorem exists_types_of_apply (h : node.IsStated) (hadded : AreRead added)
    (hheader : node.header.apply node.sample? added = .ok header) (hor : .or ∈ header.rules.kinds) :
    ∃ r ∈ header.rules, ∃ names, r.constraint = .types names ∧ names ≠ [] := by
  rcases (Header.mem_kinds_of_apply_eq_ok hheader (by simp)).1 hor with hbefore | hnew
  · obtain ⟨r, hr, names, hc, hne⟩ := h.union hbefore
    have hkind : r.kind = .types := by rw [Rule.kind, hc]; rfl
    exact ⟨r, Header.mem_of_apply_eq_ok_of_types hheader (List.mem_append_left _ hr) hkind, names, hc, hne⟩
  · obtain ⟨hiff, hmembers⟩ := hadded.or_iff
    obtain ⟨r, hr, hkind⟩ := List.mem_map.1 (hiff.1 hnew)
    obtain ⟨names, hc⟩ : ∃ names, r.constraint = .types names := by
      rw [Rule.kind] at hkind
      cases hc : r.constraint <;> rw [hc] at hkind <;> cases hkind
      exact ⟨_, rfl⟩
    exact ⟨r, Header.mem_of_apply_eq_ok_of_types hheader (List.mem_append_right _ hr) hkind, names, hc,
      hmembers r hr names hc⟩

/-- What is still a literal node refers to nothing, because one of a type of the user becomes a mixed node. -/
theorem literal_of_becomes (h : node.IsStated)
    (hheader : node.header.apply node.sample? added = .ok header)
    (hbecomes : Becomes node added header changed) {old : Header} {sample? : Option Mark}
    (hliteral : changed = .literal old sample?) :
    .or ∉ header.rules.kinds ∧ ∀ r ∈ header.rules, ∀ name, r.constraint ≠ .type (.user name) := by
  cases hbecomes with
  | opened | referring => cases hliteral
  | same hclosed =>
    cases node with
    | object | array | mixed | reference => cases hliteral
    | literal old' sample?' =>
      obtain ⟨hnotOr, -, huser⟩ := hclosed old' sample?' rfl
      refine ⟨hnotOr, fun r hr name hc => ?_⟩
      have hkind : r.kind = .type := by rw [Rule.kind, hc]; rfl
      rcases Header.mem_or_mem_of_apply_eq_ok hheader hr (Or.inl hkind) with hr | hr
      · exact (h.literal old' sample?' rfl).2 r hr name hc
      · cases (namesUserType_of_mem hr hc).symm.trans huser

/-- **What a node says still goes together** once rules have been read. -/
theorem apply (h : node.IsStated) (hadded : AreRead added) (happly : node.apply added = .ok changed)
    (hnodup : changed.rules.kinds.Nodup) : changed.IsStated := by
  obtain ⟨header, hheader, hbecomes⟩ := exists_becomes_of_apply_eq_ok happly
  rw [hbecomes.rules_eq] at hnodup
  refine ⟨fun type hdeclared => ?_, fun type hdeclared hmixed => ?_, fun hmixed => ?_, fun hor => ?_,
    fun old sample? hliteral => ?_, fun mark hmark => ?_⟩
  · rw [hbecomes.declared_eq] at hdeclared
    rw [hbecomes.rules_eq]
    exact h.type_mem_kinds_of_apply hheader hdeclared
  · rw [hbecomes.declared_eq] at hdeclared
    rcases hbecomes.jsonType_eq with hsame | hunion | ⟨other, hbuiltin, hopen⟩
    · rw [hsame, hbecomes.rules_eq]
      exact h.jsonType_of_apply hheader hdeclared hmixed
    · exact Or.inr hunion
    · -- the type that leaves the node open is the declared one
      rw [(Header.type_of_apply_eq_ok hheader).1, Option.mem_def.1 hbuiltin, Option.some_or] at hdeclared
      obtain rfl := Option.some.inj hdeclared
      rcases BuiltinType.eq_of_isUnrestricted hopen with rfl | rfl <;> exact (hmixed rfl).elim
  · rw [hbecomes.declared_eq] at hmixed
    exact h.hasOwnType_of_becomes hheader hbecomes hnodup hmixed
  · rw [hbecomes.rules_eq] at hor ⊢
    exact h.exists_types_of_apply hadded hheader hor
  · rw [hbecomes.rules_eq]
    exact h.literal_of_becomes hheader hbecomes hliteral
  · exact h.sample mark (hbecomes.sample_eq ▸ hmark)

end IsStated

/-- **Every written node is like that.** -/
theorem IsWritten.isStated {origin : Provenance} (h : node.IsWritten AreRead origin) :
    node.IsStated := by
  induction h with
  | @sample mark hliteral =>
    obtain ⟨type, htype, hkind⟩ := hliteral.exists_jsonType
    refine isStated_of_rules_eq_nil rfl rfl ?_ fun mark' hmark => ?_
    · rw [htype]
      exact Or.inl hkind
    · obtain rfl := Option.some.inj hmark
      exact hliteral
  | object | array => exact isStated_of_rules_eq_nil rfl rfl (Or.inl rfl) fun _ h => by cases h
  | shortcut hmark => exact isStated_shortcut hmark
  | member type basis => exact isStated_memberNode type basis
  | rules hnode hadded happly ih =>
    exact ih.apply hadded happly (IsWritten.rules hnode hadded happly).isRegular.nodup
  | header header _ htype hdeclared hrules ih =>
    exact ih.change htype hdeclared (fun c => .same c) (hrules.trans (by simp [Rules.change, Node.rules]))
  | @union node _ hor ih =>
    have hor := Rules.has_eq_true_iff.1 hor
    refine ⟨?_, fun _ _ _ => Or.inr ?_, fun _ => ?_, ?_, fun old sample? hliteral => ?_, fun mark hmark => ?_⟩
    · rw [rules_withHeader, header_withHeader]
      exact ih.declared
    · rwa [rules_withHeader]
    · cases node with
      | object | array => exact Or.inr hor
      | literal | mixed => exact Or.inr rfl
      | reference => trivial
    · rw [rules_withHeader]
      exact ih.union
    · cases node with
      | literal old' sample?' => exact ((ih.literal old' sample?' rfl).1 hor).elim
      | object | array | mixed | reference => cases hliteral
    · refine ih.sample mark ?_
      cases node <;> exact hmark

/-- A written node is said to be a union exactly if its members are listed. -/
theorem IsWritten.or_mem_iff {origin : Provenance} (h : node.IsWritten AreRead origin) :
    .or ∈ node.rules.kinds ↔ .types ∈ node.rules.kinds := by
  induction h with
  | sample | object | array => exact iff_of_false (List.not_mem_nil) (List.not_mem_nil)
  | shortcut hmark =>
    obtain ⟨header, names, rfl, hnames, hrules, -⟩ := exists_of_shortcutNode hmark
    rw [Node.rules, Node.header, hrules]
    rcases names with _ | ⟨first, _ | ⟨second, rest⟩⟩
    · exact (ne_nil_of_shortcutNames hnames rfl).elim
    · simp [Shortcut.rules, Rules.kinds, Rule.kind, Constraint.kind]
    · simp [Shortcut.rules, Rules.kinds, Rule.kind, Constraint.kind]
  | member type basis =>
    rw [rules_memberNode]
    exact iff_of_false (List.not_mem_nil) (List.not_mem_nil)
  | rules _ hadded happly ih =>
    obtain ⟨header, hheader, hbecomes⟩ := exists_becomes_of_apply_eq_ok happly
    rw [hbecomes.rules_eq, Header.mem_kinds_of_apply_eq_ok hheader (by simp),
      Header.mem_kinds_of_apply_eq_ok hheader (by simp)]
    exact or_congr ih hadded.or_iff.1
  | header header _ _ _ hrules ih =>
    rw [rules_withHeader, hrules]
    exact ih
  | union _ _ ih =>
    rw [rules_withHeader]
    exact ih

/-- What a node says has nothing to do with the nodes below it. -/
theorem isStated_bare_iff : node.bare.IsStated ↔ node.IsStated := by
  cases node with
  | literal | mixed | reference => exact Iff.rfl
  | object | array =>
    constructor
    all_goals
      intro h
      refine ⟨h.declared, h.jsonType, h.own, h.union, fun _ _ hliteral => ?_, fun _ hsample => ?_⟩
      · cases hliteral
      · cases hsample

/-- Resolving rules keeps what a node says together. -/
theorem IsStated.resolveEnums {enumRules : EnumRules} {written : Node} (h : written.IsStated)
    (hresolved : written.resolveEnums enumRules = .ok node.bare) : node.IsStated := by
  rw [resolveEnums_eq] at hresolved
  obtain ⟨header, hheader, hresolved⟩ := Except.bind_eq_ok_iff.1 hresolved
  obtain ⟨children, -, hresolved⟩ := Except.bind_eq_ok_iff.1 hresolved
  obtain ⟨f, rfl, hf⟩ := Header.exists_of_resolveEnum_eq_ok hheader
  have hbare := congrArg bare (Except.ok.inj hresolved)
  rw [bare_withChildren] at hbare
  rw [← isStated_bare_iff, ← isStated_bare_iff, ← hbare, isStated_bare_iff]
  exact h.change rfl rfl hf rfl

/-! ## Nodes without references -/

variable {type : BuiltinType}

theorem or_notMem_of_typeNames_eq_nil (hregular : node.IsRegular) (hstated : node.IsStated)
    (hnames : node.rules.typeNames = []) : .or ∉ node.rules.kinds := by
  intro hor
  obtain ⟨r, hr, names, hc, hne⟩ := hstated.union hor
  obtain ⟨name, hname⟩ := List.exists_mem_of_ne_nil names hne
  have hmem := (Rules.mem_typeNames_iff hregular.nodup).2 (Or.inr ⟨r, hr, names, hc, hname⟩)
  rw [hnames] at hmem
  cases hmem

/-- A node that declares a type has the JSON type of that. -/
theorem jsonType_eq_of_declared (hregular : node.IsRegular) (hstated : node.IsStated)
    (hnames : node.rules.typeNames = []) {type : BuiltinType}
    (hdeclared : node.header.declared? = some type) (htype : type.jsonType ≠ .mixed) :
    node.jsonType = type.jsonType :=
  (hstated.jsonType type hdeclared htype).resolve_right
    (or_notMem_of_typeNames_eq_nil hregular hstated hnames)

end Node

/-- **Every node of a compiled schema is like that.** -/
theorem Session.Arises.isStated {s : Session} (hs : s.Arises) {schema : Schema}
    (h : s.compiled = .ok schema) {node : Node} (hnode : node ∈ schema.nodes) : node.IsStated := by
  obtain ⟨origin, written, hwritten, hresolved⟩ := hs.exists_makes h hnode
  exact hwritten.isStated.resolveEnums hresolved

end ExampleSchema
