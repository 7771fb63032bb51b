import ExampleSchema.Proofs.Load.Compiled

/-!
# The rules of a node

No two rules of a node are of one kind, so a rule that a node has is the rule that is found when its kind
is looked up.  Rules are added, and the details of some are filled in, but none is ever dropped.

* `Rules.kinds`, `Rules.constraint?_eq_some_iff`: kinds, and looking them up.
* `Constraint.Completes`: one constraint is another with details filled in.
* `Header.exists_of_apply_eq_ok`, `Header.exists_of_resolveEnum_eq_ok`: what happens to the rules.
* `Node.IsRegular`: kinds are distinct, and a shortcut has rules for all its names.
* `Session.Arises.isRegular`: every node of a compiled schema is like that.
-/

namespace ExampleSchema

/-! ## Kinds -/

namespace Rules

variable {rules : Rules}

/-- The kinds of some rules. -/
def kinds (rules : Rules) : List ConstraintKind := rules.map Rule.kind

theorem has_eq_false_iff {kind : ConstraintKind} : rules.has kind = false ↔ kind ∉ rules.kinds := by
  simp [has, rule?, kinds, List.find?_eq_none]

theorem has_eq_true_iff {kind : ConstraintKind} : rules.has kind = true ↔ kind ∈ rules.kinds := by
  simp [has, rule?, kinds]

/-- A rule is added where none of its kind is. -/
theorem add_eq_ok_iff {constraint : Constraint} {mark? : Option Mark} {added : Rules} :
    rules.add constraint mark? = .ok added ↔
      constraint.kind ∉ rules.kinds ∧ added = rules ++ [⟨constraint, mark?⟩] := by
  rw [← has_eq_false_iff, add]
  cases rules.has constraint.kind with
  | true => simp
  | false => simp [eq_comm]

theorem nodup_kinds_add {r : Rule} (h : rules.kinds.Nodup) (hnew : r.kind ∉ rules.kinds) :
    (kinds (rules ++ [r])).Nodup := by
  rw [kinds, List.map_append, List.map_singleton, ← List.concat_eq_append]
  exact h.concat hnew

/-- Rules that are added one after another come last. -/
theorem addAll_eq_ok {start all : Rules} {added : List Rule}
    (h : added.foldlM (fun (rules : Rules) r => rules.add r.constraint r.mark?) start = .ok all) :
    all = start ++ added ∧ (start.kinds.Nodup → all.kinds.Nodup) := by
  induction added generalizing start with
  | nil =>
    obtain rfl := Except.ok.inj h
    exact ⟨(List.append_nil _).symm, id⟩
  | cons r rest ih =>
    rw [List.foldlM_cons] at h
    obtain ⟨next, hnext, h⟩ := Except.bind_eq_ok_iff.1 h
    obtain ⟨hnew, rfl⟩ := add_eq_ok_iff.1 hnext
    obtain ⟨rfl, hnodup⟩ := ih h
    exact ⟨by simp, fun hstart => hnodup (nodup_kinds_add hstart hnew)⟩

/-- **Rules are added one after another** if all their kinds are new. -/
theorem addAll_eq_ok_iff {start all : Rules} {added : List Rule} (h : start.kinds.Nodup) :
    added.foldlM (fun (rules : Rules) r => rules.add r.constraint r.mark?) start = .ok all ↔
      (kinds (start ++ added)).Nodup ∧ all = start ++ added := by
  constructor
  · intro hall
    obtain ⟨rfl, hnodup⟩ := addAll_eq_ok hall
    exact ⟨hnodup h, rfl⟩
  · rintro ⟨hnodup, rfl⟩
    induction added generalizing start with
    | nil =>
      rw [List.append_nil]
      rfl
    | cons r rest ih =>
      rw [List.append_cons] at hnodup ⊢
      have hfirst : (kinds (start ++ [r])).Nodup := by
        rw [kinds, List.map_append] at hnodup
        exact (List.nodup_append.1 hnodup).1
      have hnew : r.kind ∉ start.kinds := by
        rw [kinds, List.map_append, List.map_singleton, List.nodup_append] at hfirst
        exact fun hr => hfirst.2.2 r.kind hr r.kind (List.mem_singleton.2 rfl) rfl
      rw [List.foldlM_cons, add_eq_ok_iff.2 ⟨hnew, rfl⟩]
      exact ih hfirst hnodup

/-- Where kinds are distinct, a rule is found by its kind. -/
theorem constraint?_eq_some_iff (h : rules.kinds.Nodup) {kind : ConstraintKind} {c : Constraint} :
    rules.constraint? kind = some c ↔ ∃ r ∈ rules, r.constraint = c ∧ c.kind = kind := by
  rw [constraint?, rule?]
  induction rules with
  | nil => simp
  | cons r rest ih =>
    obtain ⟨hr, hrest⟩ := List.nodup_cons.1 h
    by_cases hkind : r.kind = kind
    · rw [List.find?_cons_of_pos (by simpa using hkind), Option.map_some, Option.some.injEq]
      constructor
      · rintro rfl
        exact ⟨r, List.mem_cons_self .., rfl, hkind⟩
      · rintro ⟨r', hr', rfl, hkind'⟩
        rcases List.mem_cons.1 hr' with rfl | hr'
        · rfl
        · exact (hr (hkind.trans hkind'.symm ▸ List.mem_map_of_mem hr')).elim
    · rw [List.find?_cons_of_neg (by simpa using hkind), ih hrest]
      constructor
      · rintro ⟨r', hr', hc⟩
        exact ⟨r', List.mem_cons_of_mem _ hr', hc⟩
      · rintro ⟨r', hr', rfl, hkind'⟩
        rcases List.mem_cons.1 hr' with rfl | hr'
        · exact (hkind hkind').elim
        · exact ⟨r', hr', rfl, hkind'⟩

/-- The types that a node refers to are those of its `type` rule and of its union. -/
theorem mem_typeNames_iff (h : rules.kinds.Nodup) {name : String} :
    name ∈ rules.typeNames ↔ (∃ r ∈ rules, r.constraint = .type (.user name)) ∨
      ∃ r ∈ rules, ∃ names, r.constraint = .types names ∧ name ∈ names := by
  rw [typeNames, List.mem_append]
  refine or_congr ?_ ?_
  · have huser : name ∈ rules.userType?.toList ↔
        rules.constraint? .type = some (.type (.user name)) := by
      rw [userType?]
      split <;> simp_all [eq_comm]
    rw [huser, constraint?_eq_some_iff h]
    simp [Constraint.kind]
  · have hunion : name ∈ rules.unionNames ↔
        ∃ names, rules.constraint? .types = some (.types names) ∧ name ∈ names := by
      rw [unionNames]
      split <;> simp_all
    rw [hunion]
    simp only [constraint?_eq_some_iff h, Constraint.kind, and_true]
    constructor
    · rintro ⟨names, ⟨r, hr, hc⟩, hname⟩
      exact ⟨r, hr, names, hc, hname⟩
    · rintro ⟨r, hr, names, hc, hname⟩
      exact ⟨names, ⟨r, hr, hc⟩, hname⟩

end Rules

/-! ## Changing rules -/

/-- A constraint is another one in which a bound has become exclusive, or a constant or the items of an
enumeration have been filled in. -/
inductive Constraint.Completes : Constraint → Constraint → Prop where
  | same (c : Constraint) : Completes c c
  | min (bound bound' : Bound) : Completes (.min bound) (.min bound')
  | max (bound bound' : Bound) : Completes (.max bound) (.max bound')
  | const (value : Bool) (sample? sample?' : Option LiteralKey) :
      Completes (.const value sample?) (.const value sample?')
  | enum (items items' : Enumeration) : Completes (.enum items) (.enum items')

namespace Constraint.Completes

variable {c c' c'' : Constraint}

theorem kind_eq (h : c.Completes c') : c'.kind = c.kind := by cases h <;> rfl

theorem trans (h : c.Completes c') (h' : c'.Completes c'') : c.Completes c'' := by
  cases h with
  | same => exact h'
  | min bound bound' =>
    cases h' with
    | same | min => exact .min ..
  | max bound bound' =>
    cases h' with
    | same | max => exact .max ..
  | const value sample? sample?' =>
    cases h' with
    | same | const => exact .const ..
  | enum items items' =>
    cases h' with
    | same | enum => exact .enum ..

/-- What names types is complete from the start. -/
theorem eq_of_names (h : c.Completes c')
    (hkind : c.kind = .type ∨ c.kind = .types ∨ c.kind = .allOf ∨ c.kind = .additionalProperties) :
    c' = c := by
  cases h with
  | same => rfl
  | min | max | const | enum => simp [kind] at hkind

end Constraint.Completes

namespace Rules

variable {rules : Rules} {f : Constraint → Constraint}

theorem kinds_change (hf : ∀ c, Constraint.Completes c (f c)) :
    (rules.change f).kinds = rules.kinds := by
  rw [kinds, change, List.map_map]
  exact List.map_congr_left fun r _ => (hf r.constraint).kind_eq

theorem change_change (g : Constraint → Constraint) :
    (rules.change f).change g = rules.change (g ∘ f) := by
  simp [change]

/-- A rule that names types stays. -/
theorem mem_change_of_names (hf : ∀ c, Constraint.Completes c (f c)) {r : Rule} (hr : r ∈ rules)
    (hkind : r.kind = .type ∨ r.kind = .types ∨ r.kind = .allOf ∨ r.kind = .additionalProperties) :
    r ∈ rules.change f := by
  refine List.mem_map.2 ⟨r, hr, ?_⟩
  rw [(hf r.constraint).eq_of_names hkind]

/-- A rule is found by its kind, changed, if changing it keeps the kind. -/
theorem constraint?_change_of_kind (hf : ∀ c, (f c).kind = c.kind) (kind : ConstraintKind) :
    (rules.change f).constraint? kind = (rules.constraint? kind).map f := by
  have hkind : ((fun r : Rule => r.kind == kind) ∘ fun r : Rule => { r with constraint := f r.constraint }) =
      fun r => r.kind == kind := by
    funext r
    exact congrArg (· == kind) (hf r.constraint)
  rw [constraint?, constraint?, rule?, rule?, change, List.find?_map, hkind, Option.map_map, Option.map_map]
  rfl

/-- A rule is found by its kind, completed. -/
theorem constraint?_change (hf : ∀ c, Constraint.Completes c (f c)) (kind : ConstraintKind) :
    (rules.change f).constraint? kind = (rules.constraint? kind).map f :=
  constraint?_change_of_kind (fun c => (hf c).kind_eq) kind

/-- A rule that names types is found as it was. -/
theorem constraint?_change_of_names (hf : ∀ c, Constraint.Completes c (f c)) {kind : ConstraintKind}
    (hkind : kind = .type ∨ kind = .types ∨ kind = .allOf ∨ kind = .additionalProperties) :
    (rules.change f).constraint? kind = rules.constraint? kind := by
  rw [constraint?_change hf]
  cases hc : rules.constraint? kind with
  | none => rfl
  | some c =>
    obtain ⟨r, hr, rfl⟩ := Option.map_eq_some_iff.1 hc
    obtain rfl : r.kind = kind := by simpa using List.find?_some hr
    rw [Option.map_some, (hf r.constraint).eq_of_names hkind]

/-- Changing rules keeps the types that they refer to. -/
theorem typeNames_change (hf : ∀ c, Constraint.Completes c (f c)) :
    Rules.typeNames (rules.change f) = rules.typeNames := by
  rw [typeNames, typeNames, userType?, userType?, unionNames, unionNames,
    constraint?_change_of_names hf (Or.inl rfl), constraint?_change_of_names hf (Or.inr (Or.inl rfl))]

/-- A rule that names types was there. -/
theorem mem_of_mem_change_of_names (hf : ∀ c, Constraint.Completes c (f c)) {r : Rule}
    (hr : r ∈ rules.change f)
    (hkind : r.kind = .type ∨ r.kind = .types ∨ r.kind = .allOf ∨ r.kind = .additionalProperties) :
    r ∈ rules := by
  obtain ⟨old, hold, rfl⟩ := List.mem_map.1 hr
  have hsame := (hf old.constraint).kind_eq
  rw [show f old.constraint = old.constraint from (hf old.constraint).eq_of_names ?_]
  · exact hold
  · rw [← hsame]
    exact hkind

end Rules

namespace Header

theorem exists_of_addRules_eq_ok {h changed : Header} {added : List Rule}
    (happly : h.addRules added = .ok changed) :
    changed.rules = h.rules ++ added ∧ changed.jsonType = h.jsonType ∧
      changed.declared? = h.declared? ∧ (h.rules.kinds.Nodup → changed.rules.kinds.Nodup) := by
  obtain ⟨rules, hrules, happly⟩ := Except.bind_eq_ok_iff.1 happly
  obtain rfl := Except.ok.inj happly
  obtain ⟨hall, hnodup⟩ := Rules.addAll_eq_ok hrules
  exact ⟨hall, rfl, rfl, hnodup⟩

theorem apply_eq (h : Header) (sample? : Option Mark) (added : List Rule) :
    h.apply sample? added = h.addRules added >>= fun h =>
      (match builtinOf? added with
        | some type => h.declare type
        | none => .ok h) >>= fun h => h.linkBounds.fillConstant sample? := by
  rw [apply]
  refine congrArg _ (funext fun h => ?_)
  cases builtinOf? added <;> rfl

/-- Declaring a type adds its format, if it has one. -/
theorem exists_of_declare_eq_ok {h declared : Header} {type : BuiltinType}
    (hdeclared : h.declare type = .ok declared) :
    ∃ formats : List Rule, declared.rules = h.rules ++ formats ∧
      (∀ r ∈ formats, ∃ format, r.constraint = .format format) ∧
      (h.rules.kinds.Nodup → declared.rules.kinds.Nodup) := by
  rw [declare] at hdeclared
  dsimp only at hdeclared
  split at hdeclared
  · next format _ =>
    obtain ⟨rules, hadd, hdeclared⟩ := Except.bind_eq_ok_iff.1 hdeclared
    obtain rfl := Except.ok.inj hdeclared
    obtain ⟨hnew, rfl⟩ := Rules.add_eq_ok_iff.1 hadd
    refine ⟨[⟨.format format, none⟩], rfl, by simp, fun hnodup => ?_⟩
    exact Rules.nodup_kinds_add hnodup hnew
  · obtain rfl := Except.ok.inj hdeclared
    exact ⟨[], (List.append_nil _).symm, by simp, id⟩

/-- Bounds are told whether they are excluded, and everything else stays. -/
theorem exists_of_linkBounds (h : Header) : ∃ f : Constraint → Constraint,
    h.linkBounds.rules = h.rules.change f ∧ (∀ c, Constraint.Completes c (f c)) ∧
      ∀ c, c.kind ≠ .min → c.kind ≠ .max → f c = c := by
  rw [linkBounds]
  dsimp only
  refine ⟨_, rfl, fun c => ?_, fun c hmin hmax => ?_⟩
  · cases c <;> constructor
  · cases c with
    | min => exact (hmin rfl).elim
    | max => exact (hmax rfl).elim
    | _ => rfl

/-- A constant is told the sample, and everything else stays. -/
theorem exists_of_fillConstant_eq_ok {h filled : Header} {sample? : Option Mark}
    (hfilled : h.fillConstant sample? = .ok filled) : ∃ f : Constraint → Constraint,
      filled.rules = h.rules.change f ∧ filled.declared? = h.declared? ∧ (∀ c, Constraint.Completes c (f c)) ∧
        ∀ c, c.kind ≠ .const → f c = c := by
  have hsame : h.rules = h.rules.change id := by simp [Rules.change]
  unfold fillConstant at hfilled
  split at hfilled
  · obtain rfl := Except.ok.inj hfilled
    exact ⟨id, hsame, rfl, fun c => .same c, fun _ _ => rfl⟩
  · split at hfilled
    · obtain ⟨key, -, hfilled⟩ := Except.bind_eq_ok_iff.1 hfilled
      obtain rfl := Except.ok.inj hfilled
      dsimp only
      refine ⟨_, rfl, rfl, fun c => ?_, fun c hkind => ?_⟩
      · cases c <;> constructor
      · cases c with
        | const => exact (hkind rfl).elim
        | _ => rfl
    · obtain rfl := Except.ok.inj hfilled
      exact ⟨id, hsame, rfl, fun c => .same c, fun _ _ => rfl⟩

/-- **What rules do to those that are there**: they come after them, with the format of a declared type,
and some details are filled in. -/
theorem exists_of_apply_eq_ok {h changed : Header} {sample? : Option Mark} {added : List Rule}
    (happly : h.apply sample? added = .ok changed) :
    ∃ (formats : List Rule) (f : Constraint → Constraint),
      changed.rules = Rules.change (h.rules ++ added ++ formats) f ∧
      (∀ c, Constraint.Completes c (f c)) ∧
      (∀ r ∈ formats, ∃ format, r.constraint = .format format) ∧
      (h.rules.kinds.Nodup → changed.rules.kinds.Nodup) := by
  rw [apply_eq] at happly
  obtain ⟨h₁, hadded, happly⟩ := Except.bind_eq_ok_iff.1 happly
  obtain ⟨h₂, hdeclared, happly⟩ := Except.bind_eq_ok_iff.1 happly
  obtain ⟨hrules, -, -, hnodup⟩ := exists_of_addRules_eq_ok hadded
  have hformats : ∃ formats : List Rule, h₂.rules = h₁.rules ++ formats ∧
      (∀ r ∈ formats, ∃ format, r.constraint = .format format) ∧
      (h₁.rules.kinds.Nodup → h₂.rules.kinds.Nodup) := by
    split at hdeclared
    · exact exists_of_declare_eq_ok hdeclared
    · obtain rfl := Except.ok.inj hdeclared
      exact ⟨[], (List.append_nil _).symm, by simp, id⟩
  obtain ⟨formats, hrules₂, hformat, hnodup₂⟩ := hformats
  obtain ⟨f, hf, hcompletes, -⟩ := exists_of_linkBounds h₂
  obtain ⟨g, hg, -, hcompletes', -⟩ := exists_of_fillConstant_eq_ok happly
  have hboth : ∀ c, Constraint.Completes c ((g ∘ f) c) := fun c =>
    (hcompletes c).trans (hcompletes' (f c))
  have hall : changed.rules = Rules.change (h.rules ++ added ++ formats) (g ∘ f) := by
    rw [hg, hf, Rules.change_change, hrules₂, hrules]
  refine ⟨formats, g ∘ f, hall, hboth, hformat, fun hstart => ?_⟩
  rw [hall, Rules.kinds_change hboth, ← hrules, ← hrules₂]
  exact hnodup₂ (hnodup hstart)

/-- Resolving fills in items. -/
theorem exists_of_resolveEnum_eq_ok {rules : EnumRules} {h resolved : Header}
    (hresolved : h.resolveEnum rules = .ok resolved) :
    ∃ f : Constraint → Constraint, resolved = { h with rules := h.rules.change f } ∧
      ∀ c, Constraint.Completes c (f c) := by
  rw [resolveEnum] at hresolved
  split at hresolved
  · split at hresolved
    · obtain rfl := Except.ok.inj hresolved
      refine ⟨_, rfl, fun c => ?_⟩
      cases c <;> constructor
    · cases hresolved
  · obtain rfl := Except.ok.inj hresolved
    exact ⟨id, by simp [Rules.change], fun c => .same c⟩

end Header

/-! ## Regular nodes -/

namespace Node

/-- No two rules are of one kind, and a shortcut has names, each of which its rules name. -/
structure IsRegular (node : Node) : Prop where
  nodup : node.rules.kinds.Nodup
  names : ∀ header names, node = .reference header names →
    names ≠ [] ∧ ∀ name ∈ names, name ∈ node.rules.typeNames

/-- A node whose rules have grown stays regular. -/
theorem IsRegular.of_subset {node changed : Node} (h : node.IsRegular)
    (hnodup : changed.rules.kinds.Nodup)
    (hrules : ∀ r ∈ node.rules, r.kind = .type ∨ r.kind = .types → r ∈ changed.rules)
    (hsame : ∀ header names, changed = .reference header names → ∃ header, node = .reference header names) :
    changed.IsRegular := by
  refine ⟨hnodup, fun header names hchanged => ?_⟩
  obtain ⟨header', hnode⟩ := hsame header names hchanged
  obtain ⟨hne, hnames⟩ := h.names header' names hnode
  refine ⟨hne, fun name hname => (Rules.mem_typeNames_iff hnodup).2 ?_⟩
  rcases (Rules.mem_typeNames_iff h.nodup).1 (hnames name hname) with
    ⟨r, hr, hc⟩ | ⟨r, hr, others, hc, hmem⟩
  · exact Or.inl ⟨r, hrules r hr (Or.inl (by rw [Rule.kind, hc]; rfl)), hc⟩
  · exact Or.inr ⟨r, hrules r hr (Or.inr (by rw [Rule.kind, hc]; rfl)), others, hc, hmem⟩

/-- A shortcut has names. -/
theorem ne_nil_of_shortcutNames {mark : Mark} {names : List String}
    (h : Shortcut.names mark = .ok names) : names ≠ [] := by
  rintro rfl
  rw [Shortcut.names] at h
  cases hsplit : mark.text.toList.splitOn '|' with
  | nil => exact List.splitOn_ne_nil _ _ hsplit
  | cons part rest =>
    rw [hsplit, List.mapM_cons] at h
    obtain ⟨_, _, h⟩ := Except.bind_eq_ok_iff.1 h
    obtain ⟨_, _, h⟩ := Except.bind_eq_ok_iff.1 h
    cases h

/-- What a shortcut becomes. -/
theorem exists_of_shortcutNode {mark : Mark} {node : Node} (h : Shortcut.node mark = .ok node) :
    ∃ header names, node = .reference header names ∧ Shortcut.names mark = .ok names ∧
      header.rules = Shortcut.rules mark names ∧ header.rules.kinds.Nodup := by
  obtain ⟨names, hnames, h⟩ := Except.bind_eq_ok_iff.1 h
  obtain ⟨header, hheader, h⟩ := Except.bind_eq_ok_iff.1 h
  obtain ⟨hrules, -, -, hnodup⟩ := Header.exists_of_addRules_eq_ok hheader
  exact ⟨header, names, (Except.ok.inj h).symm, hnames, hrules, hnodup List.nodup_nil⟩

/-- The rules of a shortcut name what the shortcut names. -/
theorem isRegular_shortcut {mark : Mark} {node : Node} (h : Shortcut.node mark = .ok node) :
    node.IsRegular := by
  obtain ⟨header, names, rfl, hnames, hrules, hnodup⟩ := exists_of_shortcutNode h
  refine ⟨hnodup, fun header' names' heq => ?_⟩
  obtain ⟨rfl, rfl⟩ := Node.reference.inj heq
  refine ⟨ne_nil_of_shortcutNames hnames, fun name hname => ?_⟩
  have htypes : Rules.typeNames (Shortcut.rules mark names) = names := by
    rcases names with _ | ⟨first, _ | ⟨second, rest⟩⟩ <;> rfl
  rwa [rules, Node.header, hrules, htypes]

/-- Rules that are applied to a node are applied to its header, and make no shortcut of it. -/
theorem exists_header_of_apply_eq_ok {node changed : Node} {added : List Rule}
    (h : node.apply added = .ok changed) : ∃ header,
      node.header.apply node.sample? added = .ok header ∧ changed.rules = header.rules ∧
      ∀ header names, changed = .reference header names → ∃ header, node = .reference header names := by
  obtain ⟨header, hheader, h⟩ := Except.bind_eq_ok_iff.1 h
  refine ⟨header, hheader, ?_⟩
  cases node with
  | literal header' sample? =>
    dsimp only at h
    split at h
    · obtain rfl := Except.ok.inj h
      exact ⟨rfl, by simp⟩
    · split at h <;> obtain rfl := Except.ok.inj h <;> exact ⟨rfl, by simp⟩
  | object | array | mixed =>
    obtain rfl := Except.ok.inj h
    exact ⟨rfl, by simp [withHeader]⟩
  | reference =>
    obtain rfl := Except.ok.inj h
    exact ⟨rfl, by simp [withHeader]⟩

/-- **Every written node is regular.** -/
theorem IsWritten.isRegular {isRead : List Rule → Prop} {origin : Provenance} {node : Node}
    (h : node.IsWritten isRead origin) : node.IsRegular := by
  induction h with
  | sample | object | array => exact ⟨List.nodup_nil, by simp⟩
  | member type basis =>
    have hmember : ∀ header names, RuleValue.memberNode type basis ≠ .reference header names := by
      cases type with
      | builtin type => cases type <;> simp [RuleValue.memberNode]
      | user name => simp [RuleValue.memberNode]
    refine ⟨?_, fun header names h => (hmember header names h).elim⟩
    rw [rules_memberNode]
    exact List.nodup_nil
  | shortcut hmark => exact isRegular_shortcut hmark
  | @rules _ node changed added _ _ happly ih =>
    obtain ⟨header, hheader, hchanged, hsame⟩ := exists_header_of_apply_eq_ok happly
    obtain ⟨formats, f, hrules, hf, -, hnodup⟩ := Header.exists_of_apply_eq_ok hheader
    refine ih.of_subset ?_ ?_ hsame
    · rw [hchanged]
      exact hnodup ih.nodup
    · intro r hr hkind
      rw [hchanged, hrules]
      refine Rules.mem_change_of_names hf ?_ (by tauto)
      exact List.mem_append_left _ (List.mem_append_left _ hr)
  | @header _ node header _ _ _ hrules ih =>
    refine ih.of_subset ?_ ?_ ?_
    · rw [rules_withHeader, hrules]
      exact ih.nodup
    · intro r hr _
      rw [rules_withHeader, hrules]
      exact hr
    · intro header' names heq
      cases node <;> simp_all [withHeader]
  | @union node _ _ ih =>
    refine ih.of_subset ?_ ?_ ?_
    · rw [rules_withHeader]
      exact ih.nodup
    · intro r hr _
      rw [rules_withHeader]
      exact hr
    · intro header' names heq
      cases node <;> simp_all [withHeader]

/-- Resolving rules keeps a node regular. -/
theorem IsRegular.resolveEnums {enumRules : EnumRules} {written node : Node} (h : written.IsRegular)
    (hresolved : written.resolveEnums enumRules = .ok node.bare) : node.IsRegular := by
  rw [resolveEnums_eq] at hresolved
  obtain ⟨header, hheader, hresolved⟩ := Except.bind_eq_ok_iff.1 hresolved
  obtain ⟨children, -, hresolved⟩ := Except.bind_eq_ok_iff.1 hresolved
  have hresolved := Except.ok.inj hresolved
  obtain ⟨f, rfl, hf⟩ := Header.exists_of_resolveEnum_eq_ok hheader
  have hrules : node.rules = written.rules.change f := by
    have hbare : node.bare.rules = written.rules.change f := by
      rw [← hresolved]
      cases written <;> rfl
    rwa [rules, header_bare] at hbare
  refine h.of_subset ?_ ?_ ?_
  · rw [hrules, Rules.kinds_change hf]
    exact h.nodup
  · intro r hr hkind
    rw [hrules]
    exact Rules.mem_change_of_names hf hr (by tauto)
  · rintro header names rfl
    cases written <;> simp_all [bare, withHeader, withChildren]

end Node

/-- **Every node of a compiled schema is regular.** -/
theorem Session.Arises.isRegular {s : Session} (hs : s.Arises) {schema : Schema}
    (h : s.compiled = .ok schema) {node : Node} (hnode : node ∈ schema.nodes) : node.IsRegular := by
  obtain ⟨origin, written, hwritten, hresolved⟩ := hs.exists_makes h hnode
  exact hwritten.isRegular.resolveEnums hresolved

end ExampleSchema
