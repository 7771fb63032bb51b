import ExampleSchema.Proofs.Rules

/-!
# Where the items of an enumeration come from

A node lists the values that it allows, or names a rule that does.  Compiling fills in the items of the rule, in
the trees of the session's documents.  This comes after the unnamed types have joined the registry, and
before objects inherit, so that what an object takes over has its items already.

* `Rules.NamesRule`: the `enum` rule of a node names a rule.
* `Schema.resolveEnums_outcome`: resolving fails where such a rule is not registered, and only there.
* `Header.items_of_resolveEnum_eq_ok`: what the items of a node are afterwards.
* `Session.Arises.exists_loads`: each node of a compiled schema is one of a document, with its items filled in.
* `Schema.enums_filled`: all of that.
-/

namespace ExampleSchema

/-! ## Rules that are named -/

/-- The `enum` rule among some rules names a rule. -/
def Rules.NamesRule (rules : Rules) (name : String) : Prop :=
  ∃ e, rules.constraint? .enum = some (.enum e) ∧ e.rule? = some name

theorem Rules.NamesRule.eq {rules : Rules} {name other : String} (h : rules.NamesRule name)
    (h' : rules.NamesRule other) : other = name := by
  obtain ⟨e, hfound, hrule⟩ := h
  obtain ⟨e', hfound', hrule'⟩ := h'
  obtain rfl := Constraint.enum.inj (Option.some.inj (hfound.symm.trans hfound'))
  exact Option.some.inj (hrule'.symm.trans hrule)

/-- The constraint with some items in it, if it is an enumeration. -/
def Constraint.fill (items : List EnumItem) : Constraint → Constraint
  | .enum e => .enum (e.resolve items)
  | other => other

theorem Constraint.kind_fill (items : List EnumItem) (c : Constraint) : (c.fill items).kind = c.kind := by
  cases c <;> rfl

namespace Header

variable {rules : EnumRules} {h old new : Header} {name : String}

theorem resolveEnum_of_namesRule (hname : h.rules.NamesRule name) : h.resolveEnum rules =
    match Catalog.find? rules name with
    | some items => .ok { h with rules := h.rules.change (Constraint.fill items) }
    | none => .error ((Cause.ruleNotFound name).on ((h.rules.mark? .enum).getD h.basis)) := by
  obtain ⟨⟨items, rule?⟩, hfound, hrule⟩ := hname
  obtain rfl : rule? = some name := hrule
  rw [resolveEnum, hfound]
  rfl

theorem resolveEnum_of_forall_not (hnone : ∀ name, ¬ h.rules.NamesRule name) : h.resolveEnum rules = .ok h := by
  rw [resolveEnum]
  split
  · next name hfound => exact (hnone name ⟨_, hfound, rfl⟩).elim
  · rfl

/-- **What the items of a node are**: those of the rule that it names, or what they were. -/
theorem items_of_resolveEnum_eq_ok (hresolved : old.resolveEnum rules = .ok new) {e : Enumeration}
    (he : new.rules.constraint? .enum = some (.enum e)) :
    (∀ name, e.rule? = some name → Catalog.find? rules name = some e.items) ∧ (e.rule? = none → new = old) := by
  by_cases hnamed : ∃ name, old.rules.NamesRule name
  · obtain ⟨name, hname⟩ := hnamed
    rw [resolveEnum_of_namesRule hname] at hresolved
    split at hresolved
    · next items hitems =>
      obtain rfl := Except.ok.inj hresolved
      obtain ⟨old', hfound, hrule⟩ := hname
      rw [Rules.constraint?_change_of_kind (Constraint.kind_fill items), hfound] at he
      obtain rfl := Constraint.enum.inj (Option.some.inj he)
      refine ⟨fun other hother => ?_, fun hnone => ?_⟩
      · obtain rfl := Option.some.inj (hrule.symm.trans hother)
        exact hitems
      · cases hrule.symm.trans hnone
    · cases hresolved
  · rw [resolveEnum_of_forall_not (not_exists.1 hnamed)] at hresolved
    obtain rfl := Except.ok.inj hresolved
    exact ⟨fun name hname => (hnamed ⟨name, e, he, hname⟩).elim, fun _ => rfl⟩

end Header

/-! ## Rules that are missing -/

namespace Node

/-- The rule that a node names is known. -/
def KnowsRule (rules : EnumRules) (node : Node) : Prop :=
  ∀ name, node.rules.NamesRule name → name ∈ Catalog.keys rules

/-- A node names a rule that is not known, and that is the problem. -/
def MissesRule (rules : EnumRules) (node : Node) (problem : Problem) : Prop :=
  ∃ name, node.rules.NamesRule name ∧ name ∉ Catalog.keys rules ∧
    problem = (Cause.ruleNotFound name).on ((node.rules.mark? .enum).getD node.basis)

variable {rules : EnumRules} {node : Node}

theorem resolveEnum_outcome (rules : EnumRules) (node : Node) :
    (node.header.resolveEnum rules).Meets (fun _ => node.KnowsRule rules) (node.MissesRule rules) := by
  by_cases hnamed : ∃ name, node.rules.NamesRule name
  · obtain ⟨name, hname⟩ := hnamed
    rw [Header.resolveEnum_of_namesRule hname]
    cases hitems : Catalog.find? rules name with
    | none => exact ⟨name, hname, Catalog.find?_eq_none_iff.1 hitems, rfl⟩
    | some items =>
      intro other hother
      rw [hname.eq hother]
      exact List.mem_map_of_mem (f := Prod.fst) (Catalog.mem_of_find?_eq_some hitems)
  · rw [Header.resolveEnum_of_forall_not (not_exists.1 hnamed)]
    exact fun name hname => (hnamed ⟨name, hname⟩).elim

/-- A tree is resolved where each of its nodes knows its rule, and fails at one that does not. -/
theorem resolveEnums_outcome (rules : EnumRules) (node : Node) :
    (node.resolveEnums rules).Meets (fun _ => ∀ part ∈ node.subnodes, part.KnowsRule rules)
      fun problem => ∃ part ∈ node.subnodes, part.MissesRule rules problem := by
  induction node using inductionOn with
  | step node ih =>
    rw [resolveEnums_eq]
    refine Except.Meets.bind ((resolveEnum_outcome rules node).imp (fun _ => id) fun problem hproblem =>
      ⟨node, node.mem_subnodes_self, hproblem⟩) fun header hknows => ?_
    refine Except.Meets.bind (Except.Meets.mapM_forall (P := fun child => ∀ part ∈ child.subnodes, part.KnowsRule rules)
      fun child hchild => (ih child hchild).imp (fun _ => id) ?_) fun children hchildren part hpart => ?_
    · rintro problem ⟨part, hpart, hproblem⟩
      exact ⟨part, mem_subnodes_iff.2 (Or.inr ⟨child, hchild, hpart⟩), hproblem⟩
    · rcases mem_subnodes_iff.1 hpart with rfl | ⟨child, hchild, hpart⟩
      · exact hknows
      · exact hchildren child hchild part hpart

end Node

/-- **Resolving fails where a rule is not known, and only there.** -/
theorem Schema.resolveEnums_outcome (schema : Schema) (rules : EnumRules) :
    (schema.resolveEnums rules).Meets (fun _ => ∀ node ∈ schema.nodes, node.KnowsRule rules)
      fun problem => ∃ node ∈ schema.nodes, node.MissesRule rules problem := by
  rw [resolveEnums, mapRoots_eq]
  refine Except.Meets.bind (Except.Meets.mapM_forall (P := fun root => ∀ node ∈ root.subnodes, node.KnowsRule rules)
    fun root hroot => (root.resolveEnums_outcome rules).imp (fun _ => id) ?_) fun roots hroots node hnode => ?_
  · rintro problem ⟨node, hnode, hproblem⟩
    exact ⟨node, List.mem_flatMap.2 ⟨root, hroot, hnode⟩, hproblem⟩
  · obtain ⟨root, hroot, hnode⟩ := List.mem_flatMap.1 hnode
    exact hroots root hroot node hnode

/-! ## Where nodes come from -/

/-- What holds of each node by where it stands in the schema. -/
theorem Schema.Everywhere.imp {P Q : Provenance → Node → Prop} {schema : Schema} (h : schema.Everywhere P)
    (himp : ∀ origin, ∀ node ∈ schema.nodes, P origin node.bare → Q origin node.bare) : schema.Everywhere Q := by
  have htree : ∀ origin, ∀ root ∈ schema.roots, root.ThroughoutFrom P origin → root.ThroughoutFrom Q origin := by
    intro origin root hroot hP
    refine ⟨himp origin root (mem_nodes_of_mem_roots hroot) hP.bare, fun child hchild part hpart => ?_, hP.hasNoItems⟩
    refine himp .value part (List.mem_flatMap.2 ⟨root, hroot, ?_⟩) (hP.children child hchild part hpart)
    exact Node.mem_subnodes_iff.2 (Or.inr ⟨child, hchild, hpart⟩)
  exact ⟨htree .value _ (List.mem_cons_self ..) h.root, fun e he => htree _ _ (mem_roots_of_mem_types he) (h.types e he)⟩

namespace Node

/-- Resolving the rules of a node changes its header. -/
theorem exists_of_resolveEnums_bare {rules : EnumRules} {written node : Node}
    (h : written.bare.resolveEnums rules = .ok node.bare) :
    ∃ header, written.header.resolveEnum rules = .ok header ∧ node.bare = written.bare.withHeader header := by
  have hparts := h
  rw [resolveEnums_eq, header_bare] at hparts
  obtain ⟨header, hheader, -⟩ := Except.bind_eq_ok_iff.1 hparts
  exact ⟨header, hheader, Except.ok.inj (h.symm.trans (resolveEnums_bare hheader))⟩

end Node

/-! ## What is written -/

/-- An enumeration comes of the value of a rule. -/
def Rule.IsEnumeration (r : Rule) : Prop :=
  ∀ e, r.constraint = .enum e → ∃ value : RuleValue, r.mark? = some value.mark ∧ value.enumeration = .ok e

theorem RuleValue.enumeration_of_constraint_eq_ok {name : String} {key : Mark} {value : RuleValue} {e : Enumeration}
    (h : value.constraint name key = .ok (.enum e)) : value.enumeration = .ok e := by
  rw [constraint] at h
  split at h
  · cases h
  case h_4 =>
    obtain ⟨e', he', heq⟩ := Except.map_eq_ok_iff.1 h
    rwa [← Constraint.enum.inj heq]
  case h_2 | h_3 | h_5 =>
    obtain ⟨a, -, heq⟩ := Except.map_eq_ok_iff.1 h
    cases heq
  · cases h
  · obtain ⟨mark, -, h⟩ := Except.bind_eq_ok_iff.1 h
    split at h
    · next verdict hread =>
      obtain rfl : verdict = .ok (.enum e) := Except.mapError_eq_ok_iff.1 h
      have hkind := Constraint.kind_eq_of_read? hread
      rw [← hkind] at hread
      cases hread
    · cases h

theorem ReadsRules.isEnumeration {stands : String → Node → Nat → Prop} {rules : List (String × Mark × RuleValue)}
    {added : List Rule} (h : ReadsRules stands rules added) : ∀ r ∈ added, r.IsEnumeration := by
  induction rules generalizing added with
  | nil =>
    cases h
    exact List.forall_mem_nil _
  | cons rule rest ih =>
    cases h with
    | union _ _ hrest =>
      refine List.forall_mem_cons.2 ⟨fun _ he => ?_, List.forall_mem_cons.2 ⟨fun _ he => ?_, ih hrest⟩⟩
      all_goals cases he
    | rule _ hconstraint hrest =>
      refine List.forall_mem_cons.2 ⟨?_, ih hrest⟩
      rintro e rfl
      exact ⟨_, rfl, RuleValue.enumeration_of_constraint_eq_ok hconstraint⟩

/-- Applying rules leaves enumerations as they are. -/
theorem Header.mem_or_mem_of_apply_of_enum {h changed : Header} {sample? : Option Mark} {added : List Rule}
    (happly : h.apply sample? added = .ok changed) {r : Rule} (hr : r ∈ changed.rules) {e : Enumeration}
    (he : r.constraint = .enum e) : r ∈ h.rules ∨ r ∈ added := by
  have hkeeps : ∀ {rules : Rules} {f : Constraint → Constraint}, (∀ c, Constraint.Completes c (f c)) →
      (∀ c, c.kind = .enum → f c = c) → r ∈ rules.change f → r ∈ rules := by
    intro rules f hf hsame hr
    obtain ⟨old, hold, rfl⟩ := List.mem_map.1 hr
    dsimp only at he
    have hkind : old.constraint.kind = .enum := by rw [← (hf _).kind_eq, he]; rfl
    rwa [hsame _ hkind]
  rw [apply_eq] at happly
  obtain ⟨h₁, hadded, happly⟩ := Except.bind_eq_ok_iff.1 happly
  obtain ⟨h₂, hdeclared, happly⟩ := Except.bind_eq_ok_iff.1 happly
  obtain ⟨hrules, -⟩ := exists_of_addRules_eq_ok hadded
  obtain ⟨f, hf, hcompletes, hsame⟩ := exists_of_linkBounds h₂
  obtain ⟨g, hg, -, hcompletes', hsame'⟩ := exists_of_fillConstant_eq_ok happly
  rw [hg] at hr
  have hr := hkeeps hcompletes' (fun c hc => hsame' c (by simp [hc])) hr
  rw [hf] at hr
  have hr := hkeeps hcompletes (fun c hc => hsame c (by simp [hc]) (by simp [hc])) hr
  rw [← List.mem_append, ← hrules]
  split at hdeclared
  · obtain ⟨formats, hrules₂, hformats, -⟩ := exists_of_declare_eq_ok hdeclared
    rw [hrules₂] at hr
    refine (List.mem_append.1 hr).resolve_right fun hformat => ?_
    obtain ⟨format, hc⟩ := hformats r hformat
    cases he.symm.trans hc
  · obtain rfl := Except.ok.inj hdeclared
    exact hr

/-- **The enumeration of a written node is that of a rule's value.** -/
theorem Node.IsWritten.isEnumeration {origin : Provenance} {node : Node} (h : node.IsWritten AreRead origin) :
    ∀ r ∈ node.rules, r.IsEnumeration := by
  induction h with
  | sample | object | array => exact List.forall_mem_nil _
  | member type basis =>
    rw [rules_memberNode]
    exact List.forall_mem_nil _
  | shortcut hmark =>
    obtain ⟨header, names, rfl, -, hrules, -⟩ := exists_of_shortcutNode hmark
    intro r hr e he
    rw [Node.rules, Node.header, hrules] at hr
    rcases names with _ | ⟨first, _ | ⟨second, rest⟩⟩ <;> simp only [Shortcut.rules, List.mem_cons,
      List.not_mem_nil, or_false] at hr
    · rcases hr with rfl | rfl <;> cases he
    · cases hr
      cases he
    · rcases hr with rfl | rfl <;> cases he
  | rules _ hadded happly ih =>
    obtain ⟨header, hheader, hchanged, -⟩ := exists_header_of_apply_eq_ok happly
    obtain ⟨stands, rules, hreads⟩ := hadded
    intro r hr e he
    rw [hchanged] at hr
    rcases Header.mem_or_mem_of_apply_of_enum hheader hr he with hold | hnew
    · exact ih r hold e he
    · exact hreads.isEnumeration r hnew e he
  | header header _ _ _ hrules ih =>
    rw [rules_withHeader, hrules]
    exact ih
  | union _ _ ih =>
    rw [rules_withHeader]
    exact ih

/-! ## Compiled schemas -/

namespace Session.Arises

variable {s : Session} {schema : Schema} {node : Node}

/-- **Each node of a compiled schema is one of a document**, but for the nodes below it and the items of its rule. -/
theorem exists_loads (hs : s.Arises) (h : s.compiled = .ok schema) (hnode : node ∈ schema.nodes) :
    ∃ owner source part, s.Loads owner source part ∧
      ∃ written ∈ part.nodes, written.bare.resolveEnums s.rules = .ok node.bare := by
  obtain ⟨loaded, hload, hcompile⟩ := hs.exists_of_compiled_eq_ok h
  obtain ⟨resolved, hresolved, hexpanded, -⟩ := Schema.compile_eq_ok_iff.1 hcompile
  have hpart : ∀ {owner source part}, s.Loads owner source part → part.Everywhere fun _ bare =>
      ∃ owner source part, s.Loads owner source part ∧ ∃ written ∈ part.nodes, written.bare = bare := fun hloads =>
    (Schema.everywhere_of_load_eq_ok (hs.load_of_loads hloads)).imp fun _ written hwritten _ =>
      ⟨_, _, _, hloads, written, hwritten, rfl⟩
  have hregistered := (hpart (.document hload)).register (fun e he => (hs.load_of_mem_types he).1)
    fun e he => hpart (.type he)
  obtain ⟨-, old, ⟨owner, source, part, hloads, written, hwritten, rfl⟩, hnode⟩ :=
    ((hregistered.resolveEnums hresolved).expand hexpanded).exists_of_mem_nodes hnode
  exact ⟨owner, source, part, hloads, written, hwritten, hnode⟩

/-- An enumeration that names a rule has its items, and one that names none is as it was written. -/
theorem items_of_compiled (hs : s.Arises) (h : s.compiled = .ok schema) (hnode : node ∈ schema.nodes)
    {e : Enumeration} (he : node.rules.constraint? .enum = some (.enum e)) :
    (∀ name, e.rule? = some name → Catalog.find? s.rules name = some e.items) ∧
    (e.rule? = none → ∃ owner source part, s.Loads owner source part ∧
      ∃ written ∈ part.nodes, node.bare = written.bare ∧
      ∃ value : RuleValue, node.rules.mark? .enum = some value.mark ∧ value.enumeration = .ok e) := by
  obtain ⟨owner, source, part, hloads, written, hwritten, hresolved⟩ := hs.exists_loads h hnode
  obtain ⟨header, hheader, hbare⟩ := Node.exists_of_resolveEnums_bare hresolved
  have hrules : node.rules = header.rules := by
    rw [Node.rules, ← Node.header_bare, hbare, Node.header_withHeader]
  rw [hrules] at he
  obtain ⟨hnamed, hinline⟩ := Header.items_of_resolveEnum_eq_ok hheader he
  refine ⟨hnamed, fun hnone => ?_⟩
  obtain rfl := hinline hnone
  have hsame : written.bare.withHeader written.header = written.bare := by cases written <;> rfl
  obtain ⟨origin, hwritten'⟩ :=
    (Schema.everywhere_of_load_eq_ok (hs.load_of_loads hloads)).exists_of_mem_nodes hwritten
  obtain ⟨r, hr, hc⟩ := Option.map_eq_some_iff.1 he
  obtain ⟨value, hmark, hvalue⟩ := hwritten'.isEnumeration r (by
    rw [Node.rules, Node.header_bare]
    exact List.mem_of_find?_eq_some hr) e hc
  refine ⟨owner, source, part, hloads, written, hwritten, hbare.trans hsame, value, ?_, hvalue⟩
  rw [hrules, Rules.mark?, hr]
  exact hmark

end Session.Arises

/-- **How enumerations get their items.**  Resolving ends well exactly if each rule that a node names is registered,
and otherwise fails at a node whose rule is not.  In a compiled schema, a node that names a rule has the items of
that rule, and a node that names none has those that are written in its own document. -/
theorem Schema.enums_filled :
    (∀ (schema : Schema) (rules : EnumRules),
      ((∃ resolved, schema.resolveEnums rules = .ok resolved) ↔
        ∀ node ∈ schema.nodes, ∀ name, node.rules.NamesRule name → name ∈ Catalog.keys rules) ∧
      ∀ problem, schema.resolveEnums rules = .error problem → problem.code = .ruleNotFound ∧
        ∃ node ∈ schema.nodes, ∃ name, node.rules.NamesRule name ∧ name ∉ Catalog.keys rules ∧
          problem = (Cause.ruleNotFound name).on ((node.rules.mark? .enum).getD node.basis)) ∧
    ∀ (s : Session) (schema : Schema), s.Arises → s.compiled = .ok schema →
      ∀ node ∈ schema.nodes, ∀ e, node.rules.constraint? .enum = some (.enum e) →
        (∀ name, e.rule? = some name → Catalog.find? s.rules name = some e.items) ∧
        (e.rule? = none → ∃ owner source part, s.Loads owner source part ∧
          ∃ written ∈ part.nodes, node.bare = written.bare ∧
          ∃ value : RuleValue, node.rules.mark? .enum = some value.mark ∧ value.enumeration = .ok e) := by
  refine ⟨fun schema rules => ?_, fun s schema hs h node hnode e he => hs.items_of_compiled h hnode he⟩
  have houtcome := schema.resolveEnums_outcome rules
  refine ⟨⟨?_, fun hknown => ?_⟩, fun problem hproblem => ?_⟩
  · rintro ⟨resolved, hresolved⟩
    exact houtcome.of_ok hresolved
  · cases hresolve : schema.resolveEnums rules with
    | ok resolved => exact ⟨resolved, rfl⟩
    | error problem =>
      obtain ⟨node, hnode, name, hname, hmissing, -⟩ := houtcome.of_error hresolve
      exact (hmissing (hknown node hnode name hname)).elim
  · obtain ⟨node, hnode, name, hname, hmissing, rfl⟩ := houtcome.of_error hproblem
    exact ⟨rfl, node, hnode, name, hname, hmissing, rfl⟩

namespace Session

/-- An object that takes over a property of a type, whose values are those of a rule. -/
def palette : Outcome Session := do
  let colors : Enumeration := { items := [⟨.string "red", "\"red\"", some "warm"⟩, ⟨.null, "null", none⟩] }
  let s ← addRule { source := .ofString "root" "\x7b // \x7ballOf: @Base\x7d\n\x7d" } "@Colors" colors
  s.addType "@Base" (.ofString "@Base" "\x7b\"c\": null // \x7benum: @Colors\x7d\n\x7d")

/-- What the property that the root takes over allows, and the rule that it names, if the schema compiles. -/
def paletteItems? : Option (List String × Option String) :=
  match palette >>= compiled with
  | .ok ⟨.object _ [(_, node)], _⟩ =>
    match node.rules.constraint? .enum with
    | some (.enum e) => some (e.items.map EnumItem.text, e.rule?)
    | _ => none
  | _ => none

/-- A property that is taken over has the items of the rule. -/
theorem enums_filled_palette : ∃ s schema, palette = .ok s ∧ s.Arises ∧ s.compiled = .ok schema ∧
    ∃ node ∈ schema.nodes, ∃ e, node.rules.constraint? .enum = some (.enum e) ∧
      e.items.map EnumItem.text = ["\"red\"", "null"] ∧ Catalog.find? s.rules "@Colors" = some e.items := by
  have hitems : paletteItems? = some (["\"red\"", "null"], some "@Colors") := by decide +kernel
  rw [paletteItems?] at hitems
  split at hitems
  · next header key node types hcompiled =>
    split at hitems
    · next e he =>
      obtain ⟨htexts, hrule⟩ := Prod.mk.inj (Option.some.inj hitems)
      obtain ⟨s, hs, hcompiled⟩ := Except.bind_eq_ok_iff.1 hcompiled
      have harises : s.Arises := by
        obtain ⟨ruled, hruled, htyped⟩ := Except.bind_eq_ok_iff.1 hs
        exact .addType (.addRule (.start _) hruled) htyped
      have hnode : node ∈ Schema.nodes ⟨.object header [(key, node)], types⟩ :=
        Schema.mem_nodes_of_mem_children (Schema.mem_nodes_of_mem_roots (List.mem_cons_self ..))
          (List.mem_singleton.2 rfl)
      exact ⟨s, _, hs, harises, hcompiled, node, hnode, e, he, htexts,
        (Schema.enums_filled.2 s _ harises hcompiled node hnode e he).1 "@Colors" hrule⟩
    · cases hitems
  · cases hitems

end Session
end ExampleSchema
