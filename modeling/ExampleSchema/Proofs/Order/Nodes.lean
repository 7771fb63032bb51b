import ExampleSchema.Proofs.Order.Agreement
import ExampleSchema.Proofs.Properties
import ExampleSchema.Proofs.Rules

/-!
# Schemas in another order

The parts of a schema stand in some order, most of which nobody looks at: the order of the rules of a node, of
the members of a union, of the items of an array, and of the properties of an object, except for those whose
names are types, of which the first that takes a name counts.

* `Constraint.Rearranges`, `Rules.AreRearranged`: rules in another order.
* `Node.Permutes`, `Schema.Permutes`: trees and schemas in another order.
* `Node.Rearranges`, `Schema.Rearranges`: the same, where no node has two rules of a kind, and no object two
  properties of a name.  What is shown of an order is shown for these.
* `Node.Aligns`, `Node.Aligns.induct`: what both have in common.

Marks are not compared, so the nodes may be written in different places.
-/

namespace ExampleSchema

/-! ## Rules -/

/-- Two constraints differ at most in the order of the members of a union. -/
inductive Constraint.Rearranges : Constraint → Constraint → Prop
  | same (c : Constraint) : Rearranges c c
  | types {names names' : List String} (h : names.Perm names') : Rearranges (.types names) (.types names')

namespace Constraint.Rearranges

variable {c c' : Constraint}

theorem kind_eq (h : c.Rearranges c') : c.kind = c'.kind := by cases h <;> rfl

/-- Only unions have an order. -/
theorem eq_of_kind (h : c.Rearranges c') (hkind : c.kind ≠ .types) : c = c' := by
  cases h with
  | same => rfl
  | types => exact (hkind rfl).elim

/-- Literals do not look at unions. -/
theorem isKept_iff (h : c.Rearranges c') (literal : Bytes) : c.IsKept literal ↔ c'.IsKept literal := by
  cases h <;> exact Iff.rfl

end Constraint.Rearranges

/-- Two lists of rules differ at most in their order and in that of the members of a union. -/
abbrev Rules.AreRearranged (rules rules' : Rules) : Prop :=
  IsRearranged (fun _ => false) (fun r r' : Rule => r.constraint.Rearranges r'.constraint) rules rules'

theorem Rules.AreRearranged.kinds_perm {rules rules' : Rules} (h : rules.AreRearranged rules') :
    rules.kinds.Perm rules'.kinds := by
  obtain ⟨middle, hperm, -, hrelated⟩ := h
  refine (hperm.map Rule.kind).trans (.of_eq ?_)
  rw [kinds, ← List.forall₂_eq_eq_eq, List.forall₂_map_left_iff, List.forall₂_map_right_iff]
  exact hrelated.imp fun _ _ hrule => hrule.kind_eq

/-- Two lists of rules, of which no two are of one kind, differ at most in their order. -/
structure Rules.Rearranges (rules rules' : Rules) : Prop where
  rearranged : rules.AreRearranged rules'
  distinct : rules.kinds.Nodup

namespace Rules.Rearranges

variable {rules rules' : Rules}

theorem kinds_perm (h : rules.Rearranges rules') : rules.kinds.Perm rules'.kinds := h.rearranged.kinds_perm

theorem distinct' (h : rules.Rearranges rules') : rules'.kinds.Nodup := h.kinds_perm.nodup_iff.1 h.distinct

theorem has_eq (h : rules.Rearranges rules') (kind : ConstraintKind) : rules.has kind = rules'.has kind := by
  rw [Bool.eq_iff_iff, has_eq_true_iff, has_eq_true_iff, h.kinds_perm.mem_iff]

/-- What is found by its kind is the same but for the order. -/
theorem constraint?_rel (h : rules.Rearranges rules') (kind : ConstraintKind) :
    Option.Rel Constraint.Rearranges (rules.constraint? kind) (rules'.constraint? kind) := by
  cases hfound : rules.constraint? kind with
  | some c =>
    obtain ⟨r, hr, rfl, hkind⟩ := (constraint?_eq_some_iff h.distinct).1 hfound
    obtain ⟨r', hr', hrule⟩ := h.rearranged.areMatched.1 r hr
    rw [(constraint?_eq_some_iff h.distinct').2 ⟨r', hr', rfl, hrule.kind_eq.symm.trans hkind⟩]
    exact .some hrule
  | none =>
    cases hfound' : rules'.constraint? kind with
    | none => exact .none
    | some c' =>
      obtain ⟨r', hr', rfl, hkind⟩ := (constraint?_eq_some_iff h.distinct').1 hfound'
      obtain ⟨r, hr, hrule⟩ := h.rearranged.areMatched.2 r' hr'
      rw [(constraint?_eq_some_iff h.distinct).2 ⟨r, hr, rfl, hrule.kind_eq.trans hkind⟩] at hfound
      cases hfound

/-- What is no union is found as it is. -/
theorem constraint?_eq (h : rules.Rearranges rules') {kind : ConstraintKind} (hkind : kind ≠ .types) :
    rules.constraint? kind = rules'.constraint? kind := by
  have hrel := h.constraint?_rel kind
  cases hfound : rules.constraint? kind with
  | none =>
    rw [hfound] at hrel
    generalize rules'.constraint? kind = found' at hrel
    cases hrel
    rfl
  | some c =>
    have hc : c.kind ≠ .types := by
      obtain ⟨r, hr, rfl, hc⟩ := (constraint?_eq_some_iff h.distinct).1 hfound
      rwa [hc]
    rw [hfound] at hrel
    generalize rules'.constraint? kind = found' at hrel
    cases hrel with
    | some hsame => rw [hsame.eq_of_kind hc]

theorem flag_eq (h : rules.Rearranges rules') (kind : ConstraintKind) : rules.flag kind = rules'.flag kind := by
  by_cases hkind : kind = .types
  · subst hkind
    have hrel := h.constraint?_rel .types
    rw [flag, flag]
    generalize rules.constraint? .types = found at hrel
    generalize rules'.constraint? .types = found' at hrel
    cases hrel with
    | none => rfl
    | some hsame => cases hsame <;> rfl
  · rw [flag, flag, h.constraint?_eq hkind]

theorem count?_eq (h : rules.Rearranges rules') (kind : ConstraintKind) : rules.count? kind = rules'.count? kind := by
  by_cases hkind : kind = .types
  · subst hkind
    have hrel := h.constraint?_rel .types
    rw [count?, count?]
    generalize rules.constraint? .types = found at hrel
    generalize rules'.constraint? .types = found' at hrel
    cases hrel with
    | none => rfl
    | some hsame => cases hsame <;> rfl
  · rw [count?, count?, h.constraint?_eq hkind]

/-- The types that are referred to are the same but for the order. -/
theorem typeNames_perm (h : rules.Rearranges rules') : rules.typeNames.Perm rules'.typeNames := by
  rw [typeNames, typeNames, userType?, userType?, h.constraint?_eq (show ConstraintKind.type ≠ .types by decide)]
  refine List.Perm.append_left _ ?_
  have hrel := h.constraint?_rel .types
  rw [unionNames, unionNames]
  generalize rules.constraint? .types = found at hrel
  generalize rules'.constraint? .types = found' at hrel
  cases hrel with
  | none => exact .refl _
  | some hsame =>
    cases hsame with
    | same => exact .refl _
    | types hperm => exact hperm

end Rules.Rearranges

/-- Changing rules other than unions keeps them rearranged. -/
theorem Rules.Rearranges.change {rules rules' : Rules} (h : rules.Rearranges rules') {f : Constraint → Constraint}
    (hf : ∀ c, Constraint.Completes c (f c)) : Rules.Rearranges (rules.change f) (rules'.change f) := by
  refine ⟨IsRearranged.map h.rearranged (fun _ => rfl) fun r r' hrule => ?_, ?_⟩
  · have hunion : ∀ names, f (.types names) = .types names := fun names =>
      (hf (.types names)).eq_of_names (Or.inr (Or.inl rfl))
    generalize r.constraint = c at hrule
    generalize r'.constraint = c' at hrule
    cases hrule with
    | same => exact .same _
    | types hnames =>
      simp only [hunion]
      exact .types hnames
  · rw [Rules.kinds_change hf]
    exact h.distinct

/-! ## Headers -/

/-- Two headers differ at most in their rules, which are related. -/
structure Header.Aligns (R : Rules → Rules → Prop) (header header' : Header) : Prop where
  jsonType : header.jsonType = header'.jsonType
  declared : header.declared? = header'.declared?
  rules : R header.rules header'.rules
  comment : header.comment? = header'.comment?
  isAnnotated : header.isAnnotated = header'.isAnnotated

/-- The same headers with other rules. -/
theorem Header.Aligns.withRules {R S : Rules → Rules → Prop} {header header' : Header} (h : header.Aligns R header')
    {rules rules' : Rules} (hrules : S rules rules') :
    Header.Aligns S { header with rules } { header' with rules := rules' } :=
  ⟨h.jsonType, h.declared, hrules, h.comment, h.isAnnotated⟩

/-- Two headers differ at most in the order of their rules. -/
abbrev Header.Rearranges (header header' : Header) : Prop := header.Aligns Rules.Rearranges header'

namespace Header.Rearranges

variable {header header' : Header}

/-- Validation compares the same at both. -/
theorem resembles (h : header.Rearranges header') : header.Resembles header' where
  jsonType := h.jsonType
  declared := h.declared
  flag := h.rules.flag_eq
  count := h.rules.count?_eq
  typeNames _ := h.rules.typeNames_perm.mem_iff
  additional := h.rules.constraint?_eq (by decide)
  isKept literal := h.rules.rearranged.areMatched.forall_iff fun _ _ hrule => hrule.isKept_iff literal

/-- A header without rules, wherever it is written. -/
theorem fresh (type : JsonType) (mark mark' : Mark) :
    Header.Rearranges { jsonType := type, basis := mark } { jsonType := type, basis := mark' } :=
  ⟨rfl, rfl, ⟨.of_forall₂ .nil, List.nodup_nil⟩, rfl, rfl⟩

/-- Changing rules other than unions. -/
theorem change (h : header.Rearranges header') {f : Constraint → Constraint}
    (hf : ∀ c, Constraint.Completes c (f c)) :
    Header.Rearranges { header with rules := header.rules.change f } { header' with rules := header'.rules.change f } :=
  h.withRules (h.rules.change hf)

theorem withJsonType (h : header.Rearranges header') (type : JsonType) :
    Header.Rearranges { header with jsonType := type } { header' with jsonType := type } :=
  ⟨rfl, h.declared, h.rules, h.comment, h.isAnnotated⟩

end Header.Rearranges

/-! ## Trees -/

/-- Two keys are of one property, written somewhere. -/
structure PropertyKey.Matches (key key' : PropertyKey) : Prop where
  name : key.name = key'.name
  isShortcut : key.isShortcut = key'.isShortcut
  isInherited : key.isInherited = key'.isInherited

/-- Two trees differ at most in the order of the items of an array, in that of the properties of an object whose
names are no types, and in their rules, which are related.  The objects of one tree have properties of some kind. -/
inductive Node.Aligns (R : Rules → Rules → Prop) (D : Properties → Prop) : Node → Node → Prop
  | literal {header header' : Header} {sample? sample?' : Option Mark} (hheader : header.Aligns R header')
      (hsample : sample?.map Mark.bytes = sample?'.map Mark.bytes) :
    Aligns R D (.literal header sample?) (.literal header' sample?')
  | mixed {header header' : Header} {sample? sample?' : Option Mark} (hheader : header.Aligns R header')
      (hsample : sample?.map Mark.bytes = sample?'.map Mark.bytes) :
    Aligns R D (.mixed header sample?) (.mixed header' sample?')
  | reference {header header' : Header} {names names' : List String} (hheader : header.Aligns R header')
      (hnames : names.Perm names') :
    Aligns R D (.reference header names) (.reference header' names')
  | array {header header' : Header} {items reordered items' : List Node} (hheader : header.Aligns R header')
      (horder : items.Perm reordered) (hlength : reordered.length = items'.length)
      (hitems : ∀ {item item'}, (item, item') ∈ reordered.zip items' → Aligns R D item item') :
    Aligns R D (.array header items) (.array header' items')
  | object {header header' : Header} {properties reordered properties' : Properties}
      (hheader : header.Aligns R header') (hdistinct : D properties) (horder : properties.Perm reordered)
      (hshortcuts : (properties.filter fun p => p.1.isShortcut) = reordered.filter fun p => p.1.isShortcut)
      (hlength : reordered.length = properties'.length)
      (hkeys : ∀ {p p'}, (p, p') ∈ reordered.zip properties' → p.1.Matches p'.1)
      (hnodes : ∀ {p p'}, (p, p') ∈ reordered.zip properties' → Aligns R D p.2 p'.2) :
    Aligns R D (.object header properties) (.object header' properties')

/-- **Two trees differ at most in their order**: in that of the rules of a node, of the members of a union, of the
items of an array, and of the properties of an object whose names are no types. -/
abbrev Node.Permutes (node node' : Node) : Prop := node.Aligns Rules.AreRearranged (fun _ => True) node'

/-- Two trees differ at most in their order, and no node of one of them has two rules of a kind, or two properties
of a name. -/
abbrev Node.Rearranges (node node' : Node) : Prop := node.Aligns Rules.Rearranges Properties.AreDistinct node'

/-- Two properties have one key, and nodes that are related. -/
def PropertiesMatch (N : Node → Node → Prop) (p p' : PropertyKey × Node) : Prop := p.1.Matches p'.1 ∧ N p.2 p'.2

/-- Properties in another order, with nodes that are related.  Those whose names are types keep their order. -/
abbrev Properties.AreRearranged (N : Node → Node → Prop) (properties properties' : Properties) : Prop :=
  IsRearranged (fun p => p.1.isShortcut) (PropertiesMatch N) properties properties'

/-- Items in another order, with nodes that are related. -/
abbrev AreRearrangedItems (N : Node → Node → Prop) (items items' : List Node) : Prop :=
  IsRearranged (fun _ => false) N items items'

namespace Node.Aligns

variable {R : Rules → Rules → Prop} {D : Properties → Prop} {node node' : Node}

theorem of_items {header header' : Header} {items items' : List Node} (hheader : header.Aligns R header')
    (hitems : AreRearrangedItems (Aligns R D) items items') :
    (Node.array header items).Aligns R D (.array header' items') := by
  obtain ⟨middle, hperm, -, hrelated⟩ := hitems
  obtain ⟨hlength, hitems⟩ := List.forall₂_iff_zip.1 hrelated
  exact .array hheader hperm hlength hitems

theorem of_properties {header header' : Header} {properties properties' : Properties}
    (hheader : header.Aligns R header') (hdistinct : D properties)
    (hproperties : properties.AreRearranged (Aligns R D) properties') :
    (Node.object header properties).Aligns R D (.object header' properties') := by
  obtain ⟨middle, hperm, hkept, hrelated⟩ := hproperties
  obtain ⟨hlength, hproperties⟩ := List.forall₂_iff_zip.1 hrelated
  exact .object hheader hdistinct hperm hkept hlength (fun h => (hproperties h).1) fun h => (hproperties h).2

/-- **Induction down two trees** that differ in their order. -/
@[elab_as_elim]
theorem induct {motive : (node node' : Node) → node.Aligns R D node' → Prop}
    (literal : ∀ {header header' : Header} {sample? sample?' : Option Mark} (hheader : header.Aligns R header')
      (hsample : sample?.map Mark.bytes = sample?'.map Mark.bytes),
      motive (.literal header sample?) (.literal header' sample?') (.literal hheader hsample))
    (mixed : ∀ {header header' : Header} {sample? sample?' : Option Mark} (hheader : header.Aligns R header')
      (hsample : sample?.map Mark.bytes = sample?'.map Mark.bytes),
      motive (.mixed header sample?) (.mixed header' sample?') (.mixed hheader hsample))
    (reference : ∀ {header header' : Header} {names names' : List String} (hheader : header.Aligns R header')
      (hnames : names.Perm names'),
      motive (.reference header names) (.reference header' names') (.reference hheader hnames))
    (array : ∀ {header header' : Header} {items items' : List Node} (hheader : header.Aligns R header')
      (hitems : AreRearrangedItems (fun a b => ∃ h : a.Aligns R D b, motive a b h) items items'),
      motive (.array header items) (.array header' items')
        (.of_items hheader (hitems.mono fun _ _ h => h.1)))
    (object : ∀ {header header' : Header} {properties properties' : Properties}
      (hheader : header.Aligns R header') (hdistinct : D properties)
      (hproperties : properties.AreRearranged (fun a b => ∃ h : a.Aligns R D b, motive a b h) properties'),
      motive (.object header properties) (.object header' properties')
        (.of_properties hheader hdistinct (hproperties.mono fun _ _ h => ⟨h.1, h.2.1⟩)))
    (h : node.Aligns R D node') : motive node node' h := by
  induction h with
  | literal hheader hsample => exact literal hheader hsample
  | mixed hheader hsample => exact mixed hheader hsample
  | reference hheader hnames => exact reference hheader hnames
  | array hheader horder hlength hitems ih =>
    exact array hheader
      ⟨_, horder, by simp, List.forall₂_iff_zip.2 ⟨hlength, fun h => ⟨hitems h, ih h⟩⟩⟩
  | object hheader hdistinct horder hshortcuts hlength hkeys hnodes ih =>
    exact object hheader hdistinct ⟨_, horder, hshortcuts,
      List.forall₂_iff_zip.2 ⟨hlength, fun h => ⟨hkeys h, hnodes h, ih h⟩⟩⟩

/-- **Two trees that differ in their order** at their roots. -/
@[elab_as_elim]
theorem elim {motive : (node node' : Node) → node.Aligns R D node' → Prop}
    (literal : ∀ {header header' : Header} {sample? sample?' : Option Mark} (hheader : header.Aligns R header')
      (hsample : sample?.map Mark.bytes = sample?'.map Mark.bytes),
      motive (.literal header sample?) (.literal header' sample?') (.literal hheader hsample))
    (mixed : ∀ {header header' : Header} {sample? sample?' : Option Mark} (hheader : header.Aligns R header')
      (hsample : sample?.map Mark.bytes = sample?'.map Mark.bytes),
      motive (.mixed header sample?) (.mixed header' sample?') (.mixed hheader hsample))
    (reference : ∀ {header header' : Header} {names names' : List String} (hheader : header.Aligns R header')
      (hnames : names.Perm names'),
      motive (.reference header names) (.reference header' names') (.reference hheader hnames))
    (array : ∀ {header header' : Header} {items items' : List Node} (hheader : header.Aligns R header')
      (hitems : AreRearrangedItems (Aligns R D) items items'),
      motive (.array header items) (.array header' items') (.of_items hheader hitems))
    (object : ∀ {header header' : Header} {properties properties' : Properties}
      (hheader : header.Aligns R header') (hdistinct : D properties)
      (hproperties : properties.AreRearranged (Aligns R D) properties'),
      motive (.object header properties) (.object header' properties')
        (.of_properties hheader hdistinct hproperties))
    (h : node.Aligns R D node') : motive node node' h := by
  induction h using induct with
  | literal hheader hsample => exact literal hheader hsample
  | mixed hheader hsample => exact mixed hheader hsample
  | reference hheader hnames => exact reference hheader hnames
  | array hheader hitems => exact array hheader (hitems.mono fun _ _ h => h.1)
  | object hheader hdistinct hproperties =>
    exact object hheader hdistinct (hproperties.mono fun _ _ h => ⟨h.1, h.2.1⟩)

end Node.Aligns

namespace Node.Rearranges

variable {node node' : Node}

theorem header (h : node.Rearranges node') : node.header.Rearranges node'.header := by
  cases h with
  | literal h | mixed h | reference h | array h | object h => exact h

theorem jsonType_eq (h : node.Rearranges node') : node.jsonType = node'.jsonType := h.header.jsonType

theorem isNullable_eq (h : node.Rearranges node') : node.isNullable = node'.isNullable := h.header.rules.flag_eq _

theorem isOptional_eq (h : node.Rearranges node') : node.isOptional = node'.isOptional := h.header.rules.flag_eq _

theorem typeNames_perm (h : node.Rearranges node') : node.rules.typeNames.Perm node'.rules.typeNames :=
  h.header.rules.typeNames_perm

end Node.Rearranges

/-! ## Schemas -/

/-- Two registries have the same names, and types that differ at most in their order. -/
abbrev Registry.Rearranges (types types' : Registry) : Prop :=
  List.Forall₂ (fun e e' => e.1 = e'.1 ∧ e.2.root.Rearranges e'.2.root) types types'

/-- Two schemas differ at most in their order, with nodes as above. -/
structure Schema.Rearranges (schema schema' : Schema) : Prop where
  root : schema.root.Rearranges schema'.root
  types : schema.types.Rearranges schema'.types

/-- **Two schemas differ at most in their order.** -/
structure Schema.Permutes (schema schema' : Schema) : Prop where
  root : schema.root.Permutes schema'.root
  types : List.Forall₂ (fun e e' => e.1 = e'.1 ∧ e.2.root.Permutes e'.2.root) schema.types schema'.types

end ExampleSchema
