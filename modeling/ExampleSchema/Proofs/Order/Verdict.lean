import ExampleSchema.Proofs.Members
import ExampleSchema.Proofs.Order.Check
import ExampleSchema.Proofs.Order.Load

/-!
# The order of a schema does not matter

No node that is loaded has two rules of a kind, and no object two properties of a name.  So all of them are found
wherever they stand, and whatever looks for them comes to the same.

* `Node.IsDistinct`, `Schema.isDistinct_of_load_eq_ok`: what is loaded.
* `Schema.Permutes.rearranges`: loaded schemas in another order.
* `Schema.CompilesAlike`, `Schema.AcceptsAlike`: the passes over two schemas, and what these accept.
* `Session.Rearranges`: sessions about documents in another order.
* `order_irrelevant`: all of it.
-/

namespace ExampleSchema

open Except

/-! ## Distinct rules and properties -/

namespace Node

variable {node node' : Node}

/-- No node of the tree has two rules of a kind, or two properties of a name. -/
def IsDistinct (node : Node) : Prop := ∀ part ∈ node.subnodes, part.rules.kinds.Nodup ∧ part.HasDistinctKeys

theorem isDistinct_iff : node.IsDistinct ↔
    (node.rules.kinds.Nodup ∧ node.HasDistinctKeys) ∧ ∀ child ∈ node.children, child.IsDistinct := by
  constructor
  · intro h
    refine ⟨h node node.mem_subnodes_self, fun child hchild part hpart => ?_⟩
    exact h part (mem_subnodes_iff.2 (Or.inr ⟨child, hchild, hpart⟩))
  · rintro ⟨hnode, hchildren⟩ part hpart
    rcases mem_subnodes_iff.1 hpart with rfl | ⟨child, hchild, hpart⟩
    · exact hnode
    · exact hchildren child hchild part hpart

theorem Rearranges.isDistinct (h : node.Rearranges node') : node.IsDistinct := by
  induction h using Aligns.induct with
  | literal hheader | mixed hheader | reference hheader =>
    exact isDistinct_iff.2 ⟨⟨hheader.rules.distinct, trivial⟩, nofun⟩
  | array hheader hitems =>
    refine isDistinct_iff.2 ⟨⟨hheader.rules.distinct, trivial⟩, fun child hchild => ?_⟩
    obtain ⟨child', -, -, hchild⟩ := hitems.areMatched.1 child hchild
    exact hchild
  | object hheader hdistinct hproperties =>
    refine isDistinct_iff.2 ⟨⟨hheader.rules.distinct, hdistinct⟩, fun child hchild => ?_⟩
    obtain ⟨p, hp, rfl⟩ := List.mem_map.1 hchild
    obtain ⟨p', -, -, -, hp⟩ := hproperties.areMatched.1 p hp
    exact hp

theorem Rearranges.permutes (h : node.Rearranges node') : node.Permutes node' := by
  induction h using Aligns.induct with
  | literal h hsample => exact .literal (h.withRules h.rules.rearranged) hsample
  | mixed h hsample => exact .mixed (h.withRules h.rules.rearranged) hsample
  | reference h hnames => exact .reference (h.withRules h.rules.rearranged) hnames
  | array h hitems =>
    exact .of_items (h.withRules h.rules.rearranged) (hitems.mono fun _ _ ⟨_, hitem⟩ => hitem)
  | object h hdistinct hproperties =>
    exact .of_properties (h.withRules h.rules.rearranged) trivial
      (hproperties.mono fun _ _ ⟨hkey, _, hnode⟩ => ⟨hkey, hnode⟩)

/-- **Trees in another order**, where rules and properties are distinct. -/
theorem Permutes.rearranges (h : node.Permutes node') (hdistinct : node.IsDistinct) : node.Rearranges node' := by
  have hheader : ∀ {header header' : Header}, header.Aligns Rules.AreRearranged header' →
      header.rules.kinds.Nodup → header.Rearranges header' := fun h hnodup => h.withRules ⟨h.rules, hnodup⟩
  induction h using Aligns.induct with
  | literal h hsample => exact .literal (hheader h (isDistinct_iff.1 hdistinct).1.1) hsample
  | mixed h hsample => exact .mixed (hheader h (isDistinct_iff.1 hdistinct).1.1) hsample
  | reference h hnames => exact .reference (hheader h (isDistinct_iff.1 hdistinct).1.1) hnames
  | array h hitems =>
    obtain ⟨⟨hnodup, -⟩, hchildren⟩ := isDistinct_iff.1 hdistinct
    refine .of_items (hheader h hnodup) (hitems.mono_of_mem fun item hmem _ ⟨_, hitem⟩ => ?_)
    exact hitem (hchildren item hmem)
  | object h _ hproperties =>
    obtain ⟨⟨hnodup, hkeys⟩, hchildren⟩ := isDistinct_iff.1 hdistinct
    refine .of_properties (hheader h hnodup) hkeys (hproperties.mono_of_mem fun p hmem _ ⟨hkey, _, hnode⟩ => ?_)
    exact ⟨hkey, hnode (hchildren p.2 (List.mem_map_of_mem hmem))⟩

end Node

namespace Schema

variable {schema schema' : Schema}

/-- No node of the schema has two rules of a kind, or two properties of a name. -/
structure IsDistinct (schema : Schema) : Prop where
  root : schema.root.IsDistinct
  types : ∀ e ∈ schema.types, e.2.root.IsDistinct

/-- **What is loaded** has distinct rules and properties. -/
theorem isDistinct_of_load_eq_ok {source : Source} {owner : String} (h : Schema.load source owner = .ok schema) :
    schema.IsDistinct := by
  have hself : schema.Rearranges schema := ((Source.Rearranges.refl source).agree_load owner).of_ok h h
  refine ⟨hself.root.isDistinct, fun e he => ?_⟩
  obtain ⟨e', -, -, hrelated⟩ := (AreMatched.of_forall₂ hself.types).1 e he
  exact hrelated.isDistinct

theorem Rearranges.permutes (h : schema.Rearranges schema') : schema.Permutes schema' :=
  ⟨h.root.permutes, h.types.imp fun _ _ he => ⟨he.1, he.2.permutes⟩⟩

theorem Permutes.rearranges (h : schema.Permutes schema') (hdistinct : schema.IsDistinct) :
    schema.Rearranges schema' := by
  obtain ⟨hlength, htypes⟩ := List.forall₂_iff_zip.1 h.types
  refine ⟨h.root.rearranges hdistinct.root, List.forall₂_iff_zip.2 ⟨hlength, fun {e e'} he => ?_⟩⟩
  obtain ⟨hname, hroot⟩ := htypes he
  exact ⟨hname, hroot.rearranges (hdistinct.types e (List.of_mem_zip he).1)⟩

/-! ## Verdicts -/

/-- Two schemas accept the same values, on their own and as members of objects. -/
structure AcceptsAlike (schema schema' : Schema) : Prop where
  value : ∀ value, schema.accept value = .ok () ↔ schema'.accept value = .ok ()
  member : ∀ name value, schema.acceptMember name value = .ok () ↔ schema'.acceptMember name value = .ok ()

/-- The passes of two schemas succeed or fail together, one after another, and the schemas that come of them
accept the same values. -/
def CompilesAlike (rules : EnumRules) (schema schema' : Schema) : Prop :=
  Agree (fun resolved resolved' =>
      Agree (fun expanded expanded' =>
          (expanded.check = .ok () ↔ expanded'.check = .ok ()) ∧ expanded.AcceptsAlike expanded')
        resolved.expand resolved'.expand)
    (schema.resolveEnums rules) (schema'.resolveEnums rules)

theorem Rearranges.acceptsAlike (h : schema.Rearranges schema') : schema.AcceptsAlike schema' :=
  ⟨h.accept_iff, h.acceptMember_iff⟩

theorem Rearranges.compilesAlike (h : schema.Rearranges schema') (rules : EnumRules) :
    CompilesAlike rules schema schema' := by
  refine (h.agree_resolveEnums rules).mono fun resolved resolved' hresolved => ?_
  exact hresolved.agree_expand.mono fun _ _ hexpanded => ⟨hexpanded.check_eq_ok_iff, hexpanded.acceptsAlike⟩

end Schema

/-- Registered types with the same names differ at most in their order. -/
abbrev ArePermutedTypes (named named' : List (String × RegisteredType)) : Prop :=
  List.Forall₂ (fun e e' => e.1 = e'.1 ∧ e.2.schema.Permutes e'.2.schema) named named'

theorem ArePermutedTypes.areRearranged {named named' : List (String × RegisteredType)}
    (h : ArePermutedTypes named named') (hdistinct : ∀ e ∈ named, e.2.schema.IsDistinct) :
    AreRearrangedTypes named named' := by
  obtain ⟨hlength, htypes⟩ := List.forall₂_iff_zip.1 h
  refine List.forall₂_iff_zip.2 ⟨hlength, fun {e e'} he => ?_⟩
  obtain ⟨hname, hschema⟩ := htypes he
  exact ⟨hname, hschema.rearranges (hdistinct e (List.of_mem_zip he).1)⟩

/-! ## Sessions -/

namespace Session

variable {s s' : Session}

/-- The documents of two sessions differ at most in the order of the rules of their notes. -/
structure Rearranges (s s' : Session) : Prop where
  name : s.source.name = s'.source.name
  source : s.source.Rearranges s'.source
  types : List.Forall₂ (fun e e' => e.1 = e'.1 ∧ e.2.source.Rearranges e'.2.source) s.types s'.types
  rules : s.rules = s'.rules

/-- What is registered has been loaded. -/
theorem Rearranges.areRearrangedTypes (h : s.Rearranges s') (hs : s.Arises) (hs' : s'.Arises) :
    AreRearrangedTypes s.types s'.types := by
  obtain ⟨hlength, htypes⟩ := List.forall₂_iff_zip.1 h.types
  refine List.forall₂_iff_zip.2 ⟨hlength, fun {e e'} he => ?_⟩
  obtain ⟨hname, hsource⟩ := htypes he
  have hload := (hs.load_of_mem_types (List.of_mem_zip he).1).2
  have hload' := (hs'.load_of_mem_types (List.of_mem_zip he).2).2
  exact ⟨hname, (hsource.agree_load e.1).of_ok hload (hname ▸ hload')⟩

/-- **Compiling documents in another order.** -/
theorem Rearranges.agree_compiled (h : s.Rearranges s') (hs : s.Arises) (hs' : s'.Arises) :
    Agree Schema.Rearranges s.compiled s'.compiled := by
  rw [hs.compiled_eq, hs'.compiled_eq, load, load, ← h.name, ← h.rules]
  exact (h.source.agree_load s.source.name).bind fun _ _ hloaded =>
    hloaded.agree_compile (h.areRearrangedTypes hs hs') s.rules

theorem Rearranges.validate_iff (h : s.Rearranges s') (hs : s.Arises) (hs' : s'.Arises) (text : Bytes) :
    s.validate text = .ok () ↔ s'.validate text = .ok () := by
  refine agree_unit_iff.1 ((h.agree_compiled hs hs').bind fun schema schema' hschema => ?_)
  refine (agree_refl (Value.parse ⟨"value", text⟩)).bind fun value _ hvalue => ?_
  exact hvalue ▸ agree_unit_iff.2 (hschema.accept_iff value)

theorem Rearranges.validateMember_iff (h : s.Rearranges s') (hs : s.Arises) (hs' : s'.Arises) (name : String)
    (text : Bytes) : s.validateMember name text = .ok () ↔ s'.validateMember name text = .ok () := by
  refine agree_unit_iff.1 ((h.agree_compiled hs hs').bind fun schema schema' hschema => ?_)
  refine (agree_refl (Value.parse ⟨name, text⟩)).bind fun value _ hvalue => ?_
  exact hvalue ▸ agree_unit_iff.2 (hschema.acceptMember_iff name value)

end Session

/-- **Order does not matter.**  Loaded schemas that differ in the order of the rules of nodes, of the members of
unions, of the items of arrays and of the properties of objects whose names are no types, pass and fail the same
passes, and accept the same values.  Documents that differ in the order of the rules of notes load as such schemas,
so they compile alike, and accept the same texts. -/
theorem order_irrelevant :
    (∀ (schema schema' : Schema) (named named' : List (String × RegisteredType)) (rules : EnumRules),
      (∀ loaded ∈ schema :: named.map fun e => e.2.schema, ∃ source owner, Schema.load source owner = .ok loaded) →
      schema.Permutes schema' → ArePermutedTypes named named' →
      Schema.CompilesAlike rules (schema.register named) (schema'.register named')) ∧
    (∀ (source source' : Source) (owner : String), source.Rearranges source' →
      Agree Schema.Permutes (Schema.load source owner) (Schema.load source' owner)) ∧
    ∀ s s' : Session, s.Arises → s'.Arises → s.Rearranges s' →
      ((∃ schema, s.compiled = .ok schema) ↔ ∃ schema', s'.compiled = .ok schema') ∧
      ∀ text, (s.validate text = .ok () ↔ s'.validate text = .ok ()) ∧
        ∀ name, s.validateMember name text = .ok () ↔ s'.validateMember name text = .ok () := by
  refine ⟨fun schema schema' named named' rules hloaded h hnamed => ?_, fun source source' owner h => ?_,
    fun s s' hs hs' h => ⟨(h.agree_compiled hs hs').exists_ok_iff, fun text => ⟨h.validate_iff hs hs' text,
      fun name => h.validateMember_iff hs hs' name text⟩⟩⟩
  · have hdistinct : ∀ loaded ∈ schema :: named.map fun e => e.2.schema, loaded.IsDistinct := by
      intro loaded hmem
      obtain ⟨source, owner, hload⟩ := hloaded loaded hmem
      exact Schema.isDistinct_of_load_eq_ok hload
    have hschema := h.rearranges (hdistinct schema List.mem_cons_self)
    have htypes := hnamed.areRearranged fun e he => hdistinct _ (List.mem_cons_of_mem _ (List.mem_map_of_mem he))
    exact (hschema.register htypes).compilesAlike rules
  · exact (h.agree_load owner).mono fun _ _ hloaded => hloaded.permutes

/-! ### A bound and its flag -/

/-- Two parts of documents are the same, but for two rules that may have changed places. -/
def Source.Part.isSwapped : Source.Part → Source.Part → Bool
  | .event mark, .event mark' => mark.kind == mark'.kind && (!mark.kind.isRead || mark.bytes == mark'.bytes)
  | .note ⟨_, some [(name, _, .literal value), (other, _, .literal more)], text?⟩,
    .note ⟨_, some [(other', _, .literal more'), (name', _, .literal value')], text?'⟩ =>
    name == name' && value.bytes == value'.bytes && other == other' && more.bytes == more'.bytes && text? == text?'
  | _, _ => false

theorem Source.Part.rearranges_of_isSwapped {part part' : Source.Part} (h : part.isSwapped part' = true) :
    part.Rearranges part' := by
  unfold isSwapped at h
  split at h
  · simp only [Bool.and_eq_true, Bool.or_eq_true, Bool.not_eq_true', beq_iff_eq] at h
    exact .event h.1 fun hread => h.2.resolve_left (by simp [hread])
  · simp only [Bool.and_eq_true, beq_iff_eq] at h
    obtain ⟨⟨⟨⟨hname, hvalue⟩, hother⟩, hmore⟩, htext⟩ := h
    refine .note htext (.some ⟨_, .swap _ _ _, by simp, ?_⟩)
    exact .cons ⟨hother, .literal hmore⟩ (.cons ⟨hname, .literal hvalue⟩ .nil)
  · cases h

/-- Two documents are the same, but for rules that may have changed places. -/
def Source.isSwapped (source source' : Source) : Bool :=
  match source.parts, source'.parts with
  | .ok parts, .ok parts' => parts.length == parts'.length && (parts.zip parts').all fun (p, p') => p.isSwapped p'
  | _, _ => false

theorem Source.rearranges_of_isSwapped {source source' : Source} (h : source.isSwapped source' = true) :
    source.Rearranges source' := by
  unfold isSwapped at h
  split at h
  · next parts parts' hparts hparts' =>
    rw [Bool.and_eq_true, beq_iff_eq, List.all_eq_true] at h
    refine ⟨?_⟩
    rw [hparts, hparts', agree_ok]
    exact List.forall₂_iff_zip.2 ⟨h.1, fun hmem => Part.rearranges_of_isSwapped (h.2 _ hmem)⟩
  · cases h

/-- A bound, and the flag that makes it exclusive. -/
def boundFirst : String := "5 // \x7bmin: 1, exclusiveMinimum: true\x7d"

/-- The flag, and the bound that it makes exclusive. -/
def flagFirst : String := "5 // \x7bexclusiveMinimum: true, min: 1\x7d"

theorem Session.Rearranges.ofText {document document' : String}
    (h : Source.Rearranges (.ofString "root" document) (.ofString "root" document')) :
    (Session.ofText document).Rearranges (Session.ofText document') :=
  ⟨rfl, h, .nil, rfl⟩

/-- The flag counts wherever it stands. -/
theorem flag_before_bound : (Session.ofText boundFirst).Rearranges (Session.ofText flagFirst) ∧
    (Session.ofText flagFirst).validate (Bytes.ofString "2") = .ok () ∧
    (Session.ofText flagFirst).validate (Bytes.ofString "1") ≠ .ok () := by
  have hsession : (Session.ofText boundFirst).Rearranges (Session.ofText flagFirst) :=
    .ofText (Source.rearranges_of_isSwapped (by decide +kernel))
  obtain ⟨-, hsame⟩ := order_irrelevant.2.2 _ _ (Session.arises_ofText _) (Session.arises_ofText _) hsession
  have htwo : ((Session.ofText boundFirst).validate (Bytes.ofString "2")).isOk = true := by decide +kernel
  have hone : ((Session.ofText boundFirst).validate (Bytes.ofString "1")).isOk = false := by decide +kernel
  refine ⟨hsession, (hsame _).1.1 (isOk_iff.1 htwo), fun hvalid => ?_⟩
  exact absurd (isOk_iff.2 ((hsame _).1.2 hvalid)) (by rw [hone]; exact Bool.false_ne_true)

end ExampleSchema
