import ExampleSchema.Proofs.Order.Nodes

/-!
# Applying rules in another order

Rules are applied to a node one after another, and then the declared type, the exclusive flags and a constant
change what is there.  Each of these looks rules up by their kinds, of which none comes twice, so it does not
matter in which order the rules come.

* `Rules.findSome?_eq_of_kind`: looking something up in rules of one kind.
* `Header.Rearranges.agree_apply`, `Node.Rearranges.agree_apply`, `Node.Rearranges.agree_annotate`: applying rules
  in different orders to what differs in its order.
-/

namespace ExampleSchema

open Except

/-! ## Looking rules up -/

/-- What only rules of one kind give is given by the rule of that kind. -/
theorem Rules.findSome?_eq_of_kind {β : Type} {rules : Rules} (h : rules.kinds.Nodup) {kind : ConstraintKind}
    {f : Constraint → Option β} (hf : ∀ c b, f c = some b → c.kind = kind) :
    (rules.findSome? fun r => f r.constraint) = (rules.constraint? kind).bind f := by
  cases hfound : rules.constraint? kind with
  | none =>
    rw [Option.bind_none, List.findSome?_eq_none_iff]
    refine fun r hr => Option.eq_none_iff_forall_ne_some.2 fun b hb => ?_
    rw [(constraint?_eq_some_iff h).2 ⟨r, hr, rfl, hf _ b hb⟩] at hfound
    cases hfound
  | some c =>
    obtain ⟨r, hr, rfl, hkind⟩ := (constraint?_eq_some_iff h).1 hfound
    rw [Option.bind_some]
    cases hgiven : rules.findSome? fun r => f r.constraint with
    | none => exact (List.findSome?_eq_none_iff.1 hgiven r hr).symm
    | some b =>
      obtain ⟨other, hother, hb⟩ := List.exists_of_findSome?_eq_some hgiven
      have hsame : rules.constraint? kind = some other.constraint :=
        (constraint?_eq_some_iff h).2 ⟨other, hother, rfl, hf _ b hb⟩
      rw [← hb, Option.some.inj (hfound.symm.trans hsame)]

/-- So it does not depend on the order of the rules, unless it is a union. -/
theorem Rules.Rearranges.findSome?_eq {β : Type} {rules rules' : Rules} (h : rules.Rearranges rules')
    {kind : ConstraintKind} {f : Constraint → Option β} (hf : ∀ c b, f c = some b → c.kind = kind)
    (hkind : kind ≠ .types) :
    (rules.findSome? fun r => f r.constraint) = rules'.findSome? fun r => f r.constraint := by
  rw [findSome?_eq_of_kind h.distinct hf, findSome?_eq_of_kind h.distinct' hf, h.constraint?_eq hkind]

/-- The built-in type that a rule declares. -/
def Constraint.builtin? : Constraint → Option BuiltinType
  | .type (.builtin declared) => some declared
  | _ => none

theorem Constraint.kind_of_builtin? {c : Constraint} {type : BuiltinType} (h : c.builtin? = some type) :
    c.kind = .type := by
  unfold builtin? at h
  split at h
  · rfl
  · cases h

/-- The built-in type that rules declare. -/
theorem Rules.Rearranges.builtinOf?_eq {rules rules' : Rules} (h : rules.Rearranges rules') :
    Header.builtinOf? rules = Header.builtinOf? rules' :=
  h.findSome?_eq (f := Constraint.builtin?) (fun _ _ => Constraint.kind_of_builtin?) (by decide)

/-- Whether rules refer to a type of the user. -/
theorem Rules.Rearranges.namesUserType_eq {rules rules' : Rules} (h : rules.Rearranges rules') :
    Header.namesUserType rules = Header.namesUserType rules' := by
  rw [Header.namesUserType, Header.namesUserType, Bool.eq_iff_iff, List.any_eq_true, List.any_eq_true]
  refine h.rearranged.areMatched.exists_iff fun r r' hrule => ?_
  generalize r.constraint = c at hrule
  generalize r'.constraint = c' at hrule
  cases hrule <;> exact Iff.rfl

/-! ## Headers -/

namespace Header

/-- Rules are added to a header if all their kinds are new. -/
theorem addRules_eq_ok_iff {header changed : Header} (h : header.rules.kinds.Nodup) {added : List Rule} :
    header.addRules added = .ok changed ↔
      (Rules.kinds (header.rules ++ added)).Nodup ∧ changed = { header with rules := header.rules ++ added } := by
  rw [addRules, Except.bind_eq_ok_iff]
  constructor
  · rintro ⟨all, hall, hchanged⟩
    obtain ⟨hnodup, rfl⟩ := (Rules.addAll_eq_ok_iff h).1 hall
    exact ⟨hnodup, (Except.ok.inj hchanged).symm⟩
  · rintro ⟨hnodup, rfl⟩
    exact ⟨_, (Rules.addAll_eq_ok_iff h).2 ⟨hnodup, rfl⟩, rfl⟩

/-- Rules that are applied are of different kinds. -/
theorem nodup_of_apply_eq_ok {header changed : Header} (h : header.rules.kinds.Nodup) {sample? : Option Mark}
    {added : List Rule} (happly : header.apply sample? added = .ok changed) : (Rules.kinds added).Nodup := by
  rw [apply_eq] at happly
  obtain ⟨all, hall, -⟩ := Except.bind_eq_ok_iff.1 happly
  have hnodup := ((addRules_eq_ok_iff h).1 hall).1
  rw [Rules.kinds, List.map_append] at hnodup
  exact (List.nodup_append.1 hnodup).2.1

/-- A note adds rules only after it has been noted. -/
theorem rules_of_annotate_eq_ok {header changed : Header} {note : Mark} {comment? : Option String}
    (h : header.annotate note comment? = .ok changed) : changed.rules = header.rules := by
  rw [annotate] at h
  split at h
  · cases h
  · rw [← Except.ok.inj h]

namespace Rearranges

variable {header header' : Header}

/-- Adding rules. -/
theorem agree_addRules (h : header.Rearranges header') {added added' : List Rule}
    (hadded : Rules.AreRearranged added added') :
    Agree (fun changed changed' : Header => changed.Rearranges changed' ∧ Rules.Rearranges added added')
      (header.addRules added) (header'.addRules added') := by
  have hall : Rules.AreRearranged (header.rules ++ added) (header'.rules ++ added') :=
    h.rules.rearranged.append hadded
  rw [agree_iff]
  simp only [addRules_eq_ok_iff h.rules.distinct, addRules_eq_ok_iff h.rules.distinct']
  constructor
  · rintro changed ⟨hnodup, rfl⟩
    refine ⟨_, ⟨hall.kinds_perm.nodup_iff.1 hnodup, rfl⟩, ?_, hadded, ?_⟩
    · exact h.withRules ⟨hall, hnodup⟩
    · rw [Rules.kinds, List.map_append] at hnodup
      exact (List.nodup_append.1 hnodup).2.1
  · rintro changed' ⟨hnodup, rfl⟩
    exact ⟨_, hall.kinds_perm.nodup_iff.2 hnodup, rfl⟩

/-- Declaring a type. -/
theorem agree_declare (h : header.Rearranges header') (type : BuiltinType) :
    Agree Header.Rearranges (header.declare type) (header'.declare type) := by
  have hdeclared : ∀ rules rules', Rules.Rearranges rules rules' → Header.Rearranges
      { header with
        declared? := some type, rules, jsonType := if type.jsonType = .mixed then header.jsonType else type.jsonType }
      { header' with
        declared? := some type, rules := rules',
        jsonType := if type.jsonType = .mixed then header'.jsonType else type.jsonType } := by
    intro rules rules' hrules
    rw [h.jsonType]
    exact ⟨rfl, rfl, hrules, h.comment, h.isAnnotated⟩
  unfold declare
  cases type.format? with
  | none => exact hdeclared _ _ h.rules
  | some format =>
    refine Agree.bind (R := Rules.Rearranges) ?_ hdeclared
    have hrule : Rules.AreRearranged [⟨.format format, none⟩] [⟨.format format, none⟩] :=
      .of_forall₂ (.cons (.same _) .nil)
    rw [agree_iff]
    simp only [Rules.add_eq_ok_iff, ← h.rules.kinds_perm.mem_iff]
    constructor
    · rintro _ ⟨hnew, rfl⟩
      exact ⟨_, ⟨hnew, rfl⟩, h.rules.rearranged.append hrule, Rules.nodup_kinds_add h.rules.distinct hnew⟩
    · rintro _ ⟨hnew, rfl⟩
      exact ⟨_, hnew, rfl⟩

/-- Letting the exclusive flags change the bounds. -/
theorem linkBounds (h : header.Rearranges header') : header.linkBounds.Rearranges header'.linkBounds := by
  unfold Header.linkBounds
  simp only [h.rules.flag_eq]
  refine h.change fun c => ?_
  cases c <;> constructor

theorem isConstant_eq (h : header.Rearranges header') : header.isConstant = header'.isConstant := by
  rw [isConstant, isConstant, h.rules.constraint?_eq (by decide)]

/-- Taking a constant from the sample. -/
theorem agree_fillConstant (h : header.Rearranges header') {sample? sample?' : Option Mark}
    (hsample : sample?.map Mark.bytes = sample?'.map Mark.bytes) :
    Agree Header.Rearranges (header.fillConstant sample?) (header'.fillConstant sample?') := by
  cases sample? with
  | none =>
    cases sample?' with
    | none => exact h
    | some => cases hsample
  | some sample =>
    cases sample?' with
    | none => cases hsample
    | some sample' =>
      have hbytes : sample.bytes = sample'.bytes := Option.some.inj hsample
      rw [fillConstant, fillConstant, h.isConstant_eq, hbytes]
      dsimp only
      split
      · refine Agree.bind (R := Eq) ?_ fun key _ hkey => ?_
        · cases LiteralKey.ofBytes sample'.bytes <;> trivial
        · subst hkey
          refine h.change fun c => ?_
          cases c <;> constructor
      · exact h

/-- **Applying rules to a header.** -/
theorem agree_apply (h : header.Rearranges header') {sample? sample?' : Option Mark}
    (hsample : sample?.map Mark.bytes = sample?'.map Mark.bytes) {added added' : List Rule}
    (hadded : Rules.AreRearranged added added') :
    Agree (fun changed changed' : Header => changed.Rearranges changed' ∧ Rules.Rearranges added added')
      (header.apply sample? added) (header'.apply sample?' added') := by
  rw [apply_eq, apply_eq]
  refine (h.agree_addRules hadded).bind fun changed changed' hadds => ?_
  obtain ⟨hchanged, hrules⟩ := hadds
  rw [hrules.builtinOf?_eq]
  refine Agree.bind (R := Header.Rearranges) ?_ fun declared declared' hdeclared => ?_
  · split
    · exact hchanged.agree_declare _
    · exact hchanged
  · exact (hdeclared.linkBounds.agree_fillConstant hsample).mono fun _ _ hfilled => ⟨hfilled, hrules⟩

/-- Noting that a note describes a node. -/
theorem agree_annotate (h : header.Rearranges header') (note note' : Mark) (comment? : Option String) :
    Agree Header.Rearranges (header.annotate note comment?) (header'.annotate note' comment?) := by
  rw [annotate, annotate, h.isAnnotated]
  split
  · trivial
  · exact ⟨h.jsonType, h.declared, h.rules, rfl, rfl⟩

end Rearranges
end Header

/-! ## Nodes -/

namespace Node

variable {node changed : Node} {added : List Rule}

theorem nodup_of_apply_eq_ok (h : node.rules.kinds.Nodup) (happly : node.apply added = .ok changed) :
    (Rules.kinds added).Nodup := by
  obtain ⟨header, hheader, -⟩ := Except.bind_eq_ok_iff.1 happly
  exact Header.nodup_of_apply_eq_ok h hheader

theorem nodup_of_annotate_eq_ok (h : node.rules.kinds.Nodup) {note : Mark} {comment? : Option String}
    (hchanged : node.annotate note comment? added = .ok changed) : (Rules.kinds added).Nodup := by
  obtain ⟨header, hheader, happly⟩ := Except.bind_eq_ok_iff.1 hchanged
  refine nodup_of_apply_eq_ok ?_ happly
  rwa [rules, header_withHeader, Header.rules_of_annotate_eq_ok hheader]

end Node

namespace Node.Rearranges

variable {node node' : Node}

theorem withHeader (h : node.Rearranges node') {header header' : Header} (hheader : header.Rearranges header') :
    (node.withHeader header).Rearranges (node'.withHeader header') := by
  cases h using Node.Aligns.elim with
  | literal _ hsample => exact .literal hheader hsample
  | mixed _ hsample => exact .mixed hheader hsample
  | reference _ hnames => exact .reference hheader hnames
  | array _ hitems => exact .of_items hheader hitems
  | object _ hdistinct hproperties => exact .of_properties hheader hdistinct hproperties

theorem map_bytes_sample?_eq (h : node.Rearranges node') :
    node.sample?.map Mark.bytes = node'.sample?.map Mark.bytes := by
  cases h with
  | literal _ hsample | mixed _ hsample => exact hsample
  | reference | array | object => rfl

/-- **Applying rules to a node.** -/
theorem agree_apply (h : node.Rearranges node') {added added' : List Rule}
    (hadded : Rules.AreRearranged added added') :
    Agree Node.Rearranges (node.apply added) (node'.apply added') := by
  rw [apply, apply]
  refine (h.header.agree_apply h.map_bytes_sample?_eq hadded).bind fun header header' happlied => ?_
  obtain ⟨hheader, hrules⟩ := happlied
  have hall := h
  cases h using Node.Aligns.elim with
  | literal _ hsample =>
    dsimp only
    rw [hheader.rules.has_eq, hrules.builtinOf?_eq, hrules.namesUserType_eq]
    split
    · exact .mixed (hheader.withJsonType .mixed) hsample
    split
    · exact .mixed hheader hsample
    · exact .literal hheader hsample
  | mixed | reference | array | object => exact hall.withHeader hheader

/-- **Describing a node by a note.** -/
theorem agree_annotate (h : node.Rearranges node') (note note' : Mark) (comment? : Option String)
    {added added' : List Rule} (hadded : Rules.AreRearranged added added') :
    Agree Node.Rearranges (node.annotate note comment? added) (node'.annotate note' comment? added') :=
  (h.header.agree_annotate note note' comment?).bind fun _ _ hheader => (h.withHeader hheader).agree_apply hadded

end Node.Rearranges
end ExampleSchema
