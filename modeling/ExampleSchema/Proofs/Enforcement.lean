import ExampleSchema.Proofs.Accept.Levels
import ExampleSchema.Proofs.Declarations
import ExampleSchema.Proofs.Json.Literals
import ExampleSchema.Proofs.References

/-!
# No rule is ignored

A rule stands at a node only if it suits the JSON type of the node, but it is the shape of the node that
says whether validation looks at it: literals are held to the rules on content, arrays to those on the
number of items.  A node that is typed as it is written has the shape for its rules, so whatever it accepts
keeps each of them.  Nodes that leave their type open accept everything, and their rules with it.

* `Value.Keeps`: what a rule asks of a value.
* `Node.IsTypedAsWritten`: an object has the JSON type of objects, an array that of arrays.
* `Node.keeps_of_acceptSelf`: what a node itself describes keeps its rules.
* `Session.Arises.keeps_of_accept`: what a node of a compiled schema accepts keeps its rules.
* `Session.empty_ignored`: a node of an open type does not hold values to its rules.
-/

namespace ExampleSchema

/-! ## What rules ask -/

/-- A value keeps a rule: it is a literal with the content that the rule asks for, or an array with a
number of items that the rule allows.  Other rules say nothing about a single value. -/
def Value.Keeps (v : Value) (c : Constraint) : Prop :=
  match c with
  | .min _ | .max _ | .precision _ | .minLength _ | .maxLength _ | .regex _ | .enum _ | .format _
  | .const true (some _) => ∃ mark, v = .literal mark ∧ c.IsKept mark.bytes
  | .minItems least => ∃ mark items, v = .array mark items ∧ least ≤ items.length
  | .maxItems most => ∃ mark items, v = .array mark items ∧ items.length ≤ most
  | _ => True

/-- A literal that a check passes keeps every rule but those on items. -/
theorem Value.keeps_literal {mark : Mark} {c : Constraint} (hcheck : c.IsKept mark.bytes)
    (hmin : c.kind ≠ .minItems) (hmax : c.kind ≠ .maxItems) : (Value.literal mark).Keeps c := by
  unfold Keeps
  split
  iterate 9 exact ⟨mark, rfl, hcheck⟩
  · exact (hmin rfl).elim
  · exact (hmax rfl).elim
  · trivial

/-- Rules that suit objects ask nothing of a single value. -/
theorem Value.keeps_of_suits_object {v : Value} {c : Constraint}
    (h : c.kind.suits .object = true) : v.Keeps c := by
  cases c with
  | type | types | or | optional | nullable | allOf | additionalProperties => trivial
  | exclusiveMinimum | exclusiveMaximum => trivial
  | min | max | minLength | maxLength | regex | format | minItems | maxItems | precision | const | enum =>
    cases h

/-- Rules that suit arrays ask for a number of items. -/
theorem Value.keeps_of_suits_array {mark : Mark} {items : List Value} {c : Constraint}
    (h : c.kind.suits .array = true) (hmin : ∀ least, c = .minItems least → least ≤ items.length)
    (hmax : ∀ most, c = .maxItems most → items.length ≤ most) : (Value.array mark items).Keeps c := by
  cases c with
  | type | types | or | optional | nullable => trivial
  | exclusiveMinimum | exclusiveMaximum => trivial
  | minItems least => exact ⟨mark, items, rfl, hmin least rfl⟩
  | maxItems most => exact ⟨mark, items, rfl, hmax most rfl⟩
  | min | max | minLength | maxLength | regex | format | precision | const | enum | allOf
  | additionalProperties => cases h

/-! ## What a node enforces -/

namespace Rules

variable {rules : Rules}

theorem count?_of_constraint?_minItems {least : Nat}
    (h : rules.constraint? .minItems = some (.minItems least)) : rules.count? .minItems = some least := by
  rw [count?, h]

theorem count?_of_constraint?_maxItems {most : Nat}
    (h : rules.constraint? .maxItems = some (.maxItems most)) : rules.count? .maxItems = some most := by
  rw [count?, h]

end Rules

namespace Node

variable {types : Registry} {node : Node} {v : Value} {levels : Nat}

/-- An object has the JSON type of objects, and an array that of arrays: no rule declares another type. -/
def IsTypedAsWritten : Node → Prop
  | object header _ => header.jsonType = .object
  | array header _ => header.jsonType = .array
  | _ => True

/-- A node without parts that accepts a literal has not the JSON type of arrays. -/
theorem jsonType_ne_array_of_acceptLiteral {mark : Mark} (hstated : node.IsStated)
    (hshape : (∃ header sample?, node = .literal header sample?) ∨
      ∃ header sample?, node = .mixed header sample?)
    (hliteral : IsLiteral mark.bytes) (h : node.acceptLiteral (.literal mark) = .ok ()) :
    node.jsonType ≠ .array := by
  intro harray
  obtain ⟨type, htype, hkind⟩ := hliteral.exists_jsonType
  rcases (acceptLiteral_eq_ok_iff.1 h).1 with hopen | hfits
  · rw [isOfOpenType, harray, Bool.or_eq_true, beq_iff_eq, beq_iff_eq] at hopen
    have hdeclared : node.header.declared? = some .enum := hopen.resolve_left nofun
    have hown : node.HasOwnType := hstated.own fun type htype => by
      obtain rfl := Option.some.inj (hdeclared.symm.trans htype)
      rfl
    rcases hshape with ⟨header, sample?, rfl⟩ | ⟨header, sample?, rfl⟩
    all_goals
      rw [HasOwnType, show header.jsonType = .array from harray] at hown
      rcases hown with hown | hown <;> cases hown
  · rw [Value.jsonType, htype, harray] at hfits
    cases type with
    | array | object | mixed => cases hkind
    | string | integer | float | boolean | null => cases hfits

/-- **What a node itself describes keeps its rules**, if they suit the node and the node is typed as it is
written. -/
theorem keeps_of_acceptSelf (hregular : node.IsRegular) (hstated : node.IsStated)
    (hnames : node.rules.typeNames = []) (hwritten : node.IsTypedAsWritten)
    (hsuited : ∀ r ∈ node.rules, r.kind.suits node.jsonType = true) (hv : v.IsProper)
    {visit : Node → Value → Outcome Unit} (h : node.acceptSelf types visit v = .ok ()) {r : Rule}
    (hr : r ∈ node.rules) : v.Keeps r.constraint := by
  have hkind := hsuited r hr
  have hliteral : ((∃ header sample?, node = .literal header sample?) ∨
      ∃ header sample?, node = .mixed header sample?) → node.acceptLiteral v = .ok () →
        v.Keeps r.constraint := by
    intro hshape h
    cases hv with
    | array | object => cases h
    | @literal mark hmark =>
      have hnot := jsonType_ne_array_of_acceptLiteral hstated hshape hmark h
      refine Value.keeps_literal ((acceptLiteral_eq_ok_iff.1 h).2 r hr) ?_ ?_
      all_goals
        intro hitems
        rw [Rule.kind, hitems, ConstraintKind.suits, beq_iff_eq] at hkind
        exact hnot hkind
  cases node with
  | literal header sample? => exact hliteral (Or.inl ⟨header, sample?, rfl⟩) h
  | mixed header sample? => exact hliteral (Or.inr ⟨header, sample?, rfl⟩) h
  | reference header names =>
    obtain ⟨hne, hmem⟩ := hregular.names header names rfl
    obtain ⟨name, hname⟩ := List.exists_mem_of_ne_nil names hne
    have hname := hmem name hname
    rw [hnames] at hname
    cases hname
  | object header properties =>
    rw [jsonType, Node.header, show header.jsonType = .object from hwritten] at hkind
    exact Value.keeps_of_suits_object hkind
  | array header samples =>
    rw [jsonType, Node.header, show header.jsonType = .array from hwritten] at hkind
    cases v with
    | literal | object => cases h
    | array mark items =>
      have haccept : acceptItems header samples visit (.array mark items) = .ok () := h
      have hcount : header.AllowsCount items.length :=
        Classical.byContradiction fun hnot => acceptItems_ne_ok hnot haccept
      refine Value.keeps_of_suits_array hkind (fun least hc => ?_) fun most hc => ?_
      · have hleast := (Rules.constraint?_eq_some_iff hregular.nodup).2 ⟨r, hr, hc, rfl⟩
        exact hcount.1 least (Rules.count?_of_constraint?_minItems hleast)
      · have hmost := (Rules.constraint?_eq_some_iff hregular.nodup).2 ⟨r, hr, hc, rfl⟩
        exact hcount.2 most (Rules.count?_of_constraint?_maxItems hmost)

end Node

/-! ## Compiled schemas -/

namespace Session

/-- **No rule is ignored.**  What a node of a compiled schema accepts keeps each rule of the node, if the
node refers to no types, declares no type that leaves everything open and is typed as it is written, and if
the value is not the `null` of a nullable node. -/
theorem Arises.keeps_of_accept {s : Session} (hs : s.Arises) {schema : Schema}
    (h : s.compiled = .ok schema) {node : Node} (hnode : node ∈ schema.nodes)
    (hnames : node.rules.typeNames = [])
    (hdeclared : node.header.declared? ≠ some .any ∧ node.header.declared? ≠ some .mixed)
    (hwritten : node.IsTypedAsWritten) {levels : Nat} {v : Value} (hv : v.IsProper)
    (haccept : schema.types.accept levels node v = .ok ())
    (hnull : ¬ (v.isNull = true ∧ node.isNullable = true)) :
    ∀ r ∈ node.rules, v.Keeps r.constraint := by
  intro r hr
  have hsuited := (Registry.checkNode_eq_ok_iff.1 (hs.checkNode_eq_ok h hnode)).1
  cases levels with
  | zero => cases haccept
  | succ levels =>
    have hanyway : ¬ node.AcceptsAnyway v := by
      rintro (hisNull | ⟨type, htype, hopen⟩)
      · exact hnull hisNull
      · rcases BuiltinType.eq_of_isUnrestricted hopen with rfl | rfl
        · exact hdeclared.1 htype
        · exact hdeclared.2 htype
    rw [accept_eq_acceptSelf hanyway hnames] at haccept
    exact node.keeps_of_acceptSelf (hs.isRegular h hnode) (hs.isStated h hnode) hnames hwritten
      (Node.checkSuited_eq_ok_iff.1 hsuited) hv (Except.mapError_eq_ok_iff.1 haccept) hr

/-- A node refers to no types and asks for an item. -/
def asksForItem (node : Node) : Bool :=
  node.rules.typeNames.isEmpty && node.rules.any fun r =>
    match r.constraint with
    | .minItems 1 => true
    | _ => false

theorem exists_of_asksForItem {node : Node} (h : asksForItem node = true) :
    node.rules.typeNames = [] ∧ ∃ r ∈ node.rules, r.constraint = .minItems 1 := by
  obtain ⟨hnames, hrule⟩ := Bool.and_eq_true_iff.1 h
  obtain ⟨r, hr, hc⟩ := List.any_eq_true.1 hrule
  refine ⟨List.isEmpty_iff.1 hnames, r, hr, ?_⟩
  split at hc
  · next hc' => exact hc'
  · cases hc

/-- Whether the root of a schema is an array without a declared type that asks for an item and accepts a
value. -/
def listAccepts : Schema × Value → Bool
  | (⟨.array header items, types⟩, value) =>
    asksForItem (.array header items) && header.declared?.isNone && header.jsonType == .array &&
      !value.isNull && (types.accept 2 (.array header items) value).isOk
  | _ => false

/-- A list that has to have an item accepts lists that have one. -/
theorem keeps_of_list : ∃ schema value, (ofText "[1] // \x7bminItems: 1\x7d").compiled = .ok schema ∧
    Value.parse (.ofString "value" "[2, 3]") = .ok value ∧
    schema.types.accept 2 schema.root value = .ok () ∧
    (∃ r ∈ schema.root.rules, r.constraint = .minItems 1) ∧
    ∀ r ∈ schema.root.rules, value.Keeps r.constraint := by
  obtain ⟨schema, value, hcompiled, hparse, htest⟩ := exists_of_compiledWith?
    (show (compiledWith? "[1] // \x7bminItems: 1\x7d" "[2, 3]").any listAccepts = true by decide +kernel)
  unfold listAccepts at htest
  split at htest
  · next header items types value htuple =>
    obtain ⟨rfl, rfl⟩ := Prod.mk.inj htuple
    simp only [Bool.and_eq_true, beq_iff_eq, Option.isNone_iff_eq_none, Bool.not_eq_true'] at htest
    obtain ⟨⟨⟨⟨hasks, hdeclared⟩, htype⟩, hnull⟩, haccept⟩ := htest
    have haccept := isOk_iff.1 haccept
    obtain ⟨hnames, hrule⟩ := exists_of_asksForItem hasks
    have hnode : Node.array header items ∈ Schema.nodes ⟨.array header items, types⟩ :=
      Schema.mem_nodes_of_mem_roots (List.mem_cons_self ..)
    refine ⟨_, value, hcompiled, hparse, haccept, hrule, ?_⟩
    exact (arises_ofText _).keeps_of_accept hcompiled hnode hnames (by simp [Node.header, hdeclared]) htype
      (Value.isProper_of_parse_eq_ok hparse) haccept (by simp [hnull])
  · cases htest

/-- Whether the root of a schema asks for an item and accepts a value that is a list without items. -/
def acceptsNothing : Schema × Value → Bool
  | (schema, .array mark []) => asksForItem schema.root && (schema.accept (.array mark [])).isOk
  | _ => false

/-- A list that may be any value, and that has to have an item, accepts the list without items. -/
theorem empty_ignored : ∃ schema mark r,
    (ofText "[] // \x7btype: \"any\", minItems: 1\x7d").compiled = .ok schema ∧
    Value.parse (.ofString "value" "[]") = .ok (.array mark []) ∧
    schema.root.rules.typeNames = [] ∧ schema.accept (.array mark []) = .ok () ∧
    r ∈ schema.root.rules ∧ ¬ (Value.array mark []).Keeps r.constraint := by
  obtain ⟨schema, value, hcompiled, hparse, htest⟩ := exists_of_compiledWith?
    (show (compiledWith? "[] // \x7btype: \"any\", minItems: 1\x7d" "[]").any acceptsNothing = true by
      decide +kernel)
  unfold acceptsNothing at htest
  split at htest
  · next schema mark htuple =>
    obtain ⟨rfl, rfl⟩ := Prod.mk.inj htuple
    obtain ⟨hasks, haccept⟩ := Bool.and_eq_true_iff.1 htest
    obtain ⟨hnames, r, hr, hc⟩ := exists_of_asksForItem hasks
    refine ⟨schema, mark, r, hcompiled, hparse, hnames, isOk_iff.1 haccept, hr, ?_⟩
    rw [hc]
    rintro ⟨mark', items, hitems, hcount⟩
    obtain ⟨-, rfl⟩ := Value.array.inj hitems
    exact Nat.not_succ_le_zero 0 hcount
  · cases htest

end Session

end ExampleSchema
