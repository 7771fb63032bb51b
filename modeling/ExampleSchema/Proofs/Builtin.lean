import ExampleSchema.Proofs.Accept.Levels
import ExampleSchema.Proofs.Json.Writing
import ExampleSchema.Proofs.Load.Nodes
import ExampleSchema.Proofs.Session

/-!
# Where the name of a built-in type stands

The name of a built-in type may stand in a union and in a rule on other members of an object.  In a union it
becomes a node, which is validated like any node; in the rule it stays a name, and values are compared with the
type.  The node of an object has no properties and that of an `enum` is a literal, so there the two differ.

* `BuiltinType.member`: the node that a name in a union becomes, and `RuleValue.unionNames_builtin`.
* `RuleValue.additional_builtin`: what the name says of other members.
* `BuiltinType.Differs`: the values that are of a type, but not as a union has it.
* `Registry.accept_member_iff`, `Properties.acceptOther_builtin_iff`: what the two accept.
* `BuiltinType.agrees_iff`: they accept the same, but for these values.
-/

namespace ExampleSchema

/-! ## What the name becomes -/

/-- The rules of a union member that is the name of a built-in type: the type, and the format that it implies. -/
def BuiltinType.memberRules (type : BuiltinType) (mark : Mark) : Rules :=
  ⟨.type (.builtin type), some mark⟩ :: type.format?.toList.map fun format => ⟨.format format, none⟩

/-- The node of such a union member. -/
def BuiltinType.member (type : BuiltinType) (mark : Mark) : Node :=
  let node := RuleValue.memberNode (.builtin type) mark
  node.withHeader { node.header with declared? := some type, rules := type.memberRules mark }

namespace RuleValue

variable {type : BuiltinType} {mark : Mark}

/-- Declaring the type makes the node of the name. -/
theorem apply_memberNode (type : BuiltinType) (mark : Mark) :
    (memberNode (.builtin type) mark).apply [{ constraint := .type (.builtin type), mark? := some mark }] =
      .ok (type.member mark) := by
  cases type <;> rfl

/-- No type of the user has the name of a built-in type. -/
theorem isUserTypeName_builtin (type : BuiltinType) : isUserTypeName type.name = false := by
  cases type <;> decide

/-- **The name of a built-in type in a union** is registered as the node of the name. -/
theorem unionNames_builtin (hname : Literal.string mark.bytes = .ok type.name) (rule : String) (u : Unnamed)
    (span : Mark) : (array span [.literal mark]).unionNames rule u =
      .ok ([(u.register (type.member mark) mark.start).1], (u.register (type.member mark) mark.start).2) := by
  have hmember : memberOfName u mark = .ok (u.register (type.member mark) mark.start) := by
    rw [memberOfName, hname]
    change (if isUserTypeName type.name then _ else _) = _
    rw [isUserTypeName_builtin, BuiltinType.ofName?_name]
    dsimp only
    rw [apply_memberNode]
    rfl
  rw [unionNames, List.isEmpty_cons, if_neg Bool.false_ne_true, memberNames, memberNamesOf,
    if_pos (by rw [Literal.isString, Literal.jsonType_of_string_eq_ok hname]; rfl), hmember]
  rfl

/-- **The name of a built-in type in a rule on other members** says that they are of the type. -/
theorem additional_builtin (hname : Literal.string mark.bytes = .ok type.name) :
    (literal mark).additional = .ok (Additional.ofName type.name) := by
  have htrim := Literal.string_trim hname
  change Verdict.anywhere (Additional.read mark.bytes) = _
  rw [Additional.read]
  simp only [Literal.jsonType_of_string_eq_ok htrim, htrim]
  rfl

end RuleValue

theorem Unnamed.root?_register (u : Unnamed) (node : Node) (start : Nat) :
    (u.register node start).2.types.root? (u.register node start).1 = some node := by
  rw [register, Registry.root?]
  dsimp only
  rw [Catalog.find?_insert, if_pos (beq_self_eq_true _)]
  rfl

/-- Compiling leaves the node of a name as it is. -/
theorem BuiltinType.resolveEnums_member (type : BuiltinType) (mark : Mark) (rules : EnumRules) :
    (type.member mark).resolveEnums rules = .ok (type.member mark) := by
  cases type <;> rfl

theorem BuiltinType.expand_member (type : BuiltinType) (mark : Mark) (types : Registry) (levels : Nat) :
    (type.member mark).expand types (levels + 1) = .ok (type.member mark) := by
  cases type <;> rfl

/-! ## What is accepted -/

namespace Value.IsProper

variable {v : Value}

/-- The type of a literal is none of those of containers. -/
theorem fits_eq_false {mark : Mark} (h : (Value.literal mark).IsProper) {container : JsonType}
    (hcontainer : container = .array ∨ container = .object) :
    (Value.literal mark).jsonType.fits container = false := by
  have hliteral := h.isLiteral_jsonType
  generalize (Value.literal mark).jsonType = type at hliteral ⊢
  cases type with
  | array | object | mixed => cases hliteral
  | string | integer | float | boolean | null => rcases hcontainer with rfl | rfl <;> rfl

/-- Of proper values only arrays are of the type of arrays. -/
theorem fits_array_iff (h : v.IsProper) : v.jsonType.fits .array = true ↔ ∃ mark items, v = .array mark items := by
  cases v with
  | literal mark =>
    rw [h.fits_eq_false (Or.inl rfl)]
    exact iff_of_false Bool.false_ne_true nofun
  | array mark items => exact iff_of_true rfl ⟨mark, items, rfl⟩
  | object => exact iff_of_false nofun nofun

/-- Only objects are of the type of objects. -/
theorem fits_object_iff (h : v.IsProper) :
    v.jsonType.fits .object = true ↔ ∃ mark members, v = .object mark members := by
  cases v with
  | literal mark =>
    rw [h.fits_eq_false (Or.inr rfl)]
    exact iff_of_false Bool.false_ne_true nofun
  | array => exact iff_of_false nofun nofun
  | object mark members => exact iff_of_true rfl ⟨mark, members, rfl⟩

end Value.IsProper

/-- The values that are of a built-in type, but are refused by a union member that is the name of the type. -/
inductive BuiltinType.Differs : BuiltinType → Value → Prop
  /-- The node of an object has no properties. -/
  | object {mark : Mark} {members : List (String × Mark × Value)} (h : members ≠ []) :
    Differs .object (.object mark members)
  /-- The node of an `enum` is a literal. -/
  | enumArray (mark : Mark) (items : List Value) : Differs .enum (.array mark items)
  | enumObject (mark : Mark) (members : List (String × Mark × Value)) : Differs .enum (.object mark members)

namespace BuiltinType

variable {types : Registry} {levels : Nat} {type : BuiltinType} {mark : Mark} {v : Value}

/-- These values are of the type. -/
theorem Differs.admits (h : type.Differs v) : type.Admits v := by
  cases h with
  | object => exact Or.inr ⟨Or.inr rfl, nofun⟩
  | enumArray | enumObject => exact Or.inr ⟨Or.inl rfl, nofun⟩

theorem typeNames_member (type : BuiltinType) (mark : Mark) : (type.member mark).rules.typeNames = [] := by
  cases type <;> rfl

theorem children_member (type : BuiltinType) (mark : Mark) : (type.member mark).children = [] := by
  cases type <;> rfl

theorem additionalProperties_member (type : BuiltinType) (mark : Mark) :
    (type.member mark).rules.constraint? .additionalProperties = none := by
  cases type <;> rfl

/-- A member of an unrestricted type accepts everything. -/
theorem acceptsAnyway_member_iff : (type.member mark).AcceptsAnyway v ↔ type.isUnrestricted = true := by
  have hnullable : (type.member mark).isNullable = false := by cases type <;> rfl
  have hdeclared : (type.member mark).header.declared? = some type := by cases type <;> rfl
  simp [Node.AcceptsAnyway, hnullable, hdeclared]

theorem admits_array_iff : BuiltinType.array.Admits v ↔ v.jsonType.fits .array = true := by
  simp [Admits, isUnrestricted, jsonType, format?]

theorem admits_object_iff : BuiltinType.object.Admits v ↔ v.jsonType.fits .object = true := by
  simp [Admits, isUnrestricted, jsonType, format?]

theorem not_differs_literal {m : Mark} : ¬ type.Differs (.literal m) := nofun

/-- The node of an array takes any items. -/
theorem describes_array_iff (hv : v.IsProper) :
    types.Describes (BuiltinType.array.member mark) v ↔ BuiltinType.array.Admits v := by
  rw [admits_array_iff, hv.fits_array_iff]
  cases v with
  | literal | object => exact iff_of_false id nofun
  | array mark items => exact iff_of_true ⟨⟨nofun, nofun⟩, fun hsamples => (hsamples rfl).elim⟩ ⟨mark, items, rfl⟩

/-- The node of an object takes the empty object. -/
theorem describes_object_iff (hv : v.IsProper) :
    types.Describes (BuiltinType.object.member mark) v ↔
      BuiltinType.object.Admits v ∧ ¬ BuiltinType.object.Differs v := by
  rw [admits_object_iff, hv.fits_object_iff]
  cases v with
  | literal | array => exact iff_of_false id nofun
  | object m members =>
    have hlet : ∀ member : String × Mark × Value, ¬ types.IsLet (BuiltinType.object.member mark).header [] member := by
      intro member hlet
      rcases Registry.admits_iff.1 (hlet rfl) with ⟨node, ⟨before, key, after, hproperties, -⟩, -⟩ | ⟨-, hadditional⟩
      · cases (List.append_eq_nil_iff.1 hproperties.symm).2
      · exact hadditional
    constructor
    · rintro ⟨-, hmembers⟩
      refine ⟨⟨m, members, rfl⟩, fun hdiffers => ?_⟩
      cases hdiffers with
      | object hne =>
        obtain ⟨member, hmember⟩ := List.exists_mem_of_ne_nil members hne
        exact hlet member (hmembers member hmember)
    · rintro ⟨-, hsame⟩
      have hnil : members = [] := Classical.byContradiction fun hne => hsame (.object hne)
      subst hnil
      exact ⟨nofun, nofun⟩

/-- The nodes of all other restricted types are literals. -/
theorem member_eq_literal (hopen : type.isUnrestricted = false) (hobject : type ≠ .object) (harray : type ≠ .array)
    (mark : Mark) : type.member mark = .literal
      { jsonType := type.jsonType, declared? := some type, rules := type.memberRules mark, basis := mark } none := by
  cases type <;> first | rfl | contradiction

/-- Of the literals they take those of the type. -/
theorem describes_literal_iff (hopen : type.isUnrestricted = false) (hobject : type ≠ .object)
    (harray : type ≠ .array) : types.Describes (type.member mark) v ↔ type.Admits v ∧ ¬ type.Differs v := by
  have hmixed : type.jsonType = .mixed ↔ type = .enum := by
    cases type <;> first | decide | cases hopen
  have hcontainer : ∀ container, container = JsonType.array ∨ container = .object →
      container.fits type.jsonType = false := by
    rintro container (rfl | rfl) <;> cases type <;> first | rfl | contradiction
  rw [member_eq_literal hopen hobject harray, Admits, hopen, or_iff_right Bool.false_ne_true]
  cases v with
  | literal m =>
    rw [and_iff_left not_differs_literal, Registry.Describes, Node.DescribesLiteral]
    refine and_congr ?_ ?_
    · rw [Node.isOfOpenType, Bool.or_eq_true, beq_iff_eq, beq_iff_eq]
      change (type.jsonType = .mixed ∨ some type = some .enum) ∨ _ ↔ _
      rw [Option.some.injEq, hmixed, or_self]
      rfl
    · change (∀ r ∈ type.memberRules mark, _) ↔ _
      have htype : (Constraint.type (.builtin type)).IsKept m.bytes := rfl
      rw [memberRules, List.forall_mem_cons, and_iff_right htype]
      cases type.format? with
      | none => simp
      | some format =>
        simp only [Option.toList_some, List.map_singleton, List.forall_mem_singleton, Option.mem_def,
          Option.some.injEq, forall_eq']
        exact Format.check_stringValue_eq_ok_iff
  | array m items =>
    refine iff_of_false id ?_
    rintro ⟨⟨htype, -⟩, hsame⟩
    rcases htype with htype | hfits
    · obtain rfl := hmixed.1 htype
      exact hsame (.enumArray m items)
    · exact Bool.false_ne_true ((hcontainer .array (Or.inl rfl)).symm.trans hfits)
  | object m members =>
    refine iff_of_false id ?_
    rintro ⟨⟨htype, -⟩, hsame⟩
    rcases htype with htype | hfits
    · obtain rfl := hmixed.1 htype
      exact hsame (.enumObject m members)
    · exact Bool.false_ne_true ((hcontainer .object (Or.inr rfl)).symm.trans hfits)

/-- **A union member that is the name of a built-in type** accepts the values of the type, but for some objects
and arrays. -/
theorem accept_member_iff (types : Registry) (levels : Nat) (mark : Mark) (hv : v.IsProper) :
    types.accept (levels + 1) (type.member mark) v = .ok () ↔ type.Admits v ∧ ¬ type.Differs v := by
  have hvisits : types.VisitsWithin levels (type.member mark, v) := by
    refine Registry.VisitsWithin.mono (Registry.visitsWithin_zero_iff.2 fun y => ?_) (Nat.zero_le levels)
    exact Registry.not_visits (type.typeNames_member mark) (type.children_member mark)
      (type.additionalProperties_member mark)
  rw [ExampleSchema.accept_eq_ok_iff hvisits, Registry.accepts_iff, acceptsAnyway_member_iff, typeNames_member]
  have hnone : ¬ ∃ name ∈ ([] : List String), ∃ root ∈ types.root? name, types.Accepts root v := nofun
  rw [or_iff_right hnone, and_iff_right rfl]
  by_cases hopen : type.isUnrestricted = true
  · refine iff_of_true (Or.inl hopen) ⟨Or.inl hopen, fun hdiffers => ?_⟩
    cases hdiffers <;> cases hopen
  · rw [or_iff_right hopen]
    by_cases hobject : type = .object
    · subst hobject
      exact describes_object_iff hv
    by_cases harray : type = .array
    · subst harray
      rw [describes_array_iff hv, and_iff_left (by nofun)]
    exact describes_literal_iff (Bool.eq_false_iff.2 hopen) hobject harray

/-- **A rule on other members** that is the name of a built-in type accepts the values of the type. -/
theorem acceptOther_builtin_iff {visit : Node → Value → Outcome Unit} {header : Header} {properties : Properties}
    {name : String} (hrule : header.rules.constraint? .additionalProperties =
      some (.additionalProperties (Additional.ofName type.name)))
    (hnone : properties.shortcut? types visit name = none) :
    properties.acceptOther header types visit name v = .ok true ↔ type.Admits v := by
  rw [Properties.acceptOther, hnone, hrule, Additional.ofName, ofName?_name]
  cases type with
  | any => exact iff_of_true rfl (Or.inl rfl)
  | _ => exact do_eq_ok_true_iff.trans accept_eq_ok_iff

/-- **The name of a built-in type in a union and in a rule on other members.**  The union registers a type, which
compiling leaves as it is, and the rule is read; and a value is accepted by both or by neither, unless it is an
object with members and the type is that of objects, or an object or an array and the type is `enum`. -/
theorem agrees_iff (type : BuiltinType) {mark mark' : Mark} (hname : Literal.string mark.bytes = .ok type.name)
    (hname' : Literal.string mark'.bytes = .ok type.name) (rule : String) (u : Unnamed) (span : Mark) :
    ∃ name u' root allowed,
      (RuleValue.array span [.literal mark]).unionNames rule u = .ok ([name], u') ∧
      u'.types.root? name = some root ∧ (∀ rules, root.resolveEnums rules = .ok root) ∧
      (∀ types levels, root.expand types (levels + 1) = .ok root) ∧
      (RuleValue.literal mark').additional = .ok allowed ∧
      ∀ (types : Registry) (levels : Nat) (visit : Node → Value → Outcome Unit) (header : Header)
        (properties : Properties) (key : String) (v : Value), v.IsProper →
        header.rules.constraint? .additionalProperties = some (.additionalProperties allowed) →
        properties.shortcut? types visit key = none →
        ((types.accept (levels + 1) root v = .ok () ↔
          properties.acceptOther header types visit key v = .ok true) ↔ ¬ type.Differs v) := by
  refine ⟨_, _, type.member mark, _, RuleValue.unionNames_builtin hname rule u span, u.root?_register _ _,
    type.resolveEnums_member mark, type.expand_member mark, RuleValue.additional_builtin hname', ?_⟩
  intro types levels visit header properties key v hv hrule hnone
  rw [accept_member_iff types levels mark hv, acceptOther_builtin_iff hrule hnone]
  constructor
  · exact fun hsame hdiffers => (hsame.2 hdiffers.admits).2 hdiffers
  · exact fun hsame => and_iff_left hsame

/-- The mark of a text. -/
def markOf (text : String) : Mark :=
  let source := Source.ofString "root" text
  ⟨source, .closing .literal, 0, source.content.length⟩

/-- An object whose other members are of a built-in type. -/
def openTo (type : BuiltinType) : Header where
  jsonType := .object
  rules := [⟨.additionalProperties (.builtin type), none⟩]
  basis := markOf "\x7b\x7d"

/-- The word `true` is a boolean in both places. -/
theorem agrees_boolean : ∃ name u' root allowed,
    (RuleValue.array (markOf "[\"boolean\"]") [.literal (markOf "\"boolean\"")]).unionNames "or"
      ⟨.ofString "root" "", "root", []⟩ = .ok ([name], u') ∧ u'.types.root? name = some root ∧
    (RuleValue.literal (markOf "\"boolean\"")).additional = .ok allowed ∧
    (openTo .boolean).rules.constraint? .additionalProperties = some (.additionalProperties allowed) ∧
    ((Registry.accept [] 1 root (.literal (markOf "true")) = .ok () ↔
      Properties.acceptOther [] (openTo .boolean) [] (Registry.accept [] 0) "k" (.literal (markOf "true")) = .ok true) ↔
        ¬ BuiltinType.boolean.Differs (.literal (markOf "true"))) := by
  have hname : Literal.string (markOf "\"boolean\"").bytes = .ok BuiltinType.boolean.name := by decide +kernel
  obtain ⟨name, u', root, allowed, hunion, hroot, -, -, hadditional, hagrees⟩ :=
    BuiltinType.boolean.agrees_iff hname hname "or" ⟨.ofString "root" "", "root", []⟩ (markOf "[\"boolean\"]")
  have hread : (RuleValue.literal (markOf "\"boolean\"")).additional = .ok (.builtin .boolean) := by decide +kernel
  obtain rfl := Except.ok.inj (hadditional.symm.trans hread)
  have hproper : (Value.literal (markOf "true")).IsProper := .literal (IsLiteral.keyword .yes)
  exact ⟨name, u', root, _, hunion, hroot, hadditional, rfl, hagrees [] 0 _ _ [] "k" _ hproper rfl rfl⟩

end BuiltinType

/-! ## An object in a union -/

namespace Session

/-- Two objects: other members of the first are objects, and the second is one of a union. -/
def choice : String :=
  "\x7b\"o\": \x7b\x7d // \x7badditionalProperties: \"object\"\x7d\n, " ++
  "\"u\": \x7b\x7d // \x7bor: [\"object\"]\x7d\n\x7d"

/-- An object with a member. -/
def filled : String := "\x7b\"a\": 1\x7d"

/-- That object beside a name, in the first object or in place of the second. -/
def filledIn (isInFirst : Bool) : Bytes :=
  Bytes.ofString <| if isInFirst then "\x7b\"o\": \x7b\"k\": " ++ filled ++ "\x7d, \"u\": \x7b\x7d\x7d"
    else "\x7b\"o\": \x7b\x7d, \"u\": " ++ filled ++ "\x7d"

/-- Whether the type of the union refuses a value. -/
def memberRefuses : Schema × Value → Bool
  | (schema, value) =>
    (schema.types.root? "root#1").any fun root => !(schema.types.accept (acceptLimit + 1) root value).isOk

/-- An object with a member is no member of a union of objects, though it may stand where objects may. -/
theorem choice_differs : ∃ schema root value, (ofText choice).compiled = .ok schema ∧
    schema.types.root? "root#1" = some root ∧ Value.parse (.ofString "value" filled) = .ok value ∧
    schema.types.accept (acceptLimit + 1) root value ≠ .ok () ∧
    (ofText choice).validate (filledIn true) = .ok () ∧ (ofText choice).validate (filledIn false) ≠ .ok () := by
  have hrefuses : (compiledWith? choice filled).any memberRefuses = true := by decide +kernel
  obtain ⟨schema, value, hcompiled, hparse, hrefuses⟩ := exists_of_compiledWith? hrefuses
  obtain ⟨root, hroot, hrefuses⟩ := (Option.any_eq_true ..).1 hrefuses
  refine ⟨schema, root, value, hcompiled, hroot, hparse, fun haccept => ?_, by decide +kernel, by decide +kernel⟩
  rw [isOk_iff.2 haccept] at hrefuses
  cases hrefuses

end Session
end ExampleSchema
