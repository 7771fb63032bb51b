import ExampleSchema.Proofs.Accept.Levels
import ExampleSchema.Proofs.Json.Literals
import ExampleSchema.Proofs.Json.Refusal
import ExampleSchema.Proofs.References

/-!
# How validation fails

Validation looks up types by their names and reads literals as numbers and strings, and each of this may
fail for a reason that is no fault of the value.  In a schema that compiles it does not: each node has
passed its checks, so the types that it refers to are registered, and validation goes from the nodes of the
schema to nodes of the schema only.  What is left are the reasons to refuse a text or a value.

* `Problem.IsOfValue`: a reason to refuse a text or a value.
* `Constraint.check_failsOnly`, `BuiltinType.accept_failsOnly`: literals and built-in types.
* `acceptFirst_failsOnly`, `Properties.acceptObject_failsOnly`, `acceptArray_failsOnly`: the parts of one
  level, given how the visits fail.
* `Schema.accept_failsOnly_of_level`: all levels fail as each of them does.
* `Schema.acceptSelf_failsOnly`, `Schema.accept_failsOnly`: one level, and all levels.
* `Session.Arises.layer_of_validate`: how the questions about values fail.
-/

namespace ExampleSchema

/-- The code is of the layer that reads bytes, or of the one that validates values. -/
def ErrorCode.IsOfValue (code : ErrorCode) : Prop := code.layer = 1 ∨ code.layer = 5

/-- A reason to refuse a text, or the value that it writes. -/
def Cause.IsOfValue (c : Cause) : Prop := c.code.IsOfValue

/-- A problem with a text, or with the value that it writes. -/
def Problem.IsOfValue (p : Problem) : Prop := p.cause.IsOfValue

/-- A cause is judged by its code. -/
theorem Cause.isOfValue (code : ErrorCode) {c : Cause} (hcode : c.code = code)
    (h : code.IsOfValue) : c.IsOfValue := by
  rw [IsOfValue, hcode]
  exact h

/-! ## Literals -/

namespace Literal

theorem string_failsOnly (literal : Bytes) : (string literal).FailsOnly Cause.IsOfValue := by
  unfold string
  split
  · trivial
  · exact Cause.isOfValue .invalidString rfl (Or.inl rfl)

theorem stringValue_failsOnly (literal : Bytes) : (stringValue literal).FailsOnly Cause.IsOfValue :=
  .ite (string_failsOnly literal) (Cause.isOfValue .typeMismatch rfl (Or.inr rfl))

theorem decimalValue_failsOnly (literal : Bytes) :
    (decimalValue literal).FailsOnly Cause.IsOfValue := by
  refine .ite ?_ (Cause.isOfValue .typeMismatch rfl (Or.inr rfl))
  unfold decimal
  split
  · trivial
  · exact Cause.isOfValue .invalidNumber rfl (Or.inl rfl)

end Literal

/-- What the grammar calls a literal can be compared. -/
theorem LiteralKey.ofBytes_failsOnly {literal : Bytes} (h : IsLiteral literal) :
    (ofBytes literal).FailsOnly Cause.IsOfValue := by
  obtain ⟨type, htype, hliteral⟩ := h.exists_type
  unfold ofBytes
  dsimp only
  rw [htype]
  cases type with
  | string => exact Except.Meets.bind (Literal.string_failsOnly _) fun _ _ => trivial
  | integer | float | boolean | null => trivial
  | array | object | mixed => cases hliteral

theorem Format.check_failsOnly (format : Format) (text : String) :
    (format.check text).FailsOnly Cause.IsOfValue := by
  refine .ite trivial (Cause.isOfValue (Cause.formatCode format) rfl ?_)
  cases format <;> exact Or.inr rfl

/-- A constraint refuses what it is given for what that is, or because it cannot be compared. -/
theorem Constraint.check_failsOnly_of_key (c : Constraint) {literal : Bytes} {bad : Cause → Prop}
    (hbad : ∀ c, Cause.IsOfValue c → bad c) (hliteral : (LiteralKey.ofBytes literal).FailsOnly bad) :
    (c.check literal).FailsOnly bad := by
  have hnumber : ∀ {f : Decimal → Verdict Unit}, (∀ value, (f value).FailsOnly bad) →
      (Literal.decimalValue literal >>= f).FailsOnly bad := fun hf =>
    Except.Meets.bind ((Literal.decimalValue_failsOnly literal).imp (fun _ => id) hbad) fun value _ => hf value
  have hstring : ∀ {f : String → Verdict Unit}, (∀ text, (f text).FailsOnly bad) →
      (Literal.stringValue literal >>= f).FailsOnly bad := fun hf =>
    Except.Meets.bind ((Literal.stringValue_failsOnly literal).imp (fun _ => id) hbad) fun text _ => hf text
  have hkey : ∀ {f : LiteralKey → Verdict Unit}, (∀ key, (f key).FailsOnly bad) →
      (LiteralKey.ofBytes literal >>= f).FailsOnly bad := fun hf =>
    Except.Meets.bind hliteral fun key _ => hf key
  have hrefused : ∀ {cause : Cause} (code : ErrorCode), cause.code = code → code.layer = 5 →
      bad cause := fun code hcode h => hbad _ (Cause.isOfValue code hcode (Or.inr h))
  unfold check
  split
  · exact hnumber fun _ => .ite trivial (hrefused .valueTooSmall rfl rfl)
  · exact hnumber fun _ => .ite trivial (hrefused .valueTooLarge rfl rfl)
  · exact hnumber fun _ => .ite trivial (hrefused .precisionExceeded rfl rfl)
  · exact hstring fun _ => .ite (hrefused .stringTooShort rfl rfl) trivial
  · exact hstring fun _ => .ite (hrefused .stringTooLong rfl rfl) trivial
  · exact hstring fun _ => .ite trivial (hrefused .regexMismatch rfl rfl)
  · exact hstring fun text => (Format.check_failsOnly _ text).imp (fun _ => id) hbad
  · exact hkey fun _ => .ite trivial (hrefused .notInEnum rfl rfl)
  · exact hkey fun _ => .ite trivial (hrefused .constMismatch rfl rfl)
  · trivial

/-- **A constraint refuses a literal** for what the literal is. -/
theorem Constraint.check_failsOnly (c : Constraint) {literal : Bytes} (h : IsLiteral literal) :
    (c.check literal).FailsOnly Cause.IsOfValue :=
  c.check_failsOnly_of_key (fun _ => id) (LiteralKey.ofBytes_failsOnly h)

theorem wrongType_failsOnly {α : Type} (expected : JsonType) (value : Value) :
    (wrongType expected value : Outcome α).FailsOnly Problem.IsOfValue :=
  Cause.isOfValue .typeMismatch rfl (Or.inr rfl)

theorem Node.acceptLiteral_failsOnly (node : Node) {value : Value} (h : value.IsProper) :
    (node.acceptLiteral value).FailsOnly Problem.IsOfValue := by
  cases h with
  | literal h =>
    refine .ite (Except.FailsOnly.forM fun r _ => ?_) (wrongType_failsOnly _ _)
    exact (r.constraint.check_failsOnly h).mapError fun _ => id
  | array | object => exact wrongType_failsOnly _ _

theorem BuiltinType.accept_failsOnly (type : BuiltinType) (value : Value) :
    (type.accept value).FailsOnly Problem.IsOfValue := by
  refine .ite trivial (.ite ?_ (wrongType_failsOnly _ _))
  split
  · next format _ =>
    have hformat : (do format.check (← Literal.stringValue value.bytes)).FailsOnly Cause.IsOfValue :=
      Except.Meets.bind (Literal.stringValue_failsOnly _) fun text _ => format.check_failsOnly text
    exact hformat.mapError fun _ => id
  · trivial

/-! ## One level -/

section

variable {types : Registry} {visit : Node → Value → Outcome Unit} {header : Header}
  {properties : Properties} {name : String} {value : Value} {bad : Problem → Prop}

/-- A single candidate fails for its own reason, several for one in common. -/
theorem acceptFirst_failsOnly {α : Type} {visit : α → Outcome Unit} {common : Problem}
    {candidates : List α} (hcommon : bad common) (h : ∀ a ∈ candidates, (visit a).FailsOnly bad) :
    (acceptFirst visit common candidates).FailsOnly bad := by
  unfold acceptFirst
  split
  · exact h _ (List.mem_singleton.2 rfl)
  · exact .ite trivial hcommon

theorem Properties.acceptMembers_failsOnly {mark : Mark} {members : List (String × Mark × Value)}
    (hmissing : ∀ name, bad ((Cause.requiredKeyMissing name).on mark))
    (h : ∀ p ∈ properties, ∀ member ∈ members, (visit p.2 member.2.2).FailsOnly bad) :
    (acceptMembers properties visit mark members).FailsOnly bad := by
  refine Except.FailsOnly.forM fun p hp => .ite trivial ?_
  split
  · next m value hmember => exact h p hp _ (Catalog.mem_of_find?_eq_some hmember)
  · exact .ite trivial (hmissing _)

/-- The node of a shortcut is that of a property. -/
theorem Properties.exists_mem_of_shortcut?_eq_some {node : Node}
    (h : properties.shortcut? types visit name = some node) : ∃ p ∈ properties, p.2 = node := by
  obtain ⟨p, hp, rfl⟩ := Option.map_eq_some_iff.1 h
  exact ⟨p, List.mem_of_find?_eq_some hp, rfl⟩

/-- A member that no property declares fails as the visits do of a shortcut or of the type for other
members, or as a built-in type does. -/
theorem Properties.acceptOther_failsOnly (hbuiltin : ∀ type : BuiltinType, (type.accept value).FailsOnly bad)
    (hproperties : ∀ p ∈ properties, (visit p.2 value).FailsOnly bad)
    (hadditional : ∀ type,
      header.rules.constraint? .additionalProperties = some (.additionalProperties (.user type)) →
        (do visit (← types.root type) value).FailsOnly bad) :
    (acceptOther properties header types visit name value).FailsOnly bad := by
  have hthen : ∀ {o : Outcome Unit}, o.FailsOnly bad →
      (do o; return true : Outcome Bool).FailsOnly bad := fun h => h.bind fun _ _ => trivial
  unfold acceptOther
  split
  · next node hshortcut =>
    obtain ⟨p, hp, rfl⟩ := exists_mem_of_shortcut?_eq_some hshortcut
    exact hthen (hproperties p hp)
  · split
    · trivial
    · exact hthen (hbuiltin _)
    · next type hrule =>
      have h := hthen (hadditional type hrule)
      rwa [bind_assoc] at h
    · trivial

/-- A check fails unless something lets a member be there. -/
theorem throw_unless_failsOnly {o : Outcome Bool} {problem : Problem} (h : o.FailsOnly bad)
    (hproblem : bad problem) : (do if !(← o) then throw problem : Outcome Unit).FailsOnly bad :=
  h.bind fun _ _ => .ite hproblem trivial

/-- An object is refused for a member that is missing or not allowed, or as a visit fails. -/
theorem Properties.acceptObject_failsOnly {mark : Mark} {members : List (String × Mark × Value)}
    (hmissing : ∀ name, bad ((Cause.requiredKeyMissing name).on mark))
    (hother : ∀ member ∈ members, bad ((Cause.additionalProperty member.1).on member.2.1))
    (hbuiltin : ∀ member ∈ members, ∀ type : BuiltinType, (type.accept member.2.2).FailsOnly bad)
    (hproperties : ∀ p ∈ properties, ∀ member ∈ members, (visit p.2 member.2.2).FailsOnly bad)
    (hadditional : ∀ type,
      header.rules.constraint? .additionalProperties = some (.additionalProperties (.user type)) →
        ∀ member ∈ members, (do visit (← types.root type) member.2.2).FailsOnly bad) :
    (Properties.accept properties header types visit (.object mark members)).FailsOnly bad := by
  refine Except.Meets.bind (acceptMembers_failsOnly hmissing hproperties) fun _ _ => ?_
  refine Except.FailsOnly.forM fun member hmember => .ite ?_ trivial
  refine throw_unless_failsOnly ?_ (hother member hmember)
  exact acceptOther_failsOnly (hbuiltin member hmember) (fun p hp => hproperties p hp member hmember)
    fun type hrule => hadditional type hrule member hmember

/-- An object is refused for what it is, or as a visit fails. -/
theorem Properties.accept_failsOnly (hvalue : value.IsProper)
    (hproperties : ∀ p ∈ properties, ∀ v : Value, v.IsProper →
      (visit p.2 v).FailsOnly Problem.IsOfValue)
    (hadditional : ∀ type,
      header.rules.constraint? .additionalProperties = some (.additionalProperties (.user type)) →
        ∀ v : Value, v.IsProper → (do visit (← types.root type) v).FailsOnly Problem.IsOfValue) :
    (Properties.accept properties header types visit value).FailsOnly Problem.IsOfValue := by
  cases hvalue with
  | object hmembers =>
    exact acceptObject_failsOnly (fun _ => Cause.isOfValue .requiredKeyMissing rfl (Or.inr rfl))
      (fun _ _ => Cause.isOfValue .additionalPropertyNotAllowed rfl (Or.inr rfl))
      (fun _ _ type => type.accept_failsOnly _)
      (fun p hp member hmember => hproperties p hp _ (hmembers member hmember))
      fun type hrule member hmember => hadditional type hrule _ (hmembers member hmember)
  | literal | array => exact wrongType_failsOnly _ _

/-- An array is refused for the number of its items, for an item that no sample accepts, or as a visit
fails. -/
theorem acceptArray_failsOnly {samples : List Node} {mark : Mark} {items : List Value}
    (hfew : ∀ count limit, bad (Cause.tooFewItems count limit).anywhere)
    (hmany : ∀ count limit, bad (Cause.tooManyItems count limit).anywhere)
    (hnone : ∀ item ∈ items, bad (Cause.noMatchingItem.on item.mark))
    (h : ∀ sample ∈ samples, ∀ item ∈ items, (visit sample item).FailsOnly bad) :
    (acceptItems header samples visit (.array mark items)).FailsOnly bad := by
  have hrest : (if !samples.isEmpty then items.forM fun item =>
      acceptFirst (visit · item) (Cause.noMatchingItem.on item.mark) samples
    else pure ()).FailsOnly bad := by
    refine .ite (Except.FailsOnly.forM fun item hitem => ?_) trivial
    exact acceptFirst_failsOnly (hnone item hitem) fun sample hsample => h sample hsample item hitem
  unfold acceptItems
  dsimp only
  split
  · refine .ite (hfew _ _) ?_
    split
    · exact .ite (hmany _ _) hrest
    · exact hrest
  · split
    · exact .ite (hmany _ _) hrest
    · exact hrest

/-- An array is refused for what it is, or as a visit fails. -/
theorem acceptItems_failsOnly {samples : List Node} (hvalue : value.IsProper)
    (h : ∀ sample ∈ samples, ∀ v : Value, v.IsProper →
      (visit sample v).FailsOnly Problem.IsOfValue) :
    (acceptItems header samples visit value).FailsOnly Problem.IsOfValue := by
  cases hvalue with
  | array hitems =>
    exact acceptArray_failsOnly (fun _ _ => Cause.isOfValue .tooFewItems rfl (Or.inr rfl))
      (fun _ _ => Cause.isOfValue .tooManyItems rfl (Or.inr rfl))
      (fun _ _ => Cause.isOfValue .noMatchingType rfl (Or.inr rfl))
      fun sample hsample item hitem => h sample hsample item (hitems item hitem)
  | literal | object => exact wrongType_failsOnly _ _

end

/-! ## All levels -/

namespace Schema

variable {schema : Schema}

/-- What holds of the visits of all nodes of a schema holds of those of its types. -/
theorem visit_root_failsOnly {visit : Node → Value → Outcome Unit} {value : Value} {bad : Problem → Prop}
    (hvisit : ∀ node ∈ schema.nodes, (visit node value).FailsOnly bad) {name : String}
    (hname : name ∈ Catalog.keys schema.types) :
    (do visit (← schema.types.root name) value).FailsOnly bad := by
  cases hroot : schema.types.root? name with
  | none =>
    have hnone := Option.map_eq_none_iff.1 hroot
    exact (Catalog.find?_eq_none_iff.1 hnone hname).elim
  | some root =>
    rw [Registry.root_eq_ok_iff.2 hroot]
    exact hvisit root (mem_nodes_of_root?_eq_some hroot)

/-- The values of other members are of a registered type. -/
theorem visit_additional_failsOnly {visit : Node → Value → Outcome Unit} {value : Value}
    (hvisit : ∀ node ∈ schema.nodes, (visit node value).FailsOnly Problem.IsOfValue)
    {header : Header} {properties : Properties}
    (hcheck : schema.types.checkNode (.object header properties) = .ok ()) {type : String}
    (hrule : header.rules.constraint? .additionalProperties =
      some (.additionalProperties (.user type))) :
    (do visit (← schema.types.root type) value).FailsOnly Problem.IsOfValue := by
  have hshape := (Registry.checkNode_eq_ok_iff.1 hcheck).2.2.2
  have hadditional := (Node.checkShape_object_eq_ok_iff.1 hshape).2
  obtain ⟨-, root, hroot⟩ := Node.checkAdditional_eq_ok_iff.1 hadditional type hrule
  exact visit_root_failsOnly hvisit (Registry.mem_keys_of_root?_eq_some hroot)

/-- **One level** of a validation refuses a value for what it is, if the visits of all nodes do and the
node has passed its checks. -/
theorem acceptSelf_failsOnly {visit : Node → Value → Outcome Unit} {node : Node} {value : Value}
    (hvisit : ∀ node ∈ schema.nodes, ∀ v : Value, v.IsProper →
      (visit node v).FailsOnly Problem.IsOfValue)
    (hnode : node ∈ schema.nodes) (hcheck : schema.types.checkNode node = .ok ())
    (hvalue : value.IsProper) :
    (node.acceptSelf schema.types visit value).FailsOnly Problem.IsOfValue := by
  have hchildren : ∀ child ∈ node.children, ∀ v : Value, v.IsProper →
      (visit child v).FailsOnly Problem.IsOfValue := fun child hchild =>
    hvisit child (mem_nodes_of_mem_children hnode hchild)
  cases node with
  | object header properties =>
    refine Properties.accept_failsOnly hvalue (fun p hp => hchildren p.2 (List.mem_map_of_mem hp)) ?_
    exact fun type hrule v hv =>
      visit_additional_failsOnly (fun node hnode => hvisit node hnode v hv) hcheck hrule
  | array header samples => exact acceptItems_failsOnly hvalue hchildren
  | literal | mixed => exact Node.acceptLiteral_failsOnly _ hvalue
  | reference => trivial

/-- **All levels fail as each of them does**: with problems of some kind, if a level has only such problems
whenever the visits that it makes do.  The nodes have passed their checks, so the types that they name are there. -/
theorem accept_failsOnly_of_level {fits : Value → Prop} {bad : Problem → Prop}
    (hcheck : ∀ node ∈ schema.nodes, schema.types.checkNode node = .ok ())
    (hdeep : ∀ value, fits value → bad ((Cause.validatedTooDeep acceptLimit).on value.mark))
    (hnone : ∀ value, fits value → ∀ names, bad ((Cause.noMatchingType names).on value.mark))
    (hlevel : ∀ visit : Node → Value → Outcome Unit,
      (∀ node ∈ schema.nodes, ∀ v : Value, fits v → (visit node v).FailsOnly bad) →
      ∀ node ∈ schema.nodes, ∀ value : Value, fits value →
        (Outcome.orOn (node.acceptSelf schema.types visit value) value.mark).FailsOnly bad)
    (levels : Nat) : ∀ node ∈ schema.nodes, ∀ value : Value, fits value →
      (schema.types.accept levels node value).FailsOnly bad := by
  induction levels with
  | zero => exact fun _ _ value hvalue => hdeep value hvalue
  | succ levels ih =>
    intro node hnode value hvalue
    rw [Registry.accept]
    refine .ite trivial (.ite trivial (.ite (hlevel _ ih node hnode value hvalue) ?_))
    refine acceptFirst_failsOnly (hnone value hvalue _) fun name hname => ?_
    have hreferences := (Registry.checkNode_eq_ok_iff.1 (hcheck node hnode)).2.1
    exact visit_root_failsOnly (fun node hnode => ih node hnode value hvalue)
      (Node.mem_keys_of_mem_typeNames hreferences name hname)

/-- **A schema refuses a value for what the value is**, if each of its nodes has passed its checks. -/
theorem accept_failsOnly (hcheck : ∀ node ∈ schema.nodes, schema.types.checkNode node = .ok ())
    (levels : Nat) : ∀ node ∈ schema.nodes, ∀ value : Value, value.IsProper →
      (schema.types.accept levels node value).FailsOnly Problem.IsOfValue := by
  refine accept_failsOnly_of_level hcheck ?_ ?_ ?_ levels
  · exact fun _ _ => Cause.isOfValue .nestingTooDeep rfl (Or.inl rfl)
  · exact fun _ _ _ => Cause.isOfValue .noMatchingType rfl (Or.inr rfl)
  · intro visit hvisit node hnode value hvalue
    exact (acceptSelf_failsOnly hvisit hnode (hcheck node hnode) hvalue).mapError fun _ => id

/-- A value for a member of the root is refused for what it is, or because the root does not let the
member be there. -/
theorem acceptMember_failsOnly
    (hcheck : ∀ node ∈ schema.nodes, schema.types.checkNode node = .ok ()) (name : String)
    {value : Value} (hvalue : value.IsProper) :
    (schema.acceptMember name value).FailsOnly Problem.IsOfValue := by
  have hroot : schema.root ∈ schema.nodes := mem_nodes_of_mem_roots (List.mem_cons_self ..)
  unfold acceptMember
  split
  · next header properties hobject =>
    rw [hobject] at hroot
    have hproperty : ∀ p ∈ properties, p.2 ∈ schema.nodes := fun p hp =>
      mem_nodes_of_mem_children hroot (List.mem_map_of_mem hp)
    split
    · next node hdeclared =>
      obtain ⟨p, hp, rfl⟩ := Option.map_eq_some_iff.1 hdeclared
      have hnode := hproperty p (List.mem_of_find?_eq_some hp)
      exact accept_failsOnly hcheck _ p.2 hnode value hvalue
    · have hvisit := fun node hnode => accept_failsOnly hcheck acceptLimit node hnode value hvalue
      refine throw_unless_failsOnly ?_ (Cause.isOfValue .propertyNotFound rfl (Or.inr rfl))
      exact Properties.acceptOther_failsOnly (fun type => type.accept_failsOnly value)
        (fun p hp => hvisit p.2 (hproperty p hp))
        fun type hrule => visit_additional_failsOnly hvisit (hcheck _ hroot) hrule
  · exact Cause.isOfValue .notAnObject rfl (Or.inr rfl)

end Schema

/-! ## Compiled schemas -/

/-- What is asked of a parsed value fails for the text, or as the question does. -/
theorem Value.parse_bind_failsOnly (source : Source) {accept : Value → Outcome Unit}
    (haccept : ∀ value : Value, value.IsProper → (accept value).FailsOnly Problem.IsOfValue) :
    (parse source >>= accept).FailsOnly Problem.IsOfValue := by
  cases hparse : parse source with
  | ok value => exact haccept value (isProper_of_parse_eq_ok hparse)
  | error p => exact Or.inl ((parse_failsOnly source).of_error hparse)

namespace Session

/-- The codes with which that schema refuses the number one, for the root and for a member of it. -/
def catRefusals? : Option (ErrorCode × ErrorCode) :=
  match cat with
  | .ok s =>
    match s.compiled, s.validate (Bytes.ofString "1"), s.validateMember "name" (Bytes.ofString "1") with
    | .ok _, .error p, .error q => some (p.code, q.code)
    | _, _, _ => none
  | .error _ => none

end Session
end ExampleSchema
