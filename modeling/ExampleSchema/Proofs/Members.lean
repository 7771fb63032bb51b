import ExampleSchema.Proofs.Example
import ExampleSchema.Proofs.Properties
import ExampleSchema.Proofs.Validation

/-!
# Validating a value member by member

An object can be validated as a whole, and each of its members can be validated by itself.  Both look at the
properties of the root and at the rule on other members, so a whole object is valid if its members are and none
is missing that has to be there.

But a member by itself is not taken to the root: what the root says besides its properties is not looked at.
Where the root accepts anything, or refers to types in place of having properties of its own, the two differ.

* `Node.HasDistinctKeys`: the properties of an object have distinct names, and `Session.Arises.hasDistinctKeys`
  for the root of a compiled schema.
* `Schema.acceptMember_eq_ok_iff_accepts`, `Schema.acceptMember_eq_ok_iff_admits`: a member by itself, if a
  property declares it and if none does.
* `Schema.accept_object_eq_ok_iff`: an object and its members, where the root describes them itself.
* `Session.AcceptsByMembers`, `Session.Arises.validate_iff_members`: all roots that are written as objects.
-/

namespace ExampleSchema

/-! ## The names of properties -/

namespace Node

/-- The properties of an object have distinct names. -/
def HasDistinctKeys : Node → Prop
  | object _ properties => Properties.AreDistinct properties
  | _ => True

variable {types : Registry} {node new : Node}

theorem HasReadKeys.hasDistinctKeys (h : node.HasReadKeys) : node.HasDistinctKeys := by
  cases node with
  | object => exact h.left
  | literal | array | mixed | reference => trivial

theorem HasDistinctKeys.inherit (h : node.HasDistinctKeys) :
    (node.inherit types).Meets HasDistinctKeys fun _ => True := by
  cases node with
  | literal | array | mixed | reference => trivial
  | object header properties =>
    rw [Node.inherit]
    refine .ite ?_ h
    have hnone : Properties.AreDistinct [] := List.nodup_nil
    refine Except.Meets.bind (Except.Meets.foldlM hnone fun gathered hgathered parent _ => ?_)
      fun gathered hgathered => ?_
    · cases Outcome.orOn (passedOn types [] parent) _ with
      | error => trivial
      | ok added => exact Except.Meets.foldlM hgathered fun all hall p _ => hall.add p _
    · have hown : (gathered.addAll (properties.filter fun p => !p.1.isInherited)).Meets
          Properties.AreDistinct fun _ => True :=
        Except.Meets.foldlM hgathered fun all hall p _ => hall.add p p.1.mark
      exact hown.bind fun _ hall => hall

theorem hasDistinctKeys_withChildren {children : List Node} (h : node.HasDistinctKeys) :
    (node.withChildren children).HasDistinctKeys := by
  cases node with
  | object header properties =>
    -- what is zipped is at most as long as the properties
    have hprefix : ((properties.zipWith (fun p child => (p.1, child)) children).map fun p => p.1.name) <+:
        properties.map fun p => p.1.name := by
      clear h
      induction properties generalizing children with
      | nil => simp
      | cons p rest ih =>
        cases children with
        | nil => simp
        | cons child children => simpa using ih
    exact List.Sublist.nodup hprefix.sublist h
  | literal | array | mixed | reference => trivial

theorem HasDistinctKeys.expand {levels : Nat} (h : node.HasDistinctKeys)
    (hexpanded : node.expand types levels = .ok new) : new.HasDistinctKeys := by
  cases levels with
  | zero => cases hexpanded
  | succ levels =>
    rw [expand_succ] at hexpanded
    obtain ⟨whole, hwhole, hexpanded⟩ := Except.bind_eq_ok_iff.1 hexpanded
    obtain ⟨children, -, hexpanded⟩ := Except.bind_eq_ok_iff.1 hexpanded
    obtain rfl := Except.ok.inj hexpanded
    exact hasDistinctKeys_withChildren (h.inherit.of_ok hwhole)

end Node

/-- **The root of a compiled schema has properties with distinct names.** -/
theorem Session.Arises.hasDistinctKeys {s : Session} (hs : s.Arises) {schema : Schema}
    (h : s.compiled = .ok schema) : schema.root.HasDistinctKeys := by
  obtain ⟨loaded, hload, hcompile⟩ := hs.exists_of_compiled_eq_ok h
  obtain ⟨resolved, hresolved, hexpanded, -⟩ := Schema.compile_eq_ok_iff.1 hcompile
  obtain ⟨notes, hloaded⟩ := Schema.exists_isLoaded_of_load_eq_ok hload
  have hlaidOut := (Schema.isLaidOut_of_load_eq_ok hload hloaded.notes_eq).1
  have hread := hlaidOut.1.resolveEnums (Schema.exists_of_mapRoots hresolved).1
  exact hread.hasDistinctKeys.expand (Schema.exists_of_mapRoots hexpanded).1

/-! ## Members by themselves -/

namespace Schema

variable {schema : Schema} {header : Header} {properties : Properties} {name : String} {value : Value}

/-- A member that a property declares is validated as the property says. -/
theorem acceptMember_eq_ok_iff_accepts (hroot : schema.root = .object header properties) {node : Node}
    (hdeclared : properties.declared? name = some node)
    (hdepth : schema.types.VisitsWithin acceptLimit (node, value)) :
    schema.acceptMember name value = .ok () ↔ schema.types.Accepts node value := by
  rw [acceptMember, hroot]
  dsimp only
  rw [hdeclared]
  exact accept_eq_ok_iff hdepth

/-- A member that no property declares is let be as the root says of other members. -/
theorem acceptMember_eq_ok_iff_admits (hroot : schema.root = .object header properties)
    (hdeclared : properties.declared? name = none)
    (hdepth : ∀ y, schema.types.VisitsOther header properties name value y →
      schema.types.VisitsWithin (acceptLimit - 1) y) :
    schema.acceptMember name value = .ok () ↔ schema.types.Admits header properties name value := by
  rw [acceptMember, hroot]
  dsimp only
  rw [hdeclared]
  exact throw_unless_eq_ok_iff.trans (acceptOther_eq_ok_true_iff fun y hy => accept_eq_ok_iff (hdepth y hy))

/-- Where nothing is said of any member, none is found. -/
theorem acceptMember_eq_error (hroot : schema.root = .object header [])
    (hrule : header.rules.constraint? .additionalProperties = none) :
    schema.acceptMember name value = .error (Cause.propertyNotFound name).anywhere := by
  rw [acceptMember, hroot]
  change (do if !(← Properties.acceptOther [] header schema.types _ name value) then throw _) = _
  rw [Properties.acceptOther, Properties.shortcut?, hrule]
  rfl

/-- Nothing below an object is visited anyway. -/
theorem acceptsAnyway_object_iff {mark : Mark} {members : List (String × Mark × Value)} :
    (Node.object header properties).AcceptsAnyway (.object mark members) ↔
      ∃ type ∈ header.declared?, type.isUnrestricted = true := by
  refine or_iff_right fun hnull => ?_
  cases hnull.1

section

variable {mark : Mark} {members : List (String × Mark × Value)}
  (hroot : schema.root = .object header properties)
  (hdepth : schema.types.VisitsWithin acceptLimit (schema.root, .object mark members))
  (hopen : ¬ ∃ type ∈ header.declared?, type.isUnrestricted = true) (hnames : header.rules.typeNames = [])

include hroot hdepth

/-- Visits from the members of an object take one level less. -/
theorem visitsWithin_of_visits {y : Node × Value}
    (h : schema.types.Visits (.object header properties, .object mark members) y) :
    schema.types.VisitsWithin (acceptLimit - 1) y := by
  rw [hroot] at hdepth
  exact Registry.visitsWithin_succ_iff.1 hdepth y h

include hopen hnames

/-- A declared property is met by a member that is accepted by itself, if those before it are met. -/
theorem isMet_iff (hdistinct : properties.AreDistinct) (hmembers : (Catalog.keys members).Nodup)
    {before after : Properties} {p : PropertyKey × Node} (hproperties : properties = before ++ p :: after)
    (hbefore : ∀ q ∈ before, schema.types.IsMet members q) :
    schema.types.IsMet members p ↔ p.1.isShortcut = false →
      (∀ member ∈ members, member.1 = p.1.name → schema.acceptMember member.1 member.2.2 = .ok ()) ∧
      (p.2.isOptional = false → p.1.name ∈ Catalog.keys members) := by
  obtain ⟨key, node⟩ := p
  refine forall_congr' fun hkey => ?_
  dsimp only at hkey ⊢
  have hdeclared : properties.declared? key.name = some node :=
    Properties.declared?_eq_some_of_mem hdistinct (p := (key, node)) (by rw [hproperties]; simp) hkey
  cases hmember : Catalog.find? members key.name with
  | none =>
    have hmissing := Catalog.find?_eq_none_iff.1 hmember
    have hnone : ∀ member ∈ members, member.1 ≠ key.name := fun member hmem heq =>
      hmissing (List.mem_map.2 ⟨member, hmem, heq⟩)
    constructor
    · exact fun hoptional => ⟨fun member hmem heq => (hnone member hmem heq).elim, by simp [hoptional]⟩
    · rintro ⟨-, hthere⟩
      by_contra hoptional
      exact hmissing (hthere (by simpa using hoptional))
  | some entry =>
    obtain ⟨m, value⟩ := entry
    have hmem := Catalog.mem_of_find?_eq_some hmember
    have hvisit := visitsWithin_of_visits hroot hdepth
      (.declared (by rwa [acceptsAnyway_object_iff]) hnames hproperties hbefore hkey hmember)
    have haccept := acceptMember_eq_ok_iff_accepts hroot hdeclared (hvisit.mono (Nat.sub_le ..))
    constructor
    · intro haccepts
      refine ⟨fun member hmem' heq => ?_, fun _ => List.mem_map_of_mem (f := Prod.fst) hmem⟩
      obtain ⟨name, other⟩ := member
      obtain rfl : name = key.name := heq
      rw [Catalog.eq_of_mem_of_nodup hmembers hmem hmem']
      exact haccept.2 haccepts
    · rintro ⟨hmembers, -⟩
      exact haccept.1 (hmembers _ hmem rfl)

/-- A member is let be if it is accepted by itself, where properties are met and those before it are let be. -/
theorem isLet_iff (hmet : ∀ p ∈ properties, schema.types.IsMet members p)
    {before after : List (String × Mark × Value)} {member : String × Mark × Value}
    (hmembers : members = before ++ member :: after)
    (hbefore : ∀ other ∈ before, schema.types.IsLet header properties other) :
    schema.types.IsLet header properties member ↔
      (properties.declared? member.1 = none → schema.acceptMember member.1 member.2.2 = .ok ()) := by
  obtain ⟨name, m, value⟩ := member
  refine forall_congr' fun hdeclared => (acceptMember_eq_ok_iff_admits hroot hdeclared fun y hy => ?_).symm
  exact visitsWithin_of_visits hroot hdepth
    (.other (by rwa [acceptsAnyway_object_iff]) hnames hmet hmembers hbefore hdeclared hy)

/-- **An object is accepted if each of its members is**, and none is missing that has to be there. -/
theorem accept_object_eq_ok_iff (hdistinct : properties.AreDistinct) (hmembers : (Catalog.keys members).Nodup) :
    schema.accept (.object mark members) = .ok () ↔
      (∀ member ∈ members, schema.acceptMember member.1 member.2.2 = .ok ()) ∧
      ∀ p ∈ properties, p.1.isShortcut = false → p.2.isOptional = false → p.1.name ∈ Catalog.keys members := by
  have hanyway : ¬ (Node.object header properties).AcceptsAnyway (.object mark members) := by
    rwa [acceptsAnyway_object_iff]
  have hdescribes : schema.types.Accepts schema.root (.object mark members) ↔
      schema.types.Describes (.object header properties) (.object mark members) := by
    rw [hroot, Registry.accepts_iff, or_iff_right hanyway,
      show (Node.object header properties).rules.typeNames = [] from hnames]
    simp
  have hmet := List.forall_mem_iff_of_reached fun before p after hproperties hbefore =>
    isMet_iff hroot hdepth hopen hnames hdistinct hmembers hproperties hbefore
  have hlet := fun hall => List.forall_mem_iff_of_reached fun before member after hsplit hbefore =>
    isLet_iff hroot hdepth hopen hnames hall hsplit hbefore
  rw [accept, accept_eq_ok_iff hdepth, hdescribes, Registry.Describes, and_congr_right hlet, hmet]
  constructor
  · rintro ⟨hdeclared, hothers⟩
    refine ⟨fun member hmember => ?_, fun p hp hkey => (hdeclared p hp hkey).2⟩
    cases hfound : properties.declared? member.1 with
    | none => exact hothers member hmember hfound
    | some node =>
      obtain ⟨key, hp, hname, hkey⟩ := Properties.exists_of_declared?_eq_some hfound
      exact (hdeclared _ hp hkey).1 member hmember hname.symm
  · rintro ⟨hall, hthere⟩
    exact ⟨fun p hp hkey => ⟨fun member hmember _ => hall member hmember, hthere p hp hkey⟩,
      fun member hmember _ => hall member hmember⟩

end

end Schema

/-- Where only references may stand, no rule says what other members there may be. -/
theorem Rules.constraint?_additionalProperties_eq_none {rules : Rules}
    (h : ∀ r ∈ rules, r.kind.standsBesideReferences = true) :
    rules.constraint? .additionalProperties = none := by
  rw [constraint?, Option.map_eq_none_iff, rule?, List.find?_eq_none]
  intro r hr hkind
  have hstands := h r hr
  rw [eq_of_beq hkind] at hstands
  cases hstands

namespace Session

/-- Each member of an object is valid by itself, and none is missing that has to be there. -/
def AcceptsByMembers (s : Session) (properties : Properties) (members : List (String × Mark × Value)) : Prop :=
  (∀ member ∈ members, s.validateMember member.1 member.2.2.bytes = .ok ()) ∧
    ∀ p ∈ properties, p.1.isShortcut = false → p.2.isOptional = false → p.1.name ∈ Catalog.keys members

section

variable {s : Session} {schema : Schema} (h : s.compiled = .ok schema)

include h

theorem validate_eq {text : Bytes} {value : Value} (hparse : Value.parse ⟨"value", text⟩ = .ok value) :
    s.validate text = schema.accept value := by
  rw [validate, h, Except.ok_bind, hparse, Except.ok_bind]

theorem validateMember_eq {name : String} {text : Bytes} {value : Value}
    (hparse : Value.parse ⟨name, text⟩ = .ok value) : s.validateMember name text = schema.acceptMember name value := by
  rw [validateMember, h, Except.ok_bind, hparse, Except.ok_bind]

/-- A member of a parsed object may be validated by its text. -/
theorem validateMember_eq_ok_iff {source : Source} {mark : Mark} {members : List (String × Mark × Value)}
    (hparse : Value.parse source = .ok (.object mark members)) {member : String × Mark × Value}
    (hmember : member ∈ members) :
    s.validateMember member.1 member.2.2.bytes = .ok () ↔ schema.acceptMember member.1 member.2.2 = .ok () := by
  obtain ⟨v, hv, hdatum⟩ := Value.exists_parse_member hparse hmember member.1
  rw [validateMember_eq h hv]
  exact schema.acceptMember_congr hdatum

end

/-- **A whole object and its members.**  Where the root of a compiled schema is written as an object, and neither
accepts anything nor refers to types, a value is valid if each of its members is and none is missing that has to
be there.  A root that accepts anything accepts every object, whatever its members are by themselves; and one
that refers to types accepts what these accept, but no member by itself. -/
theorem Arises.validate_iff_members {s : Session} (hs : s.Arises) {schema : Schema} (h : s.compiled = .ok schema)
    {header : Header} {properties : Properties} (hroot : schema.root = .object header properties) {text : Bytes}
    {mark : Mark} {members : List (String × Mark × Value)}
    (hparse : Value.parse ⟨"value", text⟩ = .ok (.object mark members))
    (hdepth : schema.types.VisitsWithin acceptLimit (schema.root, .object mark members)) :
    ((∃ type ∈ header.declared?, type.isUnrestricted = true) → s.validate text = .ok ()) ∧
    ((¬ ∃ type ∈ header.declared?, type.isUnrestricted = true) → header.rules.typeNames ≠ [] →
      (s.validate text = .ok () ↔ ∃ name ∈ header.rules.typeNames, ∃ root ∈ schema.types.root? name,
        schema.types.Accepts root (.object mark members)) ∧
      ∀ member ∈ members, s.validateMember member.1 member.2.2.bytes =
        .error (Cause.propertyNotFound member.1).anywhere) ∧
    ((¬ ∃ type ∈ header.declared?, type.isUnrestricted = true) → header.rules.typeNames = [] →
      (s.validate text = .ok () ↔ s.AcceptsByMembers properties members)) := by
  have haccept : s.validate text = .ok () ↔
      schema.types.Accepts (.object header properties) (.object mark members) := by
    rw [validate_eq h hparse, Schema.accept, accept_eq_ok_iff hdepth, hroot]
  refine ⟨fun hopen => ?_, fun hopen hnames => ⟨?_, fun member hmember => ?_⟩, fun hopen hnames => ?_⟩
  · exact haccept.2 (Registry.accepts_iff.2 (Or.inl (Schema.acceptsAnyway_object_iff.2 hopen)))
  · have hanyway : ¬ (Node.object header properties).AcceptsAnyway (.object mark members) := by
      rwa [Schema.acceptsAnyway_object_iff]
    rw [haccept, Registry.accepts_iff, or_iff_right hanyway]
    exact or_iff_left fun hself => hnames hself.1
  · have hcheck := hs.checkNode_eq_ok h (Schema.mem_nodes_iff.2 (Or.inl schema.root.mem_subnodes_self))
    rw [hroot] at hcheck
    have hreferences := Node.checkReferences_eq_ok_iff.1 (Registry.checkNode_eq_ok_iff.1 hcheck).2.1
    obtain ⟨hstands, hchildren, -⟩ := hreferences.resolve_left hnames
    obtain rfl : properties = [] := List.map_eq_nil_iff.1 hchildren
    obtain ⟨v, hv, -⟩ := Value.exists_parse_member hparse hmember member.1
    rw [validateMember_eq h hv]
    exact Schema.acceptMember_eq_error hroot (Rules.constraint?_additionalProperties_eq_none hstands)
  · have hdistinct := hs.hasDistinctKeys h
    rw [hroot] at hdistinct
    rw [validate_eq h hparse, Schema.accept_object_eq_ok_iff hroot hdepth hopen hnames hdistinct
      (Value.nodup_keys_of_parse_eq_ok hparse)]
    exact and_congr_left' (forall₂_congr fun member hmember => (validateMember_eq_ok_iff h hparse hmember).symm)

/-! ## An object with one member -/

/-- An object with one property that has no types and no rule on other members, and an object with one literal
for a member. -/
def isFlat (node : Node) (value : Value) : Bool :=
  match node, value with
  | .object header [(key, .literal inner _)], .object _ [(_, _, .literal _)] =>
    header.rules.typeNames.isEmpty && !key.isShortcut &&
      (header.rules.constraint? .additionalProperties).isNone && inner.rules.typeNames.isEmpty
  | _, _ => false

/-- Validating one against the other leads to the member and no further. -/
theorem exists_of_isFlat (types : Registry) {node : Node} {value : Value} (h : isFlat node value = true) :
    ∃ header properties mark members, node = .object header properties ∧ value = .object mark members ∧
      header.rules.typeNames = [] ∧ types.VisitsWithin 1 (.object header properties, .object mark members) := by
  unfold isFlat at h
  split at h
  · next header key inner sample? mark name m leaf =>
    simp only [Bool.and_eq_true, List.isEmpty_iff, Option.isNone_iff_eq_none, Bool.not_eq_true'] at h
    obtain ⟨⟨⟨hnames, hkey⟩, hrule⟩, hinner⟩ := h
    refine ⟨_, _, _, _, rfl, rfl, hnames, Registry.visitsWithin_succ_iff.2 fun y hy => ?_⟩
    obtain ⟨p, hp, member, hmember, rfl⟩ := hy.of_object hnames (List.forall_mem_singleton.2 hkey) hrule
    obtain rfl := List.mem_singleton.1 hp
    obtain rfl := List.mem_singleton.1 hmember
    have hleaf : types.RefersWithin 0 (.literal inner sample?) := hinner
    exact hleaf.visitsWithin leaf
  · cases h

/-- An object with a number, and what it may be. -/
def numbered : Session := ofText "\x7b\"id\": 1 // \x7bmin: 1\x7d\n\x7d"

/-- The text of such an object. -/
def five : Bytes := Bytes.ofString "\x7b\"id\": 5\x7d"

/-- The schema of that session and the value of that text, if they are flat. -/
def numbered? : Option (Schema × Value) :=
  match numbered.compiled, Value.parse ⟨"value", five⟩ with
  | .ok schema, .ok value =>
    if isFlat schema.root value && !schema.root.header.declared?.any BuiltinType.isUnrestricted then
      some (schema, value)
    else none
  | _, _ => none

/-- An object with a number is valid if the number is. -/
theorem validate_numbered : ∃ schema header properties mark members, numbered.compiled = .ok schema ∧
    schema.root = .object header properties ∧ Value.parse ⟨"value", five⟩ = .ok (.object mark members) ∧
    schema.types.VisitsWithin acceptLimit (schema.root, .object mark members) ∧
    (numbered.validate five = .ok () ↔ numbered.AcceptsByMembers properties members) := by
  have hflat : numbered?.isSome = true := by decide +kernel
  rw [numbered?] at hflat
  split at hflat
  · next schema value hcompiled hparse =>
    rw [Option.isSome_ite, Bool.and_eq_true, Bool.not_eq_true', ← Bool.not_eq_true, Option.any_eq_true] at hflat
    obtain ⟨header, properties, mark, members, hroot, rfl, hnames, hwithin⟩ :=
      exists_of_isFlat schema.types hflat.1
    have hdepth : schema.types.VisitsWithin acceptLimit (schema.root, .object mark members) :=
      hroot ▸ hwithin.mono (by decide)
    have hopen := hflat.2
    rw [hroot] at hopen
    have hthree := (arises_ofText _).validate_iff_members hcompiled hroot hparse hdepth
    exact ⟨schema, header, properties, mark, members, hcompiled, hroot, hparse, hdepth,
      hthree.2.2 hopen hnames⟩
  · cases hflat

/-! ## An object that refers to a type -/

/-- A document that is written as an object and refers to a type of objects with a number. -/
def referring : Outcome Session :=
  addType { source := .ofString "root" "\x7b\x7d // \x7btype: \"@Person\"\x7d" } "@Person"
    (.ofString "@Person" "\x7b\"id\": 1\x7d")

/-- Whether a root refers to that type, and the type is flat. -/
def refersToFlat (schema : Schema) (value : Value) : Bool :=
  match schema.root, schema.types.root? "@Person" with
  | .object header [], some root => header.rules.typeNames == ["@Person"] && isFlat root value
  | _, _ => false

/-- Validating a value against such a root leads to the type, to the member and no further. -/
theorem exists_of_refersToFlat {schema : Schema} {value : Value} (h : refersToFlat schema value = true) :
    ∃ header mark members, schema.root = .object header [] ∧ value = .object mark members ∧
      schema.types.VisitsWithin 2 (schema.root, .object mark members) := by
  unfold refersToFlat at h
  split at h
  · next header root hroot htype =>
    rw [Bool.and_eq_true, beq_iff_eq] at h
    obtain ⟨hnames, hflat⟩ := h
    obtain ⟨inner, properties, mark, members, rfl, rfl, -, hwithin⟩ := exists_of_isFlat schema.types hflat
    refine ⟨header, mark, members, hroot, rfl, Registry.visitsWithin_succ_iff.2 fun ⟨node, value⟩ hy => ?_⟩
    rw [hroot] at hy
    have hsome : (Node.object header []).rules.typeNames = ["@Person"] := hnames
    obtain ⟨⟨name, hname, hfound⟩, rfl⟩ := hy.of_typeNames_ne_nil (by rw [hsome]; exact List.cons_ne_nil _ _)
    rw [hsome] at hname
    obtain rfl := List.mem_singleton.1 hname
    obtain rfl := Option.some.inj (htype.symm.trans hfound)
    exact hwithin
  · cases h

/-- The members of a value that are not valid by themselves. -/
def refusedMembers (s : Session) (value : Value) : List String :=
  match value with
  | .object _ members =>
    (members.filter fun member => !(s.validateMember member.1 member.2.2.bytes).isOk).map Prod.fst
  | _ => []

/-- That session with its schema, and the value of an object with a number, if the value is valid and the number
is not. -/
def referring? : Option (Session × Schema × Value) :=
  match referring, Value.parse ⟨"value", five⟩ with
  | .ok s, .ok value =>
    match s.compiled with
    | .ok schema =>
      if (refersToFlat schema value && (s.validate five).isOk) && refusedMembers s value == ["id"] then
        some (s, schema, value)
      else none
    | .error _ => none
  | _, _ => none

/-- An object may be valid that has a member which is not valid by itself. -/
theorem referring_differs : ∃ s schema header properties mark members, referring = .ok s ∧ s.Arises ∧
    s.compiled = .ok schema ∧ schema.root = .object header properties ∧
    Value.parse ⟨"value", five⟩ = .ok (.object mark members) ∧
    schema.types.VisitsWithin acceptLimit (schema.root, .object mark members) ∧
    s.validate five = .ok () ∧ ¬ s.AcceptsByMembers properties members := by
  have hdiffers : referring?.isSome = true := by decide +kernel
  rw [referring?] at hdiffers
  split at hdiffers
  · next s value hs hparse =>
    split at hdiffers
    · next schema hcompiled =>
      rw [Option.isSome_ite, Bool.and_eq_true, Bool.and_eq_true, beq_iff_eq] at hdiffers
      obtain ⟨⟨hflat, hvalid⟩, hrefused⟩ := hdiffers
      obtain ⟨header, mark, members, hroot, rfl, hwithin⟩ := exists_of_refersToFlat hflat
      refine ⟨s, schema, header, [], mark, members, hs, .addType (.start _) hs, hcompiled, hroot, hparse,
        hwithin.mono (by decide), isOk_iff.1 hvalid, fun haccepts => ?_⟩
      have hid : "id" ∈ refusedMembers s (.object mark members) := by
        rw [hrefused]
        exact List.mem_singleton.2 rfl
      obtain ⟨member, hmember, -⟩ := List.mem_map.1 hid
      obtain ⟨hmember, hrefused⟩ := List.mem_filter.1 hmember
      rw [isOk_iff.2 (haccepts.1 member hmember)] at hrefused
      cases hrefused
    · cases hdiffers
  · cases hdiffers

end Session
end ExampleSchema
