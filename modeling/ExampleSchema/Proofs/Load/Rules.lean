import ExampleSchema.Proofs.Catalog
import ExampleSchema.Proofs.Load.Nodes
import Mathlib.Data.List.Infix

/-!
# What the rules of a note become

The rules of a note become constraints.  Members of unions that are written in place are registered on
the way as types without a name, and the union refers to them by the names that they are given.  The
registry only ever grows at its end, under names that are counted, so a name that has been given keeps
its type.

* `ReadsRules`, `ReadsUnion`, `ReadsMembers`, `ReadsMember`: the constraints of rules and the names of
  unions, given what each name is registered as.  No registry is passed along.
* `Unnamed.nameOf`, `Unnamed.InOrder`: the names that are given.
* `Unnamed.Extends`: one registry goes on where another ends.
* `ReadsRules.exists_union`: a union among constraints is one among the rules.
* `RuleValue.constraintsOf_reads`: this is what rules become, in the registry at the end and in every
  registry that extends it.
-/

namespace ExampleSchema

/-! ## Rules -/

section

/- What a name stands for: a node, and where it begins. -/
variable (stands : String → Node → Nat → Prop)

mutual
/-- The constraints of some rules. -/
inductive ReadsRules : List (String × Mark × RuleValue) → List Rule → Prop where
  | nil : ReadsRules [] []
  | union {name : String} {key : Mark} {value : RuleValue} {names : List String}
      {rest : List (String × Mark × RuleValue)} {others : List Rule} :
      RuleValue.isUnion name = true → ReadsUnion value names → ReadsRules rest others →
      ReadsRules ((name, key, value) :: rest)
        ({ constraint := .types names, mark? := some value.mark } ::
          { constraint := .or, mark? := some value.mark } :: others)
  | rule {name : String} {key : Mark} {value : RuleValue} {constraint : Constraint}
      {rest : List (String × Mark × RuleValue)} {others : List Rule} :
      RuleValue.isUnion name = false → value.constraint name key = .ok constraint →
      ReadsRules rest others →
      ReadsRules ((name, key, value) :: rest)
        ({ constraint, mark? := some value.mark } :: others)

/-- The names of a union. -/
inductive ReadsUnion : RuleValue → List String → Prop where
  | shortcut {mark : Mark} {names : List String} :
      Shortcut.names mark = .ok names → ReadsUnion (.shortcut mark) names
  | array {mark : Mark} {items : List RuleValue} {names : List String} :
      items ≠ [] → ReadsMembers items names → ReadsUnion (.array mark items) names

/-- The names of listed members of a union, in order. -/
inductive ReadsMembers : List RuleValue → List String → Prop where
  | nil : ReadsMembers [] []
  | cons {item : RuleValue} {rest : List RuleValue} {names others : List String} :
      ReadsMember item names → ReadsMembers rest others →
      ReadsMembers (item :: rest) (names ++ others)

/-- The names of one listed member of a union.  What is written in place has one name, which stands for
the node that is built from it. -/
inductive ReadsMember : RuleValue → List String → Prop where
  | shortcut {mark : Mark} {names : List String} :
      Shortcut.names mark = .ok names → ReadsMember (.shortcut mark) names
  | userType {mark : Mark} {name : String} :
      Literal.string mark.bytes = .ok name → isUserTypeName name = true →
      ReadsMember (.literal mark) [name]
  | builtinType {mark : Mark} {word name : String} {type : BuiltinType} {node : Node} :
      Literal.string mark.bytes = .ok word → BuiltinType.ofName? word = some type →
      (RuleValue.memberNode (.builtin type) mark).apply
        [{ constraint := .type (.builtin type), mark? := some mark }] = .ok node →
      stands name node mark.start → ReadsMember (.literal mark) [name]
  | rules {mark : Mark} {rules : List (String × Mark × RuleValue)} {added : List Rule} {name : String}
      {node : Node} :
      ReadsRules rules added → RuleValue.memberOfRules mark added = .ok node →
      stands name node mark.start → ReadsMember (.object mark rules) [name]
end

end

variable {stands stands' : String → Node → Nat → Prop}

mutual
/-- Where names stand for more, rules still become the same. -/
theorem ReadsRules.mono (h : ∀ name node start, stands name node start → stands' name node start)
    {rules : List (String × Mark × RuleValue)} {added : List Rule} :
    ReadsRules stands rules added → ReadsRules stands' rules added
  | .nil => .nil
  | .union hname hvalue hrest => .union hname (hvalue.mono h) (hrest.mono h)
  | .rule hname hvalue hrest => .rule hname hvalue (hrest.mono h)

theorem ReadsUnion.mono (h : ∀ name node start, stands name node start → stands' name node start)
    {value : RuleValue} {names : List String} :
    ReadsUnion stands value names → ReadsUnion stands' value names
  | .shortcut hnames => .shortcut hnames
  | .array hitems hmembers => .array hitems (hmembers.mono h)

theorem ReadsMembers.mono (h : ∀ name node start, stands name node start → stands' name node start)
    {items : List RuleValue} {names : List String} :
    ReadsMembers stands items names → ReadsMembers stands' items names
  | .nil => .nil
  | .cons hitem hrest => .cons (hitem.mono h) (hrest.mono h)

theorem ReadsMember.mono (h : ∀ name node start, stands name node start → stands' name node start)
    {item : RuleValue} {names : List String} :
    ReadsMember stands item names → ReadsMember stands' item names
  | .shortcut hnames => .shortcut hnames
  | .userType hword hname => .userType hword hname
  | .builtinType hword htype hnode hstands => .builtinType hword htype hnode (h _ _ _ hstands)
  | .rules hrules hnode hstands => .rules (hrules.mono h) hnode (h _ _ _ hstands)
end

/-- Some rules have been read, given what names stand for. -/
def ReadIn (stands : String → Node → Nat → Prop) (added : List Rule) : Prop :=
  ∃ rules, ReadsRules stands rules added

/-- Some rules have been read, whatever names stand for. -/
def AreRead (added : List Rule) : Prop := ∃ stands rules, ReadsRules stands rules added

theorem ReadIn.mono (h : ∀ name node start, stands name node start → stands' name node start) {added : List Rule} :
    ReadIn stands added → ReadIn stands' added := fun ⟨rules, hadded⟩ => ⟨rules, hadded.mono h⟩

theorem ReadIn.areRead {added : List Rule} (h : ReadIn stands added) : AreRead added := ⟨stands, h⟩

/-! ## Names -/

namespace Unnamed

/-- The name of an unnamed type: that of the owner of its document, and a number. -/
def nameOf (owner : String) (number : Nat) : String := owner ++ "#" ++ toString number

/-- Numbers are written without the sign before them. -/
theorem hash_notMem_toString (number : Nat) : '#' ∉ (toString number).toList := by
  intro h
  change '#' ∈ number.repr.toList at h
  rw [Nat.toList_repr] at h
  exact absurd (Nat.isDigit_of_mem_toDigits (by decide) (by decide) h) (by decide)

/-- Two lists that agree agree before and after the first entry of some kind. -/
theorem append_cons_inj_of_notMem {α : Type} {a : α} {before before' after after' : List α}
    (hbefore : a ∉ before) (hbefore' : a ∉ before')
    (h : before ++ a :: after = before' ++ a :: after') : before = before' ∧ after = after' := by
  rcases List.append_eq_append_iff.1 h with ⟨more, rfl, hmore⟩ | ⟨more, rfl, hmore⟩
  all_goals
    cases more with
    | nil => simp_all
    | cons b more =>
      obtain ⟨rfl, -⟩ := List.cons.inj hmore
      simp_all

/-- **A name tells its owner and its number.** -/
theorem nameOf_inj {owner owner' : String} {number number' : Nat}
    (h : nameOf owner number = nameOf owner' number') : owner = owner' ∧ number = number' := by
  have hlists : owner.toList ++ '#' :: (toString number).toList =
      owner'.toList ++ '#' :: (toString number').toList := by
    simpa [nameOf] using congrArg String.toList h
  have hreverse := congrArg List.reverse hlists
  simp only [List.reverse_append, List.reverse_cons, List.append_assoc, List.singleton_append] at hreverse
  -- Read from the end, the first sign is where the digits stop.
  obtain ⟨hdigits, howner⟩ := append_cons_inj_of_notMem
    (mt List.mem_reverse.1 (hash_notMem_toString number))
    (mt List.mem_reverse.1 (hash_notMem_toString number')) hreverse
  refine ⟨String.toList_inj.1 (List.reverse_injective howner), ?_⟩
  have hdigits : number.repr.toList = number'.repr.toList := List.reverse_injective hdigits
  rw [Nat.toList_repr, Nat.toList_repr] at hdigits
  rw [← Nat.ofDigitChars_ten_toDigits (n := number), hdigits, Nat.ofDigitChars_ten_toDigits]

/-- The sign before the number is in no name of a type of the user. -/
theorem hash_notMem_of_isUserTypeName {name : String} (h : isUserTypeName name = true) : '#' ∉ name.toList := by
  intro hmem
  rw [isUserTypeName] at h
  split at h
  · next rest hrest =>
    rw [hrest] at hmem
    simp only [Bool.and_eq_true, List.all_eq_true] at h
    have hsign := h.2 '#' (by simpa using hmem)
    exact absurd hsign (by decide)
  · cases h

/-- No type of the user has a name like those that are given. -/
theorem nameOf_ne_userTypeName {owner name : String} {number : Nat}
    (h : isUserTypeName name = true) : nameOf owner number ≠ name := by
  rintro rfl
  exact hash_notMem_of_isUserTypeName h (by simp [nameOf])

/-- A registry that goes on where another ends. -/
structure Extends (u v : Unnamed) : Prop where
  source : v.source = u.source
  owner : v.owner = u.owner
  types : u.types <+: v.types

/-- A name stands for a node that begins at some place of the document. -/
def Has (u : Unnamed) (name : String) (node : Node) (start : Nat) : Prop :=
  Catalog.find? u.types name = some { root := node, source := u.source, start }

namespace Extends

variable {u v w : Unnamed}

theorem refl (u : Unnamed) : u.Extends u := ⟨rfl, rfl, List.prefix_refl _⟩

theorem trans (h : u.Extends v) (h' : v.Extends w) : u.Extends w :=
  ⟨h'.source.trans h.source, h'.owner.trans h.owner, h.types.trans h'.types⟩

/-- A name keeps what it stands for. -/
theorem has (h : u.Extends v) {name : String} {node : Node} {start : Nat}
    (hname : u.Has name node start) : v.Has name node start := by
  obtain ⟨more, hmore⟩ := h.types
  rw [Has, ← hmore, h.source, Catalog.find?_append, hname]
  rfl

end Extends

/-- The types have the names of their owner, numbered in order, are those of their document, and come of
members of unions by reading rules, whose names stand for such types. -/
structure InOrder (u : Unnamed) : Prop where
  names : Catalog.keys u.types = (List.range u.types.length).map fun i => nameOf u.owner (i + 1)
  source : ∀ e ∈ u.types, e.2.source = u.source
  areWritten : ∀ e ∈ u.types, e.2.root.IsWritten (ReadIn u.Has) .member

section

variable {u : Unnamed} (hu : u.InOrder) (root : Node) (start : Nat)
include hu

/-- Each type is called after the owner. -/
theorem InOrder.exists_eq_nameOf {name : String} (h : name ∈ Catalog.keys u.types) :
    ∃ number, name = nameOf u.owner number := by
  rw [hu.names] at h
  obtain ⟨i, -, rfl⟩ := List.mem_map.1 h
  exact ⟨i + 1, rfl⟩

/-- No two types have one name. -/
theorem InOrder.nodup : (Catalog.keys u.types).Nodup := by
  rw [hu.names]
  exact List.nodup_range.map fun i j h => by simpa using (nameOf_inj h).2

/-- The next name is new. -/
theorem InOrder.nextName_notMem : nameOf u.owner (u.types.length + 1) ∉ Catalog.keys u.types := by
  rw [hu.names, List.mem_map]
  rintro ⟨i, hi, hname⟩
  have hlt := List.mem_range.1 hi
  have heq := (nameOf_inj hname).2
  omega

theorem InOrder.register_eq : u.register root start =
    (nameOf u.owner (u.types.length + 1), { u with types := u.types ++
      [(nameOf u.owner (u.types.length + 1), { root, source := u.source, start })] }) := by
  rw [← Catalog.insert_of_notMem hu.nextName_notMem]
  rfl

theorem InOrder.extends_register : u.Extends (u.register root start).2 := by
  rw [hu.register_eq]
  exact ⟨rfl, rfl, List.prefix_append _ _⟩

theorem InOrder.register {root : Node} (hroot : root.IsWritten (ReadIn u.Has) .member) (start : Nat) :
    (u.register root start).2.InOrder := by
  have hlater : ∀ added, ReadIn u.Has added → ReadIn (u.register root start).2.Has added := fun _ =>
    ReadIn.mono fun _ _ _ => (hu.extends_register root start).has
  rw [hu.register_eq] at hlater ⊢
  refine ⟨?_, fun e he => ?_, fun e he => ?_⟩
  · rw [List.length_append, List.length_singleton, List.range_succ, List.map_append, Catalog.keys,
      List.map_append]
    exact congrArg (· ++ _) hu.names
  · rcases List.mem_append.1 he with he | he
    · exact hu.source e he
    · rw [List.mem_singleton.1 he]
  · rcases List.mem_append.1 he with he | he
    · exact (hu.areWritten e he).mono hlater
    · rw [List.mem_singleton.1 he]
      exact hroot.mono hlater

/-- A type is found under the name that it is given. -/
theorem InOrder.register_has :
    (u.register root start).2.Has (u.register root start).1 root start := by
  rw [hu.register_eq, Has, Catalog.find?_append,
    Catalog.find?_eq_none_iff.2 hu.nextName_notMem, Catalog.find?_cons]
  simp

end
end Unnamed

/-! ## Unions among rules -/

/-- What is read for a kind is of that kind. -/
theorem Constraint.kind_eq_of_read? {kind : ConstraintKind} {literal : Bytes} {c : Constraint}
    (h : Constraint.read? kind literal = some (.ok c)) : c.kind = kind := by
  have hmap : ∀ {α : Type} {x : Verdict α} {f : α → Constraint}, some (x.map f) = some (.ok c) →
      ∃ a, c = f a := by
    intro α x f hx
    cases x with
    | error cause => cases hx
    | ok a => exact ⟨a, (Except.ok.inj (Option.some.inj hx)).symm⟩
  cases kind
  case type | types | or | allOf | enum | format => cases h
  all_goals
    obtain ⟨a, rfl⟩ := hmap h
    rfl

/-- A rule that is not written as a union is none. -/
theorem RuleValue.kind_ne_of_constraint_eq_ok {name : String} {key : Mark} {value : RuleValue}
    {c : Constraint} (h : value.constraint name key = .ok c) : c.kind ≠ .types ∧ c.kind ≠ .or := by
  have hmap : ∀ {α : Type} {x : Outcome α} {f : α → Constraint}, f <$> x = .ok c →
      ∃ a, c = f a := by
    intro α x f hx
    cases x with
    | error p => cases hx
    | ok a => exact ⟨a, (Except.ok.inj hx).symm⟩
  rw [constraint] at h
  split at h
  · cases h
  case h_2 | h_3 | h_4 | h_5 =>
    obtain ⟨a, rfl⟩ := hmap h
    exact ⟨nofun, nofun⟩
  · cases h
  · next kind _ _ _ _ _ _ =>
    obtain ⟨mark, -, h⟩ := Except.bind_eq_ok_iff.1 h
    split at h
    · next verdict hread =>
      obtain rfl : verdict = .ok c := Except.mapError_eq_ok_iff.1 h
      rw [Constraint.kind_eq_of_read? hread]
      constructor
      all_goals
        rintro rfl
        cases hread
    · cases h

/-- A union among constraints that have been read is written among the rules. -/
theorem ReadsRules.exists_union {rules : List (String × Mark × RuleValue)} {added : List Rule} :
    ReadsRules stands rules added → ∀ r ∈ added, ∀ names, r.constraint = .types names →
      ∃ e ∈ rules, RuleValue.isUnion e.1 = true ∧ r.mark? = some e.2.2.mark ∧
        ReadsUnion stands e.2.2 names
  | .nil => fun r hr => (List.not_mem_nil hr).elim
  | .union hname hvalue hrest => by
    intro r hr names hc
    simp only [List.mem_cons] at hr
    rcases hr with rfl | rfl | hr
    · obtain rfl := Constraint.types.inj hc
      exact ⟨_, List.mem_cons_self .., hname, rfl, hvalue⟩
    · cases hc
    · obtain ⟨e, he, hunion⟩ := hrest.exists_union r hr names hc
      exact ⟨e, List.mem_cons_of_mem _ he, hunion⟩
  | .rule hname hconstraint hrest => by
    intro r hr names hc
    rcases List.mem_cons.1 hr with rfl | hr
    · dsimp only at hc
      subst hc
      exact ((RuleValue.kind_ne_of_constraint_eq_ok hconstraint).1 rfl).elim
    · obtain ⟨e, he, hunion⟩ := hrest.exists_union r hr names hc
      exact ⟨e, List.mem_cons_of_mem _ he, hunion⟩

/-! ## Reading rules -/

namespace RuleValue

/-- A registry has grown in order, and in the end has what was read on the way. -/
structure Reads (u v : Unnamed) (holds : (String → Node → Nat → Prop) → Prop) : Prop where
  ext : u.Extends v
  inOrder : v.InOrder
  holds : holds v.Has

namespace Reads

variable {u v w : Unnamed} {name : String} {key mark : Mark} {value item : RuleValue}
  {items : List RuleValue} {rules : List (String × Mark × RuleValue)} {names otherNames : List String}
  {added others : List Rule}

/-- What is read without registering anything. -/
theorem of_holds (hu : u.InOrder) {holds : (String → Node → Nat → Prop) → Prop} (h : holds u.Has) :
    Reads u u holds := ⟨.refl u, hu, h⟩

/-- A member that is written as rules is registered after those of its rules. -/
theorem register (h : Reads u w (ReadsRules · rules added)) {node : Node}
    (hnode : memberOfRules mark added = .ok node) :
    Reads u (w.register node mark.start).2 fun stands =>
      ReadsMember stands (.object mark rules) [(w.register node mark.start).1] := by
  have hlater := h.inOrder.extends_register node mark.start
  exact ⟨h.ext.trans hlater, h.inOrder.register (Node.isWritten_of_memberOfRules ⟨_, h.holds⟩ hnode) _,
    .rules (h.holds.mono fun _ _ _ => hlater.has) hnode (h.inOrder.register_has node _)⟩

/-- One member, and then the others. -/
theorem member (h : Reads u w (ReadsMember · item names))
    (hrest : Reads w v (ReadsMembers · items otherNames)) :
    Reads u v (ReadsMembers · (item :: items) (names ++ otherNames)) :=
  ⟨h.ext.trans hrest.ext, hrest.inOrder, .cons (h.holds.mono fun _ _ _ => hrest.ext.has) hrest.holds⟩

/-- One rule that is written as a union, and then the others. -/
theorem union (hname : isUnion name = true) (h : Reads u w (ReadsUnion · value names))
    (hrest : Reads w v (ReadsRules · rules others)) :
    Reads u v (ReadsRules · ((name, key, value) :: rules)
      ({ constraint := .types names, mark? := some value.mark } ::
        { constraint := .or, mark? := some value.mark } :: others)) :=
  ⟨h.ext.trans hrest.ext, hrest.inOrder,
    .union hname (h.holds.mono fun _ _ _ => hrest.ext.has) hrest.holds⟩

/-- One rule that is not, and then the others. -/
theorem rule (hname : isUnion name = false) {constraint : Constraint}
    (hconstraint : value.constraint name key = .ok constraint)
    (hrest : Reads u v (ReadsRules · rules others)) :
    Reads u v (ReadsRules · ((name, key, value) :: rules)
      ({ constraint, mark? := some value.mark } :: others)) :=
  ⟨hrest.ext, hrest.inOrder, .rule hname hconstraint hrest.holds⟩

end Reads

/-- The name of a built-in type stands for the rule that declares it. -/
theorem readIn_type (stands : String → Node → Nat → Prop) {mark : Mark} {word : String} {type : BuiltinType}
    (hstring : Literal.isString mark.bytes = true) (hword : Literal.string mark.bytes = .ok word)
    (htype : BuiltinType.ofName? word = some type) :
    ReadIn stands [{ constraint := .type (.builtin type), mark? := some mark }] := by
  refine ⟨[(ConstraintKind.type.name, mark, .literal mark)], .rule ?_ ?_ .nil⟩
  · decide
  · have htypeName : (literal mark).typeName = .ok (.builtin type) := by
      rw [typeName, string?, if_pos hstring, hword]
      · change (TypeName.read word).anywhere = _
        rw [TypeName.read, htype]
        rfl
      · exact nofun
    have hkind : ConstraintKind.ofName? ConstraintKind.type.name = some .type := by decide
    rw [constraint, hkind]
    dsimp only
    rw [htypeName]
    rfl

/-- The name of a member that is written as a string. -/
theorem memberOfName_reads {u v : Unnamed} (hu : u.InOrder) {mark : Mark} {name : String}
    (hstring : Literal.isString mark.bytes = true) (h : memberOfName u mark = .ok (name, v)) :
    Reads u v fun stands => ReadsMember stands (.literal mark) [name] := by
  obtain ⟨word, hword, h⟩ := Except.bind_eq_ok_iff.1 h
  have hword := Except.mapError_eq_ok_iff.1 hword
  split at h
  · next hname =>
    obtain ⟨rfl, rfl⟩ := Prod.mk.inj (Except.ok.inj h)
    exact .of_holds hu (.userType hword hname)
  · split at h
    · cases h
    · next type htype =>
      obtain ⟨node, hnode, h⟩ := Except.bind_eq_ok_iff.1 h
      obtain rfl : (u.register node mark.start).1 = name := congrArg Prod.fst (Except.ok.inj h)
      obtain rfl : (u.register node mark.start).2 = v := congrArg Prod.snd (Except.ok.inj h)
      have hwritten : node.IsWritten (ReadIn u.Has) .member :=
        .rules (.member (.builtin type) mark) (readIn_type u.Has hstring hword htype) hnode
      exact ⟨hu.extends_register node _, hu.register hwritten _,
        .builtinType hword htype hnode (hu.register_has node _)⟩

/-- **What the rules of a note become**, and the unions among them. -/
theorem reads :
    (∀ (u : Unnamed) (rules : List (String × Mark × RuleValue)), u.InOrder → ∀ added v,
      constraintsOf u rules = .ok (added, v) → Reads u v (ReadsRules · rules added)) ∧
    (∀ (rule : String) (u : Unnamed) (value : RuleValue), u.InOrder → ∀ names v,
      value.unionNames rule u = .ok (names, v) → Reads u v (ReadsUnion · value names)) ∧
    (∀ (rule : String) (u : Unnamed) (items : List RuleValue), u.InOrder → ∀ names v,
      memberNames rule u items = .ok (names, v) → Reads u v (ReadsMembers · items names)) ∧
    (∀ (rule : String) (u : Unnamed) (item : RuleValue), u.InOrder → ∀ names v,
      item.memberNamesOf rule u = .ok (names, v) → Reads u v (ReadsMember · item names)) := by
  apply constraintsOf.mutual_induct
  -- The values of a union.
  case case1 =>
    intro rule u mark hu names v h
    rw [unionNames] at h
    obtain ⟨names', hnames, h⟩ := Except.bind_eq_ok_iff.1 h
    obtain ⟨rfl, rfl⟩ := Prod.mk.inj (Except.ok.inj h)
    exact .of_holds hu (.shortcut hnames)
  case case2 =>
    intro rule u mark items hitems hu names v h
    rw [unionNames, if_pos hitems] at h
    cases h
  case case3 =>
    intro rule u mark items hitems ih hu names v h
    rw [unionNames, if_neg hitems] at h
    obtain ⟨hext, hv, hmembers⟩ := ih hu names v h
    exact ⟨hext, hv, .array (by simpa using hitems) hmembers⟩
  case case4 =>
    intro rule u mark hu names v h
    rw [unionNames] at h
    cases h
  case case5 =>
    intro rule u mark rules hu names v h
    rw [unionNames] at h
    cases h
  -- The members of a union.
  case case6 =>
    intro rule u mark hu names v h
    rw [memberNamesOf] at h
    obtain ⟨names', hnames, h⟩ := Except.bind_eq_ok_iff.1 h
    obtain ⟨rfl, rfl⟩ := Prod.mk.inj (Except.ok.inj h)
    exact .of_holds hu (.shortcut hnames)
  case case7 =>
    intro rule u mark rules htype ih hu names v h
    rw [memberNamesOf, if_pos htype] at h
    obtain ⟨⟨added, w⟩, hadded, h⟩ := Except.bind_eq_ok_iff.1 h
    obtain ⟨node, hnode, h⟩ := Except.bind_eq_ok_iff.1 h
    obtain ⟨rfl, rfl⟩ := Prod.mk.inj (Except.ok.inj h)
    exact (ih hu added w hadded).register hnode
  case case8 =>
    intro rule u mark rules htype hu names v h
    rw [memberNamesOf, if_neg htype] at h
    cases h
  case case9 =>
    intro rule u mark hstring hu names v h
    rw [memberNamesOf, if_pos hstring] at h
    obtain ⟨⟨name, w⟩, hname, h⟩ := Except.bind_eq_ok_iff.1 h
    obtain ⟨rfl, rfl⟩ := Prod.mk.inj (Except.ok.inj h)
    exact memberOfName_reads hu hstring hname
  case case10 =>
    intro rule u mark hstring hu names v h
    rw [memberNamesOf, if_neg hstring] at h
    cases h
  case case11 =>
    intro rule u mark items hu names v h
    rw [memberNamesOf] at h
    cases h
  -- The members one after another.
  case case12 =>
    intro rule u hu names v h
    rw [memberNames] at h
    obtain ⟨rfl, rfl⟩ := Prod.mk.inj (Except.ok.inj h)
    exact .of_holds hu .nil
  case case13 =>
    intro rule u item rest ihitem ihrest hu names v h
    rw [memberNames] at h
    obtain ⟨⟨names', w⟩, hitem, h⟩ := Except.bind_eq_ok_iff.1 h
    obtain ⟨⟨others, w'⟩, hrest, h⟩ := Except.bind_eq_ok_iff.1 h
    obtain ⟨rfl, rfl⟩ := Prod.mk.inj (Except.ok.inj h)
    have hmember := ihitem hu names' w hitem
    exact hmember.member (ihrest w hmember.inOrder others w' hrest)
  -- The rules one after another.
  case case14 =>
    intro u hu added v h
    rw [constraintsOf] at h
    obtain ⟨rfl, rfl⟩ := Prod.mk.inj (Except.ok.inj h)
    exact .of_holds hu .nil
  case case15 =>
    intro u name key value rest ihvalue ihrest hu added v h
    rw [constraintsOf] at h
    obtain ⟨⟨constraints, w⟩, hvalue, h⟩ := Except.bind_eq_ok_iff.1 h
    obtain ⟨⟨others, w'⟩, hrest, h⟩ := Except.bind_eq_ok_iff.1 h
    obtain ⟨rfl, rfl⟩ := Prod.mk.inj (Except.ok.inj h)
    have hvalue := Except.mapError_eq_ok_iff.1 hvalue
    cases hname : isUnion name with
    | true =>
      rw [if_pos hname] at hvalue
      obtain ⟨⟨names, w''⟩, hnames, hvalue⟩ := Except.bind_eq_ok_iff.1 hvalue
      obtain ⟨rfl, rfl⟩ := Prod.mk.inj (Except.ok.inj hvalue)
      have hunion := ihvalue hu names _ hnames
      exact .union hname hunion (ihrest _ hunion.inOrder others w' hrest)
    | false =>
      rw [if_neg (by simp [hname])] at hvalue
      obtain ⟨constraint, hconstraint, hvalue⟩ := Except.bind_eq_ok_iff.1 hvalue
      obtain ⟨rfl, rfl⟩ := Prod.mk.inj (Except.ok.inj hvalue)
      exact .rule hname hconstraint (ihrest _ hu others w' hrest)

/-- The rules of a note become what they say, in the registry at the end. -/
theorem constraintsOf_reads {u v : Unnamed} (hu : u.InOrder)
    {rules : List (String × Mark × RuleValue)} {added : List Rule}
    (h : constraintsOf u rules = .ok (added, v)) : Reads u v (ReadsRules · rules added) :=
  reads.1 u rules hu added v h

end RuleValue
end ExampleSchema
