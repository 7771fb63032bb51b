import ExampleSchema.Proofs.Load.Rules
import ExampleSchema.Proofs.Order.Apply

/-!
# Notes in another order

The rules of a note, and those of the members of its unions, may be written in another order.  Each rule becomes
a constraint of its own.  The members of a union become types on the way, under names that are counted; but a
node has one union at most, so the rules around it do not change the count.

* `RuleValue.Rearranges`: values of rules whose objects are in another order.
* `RuleValue.Rearranges.agree_constraint`: the constraint of one rule.
* `RuleValue.exists_constraintsOf_of_perm`: the same rules in another order.
* `RuleValue.agree_constraintsOf_bind`: what is made of rules.
* `RuleValue.Rearranges.readAlike`: unions.
-/

namespace ExampleSchema

open Except

/-! ## Values -/

/-- **Two values of rules differ at most in their order**: in that of the rules of objects. -/
inductive RuleValue.Rearranges : RuleValue → RuleValue → Prop
  | literal {mark mark' : Mark} (hbytes : mark.bytes = mark'.bytes) : Rearranges (.literal mark) (.literal mark')
  | shortcut {mark mark' : Mark} (hbytes : mark.bytes = mark'.bytes) :
    Rearranges (.shortcut mark) (.shortcut mark')
  | array {mark mark' : Mark} {items items' : List RuleValue} (hlength : items.length = items'.length)
      (hitems : ∀ {item item'}, (item, item') ∈ items.zip items' → Rearranges item item') :
    Rearranges (.array mark items) (.array mark' items')
  | object {mark mark' : Mark} {rules reordered rules' : List (String × Mark × RuleValue)}
      (horder : rules.Perm reordered) (hlength : reordered.length = rules'.length)
      (hnames : ∀ {e e'}, (e, e') ∈ reordered.zip rules' → e.1 = e'.1)
      (hvalues : ∀ {e e'}, (e, e') ∈ reordered.zip rules' → Rearranges e.2.2 e'.2.2) :
    Rearranges (.object mark rules) (.object mark' rules')

/-- Rules in another order, with values that are related. -/
abbrev AreRearrangedEntries (V : RuleValue → RuleValue → Prop) (rules rules' : List (String × Mark × RuleValue)) :
    Prop :=
  IsRearranged (fun _ => false) (fun e e' => e.1 = e'.1 ∧ V e.2.2 e'.2.2) rules rules'

/-- The same rules or none, in another order. -/
abbrev AreRearrangedEntries? (rules? rules?' : Option (List (String × Mark × RuleValue))) : Prop :=
  Option.Rel (AreRearrangedEntries RuleValue.Rearranges) rules? rules?'

namespace RuleValue

theorem Rearranges.of_entries {mark mark' : Mark} {rules rules' : List (String × Mark × RuleValue)}
    (h : AreRearrangedEntries Rearranges rules rules') :
    (RuleValue.object mark rules).Rearranges (.object mark' rules') := by
  obtain ⟨middle, hperm, -, hrelated⟩ := h
  obtain ⟨hlength, hrules⟩ := List.forall₂_iff_zip.1 hrelated
  exact .object hperm hlength (fun h => (hrules h).1) fun h => (hrules h).2

theorem Rearranges.of_items {mark mark' : Mark} {items items' : List RuleValue}
    (h : List.Forall₂ Rearranges items items') : (RuleValue.array mark items).Rearranges (.array mark' items') := by
  obtain ⟨hlength, hitems⟩ := List.forall₂_iff_zip.1 h
  exact .array hlength hitems

/-- Values are in their own order. -/
theorem Rearranges.refl : ∀ value : RuleValue, value.Rearranges value
  | .literal _ => .literal rfl
  | .shortcut _ => .shortcut rfl
  | .array _ _ => .of_items (List.forall₂_same.2 fun item _ => refl item)
  | .object _ _ => .of_entries (.of_forall₂ (List.forall₂_same.2 fun e _ => ⟨rfl, refl e.2.2⟩))
termination_by value => sizeOf value
decreasing_by
  · next hitem => exact Nat.lt_trans (List.sizeOf_lt_of_mem hitem) (by simp only [array.sizeOf_spec]; omega)
  · next he =>
    have hlt := List.sizeOf_lt_of_mem he
    obtain ⟨name, key, value⟩ := e
    simp only [Prod.mk.sizeOf_spec] at hlt
    simp only [object.sizeOf_spec]
    omega

/-- **Induction down two values** that differ in their order. -/
@[elab_as_elim]
theorem Rearranges.induct {motive : (value value' : RuleValue) → value.Rearranges value' → Prop}
    (literal : ∀ {mark mark' : Mark} (hbytes : mark.bytes = mark'.bytes),
      motive (.literal mark) (.literal mark') (.literal hbytes))
    (shortcut : ∀ {mark mark' : Mark} (hbytes : mark.bytes = mark'.bytes),
      motive (.shortcut mark) (.shortcut mark') (.shortcut hbytes))
    (array : ∀ {mark mark' : Mark} {items items' : List RuleValue}
      (hitems : List.Forall₂ (fun a b => ∃ h : a.Rearranges b, motive a b h) items items'),
      motive (.array mark items) (.array mark' items') (.of_items (hitems.imp fun _ _ h => h.1)))
    (object : ∀ {mark mark' : Mark} {rules rules' : List (String × Mark × RuleValue)}
      (hrules : AreRearrangedEntries (fun a b => ∃ h : a.Rearranges b, motive a b h) rules rules'),
      motive (.object mark rules) (.object mark' rules')
        (.of_entries (hrules.mono fun _ _ h => ⟨h.1, h.2.1⟩)))
    {value value' : RuleValue} (h : value.Rearranges value') : motive value value' h := by
  induction h with
  | literal hbytes => exact literal hbytes
  | shortcut hbytes => exact shortcut hbytes
  | array hlength hitems ih =>
    exact array (List.forall₂_iff_zip.2 ⟨hlength, fun h => ⟨hitems h, ih h⟩⟩)
  | object horder hlength hnames hvalues ih =>
    exact object ⟨_, horder, by simp, List.forall₂_iff_zip.2 ⟨hlength, fun h => ⟨hnames h, hvalues h, ih h⟩⟩⟩

/-! ## Rules without unions -/

/-- The names of a shortcut do not depend on where it is written. -/
theorem agree_shortcutNames {mark mark' : Mark} (h : mark.bytes = mark'.bytes) :
    Agree Eq (Shortcut.names mark) (Shortcut.names mark') := by
  rw [Shortcut.names, Shortcut.names, Mark.text, Mark.text, h]
  generalize List.splitOn '|' mark'.bytes.toText.toList = parts
  refine agree_mapM_congr (fun part => ?_) parts
  generalize trimBoth (String.ofList part) = name
  dsimp only
  split <;> trivial

theorem agree_singleName {mark mark' : Mark} (h : mark.bytes = mark'.bytes) (rule : ConstraintKind)
    (expected : Expected) : Agree Eq (singleName rule expected mark) (singleName rule expected mark') := by
  refine (agree_shortcutNames h).bind fun names _ hnames => ?_
  subst hnames
  exact agree_refl _

namespace Rearranges

variable {value value' : RuleValue}

theorem agree_literalOf (h : value.Rearranges value') (rule : ConstraintKind) :
    Agree (fun mark mark' => mark.bytes = mark'.bytes) (value.literalOf rule) (value'.literalOf rule) := by
  cases h with
  | literal hbytes => exact hbytes
  | shortcut | array | object => trivial

theorem agree_string? (h : value.Rearranges value') : Agree Eq value.string? value'.string? := by
  cases h with
  | literal hbytes =>
    rw [string?, string?, hbytes]
    split
    · exact (agree_refl _).mapError.map fun _ _ => congrArg some
    · rfl
  | shortcut | array | object => rfl

/-- What is read off the text of a value. -/
theorem agree_string?_bind {β : Type} (h : value.Rearranges value') (read : Option String → Outcome β) :
    Agree Eq (value.string? >>= read) (value'.string? >>= read) :=
  h.agree_string?.bind fun _ _ hword => hword ▸ agree_refl _

theorem agree_typeName (h : value.Rearranges value') : Agree Eq value.typeName value'.typeName := by
  have hword := @agree_string?_bind _ _ TypeName h
  cases h with
  | shortcut hbytes => exact (agree_singleName hbytes _ _).map fun _ _ => congrArg TypeName.user
  | literal | array | object => exact hword _

theorem agree_allOfNames (h : value.Rearranges value') : Agree Eq value.allOfNames value'.allOfNames := by
  induction h using induct with
  | literal hbytes =>
    rw [allOfNames, allOfNames]
    exact (Rearranges.literal hbytes).agree_string?_bind _
  | shortcut hbytes =>
    rw [allOfNames, allOfNames]
    exact agree_shortcutNames hbytes
  | object =>
    rw [allOfNames, allOfNames]
    trivial
  | array hitems =>
    rw [allOfNames, allOfNames]
    induction hitems with
    | nil =>
      rw [allOfNamesOf]
      rfl
    | cons hitem _ ih =>
      rw [allOfNamesOf, allOfNamesOf]
      obtain ⟨-, hitem⟩ := hitem
      refine hitem.mapError.bind fun names _ hnames => ih.bind fun others _ hothers => ?_
      rw [hnames, hothers]
      rfl

theorem agree_enumeration (h : value.Rearranges value') : Agree Eq value.enumeration value'.enumeration := by
  have hword := @agree_string?_bind _ _ Enumeration h
  cases h with
  | shortcut hbytes => exact (agree_singleName hbytes _ _).map fun _ _ => congrArg Enumeration.ofRule
  | literal | object => exact hword _
  | array hlength hitems =>
    refine Agree.foldlM (List.forall₂_iff_zip.2 ⟨hlength, hitems⟩) rfl ?_
    rintro e _ item item' rfl hitem
    refine (hitem.agree_literalOf .enum).bind fun mark mark' hbytes => ?_
    rw [hbytes]
    exact (agree_refl _).mapError

theorem agree_additional (h : value.Rearranges value') : Agree Eq value.additional value'.additional := by
  have hword : Agree Eq
      (do Verdict.anywhere (Additional.read (← value.literalOf .additionalProperties).bytes))
      (do Verdict.anywhere (Additional.read (← value'.literalOf .additionalProperties).bytes)) :=
    (h.agree_literalOf _).bind fun mark mark' hbytes => hbytes ▸ agree_refl _
  cases h with
  | shortcut hbytes => exact (agree_singleName hbytes _ _).map fun _ _ => congrArg Additional.user
  | literal | array | object => exact hword

/-- **The constraint of a rule** that is no union. -/
theorem agree_constraint (h : value.Rearranges value') (name : String) (key key' : Mark) :
    Agree Eq (value.constraint name key) (value'.constraint name key') := by
  rw [constraint, constraint]
  cases ConstraintKind.ofName? name with
  | none => trivial
  | some kind =>
    cases kind
    case type => exact h.agree_typeName.map fun _ _ => congrArg Constraint.type
    case allOf => exact h.agree_allOfNames.map fun _ _ => congrArg Constraint.allOf
    case enum => exact h.agree_enumeration.map fun _ _ => congrArg Constraint.enum
    case additionalProperties => exact h.agree_additional.map fun _ _ => congrArg Constraint.additionalProperties
    case format => trivial
    all_goals
      refine (h.agree_literalOf _).bind fun mark mark' hbytes => ?_
      rw [hbytes]
      split
      · exact agree_refl _
      · trivial

end Rearranges

/-! ## The same rules in another order -/

section

variable {u v : Unnamed} {name : String} {key : Mark} {value : RuleValue} {e : String × Mark × RuleValue}
  {rest : List (String × Mark × RuleValue)} {added : List Rule}

/-- The first rule is read before the others. -/
theorem constraintsOf_cons_eq_ok_iff : constraintsOf u (e :: rest) = .ok (added, v) ↔
    ∃ first w others, constraintsOf u [e] = .ok (first, w) ∧ constraintsOf w rest = .ok (others, v) ∧
      added = first ++ others := by
  obtain ⟨name, key, value⟩ := e
  rw [constraintsOf, constraintsOf]
  simp only [Except.bind_eq_ok_iff, Prod.exists]
  constructor
  · rintro ⟨constraints, w, hfirst, others, v', hothers, hall⟩
    obtain ⟨rfl, rfl⟩ := Prod.mk.inj (Except.ok.inj hall)
    exact ⟨_, w, others, ⟨constraints, w, hfirst, [], w, by rw [constraintsOf], rfl⟩, hothers, by simp⟩
  · rintro ⟨first, w, others, ⟨constraints, w', hfirst, none, w'', hnone, hall⟩, hothers, rfl⟩
    rw [constraintsOf] at hnone
    obtain ⟨rfl, rfl⟩ := Prod.mk.inj (Except.ok.inj hnone)
    obtain ⟨rfl, rfl⟩ := Prod.mk.inj (Except.ok.inj hall)
    exact ⟨constraints, _, hfirst, others, v, hothers, by simp [pure, Except.pure]⟩

/-- A rule that is no union becomes a constraint, and leaves the registry as it is. -/
theorem constraintsOf_singleton_eq_ok_iff_of_rule (h : isUnion name = false) :
    constraintsOf u [(name, key, value)] = .ok (added, v) ↔
      ∃ c, value.constraint name key = .ok c ∧ added = [{ constraint := c, mark? := some value.mark }] ∧ u = v := by
  simp only [constraintsOf, h, Bool.false_eq_true, if_false]
  cases value.constraint name key with
  | error p => exact iff_of_false nofun fun ⟨_, h, _⟩ => nomatch h
  | ok c =>
    constructor
    · intro hall
      obtain ⟨rfl, rfl⟩ := Prod.mk.inj (Except.ok.inj hall)
      exact ⟨c, rfl, rfl, rfl⟩
    · rintro ⟨c', hsame, rfl, rfl⟩
      obtain rfl := Except.ok.inj hsame
      rfl

/-- A union becomes two constraints. -/
theorem constraintsOf_singleton_eq_ok_iff_of_union (h : isUnion name = true) :
    constraintsOf u [(name, key, value)] = .ok (added, v) ↔ ∃ names, value.unionNames name u = .ok (names, v) ∧
      added = [{ constraint := .types names, mark? := some value.mark },
        { constraint := .or, mark? := some value.mark }] := by
  simp only [constraintsOf, h, if_true]
  cases value.unionNames name u with
  | error p => exact iff_of_false nofun fun ⟨_, h, _⟩ => nomatch h
  | ok x =>
    obtain ⟨names, w⟩ := x
    constructor
    · intro hall
      obtain ⟨rfl, rfl⟩ := Prod.mk.inj (Except.ok.inj hall)
      exact ⟨names, rfl, rfl⟩
    · rintro ⟨names', hsame, rfl⟩
      obtain ⟨rfl, rfl⟩ := Prod.mk.inj (Except.ok.inj hsame)
      rfl

/-- A rule that is no union may be read at any moment. -/
theorem constraintsOf_singleton_of_rule (h : isUnion e.1 = false) (hadded : constraintsOf u [e] = .ok (added, v)) :
    u = v ∧ ∀ w, constraintsOf w [e] = .ok (added, w) := by
  obtain ⟨name, key, value⟩ := e
  obtain ⟨c, hc, rfl, rfl⟩ := (constraintsOf_singleton_eq_ok_iff_of_rule h).1 hadded
  exact ⟨rfl, fun w => (constraintsOf_singleton_eq_ok_iff_of_rule h).2 ⟨c, hc, rfl, rfl⟩⟩

end

/-- The unions among rules. -/
def unions (rules : List (String × Mark × RuleValue)) : List (String × Mark × RuleValue) :=
  rules.filter fun e => isUnion e.1

/-- **The same rules in another order** become the same constraints in another order, and register the same types,
if there is at most one union among them. -/
theorem exists_constraintsOf_of_perm {rules rules' : List (String × Mark × RuleValue)} (h : rules.Perm rules')
    (hone : (unions rules).length ≤ 1) {u v : Unnamed} {added : List Rule}
    (hadded : constraintsOf u rules = .ok (added, v)) :
    ∃ added', constraintsOf u rules' = .ok (added', v) ∧ added.Perm added' := by
  induction h generalizing u v added with
  | nil => exact ⟨added, hadded, .refl _⟩
  | @cons e rest rest' _ ih =>
    have hrest : (unions rest).length ≤ 1 := le_trans ((List.sublist_cons_self _ _).filter _).length_le hone
    obtain ⟨first, w, others, hfirst, hothers, rfl⟩ := constraintsOf_cons_eq_ok_iff.1 hadded
    obtain ⟨others', hothers', hperm⟩ := ih hrest hothers
    exact ⟨_, constraintsOf_cons_eq_ok_iff.2 ⟨first, w, others', hfirst, hothers', rfl⟩, hperm.append_left first⟩
  | swap e e' rest =>
    obtain ⟨first', w', others', hfirst', hothers', rfl⟩ := constraintsOf_cons_eq_ok_iff.1 hadded
    obtain ⟨first, w, others, hfirst, hothers, rfl⟩ := constraintsOf_cons_eq_ok_iff.1 hothers'
    -- One of the two is no union, so the other registers the same types before it and after it.
    have hswapped : ∃ w', constraintsOf u [e] = .ok (first, w') ∧ constraintsOf w' [e'] = .ok (first', w) := by
      cases hunion' : isUnion e'.1 with
      | false =>
        obtain ⟨rfl, hany⟩ := constraintsOf_singleton_of_rule hunion' hfirst'
        exact ⟨w, hfirst, hany w⟩
      | true =>
        have hunion : isUnion e.1 = false := by
          cases hunion : isUnion e.1 with
          | false => rfl
          | true => simp [unions, hunion, hunion'] at hone
        obtain ⟨rfl, hany⟩ := constraintsOf_singleton_of_rule hunion hfirst
        exact ⟨u, hany u, hfirst'⟩
    obtain ⟨middle, hleft, hright⟩ := hswapped
    refine ⟨first ++ (first' ++ others), ?_, ?_⟩
    · exact constraintsOf_cons_eq_ok_iff.2 ⟨first, middle, _, hleft,
        constraintsOf_cons_eq_ok_iff.2 ⟨first', w, others, hright, hothers, rfl⟩, rfl⟩
    · rw [← List.append_assoc, ← List.append_assoc]
      exact List.perm_append_comm.append_right others
  | trans hperm _ ih ih' =>
    obtain ⟨middle, hmiddle, hfirst⟩ := ih hone hadded
    obtain ⟨added', hadded', hsecond⟩ := ih' ((hperm.filter _).length_eq ▸ hone) hmiddle
    exact ⟨added', hadded', hfirst.trans hsecond⟩

/-- As many rules are unions as constraints say that a node is one. -/
theorem count_or_of_constraintsOf {rules : List (String × Mark × RuleValue)} {u v : Unnamed} {added : List Rule}
    (hadded : constraintsOf u rules = .ok (added, v)) :
    (Rules.kinds added).count .or = (unions rules).length := by
  induction rules generalizing u added with
  | nil =>
    rw [constraintsOf] at hadded
    obtain ⟨rfl, -⟩ := Prod.mk.inj (Except.ok.inj hadded)
    rfl
  | cons e rest ih =>
    obtain ⟨first, w, others, hfirst, hothers, rfl⟩ := constraintsOf_cons_eq_ok_iff.1 hadded
    obtain ⟨name, key, value⟩ := e
    have hrest := ih hothers
    rw [Rules.kinds] at hrest
    rw [Rules.kinds, List.map_append, List.count_append, hrest, unions, unions, List.filter_cons]
    cases hname : isUnion name with
    | false =>
      obtain ⟨c, hc, rfl, -⟩ := (constraintsOf_singleton_eq_ok_iff_of_rule hname).1 hfirst
      have hkind : c.kind ≠ .or := (kind_ne_of_constraint_eq_ok hc).2
      simp [Rule.kind, hkind]
    | true =>
      obtain ⟨names, -, rfl⟩ := (constraintsOf_singleton_eq_ok_iff_of_union hname).1 hfirst
      simp [Rule.kind, Constraint.kind, Nat.add_comm]

/-- More than one union among rules makes constraints of one kind. -/
theorem not_nodup_of_unions {rules : List (String × Mark × RuleValue)} (h : ¬ (unions rules).length ≤ 1)
    {u v : Unnamed} {added : List Rule} (hadded : constraintsOf u rules = .ok (added, v)) :
    ¬ (Rules.kinds added).Nodup := by
  intro hnodup
  rw [← count_or_of_constraintsOf hadded] at h
  exact h (List.nodup_iff_count_le_one.1 hnodup .or)

end RuleValue

/-! ## Members of unions -/

/-- Two registries of unnamed types are called after the same owner, and have types that differ at most in their
order. -/
structure Unnamed.Rearranges (u u' : Unnamed) : Prop where
  owner : u.owner = u'.owner
  types : u.types.Rearranges u'.types

/-- A type is registered under the same name on both sides. -/
theorem Unnamed.Rearranges.register {u u' : Unnamed} (h : u.Rearranges u') {root root' : Node}
    (hroot : root.Rearranges root') (start start' : Nat) :
    (u.register root start).1 = (u'.register root' start').1 ∧
      (u.register root start).2.Rearranges (u'.register root' start').2 := by
  have hname : (u.register root start).1 = (u'.register root' start').1 := by
    rw [Unnamed.register, Unnamed.register, h.owner, h.types.length_eq]
  refine ⟨hname, h.owner, ?_⟩
  change Registry.Rearranges (Catalog.insert u.types (u.register root start).1 _)
    (Catalog.insert u'.types (u'.register root' start').1 _)
  rw [hname]
  exact Catalog.insert_rel (R := fun entry entry' : TypeEntry => entry.root.Rearranges entry'.root) h.types _ hroot

namespace RuleValue

/-- A node that is written without a sample is the same wherever it is written. -/
theorem memberNode_rearranges (type : TypeName) (mark mark' : Mark) :
    (memberNode type mark).Rearranges (memberNode type mark') := by
  have hheader := fun type => Header.Rearranges.fresh type mark mark'
  rw [memberNode.eq_def, memberNode.eq_def]
  split
  · exact .of_properties (hheader _) List.nodup_nil (.of_forall₂ .nil)
  · exact .of_items (hheader _) (.of_forall₂ .nil)
  · exact .mixed (hheader _) rfl
  · exact .mixed (hheader _) rfl
  · exact .mixed (hheader _) rfl
  · exact .literal (hheader _) rfl

theorem typeOf?_eq {added added' : List Rule} (h : Rules.Rearranges added added') : typeOf? added = typeOf? added' := by
  have htype : ∀ (c : Constraint) (name : TypeName), c.type? = some name → c.kind = .type := by
    intro c name hc
    rw [Constraint.type?.eq_def] at hc
    split at hc
    · rfl
    · cases hc
  exact h.findSome?_eq htype (by decide)

theorem memberStart_rearranges (type? : Option TypeName) (mark mark' : Mark) :
    (memberStart type? mark).Rearranges (memberStart type? mark') := by
  cases type? with
  | some type => exact memberNode_rearranges type mark mark'
  | none => exact .mixed (Header.Rearranges.fresh .mixed mark mark') rfl

/-- **A member that is written as rules.** -/
theorem agree_memberOfRules {added added' : List Rule} (h : Rules.Rearranges added added') (mark mark' : Mark) :
    Agree Node.Rearranges (memberOfRules mark added) (memberOfRules mark' added') := by
  rw [memberOfRules_eq, memberOfRules_eq, typeOf?_eq h]
  refine ((memberStart_rearranges _ mark mark').agree_apply h.rearranged).bind fun node node' hnode => ?_
  rw [Node.rules, Node.rules, hnode.header.rules.has_eq]
  split
  · exact hnode.withHeader (hnode.header.withJsonType .mixed)
  · exact hnode

/-- The rules of a member are of different kinds. -/
theorem nodup_of_memberOfRules {added : List Rule} {mark : Mark} {node : Node}
    (h : memberOfRules mark added = .ok node) : (Rules.kinds added).Nodup := by
  rw [memberOfRules_eq] at h
  obtain ⟨changed, happly, -⟩ := Except.bind_eq_ok_iff.1 h
  exact Node.nodup_of_apply_eq_ok (memberStart_rearranges _ mark mark).header.rules.distinct happly

/-- Names, and the registry after them. -/
def NamesMatch (x y : List String × Unnamed) : Prop := x.1 = y.1 ∧ x.2.Rearranges y.2

/-- **A member that is written as a string.** -/
theorem agree_memberOfName {u u' : Unnamed} (hu : u.Rearranges u') {mark mark' : Mark}
    (h : mark.bytes = mark'.bytes) :
    Agree (fun x y : String × Unnamed => x.1 = y.1 ∧ x.2.Rearranges y.2) (memberOfName u mark)
      (memberOfName u' mark') := by
  rw [memberOfName, memberOfName, h]
  refine (Agree.mapError (agree_refl _)).bind fun name _ hname => ?_
  subst hname
  split
  · exact ⟨rfl, hu⟩
  split
  · trivial
  · next type _ =>
    have hrule : Rules.AreRearranged [{ constraint := .type (.builtin type), mark? := some mark }]
        [{ constraint := .type (.builtin type), mark? := some mark' }] := .of_forall₂ (.cons (.same _) .nil)
    exact ((memberNode_rearranges (.builtin type) mark mark').agree_apply hrule).bind
      fun _ _ hnode => hu.register hnode _ _

/-! ## Unions -/

/-- Two values of rules are the same to unions, whatever has been registered before. -/
def ReadAlike (value value' : RuleValue) : Prop :=
  value.Rearranges value' ∧ ∀ rule u u', Unnamed.Rearranges u u' →
    Agree NamesMatch (value.unionNames rule u) (value'.unionNames rule u') ∧
    Agree NamesMatch (value.memberNamesOf rule u) (value'.memberNamesOf rule u')

/-- Constraints, and the registry after them. -/
def ConstraintsMatch (x y : List Rule × Unnamed) : Prop :=
  Rules.AreRearranged x.1 y.1 ∧ x.2.Rearranges y.2

/-- Rules in the same order. -/
theorem agree_constraintsOf_of_forall₂ {rules rules' : List (String × Mark × RuleValue)}
    (h : List.Forall₂ (fun e e' => e.1 = e'.1 ∧ ReadAlike e.2.2 e'.2.2) rules rules') {u u' : Unnamed}
    (hu : u.Rearranges u') : Agree ConstraintsMatch (constraintsOf u rules) (constraintsOf u' rules') := by
  induction h generalizing u u' with
  | nil =>
    rw [constraintsOf, constraintsOf]
    exact ⟨.of_forall₂ .nil, hu⟩
  | @cons e e' rest rest' he _ ih =>
    obtain ⟨name, key, value⟩ := e
    obtain ⟨name', key', value'⟩ := e'
    obtain ⟨rfl, hvalue, hunion⟩ := he
    rw [constraintsOf, constraintsOf]
    refine Agree.bind (R := fun x y : List Constraint × Unnamed => x.1 = y.1 ∧ x.2.Rearranges y.2)
      (Agree.mapError ?_) fun x y hfirst => ?_
    · split
      · exact (hunion name u u' hu).1.bind fun x y hnames => ⟨by rw [hnames.1], hnames.2⟩
      · exact (hvalue.agree_constraint name key key').bind fun _ _ hc => ⟨by rw [hc], hu⟩
    · refine (ih hfirst.2).bind fun others others' hothers => ⟨?_, hothers.2⟩
      refine IsRearranged.append (.of_forall₂ ?_) hothers.1
      rw [hfirst.1, List.forall₂_map_left_iff, List.forall₂_map_right_iff]
      exact List.forall₂_same.2 fun _ _ => .same _

/-- Rules in another order, with at most one union among them. -/
theorem agree_constraintsOf {rules rules' : List (String × Mark × RuleValue)}
    (h : AreRearrangedEntries ReadAlike rules rules') (hone : (unions rules).length ≤ 1) {u u' : Unnamed}
    (hu : u.Rearranges u') : Agree ConstraintsMatch (constraintsOf u rules) (constraintsOf u' rules') := by
  obtain ⟨middle, hperm, -, hrelated⟩ := h
  have hsame : Agree (fun x y : List Rule × Unnamed => x.1.Perm y.1 ∧ x.2 = y.2) (constraintsOf u rules)
      (constraintsOf u middle) := by
    refine agree_iff.2 ⟨fun x hx => ?_, fun y hy => ?_⟩
    · obtain ⟨added, hadded, hadded'⟩ := exists_constraintsOf_of_perm hperm hone hx
      exact ⟨_, hadded, hadded', rfl⟩
    · obtain ⟨added, hadded, -⟩ := exists_constraintsOf_of_perm hperm.symm ((hperm.filter _).length_eq ▸ hone) hy
      exact ⟨_, hadded⟩
  refine hsame.trans (agree_constraintsOf_of_forall₂ hrelated hu) ?_
  rintro x y z ⟨hxy, hregistry⟩ ⟨⟨all, hyall, -, hall⟩, hrest⟩
  exact ⟨⟨all, hxy.trans hyall, by simp, hall⟩, hregistry ▸ hrest⟩

/-- **What is made of rules** does not depend on their order, if nothing is made of constraints of one kind. -/
theorem agree_constraintsOf_bind {α β : Type} {S : α → β → Prop} {rules rules' : List (String × Mark × RuleValue)}
    (h : AreRearrangedEntries ReadAlike rules rules') {u u' : Unnamed} (hu : u.Rearranges u')
    {f : List Rule × Unnamed → Outcome α} {g : List Rule × Unnamed → Outcome β}
    (hf : ∀ x a, f x = .ok a → (Rules.kinds x.1).Nodup) (hg : ∀ y b, g y = .ok b → (Rules.kinds y.1).Nodup)
    (hfg : ∀ x y, Rules.Rearranges x.1 y.1 → x.2.Rearranges y.2 → Agree S (f x) (g y)) :
    Agree S (constraintsOf u rules >>= f) (constraintsOf u' rules' >>= g) := by
  have hunions : (unions rules).length = (unions rules').length :=
    (IsRearranged.filter h fun e e' he => by rw [he.1]).length_eq
  by_cases hone : (unions rules).length ≤ 1
  · refine (agree_constraintsOf h hone hu).bind fun x y ⟨hadded, hregistry⟩ => ?_
    by_cases hnodup : (Rules.kinds x.1).Nodup
    · exact hfg x y ⟨hadded, hnodup⟩ hregistry
    · have hnodup' : ¬ (Rules.kinds y.1).Nodup := fun hy => hnodup (hadded.kinds_perm.nodup_iff.2 hy)
      exact agree_iff.2 ⟨fun a ha => absurd (hf x a ha) hnodup, fun b hb => absurd (hg y b hb) hnodup'⟩
  · refine agree_iff.2 ⟨fun a ha => ?_, fun b hb => ?_⟩
    · obtain ⟨x, hx, ha⟩ := Except.bind_eq_ok_iff.1 ha
      exact absurd (hf x a ha) (not_nodup_of_unions hone hx)
    · obtain ⟨y, hy, hb⟩ := Except.bind_eq_ok_iff.1 hb
      exact absurd (hg y b hb) (not_nodup_of_unions (hunions ▸ hone) hy)

/-- Members of a union, one after another. -/
theorem agree_memberNames {items items' : List RuleValue} (h : List.Forall₂ ReadAlike items items') (rule : String)
    {u u' : Unnamed} (hu : u.Rearranges u') :
    Agree NamesMatch (memberNames rule u items) (memberNames rule u' items') := by
  induction h generalizing u u' with
  | nil =>
    rw [memberNames, memberNames]
    exact ⟨rfl, hu⟩
  | cons hitem _ ih =>
    rw [memberNames, memberNames]
    refine (hitem.2 rule u u' hu).2.bind fun x y ⟨hnames, hregistry⟩ => ?_
    exact (ih hregistry).bind fun z w ⟨hothers, hregistry⟩ => ⟨by rw [hnames, hothers], hregistry⟩

/-- **A member that is written as rules in another order**, and registered. -/
theorem agree_registerRules {rules rules' : List (String × Mark × RuleValue)}
    (h : AreRearrangedEntries ReadAlike rules rules') (mark mark' : Mark) {u u' : Unnamed} (hu : u.Rearranges u') :
    Agree NamesMatch
      (do
        let (added, u) ← constraintsOf u rules
        let (name, u) := u.register (← memberOfRules mark added) mark.start
        return ([name], u))
      (do
        let (added, u) ← constraintsOf u' rules'
        let (name, u) := u.register (← memberOfRules mark' added) mark'.start
        return ([name], u)) := by
  refine agree_constraintsOf_bind h hu ?_ ?_ fun x y hadded hregistry => ?_
  · intro x a ha
    obtain ⟨node, hnode, -⟩ := Except.bind_eq_ok_iff.1 ha
    exact nodup_of_memberOfRules hnode
  · intro y b hb
    obtain ⟨node, hnode, -⟩ := Except.bind_eq_ok_iff.1 hb
    exact nodup_of_memberOfRules hnode
  · refine (agree_memberOfRules hadded mark mark').bind fun node node' hnode => ?_
    obtain ⟨hname, hregistry⟩ := hregistry.register hnode mark.start mark'.start
    exact ⟨congrArg (fun name => [name]) hname, hregistry⟩

namespace Rearranges

/-- **Unions** whose members are written in another order. -/
theorem readAlike {value value' : RuleValue} (h : value.Rearranges value') : ReadAlike value value' := by
  refine ⟨h, ?_⟩
  induction h using induct with
  | literal hbytes =>
    intro rule u u' hu
    constructor
    · rw [unionNames, unionNames]
      trivial
    · rw [memberNamesOf, memberNamesOf, hbytes]
      split
      · exact (agree_memberOfName hu hbytes).bind fun x y ⟨hname, hregistry⟩ => ⟨by rw [hname], hregistry⟩
      · trivial
  | shortcut hbytes =>
    intro rule u u' hu
    rw [unionNames, unionNames, memberNamesOf, memberNamesOf]
    have hnames : ∀ names names' : List String, names = names' → NamesMatch (names, u) (names', u') :=
      fun _ _ hsame => ⟨hsame, hu⟩
    exact ⟨(agree_shortcutNames hbytes).bind hnames, (agree_shortcutNames hbytes).bind hnames⟩
  | @array mark mark' items items' hitems =>
    intro rule u u' hu
    have hitems : List.Forall₂ ReadAlike items items' := hitems.imp fun _ _ ⟨hitem, halike⟩ => ⟨hitem, halike⟩
    have hempty : items.isEmpty = items'.isEmpty := by
      rw [Bool.eq_iff_iff, List.isEmpty_iff, List.isEmpty_iff, (AreMatched.of_forall₂ hitems).eq_nil_iff]
    constructor
    · rw [unionNames, unionNames, hempty]
      split
      · trivial
      · exact agree_memberNames hitems rule hu
    · rw [memberNamesOf, memberNamesOf]
      trivial
  | @object mark mark' rules rules' hrules =>
    intro rule u u' hu
    have hrules : AreRearrangedEntries ReadAlike rules rules' :=
      hrules.mono fun _ _ ⟨hname, hvalue, halike⟩ => ⟨hname, hvalue, halike⟩
    have hcontains : Catalog.contains rules ConstraintKind.type.name =
        Catalog.contains rules' ConstraintKind.type.name := by
      have hkeys : AreMatched Eq (Catalog.keys rules) (Catalog.keys rules') := hrules.areMatched.map fun _ _ he => he.1
      rw [Bool.eq_iff_iff, Catalog.contains_eq_true_iff, Catalog.contains_eq_true_iff]
      simpa using hkeys.exists_iff (P := (ConstraintKind.type.name = ·)) (Q := (ConstraintKind.type.name = ·))
        fun _ _ hsame => hsame ▸ Iff.rfl
    constructor
    · rw [unionNames, unionNames]
      trivial
    · rw [memberNamesOf, memberNamesOf, hcontains]
      split
      · exact agree_registerRules hrules mark mark' hu
      · trivial

end Rearranges

end RuleValue
end ExampleSchema
