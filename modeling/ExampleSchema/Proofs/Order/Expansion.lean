import ExampleSchema.Proofs.Order.Nodes
import ExampleSchema.Proofs.Types
import ExampleSchema.Proofs.Unions

/-!
# Resolving and inheriting in another order

Schemas that differ in their order are resolved and expanded alike: if one of them can be, so can the other, and
what comes out differs in its order only.

* `Schema.Rearranges.register`: registering types.
* `Node.Rearranges.agree_resolveEnums`, `Node.Rearranges.agree_expand`: one tree.
* `Schema.Rearranges.agree_resolveEnums`, `Schema.Rearranges.agree_expand`: whole schemas.
-/

namespace ExampleSchema

open Except

/-! ## Lists of parts -/

/-- What comes of all entries is as much in another order. -/
theorem IsRearranged.length_flatMap_eq {α β γ : Type} {keeps : α → Bool} {R : α → β → Prop} {xs : List α}
    {ys : List β} (h : IsRearranged keeps R xs ys) {f : α → List γ} {g : β → List γ}
    (hfg : ∀ x y, R x y → (f x).length = (g y).length) : (xs.flatMap f).length = (ys.flatMap g).length := by
  obtain ⟨middle, hperm, -, hrelated⟩ := h
  refine (hperm.flatMap_right f).length_eq.trans ?_
  clear hperm
  induction hrelated with
  | nil => rfl
  | cons hxy _ ih => simp only [List.flatMap_cons, List.length_append, hfg _ _ hxy, ih]

namespace Properties

variable {N M : Node → Node → Prop} {properties properties' : Properties}

theorem AreRearranged.areDistinct_iff (h : properties.AreRearranged N properties') :
    properties.AreDistinct ↔ properties'.AreDistinct := by
  obtain ⟨middle, hperm, -, hrelated⟩ := h
  refine (hperm.map fun p => p.1.name).nodup_iff.trans ?_
  have hnames : (middle.map fun p => p.1.name) = properties'.map fun p => p.1.name := by
    rw [← List.forall₂_eq_eq_eq, List.forall₂_map_left_iff, List.forall₂_map_right_iff]
    exact hrelated.imp fun _ _ hp => hp.1.name
  rw [AreDistinct, hnames]

/-- Changing the nodes of properties keeps their names. -/
theorem AreDistinct.mapM {change : Node → Outcome Node} {changed : Properties} (h : properties.AreDistinct)
    (hchanged : (properties.mapM fun p => do return (p.1, ← change p.2)) = .ok changed) :
    changed.AreDistinct := by
  have hnames : (changed.map fun p => p.1.name) = properties.map fun p => p.1.name := by
    clear h
    induction properties generalizing changed with
    | nil =>
      obtain rfl := Except.ok.inj hchanged
      rfl
    | cons p rest ih =>
      rw [List.mapM_cons] at hchanged
      obtain ⟨first, hfirst, hchanged⟩ := Except.bind_eq_ok_iff.1 hchanged
      obtain ⟨others, hothers, hchanged⟩ := Except.bind_eq_ok_iff.1 hchanged
      obtain ⟨node, -, hfirst⟩ := Except.bind_eq_ok_iff.1 hfirst
      obtain rfl := Except.ok.inj hfirst
      obtain rfl := Except.ok.inj hchanged
      exact congrArg (p.1.name :: ·) (ih hothers)
  rw [AreDistinct, hnames]
  exact h

/-- Properties with distinct names, and the same properties in another order. -/
def Rearrange (properties properties' : Properties) : Prop :=
  properties.AreDistinct ∧ properties.AreRearranged Node.Rearranges properties'

/-- Changing the nodes of properties. -/
theorem AreRearranged.agree_mapM {change change' : Node → Outcome Node} (h : properties.AreRearranged N properties')
    (hdistinct : properties.AreDistinct) (hchange : ∀ a b, N a b → Agree Node.Rearranges (change a) (change' b)) :
    Agree Rearrange (properties.mapM fun p => do return (p.1, ← change p.2))
      (properties'.mapM fun p => do return (p.1, ← change' p.2)) := by
  have hagree : Agree (AreRearranged Node.Rearranges) (properties.mapM fun p => do return (p.1, ← change p.2))
      (properties'.mapM fun p => do return (p.1, ← change' p.2)) := by
    refine IsRearranged.agree_mapM h (fun p changed hchanged => ?_) fun p p' hp => ?_
    · obtain ⟨node, -, hchanged⟩ := Except.bind_eq_ok_iff.1 hchanged
      obtain rfl := Except.ok.inj hchanged
      rfl
    · exact (hchange p.2 p'.2 hp.2).bind fun a b hab => ⟨hp.1, hab⟩
  refine agree_iff.2 ⟨fun changed hchanged => ?_, fun changed' => (agree_iff.1 hagree).2 changed'⟩
  obtain ⟨changed', hchanged', hrearranged⟩ := hagree.exists_of_ok hchanged
  exact ⟨changed', hchanged', hdistinct.mapM hchanged, hrearranged⟩

/-- Adding properties. -/
theorem Rearrange.agree_add {added added' : Properties} (h : properties.Rearrange properties')
    (hadded : added.AreRearranged Node.Rearranges added') (blamed blamed' : PropertyKey × Node → Mark) :
    Agree Rearrange
      (added.foldlM (fun (properties : Properties) p => properties.add p (blamed p)) properties)
      (added'.foldlM (fun (properties : Properties) p => properties.add p (blamed' p)) properties') := by
  have hall := h.2.append hadded
  have hdistinct' := h.2.areDistinct_iff.1 h.1
  refine agree_iff.2 ⟨fun all hleft => ?_, fun all' hright => ?_⟩
  · obtain ⟨rfl, hdistinct⟩ := (foldlM_add_eq_ok_iff h.1 blamed).1 hleft
    have hdistinct'' := (AreRearranged.areDistinct_iff hall).1 hdistinct
    exact ⟨_, (foldlM_add_eq_ok_iff hdistinct' blamed').2 ⟨rfl, hdistinct''⟩, hdistinct, hall⟩
  · obtain ⟨rfl, hdistinct⟩ := (foldlM_add_eq_ok_iff hdistinct' blamed').1 hright
    exact ⟨_, (foldlM_add_eq_ok_iff h.1 blamed).2 ⟨rfl, (AreRearranged.areDistinct_iff hall).2 hdistinct⟩⟩

theorem AreRearranged.inherited (h : properties.AreRearranged N properties') :
    (Properties.inherited properties).AreRearranged N (Properties.inherited properties') :=
  IsRearranged.map h (fun _ => rfl) fun _ _ hp => ⟨⟨hp.1.name, hp.1.isShortcut, rfl⟩, hp.2⟩

end Properties

/-! ## Resolving rules -/

theorem Header.Rearranges.agree_resolveEnum {header header' : Header} (h : header.Rearranges header')
    (rules : EnumRules) : Agree Header.Rearranges (header.resolveEnum rules) (header'.resolveEnum rules) := by
  rw [resolveEnum, resolveEnum, h.rules.constraint?_eq (show ConstraintKind.enum ≠ .types by decide)]
  split
  · split
    · refine h.change fun c => ?_
      cases c <;> constructor
    · trivial
  · exact h

/-- The parts of an object are resolved one by one. -/
theorem resolveEnumsOfProperties_eq_mapM (rules : EnumRules) (properties : Properties) :
    resolveEnumsOfProperties rules properties =
      properties.mapM fun p => do return (p.1, ← p.2.resolveEnums rules) := by
  rw [resolveEnumsOfProperties_eq, Except.mapM_update_eq]

/-- **Resolving the rules** of a tree. -/
theorem Node.Rearranges.agree_resolveEnums {node node' : Node} (h : node.Rearranges node') (rules : EnumRules) :
    Agree Node.Rearranges (node.resolveEnums rules) (node'.resolveEnums rules) := by
  induction h using Node.Aligns.induct with
  | literal hheader hsample =>
    exact (Header.Rearranges.agree_resolveEnum hheader rules).bind fun _ _ hheader => .literal hheader hsample
  | mixed hheader hsample =>
    exact (Header.Rearranges.agree_resolveEnum hheader rules).bind fun _ _ hheader => .mixed hheader hsample
  | reference hheader hnames =>
    exact (Header.Rearranges.agree_resolveEnum hheader rules).bind fun _ _ hheader => .reference hheader hnames
  | array hheader hitems =>
    rw [resolveEnums, resolveEnums, resolveEnumsOfItems_eq, resolveEnumsOfItems_eq]
    refine (Header.Rearranges.agree_resolveEnum hheader rules).bind fun _ _ hheader => ?_
    exact (hitems.agree_mapM (fun _ _ _ => rfl) fun _ _ hitem => hitem.2).bind fun _ _ hitems =>
      .of_items hheader hitems
  | object hheader hdistinct hproperties =>
    rw [resolveEnums, resolveEnums, resolveEnumsOfProperties_eq_mapM, resolveEnumsOfProperties_eq_mapM]
    refine (Header.Rearranges.agree_resolveEnum hheader rules).bind fun _ _ hheader => ?_
    exact (Properties.AreRearranged.agree_mapM hproperties hdistinct fun _ _ hnode => hnode.2).bind
      fun _ _ hproperties => .of_properties hheader hproperties.1 hproperties.2

/-! ## Inheriting -/

/-- The types of two registries differ at most in their order. -/
def Registry.RootsRearrange (types types' : Registry) : Prop :=
  ∀ name, Option.Rel Node.Rearranges (types.root? name) (types'.root? name)

theorem Registry.Rearranges.rootsRearrange {types types' : Registry} (h : types.Rearranges types') :
    types.RootsRearrange types' := by
  intro name
  have hfound := Catalog.find?_rel (R := fun entry entry' : TypeEntry => entry.root.Rearranges entry'.root) h name
  rw [root?, root?]
  generalize Catalog.find? types name = found at hfound
  generalize Catalog.find? types' name = found' at hfound
  cases hfound with
  | none => exact .none
  | some hroot => exact .some hroot

namespace Registry.RootsRearrange

variable {types types' : Registry} {name : String}

theorem without (h : types.RootsRearrange types') (name : String) :
    (types.without name).RootsRearrange (types'.without name) := by
  intro other
  rw [root?_without, root?_without]
  split
  · exact .none
  · exact h other

theorem root?_eq_none (h : types.RootsRearrange types') (hroot : types.root? name = none) :
    types'.root? name = none := by
  have hrel := h name
  rw [hroot] at hrel
  generalize types'.root? name = root at hrel
  cases hrel
  rfl

theorem exists_root? (h : types.RootsRearrange types') {root : Node} (hroot : types.root? name = some root) :
    ∃ root', types'.root? name = some root' ∧ root.Rearranges root' := by
  have hrel := h name
  rw [hroot] at hrel
  generalize types'.root? name = found at hrel
  cases hrel with
  | some hrelated => exact ⟨_, rfl, hrelated⟩

end Registry.RootsRearrange

theorem Header.Rearranges.allOfNames_eq {header header' : Header} (h : header.Rearranges header') :
    header.allOfNames = header'.allOfNames := by
  rw [allOfNames, allOfNames, h.rules.constraint?_eq (by decide)]

/-- Gathering what types pass on. -/
theorem Properties.agree_gather {passedOn passedOn' : String → Outcome Properties} (names : List String)
    (blamed blamed' : PropertyKey × Node → Mark) (h : ∀ name, Agree Rearrange (passedOn name) (passedOn' name)) :
    Agree Rearrange
      (names.foldlM (fun (gathered : Properties) name => do
        (← passedOn name).foldlM (fun (gathered : Properties) p => gathered.add p (blamed p)) gathered) [])
      (names.foldlM (fun (gathered : Properties) name => do
        (← passedOn' name).foldlM (fun (gathered : Properties) p => gathered.add p (blamed' p)) gathered) []) := by
  refine Agree.foldlM (List.forall₂_same.2 fun name _ => (rfl : name = name)) ⟨List.nodup_nil, .of_forall₂ .nil⟩ ?_
  rintro gathered gathered' name _ hgathered rfl
  exact (h name).bind fun added added' hadded => hgathered.agree_add hadded.2 blamed blamed'

/-- **What a type passes on.** -/
theorem Registry.RootsRearrange.agree_passedOn {types types' : Registry} (h : types.RootsRearrange types')
    (entered : List String) (name : String) :
    Agree Properties.Rearrange (passedOn types entered name) (passedOn types' entered name) := by
  induction types, entered, name using passedOn.induct generalizing types' with
  | case1 types entered name hentered =>
    rw [passedOn_of_entered hentered, passedOn_of_entered hentered]
    trivial
  | case2 types entered name hentered hroot =>
    rw [passedOn_of_none hentered hroot, passedOn_of_none hentered (h.root?_eq_none hroot)]
    trivial
  | case3 types entered name hentered header properties hroot ih =>
    obtain ⟨root', hroot', hrelated⟩ := h.exists_root? hroot
    cases hrelated using Node.Aligns.elim with
    | object hheader hdistinct hproperties =>
      have hnames := Header.Rearranges.allOfNames_eq hheader
      rw [passedOn_of_object hentered hroot, passedOn_of_object hentered hroot', ← hnames]
      have hgathered := Properties.agree_gather header.allOfNames (fun p => p.1.mark) (fun p => p.1.mark)
        fun parent => ih parent (h.without name)
      exact hgathered.bind fun _ _ hgathered =>
        hgathered.agree_add hproperties.inherited (fun p => p.1.mark) fun p => p.1.mark
  | case4 types entered name hentered root hnot hroot =>
    obtain ⟨root', hroot', hrelated⟩ := h.exists_root? hroot
    have hnot' : ∀ header properties, root' = .object header properties → False := by
      rintro header properties rfl
      cases hrelated with
      | object => exact hnot _ _ rfl
    rw [passedOn_of_not_object hentered hroot hnot, passedOn_of_not_object hentered hroot' hnot']
    trivial

namespace Node.Rearranges

variable {types types' : Registry} {node node' : Node}

/-- **Taking over properties.** -/
theorem agree_inherit (h : node.Rearranges node') (htypes : types.RootsRearrange types') :
    Agree Node.Rearranges (node.inherit types) (node'.inherit types') := by
  have hnode := h
  cases h using Node.Aligns.elim with
  | literal | mixed | reference | array => exact hnode
  | @object header header' properties properties' hheader hdistinct hproperties =>
    rw [inherit, inherit, hheader.rules.has_eq, Header.Rearranges.allOfNames_eq hheader]
    split
    · have hpassed : ∀ name, Agree Properties.Rearrange
          (Outcome.orOn (passedOn types [] name) ((header.rules.mark? .allOf).getD header.basis))
          (Outcome.orOn (passedOn types' [] name) ((header'.rules.mark? .allOf).getD header'.basis)) :=
        fun name => (htypes.agree_passedOn [] name).mapError
      refine (Properties.agree_gather _ (fun _ => _) (fun _ => _) hpassed).bind fun _ _ hgathered => ?_
      have hown : Properties.AreRearranged Node.Rearranges (properties.filter fun p => !p.1.isInherited)
          (properties'.filter fun p => !p.1.isInherited) :=
        IsRearranged.filter hproperties fun p p' hp => congrArg (!·) hp.1.isInherited
      exact (hgathered.agree_add hown (fun p => p.1.mark) fun p => p.1.mark).bind fun _ _ hall =>
        .of_properties hheader hall.1 hall.2
    · exact hnode

/-- **Letting every object of a tree inherit.** -/
theorem agree_expand (h : node.Rearranges node') (htypes : types.RootsRearrange types') (levels : Nat) :
    Agree Node.Rearranges (node.expand types levels) (node'.expand types' levels) := by
  induction levels generalizing node node' with
  | zero => trivial
  | succ levels ih =>
    rw [expand, expand]
    refine (h.agree_inherit htypes).bind fun whole whole' hwhole => ?_
    cases hwhole using Node.Aligns.elim with
    | literal hheader hsample => exact .literal hheader hsample
    | mixed hheader hsample => exact .mixed hheader hsample
    | reference hheader hnames => exact .reference hheader hnames
    | array hheader hitems =>
      exact (hitems.agree_mapM (fun _ _ _ => rfl) fun _ _ => ih).bind fun _ _ hitems => .of_items hheader hitems
    | object hheader hdistinct hproperties =>
      exact (hproperties.agree_mapM hdistinct fun _ _ => ih).bind fun _ _ hproperties =>
        .of_properties hheader hproperties.1 hproperties.2

/-- Trees in another order have as many nodes. -/
theorem length_subnodes_eq (h : node.Rearranges node') : node.subnodes.length = node'.subnodes.length := by
  induction h using Node.Aligns.induct with
  | literal | mixed | reference => rfl
  | array _ hitems =>
    have hlength := hitems.length_flatMap_eq fun _ _ ⟨_, hitem⟩ => hitem
    rw [subnodes_eq, subnodes_eq, List.length_cons, List.length_cons]
    exact congrArg (· + 1) hlength
  | object _ _ hproperties =>
    have hlength := IsRearranged.length_flatMap_eq (f := fun p => p.2.subnodes) (g := fun p => p.2.subnodes)
      hproperties fun _ _ ⟨_, _, hnode⟩ => hnode
    rw [subnodes_eq, subnodes_eq, List.length_cons, List.length_cons, children, children, List.flatMap_map,
      List.flatMap_map, hlength]

end Node.Rearranges

/-! ## Schemas -/

/-- Registered types with the same names differ at most in their order. -/
abbrev AreRearrangedTypes (named named' : List (String × RegisteredType)) : Prop :=
  List.Forall₂ (fun e e' => e.1 = e'.1 ∧ e.2.schema.Rearranges e'.2.schema) named named'

namespace Schema.Rearranges

variable {schema schema' : Schema}

/-- Registering types. -/
theorem register (h : schema.Rearranges schema') {named named' : List (String × RegisteredType)}
    (hnamed : AreRearrangedTypes named named') : (schema.register named).Rearranges (schema'.register named') := by
  have hinsertAll : ∀ {types types' more more' : Registry}, types.Rearranges types' → more.Rearranges more' →
      Registry.Rearranges (Catalog.insertAll types more) (Catalog.insertAll types' more') := by
    intro types types' more more' htypes hmore
    refine List.rel_foldl (fun _ _ hall e e' he => ?_) htypes hmore
    rw [← he.1]
    exact Catalog.insert_rel (R := fun entry entry' : TypeEntry => entry.root.Rearranges entry'.root) hall e.1 he.2
  refine ⟨h.root, ?_⟩
  rw [types_register, types_register]
  refine List.rel_foldl (fun _ _ hall e e' he => ?_) (hinsertAll h.types ?_) (hinsertAll .nil ?_)
  · rw [← he.1]
    exact Catalog.insertNew_rel (R := fun entry entry' : TypeEntry => entry.root.Rearranges entry'.root) hall e.1
      he.2
  · rw [Registry.Rearranges, List.forall₂_map_left_iff, List.forall₂_map_right_iff]
    exact hnamed.imp fun _ _ he => ⟨he.1, he.2.root⟩
  · exact List.rel_flatMap hnamed fun _ _ he => he.2.types

/-- Changing each tree. -/
theorem agree_mapRoots (h : schema.Rearranges schema') {change change' : Node → Outcome Node}
    (hchange : ∀ a b : Node, a.Rearranges b → Agree Node.Rearranges (change a) (change' b)) :
    Agree Schema.Rearranges (schema.mapRoots change) (schema'.mapRoots change') := by
  refine (hchange _ _ h.root).bind fun root root' hroot => ?_
  refine (Agree.mapM h.types fun e e' he => ?_).bind fun types types' htypes => ⟨hroot, htypes⟩
  refine Agree.bind (R := fun entry entry' : TypeEntry => entry.root.Rearranges entry'.root) ?_
    fun _ _ hentry => ⟨he.1, hentry⟩
  exact (hchange _ _ he.2).bind fun _ _ hroot => hroot

/-- **The enum pass.** -/
theorem agree_resolveEnums (h : schema.Rearranges schema') (rules : EnumRules) :
    Agree Schema.Rearranges (schema.resolveEnums rules) (schema'.resolveEnums rules) :=
  h.agree_mapRoots fun _ _ hroot => hroot.agree_resolveEnums rules

theorem nodeCount_eq (h : schema.Rearranges schema') : schema.nodeCount = schema'.nodeCount := by
  have htypes : IsRearranged (fun _ => false) _ schema.types schema'.types := .of_forall₂ h.types
  rw [nodeCount, nodeCount, List.length_append, List.length_append, h.root.length_subnodes_eq,
    htypes.length_flatMap_eq fun _ _ he => he.2.length_subnodes_eq]

/-- **The allOf pass.** -/
theorem agree_expand (h : schema.Rearranges schema') :
    Agree Schema.Rearranges schema.expand schema'.expand := by
  rw [expand, expand, h.nodeCount_eq]
  exact h.agree_mapRoots fun _ _ hroot => hroot.agree_expand h.types.rootsRearrange _

end Schema.Rearranges
end ExampleSchema
