import ExampleSchema.Proofs.Containment
import ExampleSchema.Proofs.Expansion.Endless
import ExampleSchema.Proofs.Properties

/-!
# What a schema is expanded to

An object with an `allOf` rule has, once it is expanded, the properties of the types that it names and then
its own.  What a type passes on in this way is a recursive notion: the properties of the types that it names
itself, as they are registered, and then its own.  The walk that expands a schema gathers the properties of each
object anew, and goes on into what it has gathered; what comes out is what the recursive notion says.

* `Registry.Flat`: the properties that a type passes on.
* `Registry.Expanded`, `Schema.IsExpandedTo`: a tree or a schema and what it is expanded to.
* `Registry.CannotInherit`: what keeps an object from inheriting.
* `passedOn_eq_ok_iff`, `Node.inherit_eq_ok_iff`, `Node.exists_expand_eq_ok_iff`: the walk, from the properties of
  one type to a whole tree.
* `Schema.expand_eq_ok_iff_isExpandedTo`: whole schemas.
-/

namespace ExampleSchema

/-! ## Flat properties -/

namespace Registry

mutual
/-- **The properties that a type passes on**: those of the types that its root names in `allOf`, one after another,
and then those of its root. -/
inductive Flat (types : Registry) : String → Properties → Prop where
  | intro {name : String} {header : Header} {own gathered : Properties}
      (hroot : types.root? name = some (.object header own)) (h : FlatAll types header.allOfNames gathered) :
      Flat types name (gathered ++ Properties.inherited own)

/-- The properties that types pass on, one after another. -/
inductive FlatAll (types : Registry) : List String → Properties → Prop where
  | nil : FlatAll types [] []
  | cons {name : String} {names : List String} {first rest : Properties} (hfirst : Flat types name first)
      (hrest : FlatAll types names rest) : FlatAll types (name :: names) (first ++ rest)
end

/-- The root of a type names another type in `allOf`. -/
def Extends (types : Registry) (name parent : String) : Prop :=
  ∃ header own, types.root? name = some (.object header own) ∧ parent ∈ header.allOfNames

/-- The properties that types pass on share a name, among themselves or with others that follow. -/
def Clashes (types : Registry) (names : List String) (own : Properties) : Prop :=
  (∃ before after gathered, names = before ++ after ∧ types.FlatAll before gathered ∧ ¬ gathered.AreDistinct) ∨
    ∃ gathered, types.FlatAll names gathered ∧ ¬ (gathered ++ own).AreDistinct

/-- **What keeps a type from passing on its properties**, and the code of the problem. -/
inductive CannotPassOn (types : Registry) : String → ErrorCode → Prop where
  | unregistered {name : String} (hroot : types.root? name = none) : CannotPassOn types name .typeNotFound
  | notObject {name : String} {root : Node} (hroot : types.root? name = some root)
      (hnot : ∀ header properties, root ≠ .object header properties) : CannotPassOn types name .allOfNotObject
  | cyclic {name : String} (hround : Relation.TransGen types.Extends name name) :
      CannotPassOn types name .infiniteRecursion
  | clash {name : String} {header : Header} {own : Properties} (hroot : types.root? name = some (.object header own))
      (h : types.Clashes header.allOfNames (Properties.inherited own)) : CannotPassOn types name .allOfDuplicateKey
  | parent {name parent : String} {code : ErrorCode} (hextends : types.Extends name parent)
      (h : CannotPassOn types parent code) : CannotPassOn types name code

/-- **What keeps an object from inheriting** from types, in front of properties of its own. -/
def CannotInherit (types : Registry) (names : List String) (own : Properties) (code : ErrorCode) : Prop :=
  (∃ name ∈ names, types.CannotPassOn name code) ∨ code = .allOfDuplicateKey ∧ types.Clashes names own

section

variable {types part : Registry} {name : String} {names entered : List String} {first gathered properties own : Properties}

/-! ### Flat properties are unique -/

mutual
theorem Flat.unique {types : Registry} : ∀ {name : String} {properties others : Properties},
    types.Flat name properties → types.Flat name others → properties = others
  | _, _, _, .intro hroot h, .intro hroot' h' => by
    obtain ⟨rfl, rfl⟩ := Node.object.inj (Option.some.inj (hroot.symm.trans hroot'))
    rw [h.unique h']

theorem FlatAll.unique {types : Registry} : ∀ {names : List String} {properties others : Properties},
    types.FlatAll names properties → types.FlatAll names others → properties = others
  | _, _, _, .nil, .nil => rfl
  | _, _, _, .cons hfirst hrest, .cons hfirst' hrest' => by rw [hfirst.unique hfirst', hrest.unique hrest']
end

mutual
/-- A type that passes on properties has no endless line of parents. -/
theorem Flat.acc {types : Registry} : ∀ {name : String} {properties : Properties}, types.Flat name properties →
    Acc (fun parent name => types.Extends name parent) name
  | name, _, .intro hroot h => Acc.intro name fun parent ⟨_, _, hroot', hparent⟩ => by
    obtain ⟨rfl, rfl⟩ := Node.object.inj (Option.some.inj (hroot.symm.trans hroot'))
    exact h.acc parent hparent

theorem FlatAll.acc {types : Registry} : ∀ {names : List String} {properties : Properties},
    types.FlatAll names properties → ∀ name ∈ names, Acc (fun parent name => types.Extends name parent) name
  | _, _, .nil => nofun
  | _, _, .cons hfirst hrest => List.forall_mem_cons.2 ⟨hfirst.acc, hrest.acc⟩
end

theorem FlatAll.concat (h : types.FlatAll names gathered) (hfirst : types.Flat name first) :
    types.FlatAll (names ++ [name]) (gathered ++ first) := by
  induction names generalizing gathered with
  | nil =>
    cases h
    simpa using FlatAll.cons hfirst .nil
  | cons other names ih =>
    cases h with
    | cons hother hrest =>
      rw [List.cons_append, List.append_assoc]
      exact .cons hother (ih hrest)

/-- The first of some types pass on the first of the properties. -/
theorem FlatAll.exists_of_append {before after : List String} (h : types.FlatAll (before ++ after) gathered) :
    ∃ first rest, types.FlatAll before first ∧ gathered = first ++ rest := by
  induction before generalizing gathered with
  | nil => exact ⟨[], gathered, .nil, rfl⟩
  | cons name before ih =>
    cases h with
    | cons hfirst hrest =>
      obtain ⟨first, rest, hbefore, rfl⟩ := ih hrest
      exact ⟨_, rest, .cons hfirst hbefore, (List.append_assoc ..).symm⟩

/-- Each of some types passes on a part of the properties. -/
theorem FlatAll.exists_of_mem (h : types.FlatAll names gathered) (hname : name ∈ names) :
    ∃ first, types.Flat name first ∧ first.Sublist gathered := by
  induction names generalizing gathered with
  | nil => cases hname
  | cons other names ih =>
    cases h with
    | cons hother hrest =>
      rcases List.mem_cons.1 hname with rfl | hname
      · exact ⟨_, hother, List.sublist_append_left ..⟩
      · obtain ⟨first, hfirst, hsub⟩ := ih hrest hname
        exact ⟨first, hfirst, hsub.trans (List.sublist_append_right ..)⟩

end

end Registry

theorem Properties.AreDistinct.sublist {properties all : Properties} (h : AreDistinct all)
    (hsub : properties.Sublist all) : properties.AreDistinct := List.Nodup.sublist (hsub.map _) h

namespace Registry

variable {types : Registry} {name : String} {names : List String} {gathered properties own : Properties}
  {code : ErrorCode}

/-! ### What passes on properties and what cannot -/

theorem Clashes.not_areDistinct (h : types.Clashes names own) (hall : types.FlatAll names gathered) :
    ¬ (gathered ++ own).AreDistinct := by
  intro hdistinct
  rcases h with ⟨before, after, first, rfl, hbefore, hclash⟩ | ⟨gathered', hall', hclash⟩
  · obtain ⟨first', rest, hfirst', rfl⟩ := hall.exists_of_append
    obtain rfl := hfirst'.unique hbefore
    rw [List.append_assoc] at hdistinct
    exact hclash (hdistinct.sublist (List.sublist_append_left ..))
  · obtain rfl := hall.unique hall'
    exact hclash hdistinct

theorem CannotPassOn.not_areDistinct (h : types.CannotPassOn name code) (hflat : types.Flat name properties) :
    ¬ properties.AreDistinct := by
  induction h generalizing properties with
  | unregistered hroot =>
    cases hflat with
    | intro hroot' => exact nomatch hroot.symm.trans hroot'
  | notObject hroot hnot =>
    cases hflat with
    | intro hroot' => exact (hnot _ _ (Option.some.inj (hroot.symm.trans hroot'))).elim
  | cyclic hround => exact (hflat.acc.not_transGen hround).elim
  | clash hroot h =>
    cases hflat with
    | intro hroot' hall =>
      obtain ⟨rfl, rfl⟩ := Node.object.inj (Option.some.inj (hroot.symm.trans hroot'))
      exact h.not_areDistinct hall
  | parent hextends _ ih =>
    obtain ⟨header, own, hroot, hparent⟩ := hextends
    cases hflat with
    | intro hroot' hall =>
      obtain ⟨rfl, rfl⟩ := Node.object.inj (Option.some.inj (hroot.symm.trans hroot'))
      obtain ⟨first, hfirst, hsub⟩ := hall.exists_of_mem hparent
      exact fun hdistinct => ih hfirst (hdistinct.sublist (hsub.trans (List.sublist_append_left ..)))

theorem CannotInherit.not_areDistinct (h : types.CannotInherit names own code)
    (hall : types.FlatAll names gathered) : ¬ (gathered ++ own).AreDistinct := by
  rcases h with ⟨name, hname, h⟩ | ⟨-, h⟩
  · obtain ⟨first, hfirst, hsub⟩ := hall.exists_of_mem hname
    exact fun hdistinct => h.not_areDistinct hfirst (hdistinct.sublist (hsub.trans (List.sublist_append_left ..)))
  · exact h.not_areDistinct hall

end Registry

/-! ## Gathering properties -/

theorem Properties.code_of_add_eq_error {properties : Properties} {p : PropertyKey × Node} {blamed : Mark}
    {problem : Problem} (h : properties.add p blamed = .error problem) : problem.code = .allOfDuplicateKey := by
  unfold add at h
  split at h
  · obtain rfl := Except.error.inj h
    rfl
  · cases h

/-- Properties are added one after another, unless two of them share a name. -/
theorem Properties.foldlM_add_meets {properties added : Properties} (h : properties.AreDistinct)
    (blamed : PropertyKey × Node → Mark) :
    (added.foldlM (fun (properties : Properties) p => properties.add p (blamed p)) properties).Meets
      (fun all => all = properties ++ added ∧ (properties ++ added).AreDistinct)
      fun problem => problem.code = .allOfDuplicateKey ∧ ¬ (properties ++ added).AreDistinct := by
  cases hall : added.foldlM (fun (properties : Properties) p => properties.add p (blamed p)) properties with
  | ok all => exact (foldlM_add_eq_ok_iff h blamed).1 hall
  | error problem =>
    refine ⟨?_, fun hdistinct => ?_⟩
    · have hcode : (added.foldlM (fun (properties : Properties) p => properties.add p (blamed p)) properties).FailsOnly
          fun problem => problem.code = .allOfDuplicateKey :=
        Except.FailsOnly.foldlM fun properties p _ => by
          cases hadd : properties.add p (blamed p) with
          | ok => trivial
          | error => exact code_of_add_eq_error hadd
      exact hcode.of_error hall
    · exact nomatch hall.symm.trans ((foldlM_add_eq_ok_iff h blamed).2 ⟨rfl, hdistinct⟩)

section

variable {types part : Registry} {entered names : List String} {name : String}

/-- **Gathering from one type after another**, given what each of them passes on. -/
theorem gather_meets {passOn : String → Outcome Properties} (blamed : PropertyKey × Node → Mark)
    (h : ∀ name ∈ names, (passOn name).Meets
      (fun properties => types.Flat name properties ∧ properties.AreDistinct) fun p => types.CannotPassOn name p.code) :
    (names.foldlM (fun (gathered : Properties) name => do
      let added ← passOn name
      added.foldlM (fun (gathered : Properties) p => gathered.add p (blamed p)) gathered) []).Meets
      (fun gathered => types.FlatAll names gathered ∧ gathered.AreDistinct)
      fun p => ∀ own, types.CannotInherit names own p.code := by
  -- what has been gathered is what the types passed on that came before
  suffices hrest : ∀ (after before : List String) (gathered : Properties), names = before ++ after →
      types.FlatAll before gathered → gathered.AreDistinct →
      (after.foldlM (fun (gathered : Properties) name => do
        let added ← passOn name
        added.foldlM (fun (gathered : Properties) p => gathered.add p (blamed p)) gathered) gathered).Meets
        (fun gathered => types.FlatAll names gathered ∧ gathered.AreDistinct)
        fun p => ∀ own, types.CannotInherit names own p.code from
    hrest names [] [] rfl .nil List.nodup_nil
  intro after
  induction after with
  | nil =>
    rintro before gathered rfl hflat hdistinct
    rw [List.append_nil]
    exact ⟨hflat, hdistinct⟩
  | cons name after ih =>
    intro before gathered hnames hflat hdistinct
    have hname : name ∈ names := by simp [hnames]
    rw [List.append_cons] at hnames
    rw [List.foldlM_cons]
    have hstep : (do
        let added ← passOn name
        added.foldlM (fun (gathered : Properties) p => gathered.add p (blamed p)) gathered).Meets
        (fun gathered => types.FlatAll (before ++ [name]) gathered ∧ gathered.AreDistinct)
        fun p => ∀ own, types.CannotInherit names own p.code := by
      refine Except.Meets.bind ((h name hname).imp (fun _ hadded => hadded) fun p hp own =>
        Or.inl ⟨name, hname, hp⟩) fun added ⟨hadded, _⟩ => ?_
      refine (Properties.foldlM_add_meets hdistinct blamed).imp ?_ ?_
      · rintro _ ⟨rfl, hall⟩
        exact ⟨hflat.concat hadded, hall⟩
      · rintro p ⟨hcode, hclash⟩ own
        exact Or.inr ⟨hcode, Or.inl ⟨_, after, _, hnames, hflat.concat hadded, hclash⟩⟩
    exact hstep.bind fun gathered' ⟨hflat', hdistinct'⟩ => ih _ _ hnames hflat' hdistinct'

theorem Registry.CannotInherit.cannotPassOn {header : Header} {own : Properties} {code : ErrorCode}
    (h : types.CannotInherit header.allOfNames (Properties.inherited own) code)
    (hroot : types.root? name = some (.object header own)) : types.CannotPassOn name code := by
  rcases h with ⟨parent, hparent, h⟩ | ⟨rfl, h⟩
  · exact .parent ⟨header, own, hroot, hparent⟩ h
  · exact .clash hroot h

/-- **What a type passes on, or what keeps it from that**, `entered` being types on the way to it. -/
theorem passedOn_meets_flat (hpart : ∀ other ∉ entered, part.root? other = types.root? other)
    (hentered : ∀ other ∈ entered, Relation.TransGen types.Extends other name) :
    (passedOn part entered name).Meets
      (fun properties => types.Flat name properties ∧ properties.AreDistinct)
      fun p => types.CannotPassOn name p.code := by
  induction part, entered, name using passedOn.induct with
  | case1 part entered name hname =>
    rw [passedOn_of_entered hname]
    exact .cyclic (hentered name (by simpa using hname))
  | case2 part entered name hname hroot =>
    rw [passedOn_of_none hname hroot]
    rw [hpart name (by simpa using hname)] at hroot
    exact .unregistered hroot
  | case3 part entered name hname header own hroot ih =>
    rw [passedOn_of_object hname hroot]
    rw [hpart name (by simpa using hname)] at hroot
    have hparents : ∀ parent ∈ header.allOfNames, (passedOn (part.without name) (entered ++ [name]) parent).Meets
        (fun properties => types.Flat parent properties ∧ properties.AreDistinct)
        fun p => types.CannotPassOn parent p.code := by
      intro parent hparent
      have hstep : types.Extends name parent := ⟨header, own, hroot, hparent⟩
      refine ih parent (fun _ => root?_without_of_notMem hpart) fun other hother => ?_
      rcases List.mem_append.1 hother with hother | hother
      · exact (hentered other hother).tail hstep
      · rw [List.mem_singleton.1 hother]
        exact .single hstep
    refine Except.Meets.bind ((gather_meets (fun p => p.1.mark) hparents).imp (fun _ h => h)
      fun p hp => (hp _).cannotPassOn hroot) fun gathered hgathered => ?_
    obtain ⟨hflat, hdistinct⟩ := hgathered
    refine (Properties.foldlM_add_meets hdistinct fun p => p.1.mark).imp ?_ ?_
    · rintro _ ⟨rfl, hall⟩
      exact ⟨.intro hroot hflat, hall⟩
    · rintro p ⟨hcode, hclash⟩
      have h : types.CannotInherit header.allOfNames (Properties.inherited own) p.code :=
        Or.inr ⟨hcode, Or.inr ⟨gathered, hflat, hclash⟩⟩
      exact h.cannotPassOn hroot
  | case4 part entered name hname root hnot hroot =>
    rw [passedOn_of_not_object hname hroot hnot]
    rw [hpart name (by simpa using hname)] at hroot
    exact .notObject hroot fun header properties h => hnot header properties h

/-- **What a type passes on is flat**, and no two of the properties share a name. -/
theorem passedOn_eq_ok_iff {properties : Properties} :
    passedOn types [] name = .ok properties ↔ types.Flat name properties ∧ properties.AreDistinct := by
  have hmeets : (passedOn types [] name).Meets
      (fun properties => types.Flat name properties ∧ properties.AreDistinct)
      fun p => types.CannotPassOn name p.code := passedOn_meets_flat (fun _ _ => rfl) (List.forall_mem_nil _)
  refine ⟨hmeets.of_ok, fun ⟨hflat, hdistinct⟩ => ?_⟩
  cases h : passedOn types [] name with
  | ok others => rw [(hmeets.of_ok h).1.unique hflat]
  | error p => exact ((hmeets.of_error h).not_areDistinct hflat hdistinct).elim

end

namespace Properties

/-- The properties that an object has of its own. -/
def own (properties : Properties) : Properties := properties.filter fun p => !p.1.isInherited

end Properties

namespace Node

variable {types : Registry} {header : Header} {properties : Properties} {node whole : Node}

theorem inherit_meets_flat (hrule : header.rules.has .allOf = true) :
    ((object header properties).inherit types).Meets
      (fun whole => ∃ gathered, types.FlatAll header.allOfNames gathered ∧
        (gathered ++ properties.own).AreDistinct ∧ whole = object header (gathered ++ properties.own))
      fun p => types.CannotInherit header.allOfNames properties.own p.code := by
  rw [inherit, if_pos hrule]
  have hparents : ∀ parent ∈ header.allOfNames,
      (Outcome.orOn (passedOn types [] parent) ((header.rules.mark? .allOf).getD header.basis)).Meets
        (fun properties => types.Flat parent properties ∧ properties.AreDistinct)
        fun p => types.CannotPassOn parent p.code := fun parent _ =>
    (passedOn_meets_flat (fun _ _ => rfl) (List.forall_mem_nil _)).mapError fun _ h => h
  refine Except.Meets.bind ((gather_meets _ hparents).imp (fun _ h => h) fun p hp => hp (Properties.own properties))
    fun gathered hgathered => ?_
  obtain ⟨hflat, hdistinct⟩ := hgathered
  refine Except.Meets.bind ((Properties.foldlM_add_meets hdistinct fun p => p.1.mark).imp (fun _ h => h) ?_) ?_
  · rintro p ⟨hcode, hclash⟩
    exact Or.inr ⟨hcode, Or.inr ⟨gathered, hflat, hclash⟩⟩
  · rintro _ ⟨rfl, hall⟩
    exact ⟨gathered, hflat, hall, rfl⟩

/-- **What an object has once it has inherited.** -/
theorem inherit_eq_ok_iff (hrule : header.rules.has .allOf = true) :
    (object header properties).inherit types = .ok whole ↔ ∃ gathered,
      types.FlatAll header.allOfNames gathered ∧ (gathered ++ properties.own).AreDistinct ∧
      whole = object header (gathered ++ properties.own) := by
  refine ⟨(inherit_meets_flat hrule).of_ok, ?_⟩
  rintro ⟨gathered, hflat, hdistinct, rfl⟩
  cases h : (object header properties).inherit types with
  | ok others =>
    obtain ⟨gathered', hflat', -, rfl⟩ := (inherit_meets_flat hrule).of_ok h
    rw [hflat'.unique hflat]
  | error p => exact (((inherit_meets_flat hrule).of_error h).not_areDistinct hflat hdistinct).elim

/-- An object that does not inherit is as it was. -/
theorem inherit_of_not_has (hrule : header.rules.has .allOf = false) :
    (object header properties).inherit types = .ok (object header properties) := by
  rw [inherit, if_neg (by simp [hrule])]

/-- A node that can not inherit is an object with an `allOf` rule, and something keeps it from inheriting. -/
theorem exists_of_inherit_eq_error {p : Problem} (h : node.inherit types = .error p) :
    ∃ (header : Header) (properties : Properties), node = object header properties ∧
      header.rules.has .allOf = true ∧ types.CannotInherit header.allOfNames properties.own p.code := by
  cases node with
  | object header properties =>
    cases hrule : header.rules.has .allOf with
    | true => exact ⟨header, properties, rfl, hrule, (inherit_meets_flat hrule).of_error h⟩
    | false => exact nomatch (inherit_of_not_has hrule).symm.trans h
  | literal | array | mixed | reference => cases h

end Node
/-! ## Whole trees -/

namespace Registry

mutual
/-- **What a node is expanded to.**  An object with an `allOf` rule has the properties that the types it names pass
on and then its own, under distinct names, each expanded.  Of all other nodes, the parts are expanded. -/
inductive Expanded (types : Registry) : Node → Node → Prop where
  | inheriting {header : Header} {properties gathered whole : Properties} (hrule : header.rules.has .allOf = true)
      (hflat : types.FlatAll header.allOfNames gathered) (hdistinct : (gathered ++ properties.own).AreDistinct)
      (hparts : ExpandedProperties types (gathered ++ properties.own) whole) :
      Expanded types (.object header properties) (.object header whole)
  | object {header : Header} {properties whole : Properties} (hrule : header.rules.has .allOf = false)
      (hparts : ExpandedProperties types properties whole) :
      Expanded types (.object header properties) (.object header whole)
  | array {header : Header} {items whole : List Node} (hparts : ExpandedItems types items whole) :
      Expanded types (.array header items) (.array header whole)
  | literal {header : Header} {sample? : Option Mark} :
      Expanded types (.literal header sample?) (.literal header sample?)
  | mixed {header : Header} {sample? : Option Mark} :
      Expanded types (.mixed header sample?) (.mixed header sample?)
  | reference {header : Header} {names : List String} :
      Expanded types (.reference header names) (.reference header names)

/-- What properties are expanded to: their nodes are, and their keys stay. -/
inductive ExpandedProperties (types : Registry) : Properties → Properties → Prop where
  | nil : ExpandedProperties types [] []
  | cons {key : PropertyKey} {node whole : Node} {rest others : Properties} (h : Expanded types node whole)
      (hrest : ExpandedProperties types rest others) :
      ExpandedProperties types ((key, node) :: rest) ((key, whole) :: others)

/-- What items are expanded to. -/
inductive ExpandedItems (types : Registry) : List Node → List Node → Prop where
  | nil : ExpandedItems types [] []
  | cons {node whole : Node} {rest others : List Node} (h : Expanded types node whole)
      (hrest : ExpandedItems types rest others) : ExpandedItems types (node :: rest) (whole :: others)
end

end Registry

namespace Node

variable {types : Registry} {levels more : Nat} {node whole : Node}

/-- More levels change nothing about what a walk ends with. -/
theorem expand_eq_ok_of_le (hle : levels ≤ more) (h : node.expand types levels = .ok whole) :
    node.expand types more = .ok whole := by
  induction levels generalizing node whole more with
  | zero => cases h
  | succ levels ih =>
    obtain ⟨more, rfl⟩ := Nat.exists_eq_add_of_le' (Nat.lt_of_lt_of_le (Nat.succ_pos _) hle)
    rw [expand_succ] at h ⊢
    obtain ⟨middle, hmiddle, h⟩ := Except.bind_eq_ok_iff.1 h
    obtain ⟨children, hchildren, h⟩ := Except.bind_eq_ok_iff.1 h
    have hmore := Except.mapM_eq_ok_of_imp (fun child _ _ => ih (Nat.le_of_succ_le_succ hle)) hchildren
    exact Except.bind_eq_ok_iff.2 ⟨middle, hmiddle, Except.bind_eq_ok_iff.2 ⟨children, hmore, h⟩⟩

/-- Expanding the nodes of properties. -/
def expandProperties (types : Registry) (levels : Nat) (properties : Properties) : Outcome Properties :=
  properties.mapM fun (key, node) => do return (key, ← Node.expand types levels node)

theorem expandProperties_cons_eq_ok_iff {key : PropertyKey} {rest others : Properties} :
    expandProperties types levels ((key, node) :: rest) = .ok others ↔ ∃ whole more,
      node.expand types levels = .ok whole ∧ expandProperties types levels rest = .ok more ∧
      (key, whole) :: more = others := by
  rw [expandProperties, Except.mapM_cons_eq_ok_iff]
  simp only [Except.bind_pure_eq_ok_iff]
  constructor
  · rintro ⟨_, more, ⟨whole, hwhole, rfl⟩, hmore, h⟩
    exact ⟨whole, more, hwhole, hmore, h⟩
  · rintro ⟨whole, more, hwhole, hmore, h⟩
    exact ⟨_, more, ⟨whole, hwhole, rfl⟩, hmore, h⟩

/-- An object that has inherited is an object with the same header. -/
theorem exists_of_inherit_object_eq_ok {header : Header} {properties : Properties}
    (h : (object header properties).inherit types = .ok whole) : ∃ all, whole = object header all := by
  cases hrule : header.rules.has .allOf with
  | true =>
    obtain ⟨gathered, -, -, rfl⟩ := (inherit_eq_ok_iff hrule).1 h
    exact ⟨_, rfl⟩
  | false => exact ⟨properties, (Except.ok.inj ((inherit_of_not_has hrule).symm.trans h)).symm⟩

/-- One level of a walk at an object. -/
theorem expand_object_eq_ok_iff {header : Header} {properties : Properties} :
    (object header properties).expand types (levels + 1) = .ok whole ↔
      ∃ all others, (object header properties).inherit types = .ok (object header all) ∧
        expandProperties types levels all = .ok others ∧ object header others = whole := by
  rw [expand, Except.bind_eq_ok_iff]
  constructor
  · rintro ⟨middle, hmiddle, h⟩
    obtain ⟨all, rfl⟩ := exists_of_inherit_object_eq_ok hmiddle
    obtain ⟨others, hothers, h⟩ := Except.bind_pure_eq_ok_iff.1 h
    exact ⟨all, others, hmiddle, hothers, h⟩
  · rintro ⟨all, others, hall, hothers, h⟩
    exact ⟨_, hall, Except.bind_pure_eq_ok_iff.2 ⟨others, hothers, h⟩⟩

theorem expand_array_eq_ok_iff {header : Header} {items : List Node} :
    (array header items).expand types (levels + 1) = .ok whole ↔
      ∃ others, items.mapM (Node.expand types levels) = .ok others ∧ array header others = whole := by
  rw [expand, show (array header items).inherit types = .ok (array header items) from rfl, Except.ok_bind]
  exact Except.bind_pure_eq_ok_iff

end Node

/-- What an object is expanded to: it inherits, and the properties are expanded. -/
theorem Registry.expanded_object_iff {types : Registry} {header : Header} {properties : Properties} {whole : Node} :
    types.Expanded (.object header properties) whole ↔
      ∃ all others, (Node.object header properties).inherit types = .ok (.object header all) ∧
        types.ExpandedProperties all others ∧ Node.object header others = whole := by
  constructor
  · intro h
    cases h with
    | inheriting hrule hflat hdistinct hparts =>
      exact ⟨_, _, (Node.inherit_eq_ok_iff hrule).2 ⟨_, hflat, hdistinct, rfl⟩, hparts, rfl⟩
    | object hrule hparts => exact ⟨_, _, Node.inherit_of_not_has hrule, hparts, rfl⟩
  · rintro ⟨all, others, hall, hparts, rfl⟩
    cases hrule : header.rules.has .allOf with
    | true =>
      obtain ⟨gathered, hflat, hdistinct, hall⟩ := (Node.inherit_eq_ok_iff hrule).1 hall
      obtain ⟨-, rfl⟩ := Node.object.inj hall
      exact .inheriting hrule hflat hdistinct hparts
    | false =>
      obtain ⟨-, rfl⟩ := Node.object.inj (Except.ok.inj ((Node.inherit_of_not_has hrule).symm.trans hall))
      exact .object hrule hparts

namespace Node

variable {types : Registry} {levels : Nat} {node whole : Node}

theorem expandedProperties_of_eq_ok {properties others : Properties}
    (hexpanded : ∀ node whole, node.expand types levels = .ok whole → types.Expanded node whole)
    (h : expandProperties types levels properties = .ok others) : types.ExpandedProperties properties others := by
  induction properties generalizing others with
  | nil =>
    obtain rfl := Except.ok.inj h
    exact .nil
  | cons p rest ih =>
    obtain ⟨whole, more, hwhole, hmore, rfl⟩ := expandProperties_cons_eq_ok_iff.1 h
    exact .cons (hexpanded _ _ hwhole) (ih hmore)

theorem expandedItems_of_mapM {items others : List Node}
    (hexpanded : ∀ node whole, node.expand types levels = .ok whole → types.Expanded node whole)
    (h : items.mapM (Node.expand types levels) = .ok others) : types.ExpandedItems items others := by
  induction items generalizing others with
  | nil =>
    obtain rfl := Except.ok.inj h
    exact .nil
  | cons item rest ih =>
    obtain ⟨whole, more, hwhole, hmore, rfl⟩ := Except.mapM_cons_eq_ok_iff.1 h
    exact .cons (hexpanded _ _ hwhole) (ih hmore)

/-- **A walk that ends well expands its node.** -/
theorem expanded_of_expand_eq_ok (h : node.expand types levels = .ok whole) : types.Expanded node whole := by
  induction levels generalizing node whole with
  | zero => cases h
  | succ levels ih =>
    cases node with
    | object header properties =>
      obtain ⟨all, others, hall, hothers, rfl⟩ := expand_object_eq_ok_iff.1 h
      exact Registry.expanded_object_iff.2 ⟨all, others, hall, expandedProperties_of_eq_ok (fun _ _ => ih) hothers, rfl⟩
    | array header items =>
      obtain ⟨others, hothers, rfl⟩ := expand_array_eq_ok_iff.1 h
      exact .array (expandedItems_of_mapM (fun _ _ => ih) hothers)
    | literal =>
      obtain rfl := Except.ok.inj h
      exact .literal
    | mixed =>
      obtain rfl := Except.ok.inj h
      exact .mixed
    | reference =>
      obtain rfl := Except.ok.inj h
      exact .reference

theorem expandProperties_eq_ok_of_le {levels more : Nat} {properties others : Properties} (hle : levels ≤ more)
    (h : expandProperties types levels properties = .ok others) :
    expandProperties types more properties = .ok others := by
  refine Except.mapM_eq_ok_of_imp (fun p _ q hq => ?_) h
  obtain ⟨whole, hwhole, rfl⟩ := Except.bind_pure_eq_ok_iff.1 hq
  exact Except.bind_pure_eq_ok_iff.2 ⟨whole, expand_eq_ok_of_le hle hwhole, rfl⟩

end Node

mutual
/-- **What has an expansion is walked well**, over enough levels. -/
theorem Registry.Expanded.exists_expand {types : Registry} : ∀ {node whole : Node}, types.Expanded node whole →
    ∃ levels, node.expand types levels = .ok whole
  | _, _, .inheriting hrule hflat hdistinct hparts => by
    obtain ⟨levels, hlevels⟩ := hparts.exists_expandProperties
    exact ⟨levels + 1, Node.expand_object_eq_ok_iff.2
      ⟨_, _, (Node.inherit_eq_ok_iff hrule).2 ⟨_, hflat, hdistinct, rfl⟩, hlevels, rfl⟩⟩
  | _, _, .object hrule hparts => by
    obtain ⟨levels, hlevels⟩ := hparts.exists_expandProperties
    exact ⟨levels + 1, Node.expand_object_eq_ok_iff.2 ⟨_, _, Node.inherit_of_not_has hrule, hlevels, rfl⟩⟩
  | _, _, .array hparts => by
    obtain ⟨levels, hlevels⟩ := hparts.exists_mapM
    exact ⟨levels + 1, Node.expand_array_eq_ok_iff.2 ⟨_, hlevels, rfl⟩⟩
  | _, _, .literal | _, _, .mixed | _, _, .reference => ⟨1, rfl⟩

theorem Registry.ExpandedProperties.exists_expandProperties {types : Registry} : ∀ {properties others : Properties},
    types.ExpandedProperties properties others →
    ∃ levels, Node.expandProperties types levels properties = .ok others
  | _, _, .nil => ⟨0, rfl⟩
  | _, _, .cons h hrest => by
    obtain ⟨levels, hlevels⟩ := h.exists_expand
    obtain ⟨more, hmore⟩ := hrest.exists_expandProperties
    exact ⟨max levels more, Node.expandProperties_cons_eq_ok_iff.2
      ⟨_, _, Node.expand_eq_ok_of_le (Nat.le_max_left ..) hlevels,
        Node.expandProperties_eq_ok_of_le (Nat.le_max_right ..) hmore, rfl⟩⟩

theorem Registry.ExpandedItems.exists_mapM {types : Registry} : ∀ {items others : List Node},
    types.ExpandedItems items others → ∃ levels, items.mapM (Node.expand types levels) = .ok others
  | _, _, .nil => ⟨0, rfl⟩
  | _, _, .cons h hrest => by
    obtain ⟨levels, hlevels⟩ := h.exists_expand
    obtain ⟨more, hmore⟩ := hrest.exists_mapM
    exact ⟨max levels more, Except.mapM_cons_eq_ok_iff.2
      ⟨_, _, Node.expand_eq_ok_of_le (Nat.le_max_left ..) hlevels,
        Except.mapM_eq_ok_of_imp (fun _ _ _ => Node.expand_eq_ok_of_le (Nat.le_max_right ..)) hmore, rfl⟩⟩
end

/-! ## Whole schemas -/

namespace Schema

/-- **What a schema is expanded to**: its tree and the trees of its types are, and nothing else changes. -/
structure IsExpandedTo (schema whole : Schema) : Prop where
  root : schema.types.Expanded schema.root whole.root
  types : List.Forall₂ (fun old new => new.1 = old.1 ∧ new.2.source = old.2.source ∧ new.2.start = old.2.start ∧
    schema.types.Expanded old.2.root new.2.root) schema.types whole.types

/-- A tree of a schema that is expanded at all is expanded over the levels that the schema allows. -/
theorem expand_root_eq_ok_iff {schema : Schema} {root whole : Node} (hroot : root ∈ schema.roots) :
    root.expand schema.types (schema.nodeCount + 1) = .ok whole ↔ schema.types.Expanded root whole := by
  refine ⟨Node.expanded_of_expand_eq_ok, fun h => ?_⟩
  obtain ⟨levels, hlevels⟩ := h.exists_expand
  have hexpands : root.Expands schema.types := ⟨levels, whole, hlevels⟩
  rcases hexpands.eq_ok_or_isCutOff (schema.nodeCount + 1) with ⟨other, hother⟩ | hcut
  · have hsame := Node.expand_eq_ok_of_le (Nat.le_max_left levels (schema.nodeCount + 1)) hlevels
    rw [Node.expand_eq_ok_of_le (Nat.le_max_right ..) hother] at hsame
    rw [hother, Except.ok.inj hsame]
  · -- what is cut off here comes back to a node, and so is cut off everywhere
    obtain ⟨node, hreach, hback⟩ := comesBack_of_isCutOff (mem_nodes_of_mem_roots hroot) hcut
    obtain ⟨walk, rfl, hwalk⟩ := Node.exists_endless_of_comesBack hreach hback
    obtain ⟨mark, hmark⟩ := Node.isCutOff_of_endless hwalk levels
    exact nomatch hlevels.symm.trans hmark

/-- Changing the trees of types changes nothing else of them. -/
theorem mapM_mapRoot_eq_ok_iff {types others : Registry} {change : Node → Outcome Node} {R : Node → Node → Prop}
    (hR : ∀ e ∈ types, ∀ new, change e.2.root = .ok new ↔ R e.2.root new) :
    (types.mapM fun (name, entry) => do return (name, ← TypeEntry.mapRoot change entry)) = .ok others ↔
      List.Forall₂ (fun old new => new.1 = old.1 ∧ new.2.source = old.2.source ∧ new.2.start = old.2.start ∧
        R old.2.root new.2.root) types others := by
  induction types generalizing others with
  | nil => exact ⟨fun h => Except.ok.inj h ▸ .nil, fun h => by cases h; rfl⟩
  | cons e rest ih =>
    obtain ⟨he, hrest⟩ := List.forall_mem_cons.1 hR
    rw [Except.mapM_cons_eq_ok_iff, List.forall₂_cons_left_iff]
    refine exists_congr fun new => exists_congr fun news => ?_
    rw [ih hrest, ← and_assoc, ← and_assoc, @eq_comm _ _ others]
    refine and_congr_left' (and_congr_left' ?_)
    simp only [TypeEntry.mapRoot, Except.bind_pure_eq_ok_iff, ← he]
    constructor
    · rintro ⟨_, ⟨root, hroot, rfl⟩, rfl⟩
      exact ⟨rfl, rfl, rfl, hroot⟩
    · obtain ⟨name, entry⟩ := new
      rintro ⟨rfl, hsource, hstart, hroot⟩
      exact ⟨_, ⟨_, hroot, rfl⟩, by rw [← hsource, ← hstart]⟩

/-- **A schema is expanded to what the recursive notion says**, and to nothing else. -/
theorem expand_eq_ok_iff_isExpandedTo {schema whole : Schema} :
    schema.expand = .ok whole ↔ schema.IsExpandedTo whole := by
  have hroot : ∀ new, schema.root.expand schema.types (schema.nodeCount + 1) = .ok new ↔
      schema.types.Expanded schema.root new := fun _ => expand_root_eq_ok_iff (List.mem_cons_self ..)
  have hchange : ∀ e ∈ schema.types, ∀ new, e.2.root.expand schema.types (schema.nodeCount + 1) = .ok new ↔
      schema.types.Expanded e.2.root new := fun _ he _ => expand_root_eq_ok_iff (mem_roots_of_mem_types he)
  rw [expand, mapRoots]
  constructor
  · intro h
    obtain ⟨root, hnew, h⟩ := Except.bind_eq_ok_iff.1 h
    obtain ⟨types, htypes, rfl⟩ := Except.bind_pure_eq_ok_iff.1 h
    exact ⟨(hroot root).1 hnew, (mapM_mapRoot_eq_ok_iff hchange).1 htypes⟩
  · rintro ⟨hnew, htypes⟩
    refine Except.bind_eq_ok_iff.2 ⟨_, (hroot _).2 hnew, Except.bind_pure_eq_ok_iff.2 ⟨_, ?_, rfl⟩⟩
    exact (mapM_mapRoot_eq_ok_iff hchange).2 htypes

/-- **Where a walk fails**, it has come to an object that can not inherit, or is cut off. -/
theorem exists_of_expand_node_eq_error {types : Registry} {levels : Nat} {node : Node} {p : Problem}
    (h : node.expand types levels = .error p) : (node.expand types levels).IsCutOff ∨
      ∃ last, Relation.ReflTransGen (Node.LeadsTo types) node last ∧ last.inherit types = .error p := by
  induction levels generalizing node with
  | zero => exact Or.inl (Node.isCutOff_expand_zero types node)
  | succ levels ih =>
    rcases Node.expand_succ_eq_error_iff.1 h with
      hinherit | ⟨whole, before, child, after, hwhole, hsplit, hbefore, hchild⟩
    · exact Or.inr ⟨node, .refl, hinherit⟩
    · have hstep : node.LeadsTo types child := ⟨whole, before, after, hwhole, hsplit, fun c hc => ⟨levels, hbefore c hc⟩⟩
      rcases ih hchild with hcut | ⟨last, hlast, hinherit⟩
      · exact Or.inl (hstep.isCutOff hcut)
      · exact Or.inr ⟨last, .head hstep hlast, hinherit⟩

/-- **What expanding a schema comes to.**  If it ends well, then each object with an `allOf` rule has the properties
that the types it names pass on and then its own, and this is the only schema of the kind.  If it fails, then it has
come to an object with an `allOf` rule that can not inherit: it names, or one of its parents does, what is not
registered or not an object, or the parents lead back to themselves, or two of the properties share a name.  There
is no other outcome, except that it never ends. -/
theorem expand_isExpandedTo (schema : Schema) :
    (∀ whole, schema.expand = .ok whole ↔ schema.IsExpandedTo whole) ∧
    ∀ p, schema.expand = .error p → schema.IsEndless ∨
      ∃ (header : Header) (properties : Properties), schema.ComesTo (.object header properties) ∧
        header.rules.has .allOf = true ∧ schema.types.CannotInherit header.allOfNames properties.own p.code := by
  refine ⟨fun whole => expand_eq_ok_iff_isExpandedTo, fun p h => ?_⟩
  obtain ⟨before, root, after, hsplit, hbefore, hroot⟩ := mapRoots_eq_error_iff.1 h
  rcases exists_of_expand_node_eq_error hroot with ⟨mark, hmark⟩ | ⟨node, hreach, hinherit⟩
  · have hcut : schema.expand.IsCutOff := ⟨mark, h.trans (congrArg _ (Except.error.inj (hroot.symm.trans hmark)))⟩
    exact Or.inl (comesBack_of_isCutOff_expand hcut).isEndless
  · obtain ⟨header, properties, rfl, hrule, hcannot⟩ := Node.exists_of_inherit_eq_error hinherit
    exact Or.inr ⟨header, properties, ⟨before, root, after, hsplit, fun r hr => ⟨_, hbefore r hr⟩, hreach⟩, hrule, hcannot⟩

end Schema
end ExampleSchema
