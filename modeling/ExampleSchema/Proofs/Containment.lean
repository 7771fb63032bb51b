import ExampleSchema.Proofs.Outcome
import ExampleSchema.Proofs.Types
import ExampleSchema.Schema.Endless
import Mathlib.Logic.Relation

/-!
# Types that contain others

The search for endless types goes through the types in the order in which they are registered, and from
each along its references.  Whether it finds one depends on neither order: it finds none exactly when
containing is well founded, so that from no type the references can be followed for ever.

* `Registry.Contains`: every value of one type contains a value of another.
* `isGrounded_of_followReferences`, `exists_followReferences_eq_ok`: the search from one type.
* `Registry.checkEndless_eq_ok_iff`: the search from all types.
-/

/-- What can not be followed for ever does not come round. -/
theorem Acc.not_transGen {α : Type} {r : α → α → Prop} {a : α} (h : Acc (fun b a => r a b) a) :
    ¬ Relation.TransGen r a a := by
  intro hround
  have hacc := h.transGen
  induction hacc with
  | intro a _ ih => exact ih a (Relation.transGen_swap.2 hround) h hround

namespace ExampleSchema

/-- Every value of one type contains a value of another. -/
def Registry.Contains (types : Registry) (name target : String) : Prop :=
  ∃ root, types.root? name = some root ∧ target ∈ root.strictReferences.map Prod.fst

/-- The parts that a value of a node has to have, and the node asks of it itself. -/
def Node.requiredParts : Node → List Node
  | .object _ properties =>
    (properties.filter fun p => !(p.1.isShortcut || p.2.isOptional)).map Prod.snd
  | _ => []

theorem strictReferencesOfProperties_eq (properties : Properties) : strictReferencesOfProperties properties =
    (properties.filter fun p => !(p.1.isShortcut || p.2.isOptional)).flatMap fun p => p.2.strictReferences := by
  induction properties with
  | nil => rfl
  | cons p rest ih =>
    rw [strictReferencesOfProperties, ih, List.filter_cons]
    cases p.1.isShortcut || p.2.isOptional <;> simp

/-- A value that is not `null` contains values of the types that its node refers to, and what its required parts
contain. -/
theorem Node.strictReferences_eq (node : Node) : node.strictReferences =
    if node.isNullable then []
    else (node.rules.typeNames.map fun name => (name, node.basis)) ++
      node.requiredParts.flatMap Node.strictReferences := by
  cases node with
  | object header properties =>
    rw [strictReferences, strictReferencesOfProperties_eq, requiredParts, List.flatMap_map]
    rfl
  | literal | array | mixed | reference =>
    simp only [strictReferences, requiredParts, List.flatMap_nil, List.append_nil]
    rfl

/-- From a type, references can not be followed for ever. -/
abbrev Registry.IsGrounded (types : Registry) (name : String) : Prop :=
  Acc (fun target name => types.Contains name target) name

section

variable {types part : Registry} {entered settled : List String} {name : String} {root : Node}
  {blamed? : Option Mark}

theorem isGrounded_of_root? (hroot : types.root? name = some root)
    (h : ∀ target ∈ root.strictReferences.map Prod.fst, types.IsGrounded target) :
    types.IsGrounded name := by
  refine Acc.intro name ?_
  rintro target ⟨root', hroot', htarget⟩
  obtain rfl := Option.some.inj (hroot.symm.trans hroot')
  exact h target htarget

theorem isGrounded_of_root?_eq_none (hroot : types.root? name = none) : types.IsGrounded name :=
  Acc.intro name fun _ ⟨_, hroot', _⟩ => nomatch hroot.symm.trans hroot'

/-! ## The search from one type -/

theorem followReferences_of_settled (hentered : ¬ entered.contains name)
    (hsettled : settled.contains name) :
    followReferences types entered settled name blamed? = .ok settled := by
  rw [followReferences, if_neg hentered, if_pos hsettled]

theorem followReferences_of_none (hentered : ¬ entered.contains name)
    (hsettled : ¬ settled.contains name) (hroot : types.root? name = none) :
    followReferences types entered settled name blamed? = .ok settled := by
  rw [followReferences, if_neg hentered, if_neg hsettled]
  split <;> simp_all

theorem followReferences_of_root? (hentered : ¬ entered.contains name)
    (hsettled : ¬ settled.contains name) (hroot : types.root? name = some root) :
    followReferences types entered settled name blamed? = (do
      let settled ← root.strictReferences.foldlM (fun settled (target, mark) =>
        followReferences (types.without name) (entered ++ [name]) settled target (some mark)) settled
      return name :: settled) := by
  rw [followReferences, if_neg hentered, if_neg hsettled]
  split <;> simp_all

/-- What is out of reach once one more type is entered. -/
theorem root?_without_of_notMem (h : ∀ other ∉ entered, part.root? other = types.root? other)
    {other : String} (hother : other ∉ entered ++ [name]) :
    (part.without name).root? other = types.root? other := by
  rw [List.mem_append, List.mem_singleton, not_or] at hother
  rw [Registry.root?_without, if_neg hother.2, h other hother.1]

/-- **What the search settles is grounded**, and so is the type that it started from. -/
theorem isGrounded_of_followReferences (hpart : ∀ other ∉ entered, part.root? other = types.root? other)
    (hsettled : ∀ other ∈ settled, types.IsGrounded other) :
    (followReferences part entered settled name blamed?).Meets
      (fun settled' => types.IsGrounded name ∧ ∀ other ∈ settled', types.IsGrounded other)
      fun _ => True := by
  induction part, entered, settled, name, blamed? using followReferences.induct with
  | case1 part entered settled name blamed? hentered =>
    rw [followReferences, if_pos hentered]
    trivial
  | case2 part entered settled name blamed? hentered hname =>
    rw [followReferences_of_settled hentered hname]
    exact ⟨hsettled name (by simpa using hname), hsettled⟩
  | case3 part entered settled name blamed? hentered hname hroot =>
    rw [followReferences_of_none hentered hname hroot]
    rw [hpart name (by simpa using hentered)] at hroot
    exact ⟨isGrounded_of_root?_eq_none hroot, hsettled⟩
  | case4 part entered settled name blamed? hentered hname root hroot ih =>
    rw [followReferences_of_root? hentered hname hroot]
    rw [hpart name (by simpa using hentered)] at hroot
    refine Except.Meets.bind (Except.Meets.foldlM_forall hsettled
      (P := fun reference => types.IsGrounded reference.1) fun settled hsettled reference _ =>
        ih settled reference.1 reference.2 (fun _ => root?_without_of_notMem hpart) hsettled)
      fun settled' ⟨htargets, hsettled'⟩ => ?_
    have hname : types.IsGrounded name := isGrounded_of_root? hroot (by simpa using htargets)
    exact ⟨hname, List.forall_mem_cons.2 ⟨hname, hsettled'⟩⟩

/-- **From a grounded type the search ends well**: what has been entered does not come again. -/
theorem exists_followReferences_eq_ok
    (hpart : ∀ other ∉ entered, part.root? other = types.root? other)
    (hentered : ∀ other ∈ entered, Relation.TransGen types.Contains other name)
    (h : types.IsGrounded name) :
    ∃ settled', followReferences part entered settled name blamed? = .ok settled' := by
  induction part, entered, settled, name, blamed? using followReferences.induct with
  | case1 part entered settled name blamed? hname =>
    exact (h.not_transGen (hentered name (by simpa using hname))).elim
  | case2 part entered settled name blamed? hname hsettled =>
    exact ⟨settled, followReferences_of_settled hname hsettled⟩
  | case3 part entered settled name blamed? hname hsettled hroot =>
    exact ⟨settled, followReferences_of_none hname hsettled hroot⟩
  | case4 part entered settled name blamed? hname hsettled root hroot ih =>
    rw [followReferences_of_root? hname hsettled hroot]
    rw [hpart name (by simpa using hname)] at hroot
    obtain ⟨settled', hsettled'⟩ := Except.exists_foldlM_eq_ok (l := root.strictReferences)
      (fun settled reference hreference => by
        have hstep : types.Contains name reference.1 := ⟨root, hroot, List.mem_map_of_mem hreference⟩
        refine ih settled reference.1 reference.2 (fun _ => root?_without_of_notMem hpart) ?_
          (h.inv hstep)
        intro other hother
        rcases List.mem_append.1 hother with hother | hother
        · exact (hentered other hother).tail hstep
        · rw [List.mem_singleton.1 hother]
          exact .single hstep) settled
    exact ⟨name :: settled', by rw [hsettled']; rfl⟩

end

/-! ## The search from all types -/

/-- **No type is found to be endless exactly when containing is well founded.** -/
theorem Registry.checkEndless_eq_ok_iff (types : Registry) :
    types.checkEndless = .ok () ↔ ∀ name, types.IsGrounded name := by
  constructor
  · intro h name
    cases hroot : types.root? name with
    | none => exact isGrounded_of_root?_eq_none hroot
    | some root =>
      have hname : name ∈ Catalog.keys types := by
        refine by_contra fun hname => ?_
        rw [Registry.root?, Catalog.find?_eq_none_iff.2 hname] at hroot
        cases hroot
      obtain ⟨settled, hsettled, -⟩ := Except.bind_eq_ok_iff.1 h
      have hsearch : ∀ settled, (∀ other ∈ settled, types.IsGrounded other) →
          ∀ name ∈ Catalog.keys types, (followReferences types [] settled name none).Meets
            (fun settled' => types.IsGrounded name ∧ ∀ other ∈ settled', types.IsGrounded other)
            fun _ => True :=
        fun _ hsettled _ _ => isGrounded_of_followReferences (fun _ _ => rfl) hsettled
      have hall := Except.Meets.foldlM_forall (List.forall_mem_nil types.IsGrounded) hsearch
      exact (hall.of_ok hsettled).1 name hname
  · intro h
    have hsearch : ∀ settled, ∀ name ∈ Catalog.keys types,
        ∃ settled', followReferences types [] settled name none = .ok settled' :=
      fun _ name _ => exists_followReferences_eq_ok (fun _ _ => rfl) (List.forall_mem_nil _) (h name)
    obtain ⟨settled, hsettled⟩ := Except.exists_foldlM_eq_ok hsearch []
    rw [Registry.checkEndless, hsettled]
    rfl

end ExampleSchema
